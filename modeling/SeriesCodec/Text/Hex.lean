/-!
# Hexadecimal numbers
-/

namespace SeriesCodec

namespace Text

def hexChars (number : Nat) : List Char := Nat.toDigits 16 number

/-- The value of a hexadecimal digit of either case. -/
def hexDigit? (char : Char) : Option Nat :=
  if '0' ≤ char && char ≤ '9' then some (char.toNat - '0'.toNat)
  else if 'a' ≤ char && char ≤ 'f' then some (char.toNat - 'a'.toNat + 10)
  else if 'A' ≤ char && char ≤ 'F' then some (char.toNat - 'A'.toNat + 10)
  else none

def byteLiteral (byte : UInt8) : String :=
  let digits := hexChars byte.toNat
  "0x" ++ String.ofList (List.replicate (2 - digits.length) '0' ++ digits)

end Text

end SeriesCodec
