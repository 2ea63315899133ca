import SeriesCodec.Decimal.Shortest

/-!
# Real numbers in JSON

A double is written with its shortest digits.  Numbers whose leading digit has
an exponent in a middle range are positional and keep at least one digit behind
the point; all others have one digit before the point and a signed exponent.
-/

namespace SeriesCodec

namespace Json

structure PositionalRange where
  least : Int
  greatest : Int

/-- Numbers from `0.00001` up to below `10 ^ 16` are positional. -/
def positional : PositionalRange := ⟨-5, 15⟩

def fraction (digits : List Char) : List Char :=
  if digits.isEmpty then [] else '.' :: digits

/-- A decimal without an exponent, with at least one digit behind the point. -/
def positionalChars (digits : List Char) (exponent : Int) : List Char :=
  let point := digits.length + exponent
  if 0 ≤ exponent then
    digits ++ List.replicate exponent.toNat '0' ++ ['.', '0']
  else if 0 < point then
    digits.take point.toNat ++ '.' :: digits.drop point.toNat
  else
    '0' :: '.' :: List.replicate (-point).toNat '0' ++ digits

def scientificChars (digits : List Char) (leading : Int) : List Char :=
  digits.take 1 ++ fraction (digits.drop 1) ++
    'e' :: (if leading < 0 then '-' else '+') ::
      Decimal.digitChars leading.natAbs

def decimalChars (decimal : Decimal.Scientific) : List Char :=
  let digits := Decimal.digitChars decimal.digits
  let leading := decimal.leadingExponent
  if positional.least ≤ leading ∧ leading ≤ positional.greatest then
    positionalChars digits decimal.exponent
  else scientificChars digits leading

def realText (number : Binary64) : String :=
  String.ofList
    ((if number.negative then ['-'] else []) ++
      if number.isZero then ['0', '.', '0']
      else decimalChars (Decimal.shortest number))

end Json

end SeriesCodec
