import SeriesCodec.Decimal.Shortest

/-!
# Decimals with fixed places

A number is rounded to a given count of decimal places from its exact value,
ties to an even last digit, and written with all its places.
-/

namespace SeriesCodec

namespace Decimal

/-- A natural number as text with at least `width` digits. -/
def padded (width number : Nat) : String :=
  let digits := digitChars number
  String.ofList (List.replicate (width - digits.length) '0' ++ digits)

def fixed (places : Nat) (number : Binary64) : String :=
  let scaled := divHalfEven (number.numerator * powerOfTen places) number.denominator
  let whole := toString (scaled / powerOfTen places)
  let point := if places = 0 then "" else
    "." ++ padded places (scaled % powerOfTen places)
  (if number.negative then "-" else "") ++ whole ++ point

end Decimal

end SeriesCodec
