/-!
# Rounding a quotient

A quotient is rounded to the nearest natural number, and a quotient halfway
between two of them goes to the even one.
-/

namespace SeriesCodec

/-- The natural number nearest to `numerator / denominator`, ties to even. -/
def divHalfEven (numerator denominator : Nat) : Nat :=
  let quotient := numerator / denominator
  let twice := 2 * (numerator % denominator)
  if twice < denominator then quotient
  else if denominator < twice then quotient + 1
  else quotient + quotient % 2

end SeriesCodec
