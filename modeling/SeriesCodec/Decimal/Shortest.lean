import SeriesCodec.Binary64

/-!
# Shortest decimals

A double is written with the fewest decimal digits that read back as the same
double; among decimals of that length the one nearest to the double is taken,
and of two equally near ones the even one.
-/

namespace SeriesCodec

namespace Decimal

/-- A positive decimal, `digits * 10 ^ exponent`. -/
structure Scientific where
  digits : Nat
  exponent : Int
  deriving DecidableEq, Repr

def powerOfTen (places : Nat) : Nat := Nat.pow 10 places

def digitChars (number : Nat) : List Char := Nat.toDigits 10 number

namespace Scientific

def leadingExponent (decimal : Scientific) : Int :=
  decimal.exponent + (digitChars decimal.digits).length - 1

end Scientific

namespace Shortest

/--
The interval of reals that round to a positive double, over a common
denominator.  Its ends belong to it when the significand is even, because ties
go to the even significand.
-/
structure Interval where
  lower : Nat
  value : Nat
  upper : Nat
  denominator : Nat
  closed : Bool

/--
The interval of a positive double.  In quarter units of its last bit the value
is `4 * significand` and each half gap is two quarters; below the least
significand of a binade the gap is half as wide.
-/
def intervalOf (number : Binary64) : Interval :=
  let shift := number.exponent.toNat
  let narrow := number.significand = Binary64.leastNormal ∧
    Binary64.leastExponent < number.exponent
  { lower := (4 * number.significand - if narrow then 1 else 2) <<< shift
    value := (4 * number.significand) <<< shift
    upper := (4 * number.significand + 2) <<< shift
    denominator := 4 <<< (-number.exponent).toNat
    closed := number.significand % 2 = 0 }

namespace Interval

def contains (interval : Interval) (decimal : Scientific) : Bool :=
  let point := decimal.digits * powerOfTen decimal.exponent.toNat *
    interval.denominator
  let unit := powerOfTen (-decimal.exponent).toNat
  if interval.closed then
    interval.lower * unit ≤ point && point ≤ interval.upper * unit
  else
    interval.lower * unit < point && point < interval.upper * unit

/-- The multiples of `10 ^ exponent` next to the value, and the nearer of them. -/
def neighbours (interval : Interval) (exponent : Int) :
    Nat × Nat × Nat :=
  let numerator := interval.value * powerOfTen (-exponent).toNat
  let denominator := interval.denominator * powerOfTen exponent.toNat
  let below := numerator / denominator
  (below, below + 1, divHalfEven numerator denominator)

/-- The point of the grid of `10 ^ exponent` that lies in the interval, if any. -/
def pointOnGrid? (interval : Interval) (exponent : Int) : Option Scientific :=
  let (below, above, nearest) := interval.neighbours exponent
  if interval.contains ⟨nearest, exponent⟩ then some ⟨nearest, exponent⟩
  else if interval.contains ⟨below, exponent⟩ then some ⟨below, exponent⟩
  else if interval.contains ⟨above, exponent⟩ then some ⟨above, exponent⟩
  else none

/-- The first point on grids that get finer by a factor of ten each time. -/
def firstPoint (interval : Interval) : (grids : Nat) → (exponent : Int) → Scientific
  | 0, exponent => ⟨(interval.neighbours exponent).2.2, exponent⟩
  | grids + 1, exponent =>
      match interval.pointOnGrid? exponent with
      | some decimal => decimal
      | none => firstPoint interval grids (exponent - 1)

def leadingExponent (interval : Interval) : Int :=
  let whole := interval.value / interval.denominator
  if 0 < whole then (digitChars whole).length - 1
  else -((digitChars (interval.denominator / interval.value)).length : Int)

end Interval

/-- A decimal without trailing zeros, by dividing out at most `fuel` of them. -/
def stripZeros : (fuel : Nat) → Scientific → Scientific
  | 0, decimal => decimal
  | fuel + 1, decimal =>
      if decimal.digits % 10 = 0 then
        stripZeros fuel ⟨decimal.digits / 10, decimal.exponent + 1⟩
      else decimal

/-- The number of digits that always suffices for a double. -/
def enoughDigits : Nat := 17

end Shortest

/-- The shortest decimal that reads back as the given positive double. -/
def shortest (number : Binary64) : Scientific :=
  let interval := Shortest.intervalOf number
  let decimal := interval.firstPoint Shortest.enoughDigits
    (interval.leadingExponent + 1)
  Shortest.stripZeros Shortest.enoughDigits decimal

end Decimal

end SeriesCodec
