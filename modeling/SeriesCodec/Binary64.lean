import SeriesCodec.Rounding

/-!
# Double precision numbers

A finite double is a sign, a significand of at most 53 bits and the exponent
of its last bit.  The exponent is at least `-1074`, and a significand of less
than 53 bits occurs with that least exponent only.  Every operation rounds its
exact result once, to the nearest double, ties to an even significand; a
result too large for a finite double is `none`.
-/

namespace SeriesCodec

/-- A finite double: `significand * 2 ^ exponent` with a sign. -/
structure Binary64 where
  negative : Bool
  significand : Nat
  exponent : Int
  deriving DecidableEq, Repr

namespace Binary64

def leastExponent : Int := -1074

def greatestExponent : Int := 971

def leastNormal : Nat := 1 <<< 52

def zero (negative : Bool) : Binary64 := ⟨negative, 0, leastExponent⟩

def isZero (number : Binary64) : Bool := number.significand == 0

/-- An exponent that leaves 53 or 54 bits of the quotient before the point. -/
def exponentOfRatio (numerator denominator : Nat) : Int :=
  max leastExponent ((numerator.log2 : Int) - denominator.log2 - 53)

/-- The quotient in units of `2 ^ exponent`, rounded to nearest. -/
def scaledQuotient (numerator denominator : Nat) (exponent : Int) : Nat :=
  divHalfEven (numerator <<< (-exponent).toNat)
    (denominator <<< exponent.toNat)

/--
The double nearest to `numerator / denominator`.  Where the first exponent
leaves 54 bits of the quotient, the next exponent is the right one.
-/
def ofRatio (negative : Bool) (numerator denominator : Nat) : Option Binary64 :=
  if numerator = 0 then some (zero negative) else
  let first := exponentOfRatio numerator denominator
  let exponent :=
    if numerator <<< (-first).toNat <
        2 * leastNormal * (denominator <<< first.toNat) then first
    else first + 1
  let rounded := scaledQuotient numerator denominator exponent
  let number : Binary64 :=
    if rounded = 2 * leastNormal then ⟨negative, leastNormal, exponent + 1⟩
    else ⟨negative, rounded, exponent⟩
  if number.exponent ≤ greatestExponent then some number else none

def ofNat (number : Nat) : Option Binary64 := ofRatio false number 1

def numerator (number : Binary64) : Nat :=
  number.significand <<< number.exponent.toNat

def denominator (number : Binary64) : Nat :=
  1 <<< (-number.exponent).toNat

def mul (left right : Binary64) : Option Binary64 :=
  ofRatio (left.negative != right.negative)
    (left.numerator * right.numerator) (left.denominator * right.denominator)

def div (left right : Binary64) : Option Binary64 :=
  ofRatio (left.negative != right.negative)
    (left.numerator * right.denominator) (left.denominator * right.numerator)

/-- The interchange format: sign, eleven exponent bits, fifty-two fraction bits. -/
def toBits (number : Binary64) : UInt64 :=
  let magnitude :=
    if number.significand < leastNormal then number.significand
    else
      (number.exponent + 1075).toNat * leastNormal +
        (number.significand - leastNormal)
  UInt64.ofNat ((if number.negative then 1 <<< 63 else 0) + magnitude)

end Binary64

end SeriesCodec
