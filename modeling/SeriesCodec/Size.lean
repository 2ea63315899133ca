/-!
# Saturating sizes

Sizes of buffers are counted in 64 bits.  Bounds on sizes are computed with
operations that stop at the greatest size instead of wrapping, so a bound that
does not fit is still a bound.
-/

namespace SeriesCodec

namespace Size

def greatest : Nat := UInt64.size - 1

/-- The sum, or the greatest size if the sum exceeds it. -/
def add (left right : Nat) : Nat := min (left + right) greatest

def mul (left right : Nat) : Nat := min (left * right) greatest

def ceilDiv (number divisor : Nat) : Nat := (number + divisor - 1) / divisor

theorem add_mono {left left' right right' : Nat}
    (leftLe : left ≤ left') (rightLe : right ≤ right') :
    add left right ≤ add left' right' := by
  simp only [add]
  omega

/-- Saturating early does not change a saturated sum. -/
theorem add_min_greatest (left right : Nat) :
    add (min left greatest) right = add left right := by
  simp only [add]
  omega

theorem ceilDiv_mul_ge {number divisor : Nat} (positive : 0 < divisor) :
    number ≤ ceilDiv number divisor * divisor := by
  have split := Nat.div_add_mod (number + divisor - 1) divisor
  have small := Nat.mod_lt (number + divisor - 1) positive
  rw [ceilDiv, Nat.mul_comm]
  omega

theorem ceilDiv_le_iff {number divisor bound : Nat} (positive : 0 < divisor) :
    ceilDiv number divisor ≤ bound ↔ number ≤ bound * divisor := by
  rw [ceilDiv, ← Nat.lt_succ_iff, Nat.div_lt_iff_lt_mul positive, Nat.succ_mul]
  omega

theorem ceilDiv_mono {less more divisor : Nat} (positive : 0 < divisor) (le : less ≤ more) :
    ceilDiv less divisor ≤ ceilDiv more divisor :=
  (ceilDiv_le_iff positive).mpr (Nat.le_trans le (ceilDiv_mul_ge positive))

theorem ceilDiv_mul {count divisor : Nat} (positive : 0 < divisor) :
    ceilDiv (count * divisor) divisor = count := by
  apply Nat.le_antisymm
  · exact (ceilDiv_le_iff positive).mpr (Nat.le_refl _)
  · exact Nat.le_of_mul_le_mul_right (ceilDiv_mul_ge positive) positive

end Size

end SeriesCodec
