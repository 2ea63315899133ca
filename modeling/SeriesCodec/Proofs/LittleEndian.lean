import Mathlib.Algebra.Group.Nat.Defs
import Mathlib.Order.Bounds.Defs
import SeriesCodec.LittleEndian

/-!
# Least lengths

The bytes of a number are its quotients by the powers of the base, and the least
length at which it is written is the least positive number of bytes that can hold
it.
-/

namespace SeriesCodec

namespace LittleEndian

/-- Every byte is a quotient of the number, and only its low part counts. -/
theorem encode_eq_map (length number : Nat) :
    encode length number =
      (List.range length).map fun place => UInt8.ofNat (number / 256 ^ place) := by
  induction length generalizing number with
  | zero => rfl
  | succ length ih =>
      have later (place : Nat) : number / 256 / 256 ^ place = number / 256 ^ (place + 1) := by
        rw [Nat.div_div_eq_div_mul, Nat.pow_succ, Nat.mul_comm 256]
      rw [encode, ih, List.range_succ_eq_map, List.map_cons, List.map_map, Nat.pow_zero,
        Nat.div_one]
      simp only [later]
      rfl

theorem minimalLength_isLeast (number : Nat) :
    IsLeast {length | 1 ≤ length ∧ number < 256 ^ length} (minimalLength number) := by
  refine ⟨⟨minimalLength_pos number, lt_bound_minimalLength number⟩, ?_⟩
  rintro length ⟨positive, holds⟩
  exact (minimalLength_le_iff positive).mpr holds

end LittleEndian

end SeriesCodec
