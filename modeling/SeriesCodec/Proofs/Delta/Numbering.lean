import Mathlib.Algebra.Group.Int.Defs
import SeriesCodec.Proofs.Delta.Inverse
import SeriesCodec.Proofs.LittleEndian
import SeriesCodec.Proofs.Word

/-!
# Signed readings by their number

Zigzag numbers the signed readings of words: those that are not negative get the
even numbers, the others the odd ones.  The readings with numbers below an even
bound are those from its negative half up to its half, so the least length of a
number is the least one whose signed range has the reading in it.
-/

namespace SeriesCodec

namespace ZigZag

variable {width : ElementWidth}

/-- The place of an integer in the sequence `0, -1, 1, -2, 2, …`. -/
def number : Int → Nat
  | .ofNat magnitude => 2 * magnitude
  | .negSucc magnitude => 2 * magnitude + 1

theorem number_of_nonneg {reading : Int} (nonneg : 0 ≤ reading) :
    (number reading : Int) = 2 * reading := by
  obtain ⟨magnitude, rfl⟩ := Int.eq_ofNat_of_zero_le nonneg
  rfl

theorem number_of_neg {reading : Int} (neg : reading < 0) :
    (number reading : Int) = -2 * reading - 1 := by
  obtain ⟨magnitude, rfl⟩ := Int.eq_negSucc_of_lt_zero neg
  simp only [number]
  omega

theorem number_eq (reading : Int) :
    (number reading : Int) = if 0 ≤ reading then 2 * reading else -2 * reading - 1 := by
  split
  next nonneg => exact number_of_nonneg nonneg
  next neg => exact number_of_neg (Int.lt_of_not_ge neg)

/-- Readings are numbered by magnitude, of two opposite ones the negative one first. -/
theorem number_lt_number_iff {reading other : Int} :
    number reading < number other ↔
      reading.natAbs < other.natAbs ∨ reading < 0 ∧ other = -reading := by
  have first := number_eq reading
  have second := number_eq other
  split at first <;> split at second <;> omega

/-- The numbers below an even bound are those of a signed range. -/
theorem number_lt_iff {reading : Int} {half : Nat} :
    number reading < 2 * half ↔ -(half : Int) ≤ reading ∧ reading < half := by
  by_cases nonneg : 0 ≤ reading
  · have even := number_of_nonneg nonneg
    omega
  · have odd := number_of_neg (Int.lt_of_not_ge nonneg)
    omega

/-- The sign flips the bits that were moved up. -/
theorem encode_eq (word : Word width) :
    encode word = if word.msb then ~~~ (word <<< 1) else word <<< 1 := by
  apply BitVec.eq_of_getLsbD_eq
  intro place inside
  have moved : (word <<< 1).getLsbD place = (!decide (place = 0) && word.getLsbD (place - 1)) := by
    rw [BitVec.getLsbD_shiftLeft, decide_eq_true inside, Bool.true_and]
    simp only [Nat.lt_one_iff]
  rw [getLsbD_encode word inside]
  cases word.msb with
  | false => rw [if_neg Bool.false_ne_true, moved]; by_cases lowest : place = 0 <;> simp [lowest]
  | true =>
      rw [if_pos rfl, BitVec.getLsbD_not, moved, decide_eq_true inside]
      by_cases lowest : place = 0 <;> simp [lowest]

theorem encode_toNat (word : Word width) : (encode word).toNat = number word.toInt := by
  have split := Word.two_pow_bits_eq_double width
  have small := word.isLt
  have reading := BitVec.toInt_eq_msb_cond word
  have moved : (word <<< 1).toNat = 2 * word.toNat % 2 ^ width.bits := by
    rw [BitVec.toNat_shiftLeft, Nat.shiftLeft_eq, Nat.pow_one, Nat.mul_comm]
  rw [split] at small
  rw [encode_eq]
  by_cases negative : word.msb = true
  · have large := BitVec.msb_eq_true_iff_two_mul_ge.mp negative
    have rest : 2 * word.toNat % 2 ^ width.bits = 2 * word.toNat - 2 ^ width.bits := by
      rw [Nat.mod_eq_sub_mod large, Nat.mod_eq_of_lt (by omega)]
    rw [if_pos negative] at reading
    have odd : (number word.toInt : Int) = -2 * word.toInt - 1 := number_of_neg (by omega)
    rw [if_pos negative, BitVec.toNat_not, moved, rest]
    omega
  · have less := BitVec.msb_eq_false_iff_two_mul_lt.mp (Bool.eq_false_iff.mpr negative)
    rw [if_neg negative] at reading
    have even : (number word.toInt : Int) = 2 * word.toInt := number_of_nonneg (by omega)
    rw [if_neg negative, moved, Nat.mod_eq_of_lt less]
    omega

/-- The least length of a number is the least one whose signed range has its reading. -/
theorem minimalLength_number_isLeast (reading : Int) :
    IsLeast {length : Nat | 1 ≤ length ∧
      -(2 : Int) ^ (8 * length - 1) ≤ reading ∧ reading < 2 ^ (8 * length - 1)}
      (LittleEndian.minimalLength (number reading)) := by
  have least := LittleEndian.minimalLength_isLeast (number reading)
  have same (length : Nat) : 1 ≤ length ∧ number reading < 256 ^ length ↔
      1 ≤ length ∧ -(2 : Int) ^ (8 * length - 1) ≤ reading ∧ reading < 2 ^ (8 * length - 1) := by
    apply and_congr_right
    intro positive
    have split : 256 ^ length = 2 * 2 ^ (8 * length - 1) := by
      rw [← Nat.pow_succ', Nat.succ_eq_add_one, Nat.sub_add_cancel (by omega), Nat.pow_mul]
    rw [split, number_lt_iff, Int.natCast_pow]
    rfl
  simpa only [same] using least

/--
In a word of the same width, read without a sign, zigzag puts twice a signed reading
that is not negative, and one less than twice the magnitude of a negative one.  Every
word is the image of the word that it is decoded to and of no other.  The images have
the order of the magnitudes, and of two opposite readings the negative one is first.
-/
theorem encode_numbers_readings (width : ElementWidth) :
    (∀ word : Word width,
      ((encode word).toNat : Int) =
          (if 0 ≤ word.toInt then 2 * word.toInt else -2 * word.toInt - 1) ∧
        (if 0 ≤ word.toInt then 2 * word.toInt else -2 * word.toInt - 1) < 2 ^ width.bits) ∧
    (∀ word : Word width, decode (encode word) = word) ∧
    (∀ image : Word width, encode (decode image) = image) ∧
    ∀ word other : Word width, (encode word).toNat < (encode other).toNat ↔
      word.toInt.natAbs < other.toInt.natAbs ∨
        word.toInt < 0 ∧ other.toInt = -word.toInt := by
  refine ⟨?_, decode_encode, encode_decode, ?_⟩
  · intro word
    have fits : ((encode word).toNat : Int) < 2 ^ width.bits := by
      exact_mod_cast (encode word).isLt
    rw [encode_toNat] at fits ⊢
    rw [← number_eq]
    exact ⟨rfl, fits⟩
  · intro word other
    rw [encode_toNat, encode_toNat]
    exact number_lt_number_iff

/-- The least reading has no opposite, and the greatest image. -/
example : encode (0x8000000000000000 : Word .eight) = 0xFFFFFFFFFFFFFFFF := by decide

end ZigZag

end SeriesCodec
