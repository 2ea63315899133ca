import Mathlib.Algebra.Group.Nat.Defs
import Mathlib.Data.Nat.Basic
import Mathlib.Order.Basic
import SeriesCodec.Size
import SeriesCodec.Word

/-!
# Words cut to their low bytes

The bits of a word below its leading zeros say how many of its bytes are significant.
Cut to fewer bytes a word is another number, and cut to as many or more it is the same
one, at its own width and at every greater one.
-/

namespace SeriesCodec

namespace Word

variable {width : ElementWidth}

/-- Half of the words have the highest bit. -/
theorem two_pow_bits_eq_double (width : ElementWidth) :
    2 ^ width.bits = 2 * 2 ^ (width.bits - 1) := by
  rw [← Nat.pow_succ', Nat.succ_eq_add_one, Nat.sub_add_cancel width.bits_pos]

/-- A word can count its own bits. -/
theorem natCast_bits_toNat (width : ElementWidth) :
    (width.bits : BitVec width.bits).toNat = width.bits := by
  rw [BitVec.natCast_eq_ofNat, BitVec.toNat_ofNat, Nat.mod_eq_of_lt Nat.lt_two_pow_self]

theorem clz_le (word : Word width) : word.clz.toNat ≤ width.bits := by
  have le : word.clz.toNat ≤ (width.bits : BitVec width.bits).toNat :=
    BitVec.le_def.mp BitVec.clz_le
  rwa [natCast_bits_toNat] at le

/-- The bits that are left below the leading zeros are just enough. -/
theorem toNat_lt_two_pow_iff (word : Word width) {bits : Nat} :
    word.toNat < 2 ^ bits ↔ width.bits - word.clz.toNat ≤ bits := by
  constructor
  · intro small
    by_cases zero : word = 0
    · have all : word.clz = width.bits := BitVec.clz_eq_iff_eq_zero.mpr zero
      rw [all, natCast_bits_toNat, Nat.sub_self]
      exact Nat.zero_le bits
    · have top := BitVec.two_pow_sub_clz_le_toNat_of_ne_zero width.bits_pos zero
      have below := (Nat.pow_lt_pow_iff_right (by decide : 1 < 2)).mp (Nat.lt_of_le_of_lt top small)
      omega
  · intro enough
    exact Nat.lt_of_lt_of_le BitVec.toNat_lt_two_pow_sub_clz
      (Nat.pow_le_pow_right (by decide) enough)

theorem significantBytes_eq_max (word : Word width) :
    significantBytes word = max (Size.ceilDiv (width.bits - word.clz.toNat) 8) 1 := by
  -- The clamp is what makes the two agree on length zero, where only the word zero fits.
  apply eq_of_forall_ge_iff
  intro length
  by_cases positive : 1 ≤ length
  · have power : LittleEndian.bound length = 2 ^ (length * 8) := by
      rw [Nat.mul_comm, Nat.pow_mul]
      rfl
    rw [significantBytes, LittleEndian.minimalLength_le_iff positive, power, toNat_lt_two_pow_iff,
      ← Size.ceilDiv_le_iff (by decide), Nat.max_le, and_iff_left positive]
  · have least := significantBytes_pos word
    omega

/-- The sign bit is in the last byte, so a negative word has no byte to spare. -/
theorem significantBytes_of_neg {word : Word width} (negative : word.toInt < 0) :
    significantBytes word = width.bytes := by
  have none : word.clz.toNat = 0 := by
    rw [BitVec.clz_eq_zero_iff width.bits_pos]
    have sign := BitVec.toInt_neg_iff.mp negative
    have split := two_pow_bits_eq_double width
    omega
  rw [significantBytes_eq_max, none, Nat.sub_zero, ElementWidth.bits, Nat.mul_comm,
    Size.ceilDiv_mul (by decide)]
  exact max_eq_left width.bytes_pos

/-! ## Low bytes -/

/-- A word that is cut keeps its remainder. -/
theorem ofBytes_lowBytes_toNat (word : Word width) {length : Nat} {wider : ElementWidth}
    (fits : length ≤ wider.bytes) :
    (ofBytes (lowBytes word length) : Word wider).toNat =
      word.toNat % LittleEndian.bound length := by
  rw [ofBytes_toNat (by rwa [lowBytes_length]), lowBytes, LittleEndian.value_encode]

theorem ofBytes_lowBytes_eq_iff {word : Word width} {length : Nat} (positive : 1 ≤ length)
    (fits : length ≤ width.bytes) :
    ofBytes (lowBytes word length) = word ↔ significantBytes word ≤ length := by
  constructor
  · intro same
    have kept := ofBytes_lowBytes_toNat word fits
    rw [same] at kept
    refine (LittleEndian.minimalLength_le_iff positive).mpr ?_
    rw [kept]
    exact Nat.mod_lt _ (LittleEndian.bound_pos length)
  · intro enough
    exact ofBytes_lowBytes enough fits

/--
A word has as many significant bytes as hold its bits below the leading zeros, but at
least one, and all of its bytes if its signed reading is negative.  Between one and all
of its low bytes can be put behind a buffer, and they are read as the word itself exactly
if the significant ones are among them.  Read at a greater width they stand for the same
number.
-/
theorem significantBytes_is_threshold (word : Word width) :
    (∃ filled, filled + word.clz.toNat = width.bits ∧
      significantBytes word = max (Size.ceilDiv filled 8) 1) ∧
    1 ≤ significantBytes word ∧ significantBytes word ≤ width.bytes ∧
    (word.toInt < 0 → significantBytes word = width.bytes) ∧
    ∀ (buffer : Bytes) (length : Nat), 1 ≤ length → length ≤ width.bytes →
      ∃ (low : Bytes) (back : Word width),
        append? buffer word length = some (buffer ++ low) ∧ low.length = length ∧
        ofBytes? low = some back ∧
        (back = word ↔ significantBytes word ≤ length) ∧
        ∀ wider : ElementWidth, width.bytes ≤ wider.bytes →
          ∃ same : Word wider, ofBytes? low = some same ∧ same.toNat = back.toNat := by
  refine ⟨⟨_, Nat.sub_add_cancel (clz_le word), significantBytes_eq_max word⟩,
    significantBytes_pos word, significantBytes_le word, significantBytes_of_neg, ?_⟩
  intro buffer length positive fits
  have size := lowBytes_length word length
  refine ⟨lowBytes word length, _, append?_of_le buffer word fits, size,
    ofBytes?_of_le (Nat.le_trans (Nat.le_of_eq size) fits), ofBytes_lowBytes_eq_iff positive fits,
    ?_⟩
  intro wider more
  have room := Nat.le_trans fits more
  refine ⟨_, ofBytes?_of_le (Nat.le_trans (Nat.le_of_eq size) room), ?_⟩
  rw [ofBytes_lowBytes_toNat word room, ofBytes_lowBytes_toNat word fits]

/-- A negative word of two bytes is lost in one, which at any width holds the same number. -/
theorem significantBytes_is_threshold_negative :
    (0x8001 : Word .two).toInt < 0 ∧ significantBytes (0x8001 : Word .two) = 2 ∧
    ∃ (low : Bytes) (back : Word .two) (same : Word .eight),
      append? [7] (0x8001 : Word .two) 1 = some ([7] ++ low) ∧
      ofBytes? low = some back ∧ back ≠ 0x8001 ∧
      ofBytes? low = some same ∧ same.toNat = back.toNat := by
  obtain ⟨_, _, _, whole, cut⟩ := significantBytes_is_threshold (0x8001 : Word .two)
  have negative : (0x8001 : Word .two).toInt < 0 := by decide
  have full := whole negative
  obtain ⟨low, back, appends, _, reads, exact, widens⟩ := cut [7] 1 (by decide) (by decide)
  obtain ⟨same, readsWider, number⟩ := widens .eight (by decide)
  refine ⟨negative, full, low, back, same, appends, reads, ?_, readsWider, number⟩
  rw [Ne, exact, full]
  decide

end Word

end SeriesCodec
