import SeriesCodec.Bytes

/-!
# Little-endian numbers

A natural number is written with its least significant byte first.  Writing
with `length` bytes keeps the number modulo `bound length`, reading never
loses anything, and `minimalLength` is the least positive length that loses
nothing when writing.
-/

namespace SeriesCodec

namespace LittleEndian

/-- The low `length` bytes of `number`. -/
def encode : (length : Nat) → (number : Nat) → Bytes
  | 0, _ => []
  | length + 1, number =>
      UInt8.ofNat number :: encode length (number / 256)

/-- The numbers that `length` bytes can hold are those below this one. -/
def bound (length : Nat) : Nat := Nat.pow 256 length

def value : Bytes → Nat
  | [] => 0
  | byte :: rest => byte.toNat + 256 * value rest

/-- The number of bytes of `number` up to its last nonzero one, at least one. -/
def minimalLength (number : Nat) : Nat :=
  number.log2 / 8 + 1

theorem bound_succ (length : Nat) : bound (length + 1) = bound length * 256 := rfl

theorem bound_pos (length : Nat) : 0 < bound length :=
  Nat.pow_pos (by decide)

theorem bound_mono {length longer : Nat} (le : length ≤ longer) :
    bound length ≤ bound longer :=
  Nat.pow_le_pow_right (by decide) le

@[simp] theorem encode_length (length number : Nat) :
    (encode length number).length = length := by
  induction length generalizing number with
  | zero => rfl
  | succ length ih => simp [encode, ih]

theorem value_lt (bytes : Bytes) : value bytes < bound bytes.length := by
  induction bytes with
  | nil => exact bound_pos 0
  | cons byte rest ih =>
      have small := byte.toNat_lt
      simp only [value, List.length_cons, bound_succ]
      omega

theorem value_encode (length number : Nat) :
    value (encode length number) = number % bound length := by
  induction length generalizing number with
  | zero => exact (Nat.mod_one number).symm
  | succ length ih =>
      have low : (UInt8.ofNat number).toNat = number % 256 := rfl
      rw [encode, value, ih, low, bound_succ, Nat.mul_comm (bound length),
        Nat.mod_mul]

theorem value_encode_of_lt {length number : Nat} (small : number < bound length) :
    value (encode length number) = number := by
  rw [value_encode, Nat.mod_eq_of_lt small]

theorem encode_value (bytes : Bytes) :
    encode bytes.length (value bytes) = bytes := by
  induction bytes with
  | nil => rfl
  | cons byte rest ih =>
      have small := byte.toNat_lt
      have low : UInt8.ofNat (value (byte :: rest)) = byte := by
        apply UInt8.toNat_inj.mp
        simp only [value, UInt8.toNat_ofNat', Nat.reducePow]
        omega
      have high : value (byte :: rest) / 256 = value rest := by
        simp only [value]
        omega
      rw [List.length_cons, encode, low, high, ih]

theorem minimalLength_pos (number : Nat) : 0 < minimalLength number :=
  Nat.succ_pos _

theorem minimalLength_le_iff {number length : Nat} (positive : 0 < length) :
    minimalLength number ≤ length ↔ number < bound length := by
  have power : bound length = 2 ^ (8 * length) := by
    rw [Nat.pow_mul]
    rfl
  rw [power]
  by_cases zero : number = 0
  · subst zero
    simp only [Nat.two_pow_pos, iff_true]
    exact positive
  · rw [← Nat.log2_lt zero, minimalLength]
    omega

theorem lt_bound_minimalLength (number : Nat) :
    number < bound (minimalLength number) :=
  (minimalLength_le_iff (minimalLength_pos number)).mp (Nat.le_refl _)

end LittleEndian

end SeriesCodec
