import SeriesCodec.Delta

/-!
# Undoing differences

Zigzag moves every bit of a word up by one place, puts the sign bit into the
free place, and flips the moved bits of negative words.  Reading the bits back
this way undoes it, and running sums undo differences.  No word is left out: every
list of words is what some series is replaced by.
-/

namespace SeriesCodec

variable {width : ElementWidth}

namespace ZigZag

/-- The lowest bit, repeated over the whole word. -/
theorem getLsbD_lowBit (word : Word width) {place : Nat} (inside : place < width.bits) :
    (0 - (word &&& 1)).getLsbD place = word.getLsbD 0 := by
  cases low : word.getLsbD 0 with
  | false =>
      have none : word &&& 1 = BitVec.zero width.bits := by
        apply BitVec.eq_of_getLsbD_eq
        intro index _
        by_cases zero : index = 0 <;> simp [zero, low, BitVec.getLsbD_one]
      rw [none]
      simp
  | true =>
      have one : word &&& 1 = BitVec.ofNat width.bits 1 := by
        apply BitVec.eq_of_getLsbD_eq
        intro index _
        by_cases zero : index = 0 <;> simp [zero, low, BitVec.getLsbD_one, width.bits_pos]
      have all : (0 : Word width) - BitVec.ofNat width.bits 1 = BitVec.allOnes width.bits := by
        rw [← BitVec.neg_one_eq_allOnes]
        exact BitVec.zero_sub _
      rw [one, all, BitVec.getLsbD_allOnes]
      exact decide_eq_true inside

theorem getLsbD_encode (word : Word width) {place : Nat} (inside : place < width.bits) :
    (encode word).getLsbD place =
      if place = 0 then word.msb else word.getLsbD (place - 1) ^^ word.msb := by
  have sign : (word.sshiftRight (width.bits - 1)).getLsbD place = word.msb := by
    rw [BitVec.getLsbD_sshiftRight, BitVec.msb_eq_getLsbD_last]
    by_cases zero : place = 0
    · subst zero
      have top : width.bits - 1 + 0 < width.bits := Nat.sub_lt inside Nat.one_pos
      have whole : ¬ width.bits ≤ 0 := Nat.not_le_of_lt inside
      rw [if_pos top, decide_eq_false whole]
      rfl
    · have beyond : ¬ width.bits - 1 + place < width.bits := by omega
      simp [beyond, inside]
  rw [encode, BitVec.getLsbD_xor, sign, BitVec.getLsbD_shiftLeft]
  by_cases zero : place = 0
  · simp [zero]
  · have moved : ¬ place < 1 := by omega
    simp [zero, moved, inside]

theorem getLsbD_decode (word : Word width) {place : Nat} (inside : place < width.bits) :
    (decode word).getLsbD place = (word.getLsbD (place + 1) ^^ word.getLsbD 0) := by
  rw [decode, BitVec.getLsbD_xor, getLsbD_lowBit word inside, BitVec.getLsbD_ushiftRight,
    Nat.add_comm]

theorem decode_encode (word : Word width) : decode (encode word) = word := by
  apply BitVec.eq_of_getLsbD_eq
  intro place inside
  have low := getLsbD_encode word width.bits_pos
  rw [if_pos rfl] at low
  rw [getLsbD_decode _ inside, low]
  by_cases last : place + 1 < width.bits
  · rw [getLsbD_encode word last, if_neg (Nat.succ_ne_zero place), Nat.add_sub_cancel,
      Bool.xor_assoc, Bool.xor_self, Bool.xor_false]
  · have top : place = width.bits - 1 := by omega
    rw [BitVec.getLsbD_of_ge _ _ (by omega), Bool.false_xor, BitVec.msb_eq_getLsbD_last, top]

theorem encode_decode (word : Word width) : encode (decode word) = word := by
  have positive := width.bits_pos
  have sign : (decode word).msb = word.getLsbD 0 := by
    rw [BitVec.msb_eq_getLsbD_last, getLsbD_decode word (Nat.sub_lt positive Nat.one_pos),
      Nat.sub_add_cancel positive, BitVec.getLsbD_of_ge _ _ (Nat.le_refl _), Bool.false_xor]
  apply BitVec.eq_of_getLsbD_eq
  intro place inside
  rw [getLsbD_encode _ inside, sign]
  by_cases zero : place = 0
  · rw [if_pos zero, zero]
  · have moved : place - 1 + 1 = place := Nat.sub_add_cancel (Nat.pos_of_ne_zero zero)
    rw [if_neg zero, getLsbD_decode word (by omega), moved, Bool.xor_assoc, Bool.xor_self,
      Bool.xor_false]

end ZigZag

namespace Delta

theorem decode_encode (enabled : Bool) (elements : List (Word width)) :
    decode enabled (encode enabled elements) = elements := by
  cases enabled with
  | false => rfl
  | true =>
      have undone : (ZigZag.decode ∘ ZigZag.encode : Word width → Word width) = id :=
        funext ZigZag.decode_encode
      simp only [encode, decode, if_true, List.map_map, undone, List.map_id,
        sums_differences]

theorem encode_decode (enabled : Bool) (words : List (Word width)) :
    encode enabled (decode enabled words) = words := by
  cases enabled with
  | false => rfl
  | true =>
      have redone : (ZigZag.encode ∘ ZigZag.decode : Word width → Word width) = id :=
        funext ZigZag.encode_decode
      simp only [encode, decode, if_true, differences_sums, List.map_map, redone, List.map_id]

end Delta

end SeriesCodec
