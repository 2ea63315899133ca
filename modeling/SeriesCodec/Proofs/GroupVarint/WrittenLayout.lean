import Mathlib.Data.List.GetD
import SeriesCodec.Proofs.GroupVarint.BackPatch
import SeriesCodec.Proofs.GroupVarint.Layout
import SeriesCodec.Proofs.LittleEndian

/-!
# What is written, byte for byte

A written stream has no choice left in it.  Its keys have the least lengths of the
elements in their slots, and nothing in the slots behind the last element, and its
data are the low bytes of the elements, no more of each than its least length.
-/

namespace SeriesCodec

namespace GroupVarint

variable {width : ElementWidth}

theorem significantBytes_isLeast (word : Word width) :
    IsLeast {length | 1 ≤ length ∧ word.toNat < 256 ^ length} (Word.significantBytes word) :=
  LittleEndian.minimalLength_isLeast word.toNat

theorem dataOf_eq_flatMap (elements : List (Word width)) :
    dataOf elements = elements.flatMap fun element =>
      (List.range (Word.significantBytes element)).map fun place =>
        UInt8.ofNat (element.toNat / 256 ^ place) := by
  rw [dataOf]
  congr 1
  funext element
  exact LittleEndian.encode_eq_map _ _

/-- The number in one slot of a key is the recorded length minus one. -/
theorem keyField_eq (width : ElementWidth) (key : UInt8) (slot : Nat) :
    key.toNat / 2 ^ ((KeyFields.of width).bits * slot) % 2 ^ (KeyFields.of width).bits =
      lengthAt width key slot - 1 := by
  rw [keyFields_bits, lengthAt, Nat.add_sub_cancel, radix_eq_two_pow, Nat.shiftRight_eq_div_pow]

/-- Every slot of a written key, in use or not. -/
theorem lengthAt_keysOf (elements : List (Word width)) {key slot : Nat}
    (inside : key < keyCount width elements.length) (below : slot < width.slots) :
    lengthAt width ((keysOf width (keyCount width elements.length)
        (minimalLengths elements)).getD key 0) slot =
      (minimalLengths elements).getD (key * width.slots + slot) 1 := by
  have recorded := recordedLength_keysOf (recordable_minimalLengths elements) []
    (slot_lt inside below)
  rwa [List.append_nil, recordedLength_slot below] at recorded

theorem minimalLengths_getD (elements : List (Word width)) (index : Nat) :
    (minimalLengths elements).getD index 1 - 1 =
      elements[index]?.elim 0 fun element => Word.significantBytes element - 1 := by
  rw [List.getD_eq_getElem?_getD, minimalLengths, List.getElem?_map]
  cases elements[index]? <;> rfl

/-- Behind the last key there are no elements either. -/
theorem lengthAt_keysOf_sub_one (elements : List (Word width)) (key : Nat) {slot : Nat}
    (below : slot < width.slots) :
    lengthAt width ((keysOf width (keyCount width elements.length)
        (minimalLengths elements)).getD key 0) slot - 1 =
      elements[key * width.slots + slot]?.elim 0 fun element =>
        Word.significantBytes element - 1 := by
  by_cases inside : key < keyCount width elements.length
  · rw [lengthAt_keysOf elements inside below, minimalLengths_getD]
  · have behind := Nat.le_of_not_lt inside
    have covered := (Size.ceilDiv_le_iff width.slots_pos).mp behind
    have none : elements[key * width.slots + slot]? = none :=
      List.getElem?_eq_none (Nat.le_trans covered (Nat.le_add_right _ _))
    rw [List.getD_eq_default _ _ (by simpa using behind), none, lengthAt]
    simp

/--
A buffer keeps its contents, and behind them come the keys and the data.  A slot of a
key has the least length of its element minus one, or zero if it has no element, and
the data are that many low bytes of each element in order.  The writer that sets the
keys once the values are behind them comes to the same buffer.
-/
theorem written_layout (buffer : Bytes) (elements : List (Word width)) :
    ∃ keys data : Bytes,
      BackPatch.write? buffer elements = some (buffer ++ (keys ++ data)) ∧
      append buffer elements = buffer ++ (keys ++ data) ∧
      keys.length = (KeyFields.of width).keys elements.length ∧
      (∀ (key : Nat) (slot : Fin (KeyFields.of width).slots),
        (keys.getD key 0).toNat / 2 ^ ((KeyFields.of width).bits * slot) %
            2 ^ (KeyFields.of width).bits =
          elements[key * (KeyFields.of width).slots + slot]?.elim 0 fun element =>
            Word.significantBytes element - 1) ∧
      (data = elements.flatMap fun element =>
        (List.range (Word.significantBytes element)).map fun place =>
          UInt8.ofNat (element.toNat / 256 ^ place)) ∧
      ∀ word : Word width,
        IsLeast {length | 1 ≤ length ∧ word.toNat < 256 ^ length} (Word.significantBytes word) := by
  refine ⟨_, _, BackPatch.write?_eq buffer elements, rfl, ?_, ?_, dataOf_eq_flatMap elements,
    significantBytes_isLeast⟩
  · rw [keysOf_length, keyFields_keys]
  · rintro key ⟨slot, below⟩
    simp only [keyField_eq, keyFields_slots]
    rw [keyFields_slots] at below
    exact lengthAt_keysOf_sub_one elements key below

/-- A key and a half behind one byte: lengths from one to four, then two. -/
example : append [9] ([0x01, 0x0203, 0x040506, 0x0708090A, 0x0B0C] : List (Word .four)) =
    [9, 0b11100100, 0b00000001, 1, 3, 2, 6, 5, 4, 10, 9, 8, 7, 12, 11] := by decide

end GroupVarint

end SeriesCodec
