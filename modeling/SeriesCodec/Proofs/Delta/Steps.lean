import SeriesCodec.Proofs.Delta.InPlace
import SeriesCodec.Proofs.Delta.Numbering

/-!
# Steps of a series

A series goes from each element to the next by a signed step that wraps at the
width, and to the first element from zero.  With the transform enabled the words
to be packed are the zigzag images of the steps, one for each element; without it
they are the elements.  The loops over the cells compute just this, and both ways
are undone by the other one.
-/

namespace SeriesCodec

namespace Delta

variable {width : ElementWidth}

/-- The signed step to an element from the one in front of it, and to the first one from zero. -/
def step (elements : List (Word width)) : (index : Nat) → Int
  | 0 => (elements.getD 0 0).toInt
  | index + 1 =>
      ((elements.getD (index + 1) 0).toInt - (elements.getD index 0).toInt).bmod (2 ^ width.bits)

theorem differences_eq_map (previous : Word width) (elements : List (Word width)) :
    differences previous elements = (List.range elements.length).map fun index =>
      elements.getD index 0 - (previous :: elements).getD index 0 := by
  induction elements generalizing previous with
  | nil => rfl
  | cons element rest ih =>
      rw [differences, ih, List.length_cons, List.range_succ_eq_map, List.map_cons, List.map_map]
      rfl

theorem difference_toInt (elements : List (Word width)) (index : Nat) :
    (elements.getD index 0 - (0 :: elements).getD index 0).toInt = step elements index := by
  cases index with
  | zero =>
      have whole : elements.getD 0 0 - 0 = elements.getD 0 0 := BitVec.sub_zero _
      rw [List.getD_cons_zero, whole, step]
  | succ index => rw [List.getD_cons_succ, BitVec.toInt_sub, step]

/-- No step is lost in a word. -/
theorem ofInt_step_toInt (elements : List (Word width)) (index : Nat) :
    (BitVec.ofInt width.bits (step elements index)).toInt = step elements index := by
  rw [← difference_toInt, BitVec.ofInt_toInt]

theorem encode_eq_map_step (elements : List (Word width)) :
    encode true elements = (List.range elements.length).map fun index =>
      ZigZag.encode (BitVec.ofInt width.bits (step elements index)) := by
  rw [encode, if_pos rfl, differences_eq_map, List.map_map]
  apply List.map_congr_left
  intro index _
  rw [Function.comp, ← difference_toInt, BitVec.ofInt_toInt]

/--
The words to be packed are as many as the elements, whose images of steps they are,
or the elements themselves.  Every series comes back from its words, every list of
words is what some series is replaced by, and the loops over the cells go both ways.
-/
theorem transform_is_bijective (width : ElementWidth) :
    (∀ (enabled : Bool) (elements : List (Word width)),
      InPlace.encode? enabled elements = some (encode enabled elements) ∧
      (encode enabled elements).length = elements.length ∧
      decode enabled (encode enabled elements) = elements) ∧
    (∀ (enabled : Bool) (words : List (Word width)),
      InPlace.decode? enabled words = some (decode enabled words) ∧
      encode enabled (decode enabled words) = words) ∧
    ∀ elements : List (Word width),
      (encode true elements = (List.range elements.length).map fun index =>
        ZigZag.encode (BitVec.ofInt width.bits (step elements index))) ∧
      encode false elements = elements := by
  refine ⟨?_, ?_, ?_⟩
  · intro enabled elements
    exact ⟨InPlace.encode?_eq enabled elements, encode_length enabled elements,
      decode_encode enabled elements⟩
  · intro enabled words
    exact ⟨InPlace.decode?_eq enabled words, encode_decode enabled words⟩
  · intro elements
    exact ⟨encode_eq_map_step elements, rfl⟩

/-- Steps wrap: the greatest element is one below the least one. -/
example : (encode true [0x80, 0x7F, 0x80, 0] : List (Word .one)) = [255, 1, 2, 255] := by decide

end Delta

end SeriesCodec
