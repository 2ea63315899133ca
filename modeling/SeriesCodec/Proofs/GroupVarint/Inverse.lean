import Mathlib.Algebra.Group.Nat.Defs
import SeriesCodec.Proofs.GroupVarint.Recorded

/-!
# Reading what was written

The keys of a written stream record the least lengths of its elements, and one
byte for every unused slot.  Hence the stream is one of as many elements as were
written, and reading gives them back.
-/

namespace SeriesCodec

namespace GroupVarint

variable {width : ElementWidth}

def Recordable (width : ElementWidth) (lengths : List Nat) : Prop :=
  ∀ length ∈ lengths, 0 < length ∧ length ≤ radix width

theorem radix_eq_two_pow (width : ElementWidth) : radix width = 2 ^ width.fieldBits :=
  Nat.one_shiftLeft _

/-- The slots of a key use it up. -/
theorem radix_pow_slots (width : ElementWidth) : radix width ^ width.slots = 256 := by
  cases width <;> rfl

theorem keyValue_lt {lengths : List Nat} (recordable : Recordable width lengths) :
    keyValue width lengths < radix width ^ lengths.length := by
  induction lengths with
  | nil => exact Nat.one_pos
  | cons length rest ih =>
      obtain ⟨_, small⟩ := recordable length List.mem_cons_self
      have others := ih fun other member => recordable other (List.mem_cons_of_mem _ member)
      have step : radix width * (keyValue width rest + 1) ≤
          radix width * radix width ^ rest.length := Nat.mul_le_mul_left _ others
      rw [Nat.mul_succ] at step
      rw [keyValue, List.length_cons, Nat.pow_succ, Nat.mul_comm (radix width ^ _)]
      omega

theorem keyOf_toNat {lengths : List Nat} (recordable : Recordable width lengths)
    (few : lengths.length ≤ width.slots) :
    (keyOf width lengths).toNat = keyValue width lengths := by
  have small := keyValue_lt recordable
  have room := Nat.pow_le_pow_right (radix_pos width) few
  rw [radix_pow_slots] at room
  exact Nat.mod_eq_of_lt (Nat.lt_of_lt_of_le small room)

/-- Digit `slot` of a key is the length there minus one, or zero in an unused slot. -/
theorem keyValue_digit {lengths : List Nat} (recordable : Recordable width lengths)
    (slot : Nat) :
    keyValue width lengths >>> (width.fieldBits * slot) % radix width + 1 =
      lengths.getD slot 1 := by
  induction lengths generalizing slot with
  | nil => simp [keyValue]
  | cons length rest ih =>
      obtain ⟨positive, small⟩ := recordable length List.mem_cons_self
      have others : Recordable width rest :=
        fun other member => recordable other (List.mem_cons_of_mem _ member)
      cases slot with
      | zero =>
          rw [Nat.mul_zero, Nat.shiftRight_zero, keyValue, Nat.add_mul_mod_self_left,
            Nat.mod_eq_of_lt (by omega), List.getD_cons_zero]
          omega
      | succ slot =>
          have shifted : keyValue width (length :: rest) >>> width.fieldBits =
              keyValue width rest := by
            rw [Nat.shiftRight_eq_div_pow, ← radix_eq_two_pow, keyValue,
              Nat.add_mul_div_left _ _ (radix_pos width), Nat.div_eq_of_lt (by omega),
              Nat.zero_add]
          rw [Nat.mul_succ, Nat.add_comm (_ * slot), Nat.shiftRight_add, shifted, ih others slot,
            List.getD_cons_succ]

theorem lengthAt_keyOf {lengths : List Nat} (recordable : Recordable width lengths)
    (few : lengths.length ≤ width.slots) (slot : Nat) :
    lengthAt width (keyOf width lengths) slot = lengths.getD slot 1 := by
  rw [lengthAt, keyOf_toNat recordable few, keyValue_digit recordable]

/-- The keys of a series record the length of every element and one byte for unused slots. -/
theorem recordedLength_keysOf {groups : Nat} {lengths : List Nat}
    (recordable : Recordable width lengths) (data : Bytes) {index : Nat}
    (inside : index < groups * width.slots) :
    recordedLength width (keysOf width groups lengths ++ data) index =
      lengths.getD index 1 := by
  have positive := width.slots_pos
  induction groups generalizing lengths index with
  | zero => omega
  | succ groups ih =>
      rw [Nat.succ_mul] at inside
      have here : Recordable width (lengths.take width.slots) :=
        fun length member => recordable length (List.mem_of_mem_take member)
      have there : Recordable width (lengths.drop width.slots) :=
        fun length member => recordable length (List.mem_of_mem_drop member)
      by_cases first : index < width.slots
      · rw [recordedLength, Nat.div_eq_of_lt first, Nat.mod_eq_of_lt first, keysOf,
          List.cons_append, List.getD_cons_zero,
          lengthAt_keyOf here (List.length_take_le _ _), List.getD_eq_getElem?_getD,
          List.getElem?_take_of_lt first, ← List.getD_eq_getElem?_getD]
      · have back : index = index - width.slots + width.slots := by omega
        have inner : index - width.slots < groups * width.slots := by omega
        have later := ih there inner
        rw [recordedLength, back, Nat.add_div_right _ positive, Nat.add_mod_right, keysOf,
          List.cons_append, List.getD_cons_succ, ← back, ← recordedLength, later,
          List.getD_eq_getElem?_getD, List.getElem?_drop, Nat.add_comm, ← back,
          ← List.getD_eq_getElem?_getD]

/-! ## Written streams -/

theorem minimalLengths_legal (elements : List (Word width)) :
    ∀ length ∈ minimalLengths elements, 0 < length ∧ length ≤ width.bytes := by
  intro length member
  obtain ⟨element, _, rfl⟩ := List.mem_map.mp member
  exact ⟨Word.significantBytes_pos element, Word.significantBytes_le element⟩

theorem recordable_minimalLengths (elements : List (Word width)) :
    Recordable width (minimalLengths elements) := by
  intro length member
  obtain ⟨positive, legal⟩ := minimalLengths_legal elements length member
  exact ⟨positive, Nat.le_trans legal (bytes_le_radix width)⟩

/-- The length recorded in a slot of a written stream, in use or not. -/
theorem recordedLength_encode (elements : List (Word width)) {index : Nat}
    (inside : index < keyCount width elements.length * width.slots) :
    recordedLength width (encode elements) index = (minimalLengths elements).getD index 1 :=
  recordedLength_keysOf (recordable_minimalLengths elements) _ inside

theorem recordedLengths_encode (elements : List (Word width)) :
    recordedLengths width (encode elements) elements.length = minimalLengths elements := by
  apply List.ext_getElem
  · simp
  · intro index left right
    rw [recordedLengths_length] at left
    have keyed : elements.length ≤ keyCount width elements.length * width.slots :=
      Size.ceilDiv_mul_ge width.slots_pos
    have recorded := recordedLength_encode elements (Nat.lt_of_lt_of_le left keyed)
    rw [List.getD_eq_getElem?_getD, List.getElem?_eq_getElem right, Option.getD_some] at recorded
    simpa [recordedLengths] using recorded

theorem holds_encode (elements : List (Word width)) :
    Holds width (encode elements) elements.length := by
  refine ⟨?_, ?_⟩
  · intro index inside
    have member : recordedLength width (encode elements) index ∈
        recordedLengths width (encode elements) elements.length :=
      mem_recordedLengths.mpr ⟨index, inside, rfl⟩
    rw [recordedLengths_encode] at member
    exact (minimalLengths_legal elements _ member).2
  · rw [span, recordedLengths_encode, encode_length]

theorem decode_encode (elements : List (Word width)) :
    decode width (encode elements) elements.length = .ok elements := by
  rw [decode_eq_ok_iff_holds]
  refine ⟨holds_encode elements, ?_⟩
  have data : (encode elements).drop (keyCount width elements.length) = dataOf elements := by
    rw [encode, List.drop_left' (keysOf_length _ _ _)]
  have read := readWords_dataOf elements []
  rw [List.append_nil] at read
  rw [recordedLengths_encode, data, read]

end GroupVarint

end SeriesCodec
