import Mathlib.Algebra.Group.Nat.Defs
import SeriesCodec.Proofs.GroupVarint.Extent

/-!
# Where an element stands

The data bytes of an element stand behind the keys and behind the data of the
elements in front of it, so the recorded lengths say where, however the reader
goes about it.  A stream is accepted exactly when this layout covers it, and the
bits of the last key that belong to no element do not count.
-/

namespace SeriesCodec

namespace GroupVarint

variable {width : ElementWidth} {stream : Bytes} {count index : Nat}

/-- The place of the first data byte of an element in a stream of `count` elements. -/
def position (width : ElementWidth) (stream : Bytes) (count index : Nat) : Nat :=
  keyCount width count + totalLength (recordedLengths width stream index)

def stored (width : ElementWidth) (stream : Bytes) (count index : Nat) : Bytes :=
  (stream.drop (position width stream count index)).take (recordedLength width stream index)

/-! ## Words by their place -/

/-- The words of the first `others` elements are the ones that stand in their places. -/
theorem readWords_recordedLengths (width : ElementWidth) (stream : Bytes) (count others : Nat) :
    readWords width (recordedLengths width stream others) (stream.drop (keyCount width count)) =
      (List.range others).map fun index => Word.ofBytes (stored width stream count index) := by
  induction others with
  | zero => rfl
  | succ others ih =>
      rw [recordedLengths_succ, readWords_append, ih, List.range_succ, List.map_append,
        List.drop_drop]
      rfl

theorem decode_eq_map_stored {words : List (Word width)}
    (read : decode width stream count = .ok words) :
    words = (List.range count).map fun index => Word.ofBytes (stored width stream count index) := by
  rw [(decode_eq_ok_iff_holds.mp read).2]
  exact readWords_recordedLengths width stream count count

theorem stored_length_le (width : ElementWidth) (stream : Bytes) (count index : Nat) :
    (stored width stream count index).length ≤ recordedLength width stream index :=
  List.length_take_le _ _

/-- An element ends where the next one begins. -/
theorem position_succ (width : ElementWidth) (stream : Bytes) (count index : Nat) :
    position width stream count (index + 1) =
      position width stream count index + recordedLength width stream index := by
  rw [position, totalLength_recordedLengths_succ, ← Nat.add_assoc]
  rfl

theorem totalLength_recordedLengths_mono {fewer more : Nat} (le : fewer ≤ more) :
    totalLength (recordedLengths width stream fewer) ≤
      totalLength (recordedLengths width stream more) := by
  rcases Nat.eq_or_lt_of_le le with rfl | less
  · exact Nat.le_refl _
  · exact Nat.le_of_lt (totalLength_recordedLengths_strictMono less)

/-- The data of every element are there. -/
theorem Holds.stored_length (held : Holds width stream count) (inside : index < count) :
    (stored width stream count index).length = recordedLength width stream index := by
  have ends : position width stream count (index + 1) ≤ span width stream count :=
    Nat.add_le_add_left (totalLength_recordedLengths_mono inside) _
  rw [position_succ, ← held.size] at ends
  rw [stored, List.length_take, List.length_drop]
  omega

theorem Holds.ofBytes_stored_toNat (held : Holds width stream count) (inside : index < count) :
    (Word.ofBytes (stored width stream count index) : Word width).toNat =
      LittleEndian.value (stored width stream count index) :=
  Word.ofBytes_toNat
    (Nat.le_trans (stored_length_le width stream count index) (held.legal index inside))

/-! ## Bits of no element -/

theorem mod_two_pow_eq_iff {first second bits : Nat} :
    first % 2 ^ bits = second % 2 ^ bits ↔
      ∀ bit, bit < bits → first.testBit bit = second.testBit bit := by
  constructor
  · intro same bit low
    have tested := congrArg (Nat.testBit · bit) same
    simpa [Nat.testBit_mod_two_pow, low] using tested
  · intro agree
    apply Nat.eq_of_testBit_eq
    intro bit
    rw [Nat.testBit_mod_two_pow, Nat.testBit_mod_two_pow]
    by_cases low : bit < bits
    · rw [agree bit low]
    · simp [low]

/-- The low bits of a key are the lengths that it records in its first slots. -/
theorem lowBits_eq_iff {key other : UInt8} {present : Nat} :
    key.toNat % 2 ^ (width.fieldBits * present) = other.toNat % 2 ^ (width.fieldBits * present) ↔
      ∀ slot, slot < present → lengthAt width key slot = lengthAt width other slot := by
  induction present with
  | zero =>
      rw [Nat.mul_zero, Nat.pow_zero, Nat.mod_one, Nat.mod_one]
      exact ⟨fun _ slot below => absurd below (Nat.not_lt_zero slot), fun _ => rfl⟩
  | succ present ih =>
      have split (bits : UInt8) : bits.toNat % 2 ^ (width.fieldBits * (present + 1)) =
          bits.toNat % 2 ^ (width.fieldBits * present) +
            2 ^ (width.fieldBits * present) * (lengthAt width bits present - 1) := by
        rw [Nat.mul_succ, Nat.pow_add, Nat.mod_mul, lengthAt, Nat.shiftRight_eq_div_pow, radix,
          Nat.one_shiftLeft, Nat.add_sub_cancel]
      rw [split, split, Nat.forall_lt_succ_right, ← ih]
      constructor
      · intro same
        -- The lower slots are the remainder, the last one the quotient.
        have low := congrArg (· % 2 ^ (width.fieldBits * present)) same
        simp only [Nat.add_mul_mod_self_left, Nat.mod_mod] at low
        rw [low, Nat.add_right_inj] at same
        have high := Nat.eq_of_mul_eq_mul_left (Nat.two_pow_pos _) same
        have positive := lengthAt_pos width key present
        have otherPositive := lengthAt_pos width other present
        exact ⟨low, by omega⟩
      · rintro ⟨low, high⟩
        rw [low, high]

/-- The fault without the key that it shows. -/
def Fault.unkeyed : Fault → Fault
  | overlong _ length width => overlong 0 length width
  | fault => fault

/-- The last key counts for the lengths of the elements that are there. -/
theorem decodeGroups_lastKey {keys data : Bytes} {key other : UInt8} {offset : Nat}
    (keyed : keyCount width count = keys.length + 1)
    (agree : lengthsOf width key (count - keys.length * width.slots) =
      lengthsOf width other (count - keys.length * width.slots)) :
    (decodeGroups width (keys ++ [key]) count offset data).mapError Fault.unkeyed =
      (decodeGroups width (keys ++ [other]) count offset data).mapError Fault.unkeyed := by
  induction keys generalizing count offset data with
  | nil =>
      have few : count ≤ width.slots := by
        have covered := (Size.ceilDiv_le_iff width.slots_pos).mp (Nat.le_of_eq keyed)
        rwa [List.length_nil, Nat.zero_add, Nat.one_mul] at covered
      rw [List.length_nil, Nat.zero_mul, Nat.sub_zero, ← Nat.min_eq_left few] at agree
      simp only [List.nil_append, decodeGroups, agree]
      split <;> rfl
  | cons first keys ih =>
      obtain ⟨_, fewer⟩ := keyCount_eq_succ keyed
      have rest : count - min count width.slots = count - width.slots := by omega
      have behind : count - (first :: keys).length * width.slots =
          count - width.slots - keys.length * width.slots := by
        rw [List.length_cons, Nat.succ_mul]
        omega
      rw [behind] at agree
      -- The first key is the same on both sides, so it is refused twice or read twice.
      simp only [List.cons_append]
      cases found : (lengthsOf width first (min count width.slots)).find?
          fun length => width.bytes < length with
      | some length =>
          rw [decodeGroups_overlong _ offset found, decodeGroups_overlong _ offset found]
      | none =>
          by_cases short : data.length < totalLength (lengthsOf width first (min count width.slots))
          · rw [decodeGroups_truncated _ offset found short,
              decodeGroups_truncated _ offset found short]
          · have enough := Nat.le_of_not_lt short
            rw [decodeGroups_group _ offset found enough, decodeGroups_group _ offset found enough,
              Fallible.mapError_bind, Fallible.mapError_bind, rest, ih fewer agree]

theorem decode_lastKey {keys data : Bytes} {key other : UInt8}
    (keyed : keyCount width count = keys.length + 1)
    (agree : key.toNat % 2 ^ (width.fieldBits * (count - keys.length * width.slots)) =
      other.toNat % 2 ^ (width.fieldBits * (count - keys.length * width.slots))) :
    (decode width (keys ++ key :: data) count).mapError Fault.unkeyed =
      (decode width (keys ++ other :: data) count).mapError Fault.unkeyed := by
  have lengths : lengthsOf width key (count - keys.length * width.slots) =
      lengthsOf width other (count - keys.length * width.slots) :=
    List.map_congr_left fun slot member => lowBits_eq_iff.mp agree slot (List.mem_range.mp member)
  have whole (last : UInt8) : keyCount width count = (keys ++ [last]).length := by
    rw [List.length_append, keyed, List.length_singleton]
  have cut (last : UInt8) : keys ++ last :: data = keys ++ [last] ++ data :=
    (List.append_assoc keys [last] data).symm
  rw [cut, cut, decode_keys_append (whole key), decode_keys_append (whole other), ← whole key,
    ← whole other]
  exact decodeGroups_lastKey keyed lengths

/-! ## The documented format -/

/-- How a key is divided: the bits of one slot, and the slots of one key. -/
structure KeyFields where
  bits : Nat
  slots : Nat

namespace KeyFields

def of : ElementWidth → KeyFields
  | .one | .two | .four => ⟨2, 4⟩
  | .eight => ⟨4, 2⟩

variable (fields : KeyFields)

/-- Every key has `slots` elements, the last one perhaps fewer. -/
def keys (count : Nat) : Nat := (count + fields.slots - 1) / fields.slots

/-- The length of an element is one more than the number in its slot. -/
def length (stream : Bytes) (index : Nat) : Nat :=
  1 + (stream.getD (index / fields.slots) 0).toNat / 2 ^ (fields.bits * (index % fields.slots)) %
    2 ^ fields.bits

/-- An element stands behind the keys and the elements in front of it. -/
def offset (stream : Bytes) (count index : Nat) : Nat :=
  fields.keys count + totalLength ((List.range index).map (fields.length stream))

end KeyFields

@[simp] theorem keyFields_bits (width : ElementWidth) :
    (KeyFields.of width).bits = width.fieldBits := by
  cases width <;> rfl

@[simp] theorem keyFields_slots (width : ElementWidth) :
    (KeyFields.of width).slots = width.slots := by
  cases width <;> rfl

@[simp] theorem keyFields_keys (width : ElementWidth) (count : Nat) :
    (KeyFields.of width).keys count = keyCount width count := by
  cases width <;> rfl

@[simp] theorem keyFields_length (width : ElementWidth) (stream : Bytes) (index : Nat) :
    (KeyFields.of width).length stream index = recordedLength width stream index := by
  rw [KeyFields.length, keyFields_bits, keyFields_slots, recordedLength, lengthAt, radix,
    Nat.one_shiftLeft, Nat.shiftRight_eq_div_pow, Nat.add_comm]

@[simp] theorem keyFields_offset (width : ElementWidth) (stream : Bytes) (count index : Nat) :
    (KeyFields.of width).offset stream count index = position width stream count index := by
  rw [KeyFields.offset, keyFields_keys, position, recordedLengths,
    funext (keyFields_length width stream)]

/--
A stream is accepted exactly when its keys are there, no length of an element
exceeds the width, and keys and lengths add up to the stream.  The words are then
the numbers that stand at the offsets of the elements.  Bits of the last key that
belong to no element change nothing but the key that a refusal shows.
-/
theorem decode_follows_layout (width : ElementWidth) (stream : Bytes) (count : Nat) :
    ((∃ words : List (Word width), decode width stream count = .ok words) ↔
      (KeyFields.of width).keys count ≤ stream.length ∧
      (∀ index, index < count → (KeyFields.of width).length stream index ≤ width.bytes) ∧
      stream.length = (KeyFields.of width).keys count +
        totalLength ((List.range count).map ((KeyFields.of width).length stream))) ∧
    (∀ words : List (Word width), decode width stream count = .ok words →
      words.length = count ∧
      ∀ index (inside : index < words.length), words[index].toNat =
        LittleEndian.value ((stream.drop ((KeyFields.of width).offset stream count index)).take
          ((KeyFields.of width).length stream index))) ∧
    ∀ (keys data : Bytes) (key other : UInt8), stream = keys ++ key :: data →
      (KeyFields.of width).keys count = keys.length + 1 →
      (∀ bit, bit < (KeyFields.of width).bits * (count - keys.length * (KeyFields.of width).slots) →
        key.toNat.testBit bit = other.toNat.testBit bit) →
      (decode width stream count).mapError Fault.unkeyed =
        (decode width (keys ++ other :: data) count).mapError Fault.unkeyed := by
  refine ⟨?_, ?_, ?_⟩
  · have whole : (KeyFields.of width).keys count +
        totalLength ((List.range count).map ((KeyFields.of width).length stream)) =
          span width stream count := keyFields_offset width stream count count
    rw [decode_isOk_iff_holds, whole]
    simp only [keyFields_keys, keyFields_length]
    constructor
    · rintro ⟨legal, size⟩
      exact ⟨size ▸ Nat.le_add_right _ _, legal, size⟩
    · rintro ⟨_, legal, size⟩
      exact ⟨legal, size⟩
  · intro words read
    have held := (decode_eq_ok_iff_holds.mp read).1
    obtain rfl := decode_eq_map_stored read
    refine ⟨by simp, ?_⟩
    intro index inside
    rw [List.length_map, List.length_range] at inside
    rw [List.getElem_map, List.getElem_range, held.ofBytes_stored_toNat inside, keyFields_offset,
      keyFields_length, stored]
  · rintro keys data key other rfl keyed agree
    rw [keyFields_keys] at keyed
    rw [keyFields_bits, keyFields_slots] at agree
    exact decode_lastKey keyed (mod_two_pow_eq_iff.mpr agree)

/-- One word of two bytes, in a stream whose key has bits for three more elements. -/
theorem decode_follows_layout_one_word :
    (∃ words : List (Word .two), decode .two [253, 5, 1] 1 = .ok words) ∧
    (∀ words : List (Word .two), decode .two [253, 5, 1] 1 = .ok words →
      ∃ inside : 0 < words.length, words[0].toNat = 261) ∧
    (decode .two [253, 5, 1] 1).mapError Fault.unkeyed =
      (decode .two [1, 5, 1] 1).mapError Fault.unkeyed := by
  obtain ⟨accepted, values, unused⟩ := decode_follows_layout .two [253, 5, 1] 1
  refine ⟨accepted.mpr ⟨by decide, by decide, rfl⟩, ?_, ?_⟩
  · intro words read
    obtain ⟨size, value⟩ := values words read
    have inside : 0 < words.length := size ▸ Nat.one_pos
    exact ⟨inside, value 0 inside⟩
  · exact unused [] [5, 1] 253 1 rfl rfl (by decide)

end GroupVarint

end SeriesCodec
