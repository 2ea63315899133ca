import SeriesCodec.Proofs.Access
import SeriesCodec.Proofs.GroupVarint.Inverse

/-!
# A writer with reserved keys

The writer reserves the block of keys, puts the values behind it, and sets the
key of a group once the values of the group are written.  Keys that are set and
keys that are still reserved make up the whole block at any time, so no value is
overwritten.
-/

namespace SeriesCodec

namespace GroupVarint

namespace BackPatch

variable {width : ElementWidth}

/-- A buffer with the low bytes of a word behind it, at least one and at most all of them. -/
def push? (buffer : Bytes) (word : Word width) (length : Nat) : Option Bytes :=
  if 0 < length then Word.append? buffer word length else none

/-- The key of a group from one of its slots on, and the buffer with its values. -/
def writeSlots? (slot : Nat) (key : UInt8) (buffer : Bytes) :
    (words : List (Word width)) → Option (UInt8 × Bytes)
  | [] => some (key, buffer)
  | word :: words => do
      let code ← Access.sub? (Word.significantBytes word) 1
      let field ← Access.shiftLeft? (UInt8.ofNat code) (slot * width.fieldBits)
      let longer ← push? buffer word (Word.significantBytes word)
      writeSlots? (slot + 1) (key ||| field) longer words

def setKey? (keyStart keyLength group : Nat) (key : UInt8) (buffer : Bytes) : Option Bytes :=
  if group < keyLength then Access.set? buffer (keyStart + group) key else none

def writeGroups? (keyStart keyLength group : Nat) :
    (words : List (Word width)) → (buffer : Bytes) → Option Bytes
  | [], buffer => some buffer
  | word :: words, buffer => do
      let (key, longer) ← writeSlots? 0 0 buffer ((word :: words).take width.slots)
      let patched ← setKey? keyStart keyLength group key longer
      writeGroups? keyStart keyLength (group + 1) ((word :: words).drop width.slots) patched
termination_by words => words.length
decreasing_by
  have positive := width.slots_pos
  rw [List.length_drop, List.length_cons]
  omega

def write? (buffer : Bytes) (elements : List (Word width)) : Option Bytes :=
  let keyLength := keyCount width elements.length
  writeGroups? buffer.length keyLength 0 elements (buffer ++ List.replicate keyLength 0)

/-! ## Groups -/

theorem push?_eq (buffer : Bytes) (word : Word width) :
    push? buffer word (Word.significantBytes word) =
      some (buffer ++ Word.lowBytes word (Word.significantBytes word)) := by
  rw [push?, if_pos (Word.significantBytes_pos word),
    Word.append?_of_le buffer word (Word.significantBytes_le word)]

/-- A field of a slot fills the slot and nothing else. -/
theorem shiftLeft?_eq {slot code : Nat} (inside : slot < width.slots) (small : code < radix width) :
    ∃ field, Access.shiftLeft? (UInt8.ofNat code) (slot * width.fieldBits) = some field ∧
      field.toNat = radix width ^ slot * code := by
  have places := ElementWidth.slot_mul_fieldBits_lt inside
  have next : radix width ^ slot * code < radix width ^ (slot + 1) := by
    rw [Nat.pow_succ]
    exact Nat.mul_lt_mul_of_pos_left small (Nat.pow_pos (radix_pos width))
  have room : radix width ^ (slot + 1) ≤ radix width ^ width.slots :=
    Nat.pow_le_pow_right (radix_pos width) inside
  have byte : code < 256 := by
    have whole := Nat.le_self_pow (Nat.ne_of_gt width.slots_pos) (radix width)
    rw [radix_pow_slots] at whole
    exact Nat.lt_of_lt_of_le small whole
  refine ⟨_, if_pos places, ?_⟩
  rw [UInt8.toNat_ofNat', UInt8.toNat_ofNat', Nat.mod_eq_of_lt byte, Nat.shiftLeft_eq, Nat.mul_comm,
    Nat.mul_comm slot, Nat.pow_mul, ← radix_eq_two_pow]
  apply Nat.mod_eq_of_lt
  rw [radix_pow_slots] at room
  exact Nat.lt_of_lt_of_le next room

/-- Below a slot a key holds the fields of the slots before it. -/
theorem or_field_toNat {slot code : Nat} {key field : UInt8}
    (below : key.toNat < radix width ^ slot) (placed : field.toNat = radix width ^ slot * code) :
    (key ||| field).toNat = key.toNat + radix width ^ slot * code := by
  have power : radix width ^ slot = 2 ^ (width.fieldBits * slot) := by
    rw [radix_eq_two_pow, Nat.pow_mul]
  rw [power] at below placed ⊢
  rw [UInt8.toNat_or, placed, Nat.or_comm, ← Nat.two_pow_add_eq_or_of_lt below, Nat.add_comm]

/-- The fields that are put together are the digits of the key. -/
theorem writeSlots?_eq {slot : Nat} {key : UInt8} (buffer : Bytes) {words : List (Word width)}
    (below : key.toNat < radix width ^ slot) (few : slot + words.length ≤ width.slots) :
    writeSlots? slot key buffer words =
      some (UInt8.ofNat (key.toNat + radix width ^ slot * keyValue width (minimalLengths words)),
        buffer ++ dataOf words) := by
  induction words generalizing slot key buffer with
  | nil => simp [writeSlots?, minimalLengths, keyValue, dataOf]
  | cons word words ih =>
      rw [List.length_cons] at few
      have least := Word.significantBytes_pos word
      have legal := (recordable_minimalLengths [word] _ List.mem_cons_self).2
      have small : Word.significantBytes word - 1 < radix width := by omega
      obtain ⟨field, shifted, placed⟩ := shiftLeft?_eq (show slot < width.slots by omega) small
      have joined := or_field_toNat below placed
      have next : (key ||| field).toNat < radix width ^ (slot + 1) := by
        have step : radix width ^ slot * (Word.significantBytes word - 1 + 1) ≤
            radix width ^ (slot + 1) := Nat.mul_le_mul_left _ small
        rw [Nat.mul_succ] at step
        omega
      have others := ih (buffer ++ Word.lowBytes word (Word.significantBytes word)) next
        (by omega)
      rw [writeSlots?, Access.sub?_of_le least]
      simp only [Option.bind_eq_bind, Option.bind_some, shifted, push?_eq, others]
      have value : keyValue width (minimalLengths (word :: words)) =
          Word.significantBytes word - 1 +
            radix width * keyValue width (minimalLengths words) := rfl
      have digits : key.toNat + radix width ^ slot * (Word.significantBytes word - 1) +
          radix width ^ (slot + 1) * keyValue width (minimalLengths words) =
            key.toNat + radix width ^ slot * keyValue width (minimalLengths (word :: words)) := by
        rw [value, Nat.mul_add, Nat.pow_succ, Nat.mul_assoc, Nat.add_assoc]
      rw [joined, digits, List.append_assoc]
      rfl

theorem writeSlots?_group (buffer : Bytes) {group : List (Word width)}
    (few : group.length ≤ width.slots) :
    writeSlots? 0 0 buffer group =
      some (keyOf width (minimalLengths group), buffer ++ dataOf group) := by
  have start : (0 : UInt8).toNat < radix width ^ 0 := Nat.one_pos
  have written := writeSlots?_eq buffer start (Nat.le_trans (Nat.le_of_eq (Nat.zero_add _)) few)
  rw [Nat.pow_zero, Nat.one_mul] at written
  rw [written, keyOf]
  exact congrArg (fun number => some (UInt8.ofNat number, _)) (Nat.zero_add _)

/-! ## The block of keys -/

theorem setKey?_eq (front keys rest : Bytes) (groups : Nat) (key old : UInt8) :
    setKey? front.length (keys.length + (groups + 1)) keys.length key
        (front ++ (keys ++ old :: rest)) =
      some (front ++ ((keys ++ [key]) ++ rest)) := by
  have inside : keys.length < keys.length + (groups + 1) := Nat.lt_add_of_pos_right (Nat.succ_pos _)
  have set := Access.set?_append (front ++ keys) rest old key
  rw [List.length_append, List.append_assoc, List.append_assoc] at set
  rw [setKey?, if_pos inside, set, List.append_assoc]
  rfl

/-- A group sets the first key that is still reserved and puts its values behind the others. -/
theorem writeGroups?_group (front keys data : Bytes) (groups : Nat) {words : List (Word width)}
    (some : 0 < words.length) :
    writeGroups? front.length (keys.length + (groups + 1)) keys.length words
        (front ++ (keys ++ (List.replicate (groups + 1) 0 ++ data))) =
      writeGroups? front.length (keys.length + (groups + 1)) (keys.length + 1)
        (words.drop width.slots)
        (front ++ ((keys ++ [keyOf width (minimalLengths (words.take width.slots))]) ++
          (List.replicate groups 0 ++ (data ++ dataOf (words.take width.slots))))) := by
  cases words with
  | nil => cases some
  | cons word words =>
      have written := writeSlots?_group
        (front ++ (keys ++ (List.replicate (groups + 1) 0 ++ data)))
        (List.length_take_le width.slots (word :: words))
      have set := setKey?_eq front keys
        (List.replicate groups 0 ++ (data ++ dataOf ((word :: words).take width.slots))) groups
        (keyOf width (minimalLengths ((word :: words).take width.slots))) 0
      rw [writeGroups?, written]
      simp only [Option.bind_eq_bind, Option.bind_some, List.replicate_succ, List.append_assoc,
        List.cons_append] at set ⊢
      rw [set]
      rfl

/-- Some keys are set, the others of the block are reserved, and the values follow. -/
theorem writeGroups?_eq (front keys data : Bytes) {groups : Nat} {words : List (Word width)}
    (left : keyCount width words.length = groups) :
    writeGroups? front.length (keys.length + groups) keys.length words
        (front ++ (keys ++ (List.replicate groups 0 ++ data))) =
      some (front ++ (keys ++ (keysOf width groups (minimalLengths words) ++
        (data ++ dataOf words)))) := by
  induction groups generalizing words keys data with
  | zero =>
      have few := (Size.ceilDiv_le_iff width.slots_pos).mp (Nat.le_of_eq left)
      have empty : words = [] := List.eq_nil_of_length_eq_zero (by omega)
      subst empty
      rw [writeGroups?]
      simp [keysOf, dataOf]
  | succ groups ih =>
      obtain ⟨some, fewer⟩ := keyCount_eq_succ left
      have others : keyCount width (words.drop width.slots).length = groups := by
        rw [List.length_drop]
        exact fewer
      have values : dataOf (words.take width.slots) ++ dataOf (words.drop width.slots) =
          dataOf words := by
        rw [dataOf, dataOf, ← List.flatMap_append, List.take_append_drop]
        rfl
      -- A key that is set takes the place of a reserved one: the block keeps its length.
      have later := ih (keys ++ [keyOf width (minimalLengths (words.take width.slots))])
        (data ++ dataOf (words.take width.slots)) others
      rw [List.length_append, List.length_singleton, Nat.add_assoc, Nat.add_comm 1] at later
      rw [writeGroups?_group front keys data groups some, later, List.append_assoc data, values]
      simp only [keysOf, minimalLengths, List.map_take, List.map_drop, List.append_assoc,
        List.nil_append, List.cons_append]

/-- Every key that is set stands in the reserved block, and the stream is the packed one. -/
theorem write?_eq (buffer : Bytes) (elements : List (Word width)) :
    write? buffer elements = some (append buffer elements) := by
  have written := writeGroups?_eq buffer [] [] (Eq.refl (keyCount width elements.length))
  rw [List.append_nil, List.length_nil, Nat.zero_add] at written
  exact written

end BackPatch

end GroupVarint

end SeriesCodec
