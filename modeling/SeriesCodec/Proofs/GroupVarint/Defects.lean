import Mathlib.Data.List.GetD
import Mathlib.Order.WellFounded
import SeriesCodec.Proofs.GroupVarint.Cursor
import SeriesCodec.Proofs.GroupVarint.Layout

/-!
# The first defect of a stream

A stream is refused for a single reason, however much is wrong with it.  Its keys
have to be there; then the groups are looked at in order, each first for a length
beyond the width and then for its data; and what is left over counts only if no
group has a defect.
-/

namespace SeriesCodec

namespace GroupVarint

variable {width : ElementWidth} {stream : Bytes} {count group slot : Nat} {fault : Fault}

namespace KeyFields

variable (fields : KeyFields)

def present (count group : Nat) : Nat := min (count - group * fields.slots) fields.slots

def groupLengths (stream : Bytes) (count group : Nat) : List Nat :=
  (List.range (fields.present count group)).map fun slot =>
    fields.length stream (group * fields.slots + slot)

/-- The data of a group stand behind the keys and the groups in front of it. -/
def groupOffset (stream : Bytes) (count group : Nat) : Nat :=
  fields.offset stream count (group * fields.slots)

end KeyFields

/-! ## Defects -/

/-- A slot in use has a length beyond the width. -/
def OverlongAt (width : ElementWidth) (stream : Bytes) (count group slot : Nat) : Prop :=
  slot < (KeyFields.of width).present count group ∧
    width.bytes < (KeyFields.of width).length stream (group * (KeyFields.of width).slots + slot)

/-- Behind the groups in front of it, a group finds fewer bytes than its elements take up. -/
def ShortAt (width : ElementWidth) (stream : Bytes) (count group : Nat) : Prop :=
  stream.length - (KeyFields.of width).groupOffset stream count group <
    totalLength ((KeyFields.of width).groupLengths stream count group)

def Defective (width : ElementWidth) (stream : Bytes) (count group : Nat) : Prop :=
  (∃ slot, OverlongAt width stream count group slot) ∨ ShortAt width stream count group

/-- The keys are there, and no group in front of this one has a defect. -/
structure SoundBefore (width : ElementWidth) (stream : Bytes) (count group : Nat) : Prop where
  keyed : (KeyFields.of width).keys count ≤ stream.length
  sound : ∀ earlier, earlier < group → ¬ Defective width stream count earlier

/-- The reason for which a stream of `count` elements is refused. -/
inductive RefusedFor (width : ElementWidth) (stream : Bytes) (count : Nat) : Fault → Prop where
  | keys (lacking : stream.length < (KeyFields.of width).keys count) :
      RefusedFor width stream count
        (.truncated 0 ((KeyFields.of width).keys count) stream.length)
  | overlong {group slot : Nat} (before : SoundBefore width stream count group)
      (inside : group < (KeyFields.of width).keys count)
      (here : OverlongAt width stream count group slot)
      (lowest : ∀ lower, lower < slot → ¬ OverlongAt width stream count group lower) :
      RefusedFor width stream count
        (.overlong (stream.getD group 0)
          ((KeyFields.of width).length stream (group * (KeyFields.of width).slots + slot))
          width.bytes)
  | short {group : Nat} (before : SoundBefore width stream count group)
      (inside : group < (KeyFields.of width).keys count)
      (legal : ∀ slot, ¬ OverlongAt width stream count group slot)
      (here : ShortAt width stream count group) :
      RefusedFor width stream count
        (.truncated ((KeyFields.of width).groupOffset stream count group)
          (totalLength ((KeyFields.of width).groupLengths stream count group))
          (stream.length - (KeyFields.of width).groupOffset stream count group))
  | trailing (before : SoundBefore width stream count ((KeyFields.of width).keys count))
      (more : (KeyFields.of width).offset stream count count < stream.length) :
      RefusedFor width stream count
        (.trailing (stream.length - (KeyFields.of width).keys count -
          totalLength ((List.range count).map ((KeyFields.of width).length stream))))

/-! ## Groups of a stream -/

/-- A group inside the keys begins with an element that is there. -/
theorem mul_slots_lt (inside : group < keyCount width count) : group * width.slots < count := by
  apply Nat.lt_of_not_le
  intro covered
  have few := (Size.ceilDiv_le_iff width.slots_pos).mpr covered
  exact absurd inside (Nat.not_lt_of_le few)

theorem groupLengths_eq (width : ElementWidth) (stream : Bytes) (count group : Nat) :
    (KeyFields.of width).groupLengths stream count group =
      lengthsOf width (stream.getD group 0) (min (count - group * width.slots) width.slots) := by
  rw [KeyFields.groupLengths, KeyFields.present, keyFields_slots, lengthsOf]
  apply List.map_congr_left
  intro slot member
  have below : slot < width.slots :=
    Nat.lt_of_lt_of_le (List.mem_range.mp member) (Nat.min_le_right _ _)
  rw [keyFields_length, recordedLength_slot below]

/-- The elements in front of a group and those of the group are in front of the next one. -/
theorem recordedLengths_group (width : ElementWidth) (stream : Bytes) (count group : Nat) :
    recordedLengths width stream (min count ((group + 1) * width.slots)) =
      recordedLengths width stream (min count (group * width.slots)) ++
        (KeyFields.of width).groupLengths stream count group := by
  have size : min count ((group + 1) * width.slots) =
      min count (group * width.slots) + min (count - group * width.slots) width.slots := by
    rw [Nat.succ_mul]
    omega
  rw [recordedLengths, size, List.range_add, List.map_append, List.map_map, recordedLengths,
    KeyFields.groupLengths, KeyFields.present, keyFields_slots]
  congr 1
  apply List.map_congr_left
  intro slot member
  have some := List.mem_range.mp member
  -- A group with elements in it comes behind full ones only.
  have full : min count (group * width.slots) = group * width.slots := by omega
  rw [Function.comp, keyFields_length, full]

def reached (width : ElementWidth) (stream : Bytes) (count group : Nat) : Nat :=
  position width stream count (min count (group * width.slots))

theorem reached_succ (width : ElementWidth) (stream : Bytes) (count group : Nat) :
    reached width stream count (group + 1) = reached width stream count group +
      totalLength ((KeyFields.of width).groupLengths stream count group) := by
  rw [reached, reached, position, position, recordedLengths_group, totalLength_append,
    Nat.add_assoc]

theorem groupOffset_eq (inside : group < keyCount width count) :
    (KeyFields.of width).groupOffset stream count group = reached width stream count group := by
  have full := Nat.min_eq_right (Nat.le_of_lt (mul_slots_lt inside))
  rw [KeyFields.groupOffset, keyFields_slots, keyFields_offset, reached, full]

theorem reached_keyCount (width : ElementWidth) (stream : Bytes) (count : Nat) :
    reached width stream count (keyCount width count) = span width stream count := by
  have full : min count (keyCount width count * width.slots) = count :=
    Nat.min_eq_left (Size.ceilDiv_mul_ge width.slots_pos)
  rw [reached, full]
  rfl

/-! ## What the reader sees of a defect -/

theorem find?_eq_none_of_legal (legal : ∀ slot, ¬ OverlongAt width stream count group slot) :
    ((KeyFields.of width).groupLengths stream count group).find?
      (fun length => width.bytes < length) = none := by
  rw [find?_overlong_eq_none_iff]
  intro length member
  obtain ⟨slot, inside, rfl⟩ := List.mem_map.mp member
  exact Nat.le_of_not_lt fun long => legal slot ⟨List.mem_range.mp inside, long⟩

/-- The first overlong length is the one in the lowest overlong slot. -/
theorem find?_eq_some_of_lowest (here : OverlongAt width stream count group slot)
    (lowest : ∀ lower, lower < slot → ¬ OverlongAt width stream count group lower) :
    ((KeyFields.of width).groupLengths stream count group).find?
      (fun length => width.bytes < length) =
        some ((KeyFields.of width).length stream (group * (KeyFields.of width).slots + slot)) := by
  have found : (List.range ((KeyFields.of width).present count group)).find?
      (fun slot => width.bytes <
        (KeyFields.of width).length stream (group * (KeyFields.of width).slots + slot)) =
          some slot := by
    rw [List.find?_range_eq_some]
    refine ⟨decide_eq_true here.2, List.mem_range.mpr here.1, ?_⟩
    intro lower below
    have legal : ¬ width.bytes <
        (KeyFields.of width).length stream (group * (KeyFields.of width).slots + lower) :=
      fun long => lowest lower below ⟨Nat.lt_trans below here.1, long⟩
    rw [decide_eq_false legal]
    rfl
  rw [KeyFields.groupLengths, List.find?_map]
  exact congrArg (Option.map _) found

/-! ## Reading from a group on -/

/-- The elements from a group on, as they are read once the groups in front are done. -/
def decodeFrom (width : ElementWidth) (stream : Bytes) (count group : Nat) :
    Except Fault (List (Word width)) :=
  decodeGroups width ((stream.take (keyCount width count)).drop group)
    (count - group * width.slots) (reached width stream count group)
    (stream.drop (reached width stream count group))

theorem decodeFrom_zero (keyed : keyCount width count ≤ stream.length) :
    decodeFrom width stream count 0 = decode width stream count := by
  have start : reached width stream count 0 = keyCount width count := by
    rw [reached, Nat.zero_mul, Nat.min_zero]
    rfl
  rw [decodeFrom, decode, Bytes.splitExact?, if_pos keyed, start, Nat.zero_mul, Nat.sub_zero,
    List.drop_zero]
  dsimp only
  rw [List.length_take_of_le keyed]

section Group

variable (keyed : keyCount width count ≤ stream.length) (inside : group < keyCount width count)
include keyed inside

/-- The key of a group is the first one that is left. -/
theorem decodeFrom_eq : decodeFrom width stream count group =
    decodeGroups width
      (stream.getD group 0 :: (stream.take (keyCount width count)).drop (group + 1))
      (count - group * width.slots) (reached width stream count group)
      (stream.drop (reached width stream count group)) := by
  have left : group < (stream.take (keyCount width count)).length := by
    rwa [List.length_take_of_le keyed]
  rw [decodeFrom, List.drop_eq_getElem_cons left, List.getElem_take,
    List.getD_eq_getElem _ _ (Nat.lt_of_lt_of_le inside keyed)]

theorem decodeFrom_overlong (here : OverlongAt width stream count group slot)
    (lowest : ∀ lower, lower < slot → ¬ OverlongAt width stream count group lower) :
    decodeFrom width stream count group = .error (.overlong (stream.getD group 0)
      ((KeyFields.of width).length stream (group * (KeyFields.of width).slots + slot))
      width.bytes) := by
  have found := find?_eq_some_of_lowest here lowest
  rw [groupLengths_eq] at found
  rw [decodeFrom_eq keyed inside, decodeGroups_overlong _ _ found]

theorem decodeFrom_short (legal : ∀ slot, ¬ OverlongAt width stream count group slot)
    (here : ShortAt width stream count group) :
    decodeFrom width stream count group =
      .error (.truncated ((KeyFields.of width).groupOffset stream count group)
        (totalLength ((KeyFields.of width).groupLengths stream count group))
        (stream.length - (KeyFields.of width).groupOffset stream count group)) := by
  have found := find?_eq_none_of_legal legal
  rw [ShortAt, groupOffset_eq inside] at here
  rw [groupLengths_eq] at found here
  rw [decodeFrom_eq keyed inside, decodeGroups_truncated _ _ found (by rwa [List.length_drop]),
    List.length_drop, groupOffset_eq inside, groupLengths_eq]

/-- A group without a defect is read, and the others behind it. -/
theorem decodeFrom_sound (sound : ¬ Defective width stream count group) :
    decodeFrom width stream count group =
      (decodeFrom width stream count (group + 1) >>= fun others =>
        pure (readWords width ((KeyFields.of width).groupLengths stream count group)
          (stream.drop (reached width stream count group)) ++ others)) := by
  have found := find?_eq_none_of_legal fun slot long => sound (.inl ⟨slot, long⟩)
  have enough := Nat.le_of_not_lt fun short => sound (.inr short)
  have rest : count - (group + 1) * width.slots =
      count - group * width.slots - min (count - group * width.slots) width.slots := by
    rw [Nat.succ_mul]
    omega
  have next := reached_succ width stream count group
  rw [groupOffset_eq inside, ← List.length_drop] at enough
  rw [groupLengths_eq] at found enough next ⊢
  rw [decodeFrom_eq keyed inside, decodeGroups_group _ _ found enough, decodeFrom, rest, next,
    List.drop_drop]

end Group

/-- Behind sound groups there is the same fault as in the whole stream. -/
theorem decode_eq_error_iff_from (before : SoundBefore width stream count group)
    (inside : group ≤ keyCount width count) :
    decode width stream count = .error fault ↔
      decodeFrom width stream count group = .error fault := by
  obtain ⟨keyed, sound⟩ := before
  rw [keyFields_keys] at keyed
  induction group with
  | zero => rw [decodeFrom_zero keyed]
  | succ group ih =>
      rw [ih (Nat.le_of_succ_le inside) fun earlier less => sound earlier (Nat.lt_succ_of_lt less),
        decodeFrom_sound keyed inside (sound group (Nat.lt_succ_self group)),
        Fallible.bind_eq_error_iff]
      constructor
      · rintro (refused | ⟨_, _, impossible⟩)
        · exact refused
        · cases impossible
      · exact .inl

theorem decodeFrom_keyCount_eq_error_iff (keyed : keyCount width count ≤ stream.length) :
    decodeFrom width stream count (keyCount width count) = .error fault ↔
      span width stream count < stream.length ∧
        fault = .trailing (stream.length - span width stream count) := by
  have done : (stream.take (keyCount width count)).drop (keyCount width count) = [] :=
    List.drop_eq_nil_of_le (Nat.le_of_eq (List.length_take_of_le keyed))
  rw [decodeFrom, done, reached_keyCount, decodeGroups, List.length_drop]
  split
  next nothing =>
    constructor
    · intro impossible
      cases impossible
    · rintro ⟨more, _⟩
      omega
  next some =>
    constructor
    · intro same
      cases same
      exact ⟨by omega, rfl⟩
    · rintro ⟨_, rfl⟩
      rfl

/-! ## The reason of a refusal -/

theorem RefusedFor.decode_eq (refused : RefusedFor width stream count fault) :
    decode width stream count = .error fault := by
  cases refused with
  | keys lacking =>
      rw [keyFields_keys] at lacking ⊢
      rw [decode, Bytes.splitExact?_eq_none_iff.mpr lacking]
  | overlong before inside here lowest =>
      have keyed := before.keyed
      rw [keyFields_keys] at keyed inside
      rw [decode_eq_error_iff_from before (Nat.le_of_lt inside)]
      exact decodeFrom_overlong keyed inside here lowest
  | short before inside legal here =>
      have keyed := before.keyed
      rw [keyFields_keys] at keyed inside
      rw [decode_eq_error_iff_from before (Nat.le_of_lt inside)]
      exact decodeFrom_short keyed inside legal here
  | trailing before more =>
      have keyed := before.keyed
      rw [keyFields_keys] at keyed before
      rw [decode_eq_error_iff_from before (Nat.le_refl _), decodeFrom_keyCount_eq_error_iff keyed]
      rw [keyFields_offset] at more
      refine ⟨more, ?_⟩
      rw [Nat.sub_sub, keyFields_keys, funext (keyFields_length width stream)]
      rfl

theorem exists_refusedFor (refused : decode width stream count = .error fault) :
    ∃ reason, RefusedFor width stream count reason := by
  by_cases keyed : (KeyFields.of width).keys count ≤ stream.length
  · by_cases some : ∃ group, group < (KeyFields.of width).keys count ∧
        Defective width stream count group
    · obtain ⟨group, ⟨inside, defect⟩, first⟩ := wellFounded_lt.has_min _ some
      have before : SoundBefore width stream count group :=
        ⟨keyed, fun earlier less defect => first earlier ⟨Nat.lt_trans less inside, defect⟩ less⟩
      by_cases long : ∃ slot, OverlongAt width stream count group slot
      · obtain ⟨slot, here, lowest⟩ := wellFounded_lt.has_min _ long
        exact ⟨_, .overlong before inside here fun lower below long => lowest lower long below⟩
      · have legal := not_exists.mp long
        exact ⟨_, .short before inside legal (defect.resolve_left long)⟩
    · have before : SoundBefore width stream count ((KeyFields.of width).keys count) :=
        ⟨keyed, fun earlier less defect => some ⟨earlier, less, defect⟩⟩
      have more : (KeyFields.of width).offset stream count count < stream.length := by
        have within := before
        rw [keyFields_keys] at keyed within
        rw [decode_eq_error_iff_from within (Nat.le_refl _),
          decodeFrom_keyCount_eq_error_iff keyed] at refused
        rw [keyFields_offset]
        exact refused.1
      exact ⟨_, .trailing before more⟩
  · exact ⟨_, .keys (Nat.lt_of_not_le keyed)⟩

theorem decode_eq_error_iff_refusedFor :
    decode width stream count = .error fault ↔ RefusedFor width stream count fault := by
  constructor
  · intro refused
    obtain ⟨reason, found⟩ := exists_refusedFor refused
    have same := found.decode_eq
    rw [refused] at same
    cases same
    exact found
  · exact RefusedFor.decode_eq

/-- Every length that a key of four-byte words can record is legal. -/
theorem not_overlongAt_four : ¬ OverlongAt .four stream count group slot := by
  rintro ⟨_, long⟩
  rw [keyFields_length] at long
  have least := lengthAt_le_radix .four
    (stream.getD ((group * (KeyFields.of .four).slots + slot) / ElementWidth.four.slots) 0)
    ((group * (KeyFields.of .four).slots + slot) % ElementWidth.four.slots)
  exact absurd long (Nat.not_lt_of_le least)

/--
Reading fails exactly with the reason of the first defect, and so does the reader
that looks at keys through masks.  A block that is too short has fewer bytes than it
needs, what is left over is not empty, and four-byte words have no overlong length.
-/
theorem refused_for_first_defect (width : ElementWidth) (stream : Bytes) (count : Nat) :
    (∀ fault, decode width stream count = .error fault ↔ RefusedFor width stream count fault) ∧
    (∀ fault, Walk.Follows (Cursor.read width stream count) (.error fault) ↔
      RefusedFor width stream count fault) ∧
    (∀ offset needed available,
      decode width stream count = .error (.truncated offset needed available) →
        available < needed) ∧
    (∀ left, decode width stream count = .error (.trailing left) → 0 < left) ∧
    ∀ key length bytes, decode .four stream count ≠ .error (.overlong key length bytes) := by
  refine ⟨fun _ => decode_eq_error_iff_refusedFor, ?_, ?_, ?_, ?_⟩
  · intro fault
    have walked := Cursor.read_follows width stream count
    rw [Walk.Follows] at walked ⊢
    rw [walked, Option.some_inj]
    exact decode_eq_error_iff_refusedFor
  · intro offset needed available refused
    cases decode_eq_error_iff_refusedFor.mp refused with
    | keys lacking => exact lacking
    | short _ _ _ here => exact here
  · intro left refused
    cases decode_eq_error_iff_refusedFor.mp refused with
    | trailing before more =>
        rw [Nat.sub_sub]
        exact Nat.sub_pos_of_lt more
  · intro key length bytes refused
    cases decode_eq_error_iff_refusedFor.mp refused with
    | overlong _ _ here _ => exact not_overlongAt_four here

/-- The second group is overlong and short, and the lower one of its overlong slots counts. -/
theorem refused_for_first_defect_second_group :
    RefusedFor .two [0, 0b11100100, 1, 2, 3, 4, 5] 8 (.overlong 0b11100100 3 2) ∧
    ¬ RefusedFor .two [0, 0b11100100, 1, 2, 3, 4, 5] 8 (.truncated 6 10 1) ∧
    RefusedFor .four [0, 0b11100100, 1, 2, 3, 4, 5] 8 (.truncated 6 10 1) ∧ 1 < 10 ∧
    RefusedFor .four [0, 7, 7] 1 (.trailing 1) ∧ 0 < 1 := by
  have long : decode .two [0, 0b11100100, 1, 2, 3, 4, 5] 8 =
      .error (.overlong 0b11100100 3 2) := rfl
  have short : decode .four [0, 0b11100100, 1, 2, 3, 4, 5] 8 = .error (.truncated 6 10 1) := rfl
  have behind : decode .four [0, 7, 7] 1 = .error (.trailing 1) := rfl
  obtain ⟨reasons, _⟩ := refused_for_first_defect .two [0, 0b11100100, 1, 2, 3, 4, 5] 8
  obtain ⟨wideReasons, _, lacking, _⟩ :=
    refused_for_first_defect .four [0, 0b11100100, 1, 2, 3, 4, 5] 8
  obtain ⟨behindReasons, _, _, left, _⟩ := refused_for_first_defect .four [0, 7, 7] 1
  refine ⟨(reasons _).mp long, ?_, (wideReasons _).mp short, lacking _ _ _ short,
    (behindReasons _).mp behind, left _ behind⟩
  intro other
  have same := (reasons _).mpr other
  rw [long] at same
  cases same

end GroupVarint

end SeriesCodec
