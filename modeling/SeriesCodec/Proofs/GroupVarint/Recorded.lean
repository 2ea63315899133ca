import SeriesCodec.GroupVarint.Stream
import SeriesCodec.Proofs.Fallible

/-!
# Recorded lengths

The keys at the front of a stream record a length for every element, and the
length of element `index` stands in slot `index % slots` of key
`index / slots`, however many elements there are.  A stream is one of `count`
elements exactly when their recorded lengths are legal and, together with the
keys, use up the stream.
-/

namespace SeriesCodec

namespace GroupVarint

variable {width : ElementWidth}

def recordedLength (width : ElementWidth) (stream : Bytes) (index : Nat) : Nat :=
  lengthAt width (stream.getD (index / width.slots) 0) (index % width.slots)

def recordedLengths (width : ElementWidth) (stream : Bytes) (count : Nat) : List Nat :=
  (List.range count).map (recordedLength width stream)

/-- The size of a stream of `count` elements, by the lengths that it records. -/
def span (width : ElementWidth) (stream : Bytes) (count : Nat) : Nat :=
  keyCount width count + totalLength (recordedLengths width stream count)

/-- The stream is one of `count` elements. -/
structure Holds (width : ElementWidth) (stream : Bytes) (count : Nat) : Prop where
  legal : ∀ index, index < count → recordedLength width stream index ≤ width.bytes
  size : stream.length = span width stream count

/-! ## Keys and groups -/

@[simp] theorem keyCount_zero (width : ElementWidth) : keyCount width 0 = 0 := by
  cases width <;> rfl

/-- The last element has a key. -/
theorem div_slots_lt_keyCount (width : ElementWidth) {index count : Nat} (inside : index < count) :
    index / width.slots < keyCount width count := by
  have floor := Nat.div_mul_le_self index width.slots
  apply Nat.lt_of_not_le
  intro few
  have covered := (Size.ceilDiv_le_iff width.slots_pos).mp few
  omega

theorem eq_zero_of_keyCount_eq_zero {count : Nat} (none : keyCount width count = 0) :
    count = 0 := by
  apply Nat.eq_zero_of_not_pos
  intro some
  have key := div_slots_lt_keyCount width some
  rw [none] at key
  cases key

/-- Without its first group a series needs one key less. -/
theorem keyCount_eq_succ {count groups : Nat} (keys : keyCount width count = groups + 1) :
    0 < count ∧ keyCount width (count - width.slots) = groups := by
  have positive := width.slots_pos
  have least (bound : Nat) : keyCount width count ≤ bound ↔ count ≤ bound * width.slots :=
    Size.ceilDiv_le_iff positive
  have leastRest (bound : Nat) : keyCount width (count - width.slots) ≤ bound ↔
      count - width.slots ≤ bound * width.slots := Size.ceilDiv_le_iff positive
  refine ⟨?_, ?_⟩
  · apply Nat.pos_of_ne_zero
    intro empty
    rw [empty, keyCount_zero] at keys
    cases keys
  · apply Nat.le_antisymm
    · have enough := (least (groups + 1)).mp (Nat.le_of_eq keys)
      rw [Nat.succ_mul] at enough
      exact (leastRest groups).mpr (by omega)
    · cases groups with
      | zero => exact Nat.zero_le _
      | succ groups =>
          apply Nat.lt_of_not_le
          intro few
          have rest := (leastRest groups).mp few
          have whole := (least (groups + 1)).mpr (by rw [Nat.succ_mul]; omega)
          omega

/-! ## Recorded lengths along a stream -/

theorem recordedLength_pos (width : ElementWidth) (stream : Bytes) (index : Nat) :
    0 < recordedLength width stream index :=
  lengthAt_pos width _ _

/-- The slots of some keys are as many as elements in full groups. -/
theorem slot_lt {key groups slot : Nat} (inside : key < groups) (below : slot < width.slots) :
    key * width.slots + slot < groups * width.slots := by
  have next := Nat.mul_le_mul_right width.slots (Nat.succ_le_of_lt inside)
  rw [Nat.succ_mul] at next
  omega

/-- The length in one slot of one key. -/
theorem recordedLength_slot {slot : Nat} (below : slot < width.slots) (stream : Bytes) (key : Nat) :
    recordedLength width stream (key * width.slots + slot) =
      lengthAt width (stream.getD key 0) slot := by
  rw [recordedLength, Nat.mul_comm, Nat.mul_add_div width.slots_pos, Nat.div_eq_of_lt below,
    Nat.add_zero, Nat.mul_add_mod, Nat.mod_eq_of_lt below]

@[simp] theorem recordedLengths_length (stream : Bytes) (count : Nat) :
    (recordedLengths width stream count).length = count := by
  simp [recordedLengths]

theorem mem_recordedLengths {stream : Bytes} {count length : Nat} :
    length ∈ recordedLengths width stream count ↔
      ∃ index, index < count ∧ recordedLength width stream index = length := by
  simp [recordedLengths]

/-- The lengths of a group stand in its key, those of later groups in later keys. -/
theorem recordedLengths_cons (width : ElementWidth) (key : UInt8) (keys : Bytes) (count : Nat) :
    recordedLengths width (key :: keys) count =
      lengthsOf width key (min count width.slots) ++
        recordedLengths width keys (count - width.slots) := by
  have positive := width.slots_pos
  have first (index : Nat) (inside : index < width.slots) :
      recordedLength width (key :: keys) index = lengthAt width key index := by
    rw [recordedLength, Nat.div_eq_of_lt inside, Nat.mod_eq_of_lt inside]
    rfl
  have later (index : Nat) :
      recordedLength width (key :: keys) (width.slots + index) =
        recordedLength width keys index := by
    rw [recordedLength, Nat.add_div_left _ positive, Nat.add_mod_left]
    rfl
  have split : count = min count width.slots + (count - width.slots) := by omega
  rw [recordedLengths, lengthsOf, recordedLengths]
  conv => lhs; rw [split]
  rw [List.range_add, List.map_append, List.map_map]
  congr 1
  · apply List.map_congr_left
    intro index member
    have inside := List.mem_range.mp member
    exact first index (by omega)
  · apply List.map_congr_left
    intro index member
    have inside := List.mem_range.mp member
    have full : min count width.slots = width.slots := by omega
    rw [Function.comp, full]
    exact later index

/-- Bytes in front of a stream take up slots, and its own lengths go to later elements. -/
theorem recordedLengths_behind (front back : Bytes) (count : Nat) :
    recordedLengths width (front ++ back) count =
      recordedLengths width front (min count (front.length * width.slots)) ++
        recordedLengths width back (count - front.length * width.slots) := by
  induction front generalizing count with
  | nil => simp [recordedLengths]
  | cons key keys ih =>
      have slots : (key :: keys).length * width.slots =
          keys.length * width.slots + width.slots := Nat.succ_mul _ _
      have first : min (min count (keys.length * width.slots + width.slots)) width.slots =
          min count width.slots := by omega
      have others : min count (keys.length * width.slots + width.slots) - width.slots =
          min (count - width.slots) (keys.length * width.slots) := by omega
      have beyond : count - (keys.length * width.slots + width.slots) =
          count - width.slots - keys.length * width.slots := by omega
      rw [List.cons_append, recordedLengths_cons, recordedLengths_cons, ih, slots, first, others,
        beyond, List.append_assoc]

/-- Bytes behind the keys do not matter. -/
theorem recordedLengths_append {keys : Bytes} {count : Nat}
    (enough : keyCount width count ≤ keys.length) (data : Bytes) :
    recordedLengths width (keys ++ data) count = recordedLengths width keys count := by
  have inside : count ≤ keys.length * width.slots :=
    (Size.ceilDiv_le_iff width.slots_pos).mp enough
  rw [recordedLengths_behind, Nat.min_eq_left inside, Nat.sub_eq_zero_of_le inside]
  exact List.append_nil _

theorem recordedLengths_take (stream : Bytes) {fewer more : Nat} (le : fewer ≤ more) :
    (recordedLengths width stream more).take fewer = recordedLengths width stream fewer := by
  rw [recordedLengths, ← List.map_take, List.take_range, Nat.min_eq_left le]
  rfl

theorem recordedLengths_succ (stream : Bytes) (count : Nat) :
    recordedLengths width stream (count + 1) =
      recordedLengths width stream count ++ [recordedLength width stream count] := by
  rw [recordedLengths, List.range_succ, List.map_append]
  rfl

theorem totalLength_recordedLengths_succ (stream : Bytes) (count : Nat) :
    totalLength (recordedLengths width stream (count + 1)) =
      totalLength (recordedLengths width stream count) +
        recordedLength width stream count := by
  rw [recordedLengths_succ, totalLength_append]
  rfl

theorem totalLength_take_add_drop (lengths : List Nat) (index : Nat) :
    totalLength (lengths.take index) + totalLength (lengths.drop index) = totalLength lengths := by
  rw [← totalLength_append, List.take_append_drop]

theorem totalLength_le {lengths : List Nat} {bound : Nat}
    (legal : ∀ length ∈ lengths, length ≤ bound) :
    totalLength lengths ≤ lengths.length * bound := by
  induction lengths with
  | nil => exact Nat.zero_le _
  | cons length rest ih =>
      have here := legal length List.mem_cons_self
      have others := ih fun other member => legal other (List.mem_cons_of_mem _ member)
      rw [totalLength, List.length_cons, Nat.succ_mul]
      omega

theorem length_le_totalLength {lengths : List Nat} (positive : ∀ length ∈ lengths, 0 < length) :
    lengths.length ≤ totalLength lengths := by
  induction lengths with
  | nil => exact Nat.le_refl _
  | cons length rest ih =>
      have here := positive length List.mem_cons_self
      have others := ih fun other member => positive other (List.mem_cons_of_mem _ member)
      rw [totalLength, List.length_cons]
      omega

theorem keyCount_mono {fewer more : Nat} (le : fewer ≤ more) :
    keyCount width fewer ≤ keyCount width more :=
  Size.ceilDiv_mono width.slots_pos le

theorem totalLength_recordedLengths_strictMono {stream : Bytes} {fewer more : Nat}
    (less : fewer < more) :
    totalLength (recordedLengths width stream fewer) <
      totalLength (recordedLengths width stream more) := by
  induction less with
  | refl =>
      rw [totalLength_recordedLengths_succ]
      exact Nat.lt_add_of_pos_right (recordedLength_pos width stream fewer)
  | step _ ih =>
      rw [totalLength_recordedLengths_succ]
      exact Nat.lt_add_right _ ih

/-- More elements demand a longer stream, whatever the keys say about them. -/
theorem span_strictMono {stream : Bytes} {fewer more : Nat} (less : fewer < more) :
    span width stream fewer < span width stream more :=
  Nat.add_lt_add_of_le_of_lt (keyCount_mono (Nat.le_of_lt less))
    (totalLength_recordedLengths_strictMono less)

/-! ## Reading -/

theorem readWords_append (front back : List Nat) (data : Bytes) :
    readWords width (front ++ back) data =
      readWords width front data ++ readWords width back (data.drop (totalLength front)) := by
  induction front generalizing data with
  | nil => simp [readWords, totalLength]
  | cons length rest ih =>
      simp only [List.cons_append, readWords, ih, totalLength, List.drop_drop]

/-- No length of a list is overlong exactly when the search for one finds none. -/
theorem find?_overlong_eq_none_iff {lengths : List Nat} {bound : Nat} :
    (lengths.find? fun length => bound < length) = none ↔
      ∀ length ∈ lengths, length ≤ bound := by
  simp

/-- One group is read exactly if its lengths are legal and its bytes are there. -/
theorem decodeGroups_cons_eq_ok_iff {key : UInt8} {keys data : Bytes} {count offset : Nat}
    {words : List (Word width)} {lengths : List Nat}
    (described : lengths = lengthsOf width key (min count width.slots)) :
    decodeGroups width (key :: keys) count offset data = .ok words ↔
      (∀ length ∈ lengths, length ≤ width.bytes) ∧ totalLength lengths ≤ data.length ∧
      ∃ others, decodeGroups width keys (count - min count width.slots)
          (offset + totalLength lengths) (data.drop (totalLength lengths)) = .ok others ∧
        words = readWords width lengths data ++ others := by
  subst described
  cases found : (lengthsOf width key (min count width.slots)).find?
      fun length => width.bytes < length with
  | some length =>
      have member := List.mem_of_find?_eq_some found
      have long : width.bytes < length := by simpa using List.find?_some found
      rw [decodeGroups_overlong keys offset found]
      constructor
      · intro impossible
        cases impossible
      · rintro ⟨legal, _⟩
        exact absurd (legal length member) (Nat.not_le_of_lt long)
  | none =>
      have legal := find?_overlong_eq_none_iff.mp found
      by_cases short : data.length < totalLength (lengthsOf width key (min count width.slots))
      · rw [decodeGroups_truncated keys offset found short]
        constructor
        · intro impossible
          cases impossible
        · rintro ⟨_, enough, _⟩
          exact absurd enough (Nat.not_le_of_lt short)
      · have enough := Nat.le_of_not_lt short
        rw [decodeGroups_group keys offset found enough, Fallible.bind_eq_ok_iff]
        constructor
        · rintro ⟨others, read, joined⟩
          cases joined
          exact ⟨legal, enough, others, read, rfl⟩
        · rintro ⟨_, _, others, read, rfl⟩
          exact ⟨others, read, rfl⟩

theorem decodeGroups_eq_ok_iff {keys data : Bytes} {count offset : Nat}
    {words : List (Word width)} (keyed : keyCount width count = keys.length) :
    decodeGroups width keys count offset data = .ok words ↔
      (∀ length ∈ recordedLengths width keys count, length ≤ width.bytes) ∧
      data.length = totalLength (recordedLengths width keys count) ∧
      words = readWords width (recordedLengths width keys count) data := by
  induction keys generalizing count offset data words with
  | nil =>
      obtain rfl := eq_zero_of_keyCount_eq_zero keyed
      simp only [decodeGroups, recordedLengths, List.range_zero, List.map_nil,
        totalLength, readWords]
      split <;> simp_all [eq_comm]
  | cons key keys ih =>
      obtain ⟨_, fewer⟩ := keyCount_eq_succ keyed
      have rest : count - min count width.slots = count - width.slots := by omega
      rw [recordedLengths_cons width key keys count, totalLength_append, readWords_append,
        decodeGroups_cons_eq_ok_iff rfl, rest]
      simp only [ih fewer, List.length_drop]
      constructor
      · rintro ⟨first, enough, others, ⟨legal, size, rfl⟩, joined⟩
        refine ⟨?_, by omega, joined⟩
        intro length member
        rcases List.mem_append.mp member with here | later
        · exact first length here
        · exact legal length later
      · rintro ⟨legal, size, joined⟩
        refine ⟨?_, by omega, _, ⟨?_, by omega, rfl⟩, joined⟩
        · intro length member
          exact legal length (List.mem_append_left _ member)
        · intro length member
          exact legal length (List.mem_append_right _ member)

/-- Reading gives the words of the recorded lengths, and only if the stream is one. -/
theorem decode_eq_ok_iff_holds {stream : Bytes} {count : Nat} {words : List (Word width)} :
    decode width stream count = .ok words ↔
      Holds width stream count ∧
      words = readWords width (recordedLengths width stream count)
        (stream.drop (keyCount width count)) := by
  unfold decode
  cases cut : Bytes.splitExact? (keyCount width count) stream with
  | none =>
      have short := Bytes.splitExact?_eq_none_iff.mp cut
      constructor
      · intro impossible
        cases impossible
      · rintro ⟨held, _⟩
        have size := held.size
        simp only [span] at size
        omega
  | some parts =>
      obtain ⟨keys, data⟩ := parts
      obtain ⟨rfl, keyed⟩ := Bytes.splitExact?_eq_some_iff.mp cut
      have front := recordedLengths_append (Nat.le_of_eq keyed.symm) data
      have back : (keys ++ data).drop (keyCount width count) = data := by
        rw [← keyed, List.drop_left]
      simp only
      rw [decodeGroups_eq_ok_iff keyed.symm, ← front, back]
      constructor
      · rintro ⟨legal, size, rfl⟩
        refine ⟨⟨?_, ?_⟩, rfl⟩
        · intro index inside
          exact legal _ (mem_recordedLengths.mpr ⟨index, inside, rfl⟩)
        · rw [List.length_append, keyed, size, span]
      · rintro ⟨held, rfl⟩
        refine ⟨?_, ?_, rfl⟩
        · intro length member
          obtain ⟨index, inside, rfl⟩ := mem_recordedLengths.mp member
          exact held.legal index inside
        · have size := held.size
          rw [List.length_append, keyed, span] at size
          omega

theorem decode_isOk_iff_holds {stream : Bytes} {count : Nat} :
    (∃ words, decode width stream count = .ok words) ↔ Holds width stream count := by
  constructor
  · rintro ⟨words, read⟩
    exact (decode_eq_ok_iff_holds.mp read).1
  · intro held
    exact ⟨_, decode_eq_ok_iff_holds.mpr ⟨held, rfl⟩⟩

end GroupVarint

end SeriesCodec
