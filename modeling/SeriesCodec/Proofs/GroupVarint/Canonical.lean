import Mathlib.Data.List.GetD
import SeriesCodec.Proofs.GroupVarint.Inverse
import SeriesCodec.Proofs.GroupVarint.Layout

/-!
# Canonical streams

A reader accepts more than what is written: lengths with leading zero bytes, and
anything in the slots behind the last element.  Writing the words again gives the
one stream for them that has neither, and no stream for them is shorter.
-/

namespace SeriesCodec

namespace LittleEndian

/-- No byte could be left out: the last one is not zero, unless it is the only one. -/
def Tight (bytes : Bytes) : Prop :=
  bytes.length = 1 ∨ ∃ high, bytes.getLast? = some high ∧ high ≠ 0

theorem value_append (front back : Bytes) :
    value (front ++ back) = value front + bound front.length * value back := by
  induction front with
  | nil =>
      have one : bound 0 = 1 := rfl
      rw [List.nil_append, List.length_nil, one, Nat.one_mul, value, Nat.zero_add]
  | cons byte rest ih =>
      rw [List.cons_append, value, value, ih, List.length_cons, bound_succ,
        Nat.mul_comm (bound _) 256, Nat.mul_add, Nat.mul_assoc, Nat.add_assoc]

/-- The last of several bytes decides whether fewer bytes would do. -/
theorem minimalLength_value_concat_le_iff {front : Bytes} (several : 0 < front.length)
    (high : UInt8) : minimalLength (value (front ++ [high])) ≤ front.length ↔ high = 0 := by
  have single : value [high] = high.toNat := Nat.add_zero _
  have low := value_lt front
  rw [minimalLength_le_iff several, value_append, single]
  constructor
  · intro small
    apply UInt8.toNat_inj.mp
    apply Nat.eq_zero_of_not_pos
    intro positive
    have large := Nat.le_mul_of_pos_right (bound front.length) positive
    omega
  · rintro rfl
    exact low

theorem minimalLength_value_le {bytes : Bytes} (nonempty : 0 < bytes.length) :
    minimalLength (value bytes) ≤ bytes.length :=
  (minimalLength_le_iff nonempty).mpr (value_lt bytes)

theorem minimalLength_value_eq_iff {bytes : Bytes} (nonempty : 0 < bytes.length) :
    minimalLength (value bytes) = bytes.length ↔ Tight bytes := by
  have least := minimalLength_value_le nonempty
  have positive := minimalLength_pos (value bytes)
  rcases List.eq_nil_or_concat bytes with rfl | ⟨front, high, rfl⟩
  · cases nonempty
  · rw [List.concat_eq_append] at least positive ⊢
    have size : (front ++ [high]).length = front.length + 1 := List.length_append
    have last : (front ++ [high]).getLast? = some high := List.getLast?_concat
    rw [size] at least
    rw [Tight, size, last]
    by_cases several : 0 < front.length
    · have fewer := minimalLength_value_concat_le_iff several high
      constructor
      · intro same
        refine .inr ⟨high, rfl, ?_⟩
        rw [ne_eq, ← fewer]
        omega
      · rintro (short | ⟨_, same, nonzero⟩)
        · omega
        · cases same
          rw [ne_eq, ← fewer] at nonzero
          omega
    · constructor
      · intro _
        exact .inl (by omega)
      · intro _
        omega

end LittleEndian

namespace GroupVarint

variable {width : ElementWidth} {stream : Bytes} {count index : Nat} {words : List (Word width)}

/--
No element has a length with leading zero bytes, and the slots of the last key that
belong to no element are zero, so that they record one byte.
-/
structure Canonical (width : ElementWidth) (stream : Bytes) (count : Nat) : Prop where
  tight : ∀ index, index < count → LittleEndian.Tight (stored width stream count index)
  unused : ∀ index, count ≤ index → index < keyCount width count * width.slots →
    recordedLength width stream index = 1

/-! ## Least lengths of the words that are read -/

theorem decode_length (read : decode width stream count = .ok words) : words.length = count := by
  rw [decode_eq_map_stored read, List.length_map, List.length_range]

theorem minimalLengths_of_read (read : decode width stream count = .ok words) :
    minimalLengths words = (List.range count).map fun index =>
      Word.significantBytes (Word.ofBytes (stored width stream count index) : Word width) := by
  rw [decode_eq_map_stored read, minimalLengths, List.map_map]
  rfl

section Stored

variable (held : Holds width stream count) (inside : index < count)
include held inside

theorem Holds.stored_nonempty : 0 < (stored width stream count index).length := by
  rw [held.stored_length inside]
  exact recordedLength_pos width stream index

theorem Holds.significantBytes_le :
    Word.significantBytes (Word.ofBytes (stored width stream count index) : Word width) ≤
      recordedLength width stream index := by
  rw [Word.significantBytes, held.ofBytes_stored_toNat inside, ← held.stored_length inside]
  exact LittleEndian.minimalLength_value_le (held.stored_nonempty inside)

theorem Holds.significantBytes_eq_iff :
    Word.significantBytes (Word.ofBytes (stored width stream count index) : Word width) =
      recordedLength width stream index ↔
      LittleEndian.Tight (stored width stream count index) := by
  rw [Word.significantBytes, held.ofBytes_stored_toNat inside, ← held.stored_length inside]
  exact LittleEndian.minimalLength_value_eq_iff (held.stored_nonempty inside)

end Stored

theorem minimalLengths_eq_iff (read : decode width stream count = .ok words) :
    minimalLengths words = recordedLengths width stream count ↔
      ∀ index, index < count → LittleEndian.Tight (stored width stream count index) := by
  have held := (decode_eq_ok_iff_holds.mp read).1
  rw [minimalLengths_of_read read, recordedLengths, List.map_inj_left]
  constructor
  · intro same index inside
    exact (held.significantBytes_eq_iff inside).mp (same index (List.mem_range.mpr inside))
  · intro tight index member
    have inside := List.mem_range.mp member
    exact (held.significantBytes_eq_iff inside).mpr (tight index inside)

theorem totalLength_map_le {indices : List Nat} {least recorded : Nat → Nat}
    (le : ∀ index ∈ indices, least index ≤ recorded index) :
    totalLength (indices.map least) ≤ totalLength (indices.map recorded) := by
  induction indices with
  | nil => exact Nat.le_refl _
  | cons index rest ih =>
      have here := le index List.mem_cons_self
      have others := ih fun other member => le other (List.mem_cons_of_mem _ member)
      exact Nat.add_le_add here others

/-- No stream is shorter than the one that is written for its words. -/
theorem encode_length_le_of_read (read : decode width stream count = .ok words) :
    (encode words).length ≤ stream.length := by
  have held := (decode_eq_ok_iff_holds.mp read).1
  have size := held.size
  have shorter : totalLength (minimalLengths words) ≤
      totalLength (recordedLengths width stream count) := by
    rw [minimalLengths_of_read read, recordedLengths]
    exact totalLength_map_le fun index member =>
      held.significantBytes_le (List.mem_range.mp member)
  rw [encode_length, decode_length read, size, span]
  exact Nat.add_le_add_left shorter _

/-! ## One stream for some words -/

/-- A key is known by the lengths that it records in all of its slots. -/
theorem key_eq_of_lengthAt (width : ElementWidth) {key other : UInt8}
    (same : ∀ slot, slot < width.slots → lengthAt width key slot = lengthAt width other slot) :
    key = other := by
  have bits := lowBits_eq_iff.mpr same
  rw [Nat.mul_comm, width.slots_mul_fieldBits] at bits
  apply UInt8.toNat_inj.mp
  rwa [Nat.mod_eq_of_lt key.toNat_lt, Nat.mod_eq_of_lt other.toNat_lt] at bits

/-- Keys are known by the lengths that they record. -/
theorem take_eq_of_recordedLength {first second : Bytes} {keys : Nat} (enough : keys ≤ first.length)
    (enoughSecond : keys ≤ second.length)
    (same : ∀ index, index < keys * width.slots →
      recordedLength width first index = recordedLength width second index) :
    first.take keys = second.take keys := by
  apply List.ext_getElem
  · rw [List.length_take_of_le enough, List.length_take_of_le enoughSecond]
  · intro key inside _
    rw [List.length_take_of_le enough] at inside
    rw [List.getElem_take, List.getElem_take]
    apply key_eq_of_lengthAt width
    intro slot below
    have recorded := same (key * width.slots + slot) (slot_lt inside below)
    rw [recordedLength_slot below, recordedLength_slot below,
      List.getD_eq_getElem _ _ (Nat.lt_of_lt_of_le inside enough),
      List.getD_eq_getElem _ _ (Nat.lt_of_lt_of_le inside enoughSecond)] at recorded
    exact recorded

/-- Data of least lengths are what is written for their words. -/
theorem dataOf_readWords {lengths : List Nat} {data : Bytes}
    (legal : ∀ length ∈ lengths, length ≤ width.bytes) (full : data.length = totalLength lengths)
    (least : minimalLengths (readWords width lengths data) = lengths) :
    dataOf (readWords width lengths data) = data := by
  induction lengths generalizing data with
  | nil => exact (List.eq_nil_of_length_eq_zero full).symm
  | cons length rest ih =>
      rw [totalLength] at full
      have fits := legal length List.mem_cons_self
      have front : (data.take length).length = length := List.length_take_of_le (by omega)
      have back : (data.drop length).length = totalLength rest := by
        rw [List.length_drop]
        omega
      obtain ⟨leastHere, leastThere⟩ := List.cons.inj least
      have here : Word.lowBytes (Word.ofBytes (data.take length) : Word width) length =
          data.take length := by
        have written := LittleEndian.encode_value (data.take length)
        rw [front] at written
        rw [Word.lowBytes, Word.ofBytes_toNat (Nat.le_trans (Nat.le_of_eq front) fits), written]
      have there := ih (fun other member => legal other (List.mem_cons_of_mem _ member))
        back leastThere
      rw [dataOf] at there
      rw [readWords, dataOf, List.flatMap_cons, there, leastHere, here, List.take_append_drop]

theorem canonical_encode (elements : List (Word width)) :
    Canonical width (encode elements) elements.length := by
  refine ⟨?_, ?_⟩
  · exact (minimalLengths_eq_iff (decode_encode elements)).mp (recordedLengths_encode elements).symm
  · intro index behind inside
    have beyond : (minimalLengths elements).length ≤ index := by simpa using behind
    rw [recordedLength_encode elements inside, List.getD_eq_default _ _ beyond]

/-- With unused slots of zero, every slot is the one that is written for the words. -/
theorem Canonical.recordedLength_eq (canonical : Canonical width stream count)
    (read : decode width stream count = .ok words)
    (inside : index < keyCount width count * width.slots) :
    recordedLength width stream index = recordedLength width (encode words) index := by
  have least := (minimalLengths_eq_iff read).mpr canonical.tight
  have recorded := recordedLength_encode words (by rwa [decode_length read])
  rw [recorded, least]
  by_cases used : index < count
  · rw [List.getD_eq_getElem _ _ (by simpa using used)]
    simp [recordedLengths]
  · have beyond := Nat.le_of_not_lt used
    rw [canonical.unused index beyond inside, List.getD_eq_default _ _ (by simpa using beyond)]

/-- With least lengths, the data are the ones that are written for the words. -/
theorem drop_eq_dataOf (read : decode width stream count = .ok words)
    (least : minimalLengths words = recordedLengths width stream count) :
    stream.drop (keyCount width count) = dataOf words := by
  obtain ⟨held, found⟩ := decode_eq_ok_iff_holds.mp read
  have full : (stream.drop (keyCount width count)).length =
      totalLength (recordedLengths width stream count) := by
    rw [List.length_drop, held.size, span, Nat.add_sub_cancel_left]
  have legal : ∀ length ∈ recordedLengths width stream count, length ≤ width.bytes := by
    intro length member
    obtain ⟨index, inside, rfl⟩ := mem_recordedLengths.mp member
    exact held.legal index inside
  rw [found] at least ⊢
  exact (dataOf_readWords legal full least).symm

/-- A canonical stream is the one that is written for its words. -/
theorem Canonical.eq_encode (canonical : Canonical width stream count)
    (read : decode width stream count = .ok words) : stream = encode words := by
  have least := (minimalLengths_eq_iff read).mpr canonical.tight
  have held := (decode_eq_ok_iff_holds.mp read).1
  have keyed : (keysOf width (keyCount width count) (minimalLengths words)).length =
      keyCount width count := keysOf_length _ _ _
  have written : encode words =
      keysOf width (keyCount width count) (minimalLengths words) ++ dataOf words := by
    rw [encode, decode_length read]
  have enough : keyCount width count ≤ stream.length := by
    rw [held.size, span]
    exact Nat.le_add_right _ _
  have enoughWritten : keyCount width count ≤ (encode words).length := by
    rw [encode_length, decode_length read]
    exact Nat.le_add_right _ _
  have keys := take_eq_of_recordedLength enough enoughWritten fun _ inside =>
    canonical.recordedLength_eq read inside
  calc
    stream = stream.take (keyCount width count) ++ stream.drop (keyCount width count) :=
      (List.take_append_drop _ _).symm
    _ = keysOf width (keyCount width count) (minimalLengths words) ++ dataOf words := by
      rw [keys, drop_eq_dataOf read least, written, List.take_left' keyed]
    _ = encode words := written.symm

/-- Writing what was read leads to the one canonical stream, which is the shortest. -/
theorem encode_of_read (read : decode width stream count = .ok words) :
    decode width (encode words) count = .ok words ∧
      (encode words).length ≤ stream.length ∧
      (stream = encode words ↔ Canonical width stream count) := by
  have again := decode_encode words
  rw [decode_length read] at again
  refine ⟨again, encode_length_le_of_read read, ?_⟩
  constructor
  · rintro rfl
    rw [← decode_length read]
    exact canonical_encode words
  · intro canonical
    exact canonical.eq_encode read

end GroupVarint

end SeriesCodec
