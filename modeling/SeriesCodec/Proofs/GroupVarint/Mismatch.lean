import SeriesCodec.Proofs.GroupVarint.Coincidence

/-!
# Streams written at another width

A written stream is read at another width with as many bytes of elements.  Where
both widths are narrow, or one is a single byte, the sizes never agree.  Where
one width is eight and the other two or four they agree for the series that
`Confusable` describes by the lengths of their elements, and for no others.
-/

namespace SeriesCodec

namespace GroupVarint

variable {stream : Bytes} {count : Nat}

/-- Lengths of four two-byte elements whose keys read as one eight-byte element. -/
def FourAsOne (lengths : List Nat) : Prop :=
  lengths = [1, 2, 1, 1] ∨ lengths = [2, 2, 1, 1]

/--
Whether a series whose elements take the given lengths at `writer` makes a
stream that is also one at `reader`, where exactly one of the widths is eight.
-/
def Confusable : (writer reader : ElementWidth) → (lengths : List Nat) → Prop
  | .eight, .four, lengths => 3 * lengths.countP (4 < ·) = lengths.length
  | .eight, .two, lengths => lengths = [5] ∨ lengths = [6]
  | .four, .eight, lengths =>
      lengths.length % 2 = 0 ∧ (∀ length ∈ seconds lengths, length ≤ 2) ∧
        3 * (seconds lengths).countP (1 < ·) = (seconds lengths).length
  | .two, .eight, lengths => FourAsOne lengths
  | _, _, _ => False

/-! ## Arbitrary streams -/

/-- A stream of one width is one of another exactly if that is legal and the sizes agree. -/
theorem Holds.other_iff {width other : ElementWidth} {otherCount : Nat}
    (held : Holds width stream count) :
    Holds other stream otherCount ↔
      (∀ index, index < otherCount → recordedLength other stream index ≤ other.bytes) ∧
        span width stream count = span other stream otherCount := by
  rw [← held.size]
  exact ⟨fun found => ⟨found.legal, found.size⟩, fun ⟨legal, size⟩ => ⟨legal, size⟩⟩

theorem countP_recordedLengths_eight (stream : Bytes) (count : Nat) :
    (recordedLengths .eight stream count).countP (4 < ·) =
      (oddLengths stream count).countP (1 < ·) := by
  rw [recordedLengths, oddLengths, List.countP_map, List.countP_map]
  apply List.countP_congr
  intro index _
  simpa using four_lt_recordedLength_eight_iff stream index

theorem Holds.four_of_eight_iff (held : Holds .eight stream count) :
    Holds .four stream (2 * count) ↔
      3 * (recordedLengths .eight stream count).countP (4 < ·) = count := by
  rw [held.other_iff, span_eight_eq_span_four_iff held.legal, countP_recordedLengths_eight]
  exact and_iff_right fun index _ => recordedLength_four_le stream index

theorem Holds.eight_of_four_iff (held : Holds .four stream (2 * count)) :
    Holds .eight stream count ↔
      (∀ length ∈ oddLengths stream count, length ≤ 2) ∧
        3 * (oddLengths stream count).countP (1 < ·) = count := by
  have legal : (∀ index, index < count → recordedLength .eight stream index ≤ 8) ↔
      ∀ length ∈ oddLengths stream count, length ≤ 2 := by
    simp only [recordedLength_eight_le_iff, oddLengths, List.mem_map, List.mem_range,
      forall_exists_index, and_imp, forall_apply_eq_imp_iff₂]
  rw [held.other_iff, ← legal]
  constructor
  · rintro ⟨short, sizes⟩
    exact ⟨short, (span_eight_eq_span_four_iff short).mp sizes.symm⟩
  · rintro ⟨short, third⟩
    exact ⟨short, ((span_eight_eq_span_four_iff short).mpr third).symm⟩

theorem fourAsOne_recordedLengths_iff (stream : Bytes) :
    FourAsOne (recordedLengths .two stream 4) ↔
      recordedLength .two stream 0 ≤ 2 ∧ recordedLength .two stream 1 = 2 ∧
        recordedLength .two stream 2 = 1 ∧ recordedLength .two stream 3 = 1 := by
  have lengths : recordedLengths .two stream 4 =
      [recordedLength .two stream 0, recordedLength .two stream 1,
        recordedLength .two stream 2, recordedLength .two stream 3] := rfl
  have positive := recordedLength_pos .two stream 0
  simp only [FourAsOne, lengths, List.cons.injEq, and_true]
  omega

theorem Holds.two_of_eight_iff (positive : 0 < count) (held : Holds .eight stream count) :
    Holds .two stream (4 * count) ↔
      count = 1 ∧ FourAsOne (recordedLengths .two stream 4) := by
  rw [held.other_iff, span_eight_eq_span_two_iff positive held.legal,
    fourAsOne_recordedLengths_iff]
  constructor
  · rintro ⟨legal, rfl, lengths⟩
    exact ⟨rfl, legal 0 (by decide), lengths⟩
  · rintro ⟨rfl, first, second, third, fourth⟩
    refine ⟨?_, rfl, second, third, fourth⟩
    intro index inside
    rcases index with _ | _ | _ | _ | index
    · exact first
    · exact Nat.le_of_eq second
    · exact Nat.le_trans (Nat.le_of_eq third) (by decide)
    · exact Nat.le_trans (Nat.le_of_eq fourth) (by decide)
    · omega

theorem Holds.eight_of_two_iff (positive : 0 < count) (held : Holds .two stream (4 * count)) :
    Holds .eight stream count ↔
      count = 1 ∧ FourAsOne (recordedLengths .two stream 4) := by
  have legal : ∀ index, index < count → recordedLength .eight stream index ≤ 8 := by
    intro index inside
    have short := held.legal (2 * index + 1) (by omega)
    rw [recordedLength_congr (show ElementWidth.fieldBits .two = ElementWidth.fieldBits .four
      from rfl)] at short
    exact (recordedLength_eight_le_iff stream index).mpr short
  rw [held.other_iff, eq_comm, span_eight_eq_span_two_iff positive legal,
    fourAsOne_recordedLengths_iff]
  constructor
  · rintro ⟨_, rfl, lengths⟩
    exact ⟨rfl, held.legal 0 (by decide), lengths⟩
  · rintro ⟨rfl, _, lengths⟩
    exact ⟨legal, rfl, lengths⟩

theorem not_holds_one_and_eight (positive : 0 < count) (narrow : Holds .one stream (8 * count)) :
    ¬ Holds .eight stream count := by
  intro wide
  apply span_eight_ne_span_one positive wide.legal
  rw [← wide.size, narrow.size]

/-! ## Written streams -/

/-- A single eight-byte element is read as four exactly if it takes five or six bytes. -/
theorem fourAsOne_encode_iff (element : Word .eight) :
    FourAsOne (recordedLengths .two (encode [element]) 4) ↔
      minimalLengths [element] = [5] ∨ minimalLengths [element] = [6] := by
  have narrow : recordedLength .two = recordedLength .four := recordedLength_congr rfl
  have slots : keyCount .eight [element].length * ElementWidth.slots .eight = 2 := by
    rw [List.length_singleton]
    rfl
  have used : recordedLength .eight (encode [element]) 0 = Word.significantBytes element :=
    recordedLength_encode [element] (by omega)
  have unused : recordedLength .eight (encode [element]) 1 = 1 :=
    recordedLength_encode [element] (by omega)
  have firstParts := recordedLength_eight (encode [element]) 0
  have secondParts := recordedLength_eight (encode [element]) 1
  have first := recordedLength_four_le (encode [element]) 0
  have firstPositive := recordedLength_pos .four (encode [element]) 0
  have thirdPositive := recordedLength_pos .four (encode [element]) 2
  have fourthPositive := recordedLength_pos .four (encode [element]) 3
  simp only [Nat.mul_zero, Nat.mul_one, Nat.zero_add, Nat.reduceAdd] at firstParts secondParts
  rw [fourAsOne_recordedLengths_iff, narrow]
  simp only [minimalLengths, List.map_cons, List.map_nil, List.cons.injEq, and_true]
  omega

theorem holds_two_encode_eight_iff (elements : List (Word .eight)) (some : 0 < elements.length) :
    Holds .two (encode elements) (4 * elements.length) ↔
      Confusable .eight .two (minimalLengths elements) := by
  rw [(holds_encode elements).two_of_eight_iff some, Confusable]
  constructor
  · rintro ⟨single, four⟩
    obtain ⟨element, rfl⟩ := List.length_eq_one_iff.mp single
    exact (fourAsOne_encode_iff element).mp four
  · intro five
    have single : elements.length = 1 := by
      rw [← minimalLengths_length elements]
      rcases five with five | six
      · rw [five]
        rfl
      · rw [six]
        rfl
    obtain ⟨element, rfl⟩ := List.length_eq_one_iff.mp single
    exact ⟨rfl, (fourAsOne_encode_iff element).mpr five⟩

theorem holds_eight_encode_four_iff {elements : List (Word .four)}
    (pairs : elements.length = 2 * count) :
    Holds .eight (encode elements) count ↔
      Confusable .four .eight (minimalLengths elements) := by
  have held := holds_encode elements
  have odd := seconds_recordedLengths (encode elements) count
  rw [← pairs, recordedLengths_encode] at odd
  have half : (seconds (minimalLengths elements)).length = count := by
    simp [odd, oddLengths]
  rw [pairs] at held
  rw [held.eight_of_four_iff, ← odd, Confusable, half, minimalLengths_length, pairs]
  constructor
  · intro third
    exact ⟨Nat.mul_mod_right 2 count, third⟩
  · rintro ⟨_, third⟩
    exact third

theorem holds_eight_encode_two_iff {elements : List (Word .two)} (positive : 0 < count)
    (fours : elements.length = 4 * count) :
    Holds .eight (encode elements) count ↔
      Confusable .two .eight (minimalLengths elements) := by
  have held := holds_encode elements
  have lengths := recordedLengths_encode elements
  have size := minimalLengths_length elements
  rw [fours] at held lengths size
  rw [held.eight_of_two_iff positive, Confusable]
  constructor
  · rintro ⟨rfl, four⟩
    rw [← lengths]
    exact four
  · intro four
    obtain rfl : count = 1 := by
      rcases four with one | two
      · rw [one] at size
        exact Nat.eq_of_mul_eq_mul_left (by decide) size.symm
      · rw [two] at size
        exact Nat.eq_of_mul_eq_mul_left (by decide) size.symm
    refine ⟨rfl, ?_⟩
    rw [← lengths] at four
    exact four

theorem holds_encode_eight_iff {reader : ElementWidth} (narrow : reader ≠ .eight)
    (elements : List (Word .eight)) (some : 0 < elements.length)
    (same : elements.length * 8 = count * reader.bytes) :
    Holds reader (encode elements) count ↔
      Confusable .eight reader (minimalLengths elements) := by
  have held := holds_encode elements
  cases reader with
  | eight => exact absurd rfl narrow
  | four =>
      obtain rfl : count = 2 * elements.length := by
        simp only [ElementWidth.bytes] at same
        omega
      rw [held.four_of_eight_iff, recordedLengths_encode, Confusable, minimalLengths_length]
  | two =>
      obtain rfl : count = 4 * elements.length := by
        simp only [ElementWidth.bytes] at same
        omega
      exact holds_two_encode_eight_iff elements some
  | one =>
      obtain rfl : count = 8 * elements.length := by
        simp only [ElementWidth.bytes] at same
        omega
      simp only [Confusable, iff_false]
      intro found
      exact not_holds_one_and_eight some found held

theorem holds_encode_narrow_iff {writer : ElementWidth} (narrow : writer ≠ .eight)
    (elements : List (Word writer)) (some : 0 < elements.length)
    (same : elements.length * writer.bytes = count * 8) :
    Holds .eight (encode elements) count ↔
      Confusable writer .eight (minimalLengths elements) := by
  cases writer with
  | eight => exact absurd rfl narrow
  | four =>
      apply holds_eight_encode_four_iff
      simp only [ElementWidth.bytes] at same
      omega
  | two =>
      have fours : elements.length = 4 * count := by
        simp only [ElementWidth.bytes] at same
        omega
      exact holds_eight_encode_two_iff (by omega) fours
  | one =>
      have held := holds_encode elements
      have eights : elements.length = 8 * count := by
        simp only [ElementWidth.bytes] at same
        omega
      rw [eights] at held
      simp only [Confusable, iff_false]
      exact not_holds_one_and_eight (by omega) held

/-- With one width eight and the other not, the lengths of the elements decide. -/
theorem holds_encode_iff_confusable {writer reader : ElementWidth}
    (mixed : writer = .eight ↔ reader ≠ .eight) (elements : List (Word writer))
    (some : 0 < elements.length)
    (same : elements.length * writer.bytes = count * reader.bytes) :
    Holds reader (encode elements) count ↔
      Confusable writer reader (minimalLengths elements) := by
  by_cases wide : writer = .eight
  · subst wide
    exact holds_encode_eight_iff (mixed.mp rfl) elements some same
  · obtain rfl : reader = .eight := Decidable.byContradiction fun narrow => wide (mixed.mpr narrow)
    exact holds_encode_narrow_iff wide elements some same

end GroupVarint

end SeriesCodec
