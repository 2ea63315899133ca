import SeriesCodec.Proofs.GroupVarint.Inverse

/-!
# Streams at two widths

Widths with the same fields read the same lengths from a stream, so it holds one
number of elements for all of them.  A key of eight-byte elements is read at the
narrower widths as two lengths for each of its own: a length is the first of
them, and four more for every byte by which the second exceeds one.  The sizes
that both readings demand can therefore coincide, and this module says when.
-/

namespace SeriesCodec

namespace GroupVarint

variable {width other : ElementWidth} {stream : Bytes} {count : Nat}

/-! ## Widths with the same fields -/

theorem recordedLength_congr (same : width.fieldBits = other.fieldBits) :
    recordedLength width = recordedLength other := by
  funext stream index
  simp only [recordedLength, lengthAt, radix, ElementWidth.slots, same]

theorem recordedLengths_congr (same : width.fieldBits = other.fieldBits) :
    recordedLengths width = recordedLengths other := by
  funext stream count
  rw [recordedLengths, recordedLengths, recordedLength_congr same]

theorem span_congr (same : width.fieldBits = other.fieldBits) :
    span width = span other := by
  funext stream count
  simp only [span, keyCount, ElementWidth.slots, recordedLengths_congr same, same]

/-- A stream holds one number of elements, whichever of these widths is assumed. -/
theorem Holds.count_eq {otherCount : Nat} (same : width.fieldBits = other.fieldBits)
    (held : Holds width stream count) (heldOther : Holds other stream otherCount) :
    count = otherCount := by
  have sizes : span width stream count = span width stream otherCount := by
    rw [← held.size, heldOther.size, span_congr same]
  rcases Nat.lt_trichotomy count otherCount with less | equal | more
  · exact absurd sizes (Nat.ne_of_lt (span_strictMono less))
  · exact equal
  · exact absurd sizes.symm (Nat.ne_of_lt (span_strictMono more))

theorem fieldBits_eq_two {width : ElementWidth} (narrow : width ≠ .eight) :
    width.fieldBits = 2 := by
  cases width with
  | eight => exact absurd rfl narrow
  | _ => rfl

/-! ## Eight-byte keys at narrower widths -/

def seconds : (lengths : List Nat) → List Nat
  | _ :: second :: rest => second :: seconds rest
  | _ => []

theorem recordedLength_four_le (stream : Bytes) (index : Nat) :
    recordedLength .four stream index ≤ 4 :=
  lengthAt_le_radix .four _ _

/-- The narrower reading of an eight-byte length. -/
theorem recordedLength_eight (stream : Bytes) (index : Nat) :
    recordedLength .eight stream index + 4 =
      recordedLength .four stream (2 * index) +
        4 * recordedLength .four stream (2 * index + 1) := by
  have slot : index % 2 < 2 := Nat.mod_lt _ (by decide)
  have firstKey : 2 * index / 4 = index / 2 := by omega
  have secondKey : (2 * index + 1) / 4 = index / 2 := by omega
  have firstSlot : 2 * index % 4 = 2 * (index % 2) := by omega
  have secondSlot : (2 * index + 1) % 4 = 2 * (index % 2) + 1 := by omega
  have shift (key : Nat) : key >>> (2 * (2 * (index % 2) + 1)) =
      key >>> (4 * (index % 2)) / 4 := by
    rw [show 2 * (2 * (index % 2) + 1) = 4 * (index % 2) + 2 by omega, Nat.shiftRight_add]
    exact Nat.shiftRight_eq_div_pow _ 2
  simp only [recordedLength, lengthAt, show ElementWidth.slots .eight = 2 from rfl,
    show ElementWidth.slots .four = 4 from rfl, show ElementWidth.fieldBits .eight = 4 from rfl,
    show ElementWidth.fieldBits .four = 2 from rfl, show radix .eight = 16 from rfl,
    show radix .four = 4 from rfl, firstKey, secondKey, firstSlot, secondSlot, shift]
  rw [show 2 * (2 * (index % 2)) = 4 * (index % 2) by omega]
  generalize (List.getD stream (index / 2) 0).toNat >>> (4 * (index % 2)) = digits
  omega

theorem recordedLength_eight_le_iff (stream : Bytes) (index : Nat) :
    recordedLength .eight stream index ≤ 8 ↔
      recordedLength .four stream (2 * index + 1) ≤ 2 := by
  have parts := recordedLength_eight stream index
  have positive := recordedLength_pos .four stream (2 * index)
  have small := recordedLength_four_le stream (2 * index)
  omega

theorem four_lt_recordedLength_eight_iff (stream : Bytes) (index : Nat) :
    4 < recordedLength .eight stream index ↔
      1 < recordedLength .four stream (2 * index + 1) := by
  have parts := recordedLength_eight stream index
  have positive := recordedLength_pos .four stream (2 * index)
  have small := recordedLength_four_le stream (2 * index)
  omega

/-- The second narrower lengths of `count` eight-byte elements. -/
def oddLengths (stream : Bytes) (count : Nat) : List Nat :=
  (List.range count).map fun index => recordedLength .four stream (2 * index + 1)

theorem seconds_map_range (length : Nat → Nat) (count : Nat) :
    seconds ((List.range (2 * count)).map length) =
      (List.range count).map fun index => length (2 * index + 1) := by
  induction count generalizing length with
  | zero => rfl
  | succ count ih =>
      have pairs : List.range (2 * (count + 1)) =
          0 :: 1 :: (List.range (2 * count)).map (· + 2) := by
        rw [Nat.mul_succ, List.range_succ_eq_map, List.range_succ_eq_map]
        simp
      rw [pairs, List.map_cons, List.map_cons, List.map_map, seconds, ih,
        List.range_succ_eq_map, List.map_cons, List.map_map]
      rfl

theorem seconds_recordedLengths (stream : Bytes) (count : Nat) :
    seconds (recordedLengths .four stream (2 * count)) = oddLengths stream count :=
  seconds_map_range _ count

theorem oddLengths_succ (stream : Bytes) (count : Nat) :
    oddLengths stream (count + 1) =
      oddLengths stream count ++ [recordedLength .four stream (2 * count + 1)] := by
  rw [oddLengths, List.range_succ, List.map_append]
  rfl

/-- The two readings of the same keys, summed up. -/
theorem totalLength_eight (stream : Bytes) (count : Nat) :
    totalLength (recordedLengths .eight stream count) + 4 * count =
      totalLength (recordedLengths .four stream (2 * count)) +
        3 * totalLength (oddLengths stream count) := by
  induction count with
  | zero => rfl
  | succ count ih =>
      have parts := recordedLength_eight stream count
      rw [Nat.mul_succ 2, totalLength_recordedLengths_succ, totalLength_recordedLengths_succ,
        totalLength_recordedLengths_succ, oddLengths_succ, totalLength_append]
      simp only [totalLength]
      omega

theorem totalLength_eq_length_add_countP {lengths : List Nat}
    (small : ∀ length ∈ lengths, 0 < length ∧ length ≤ 2) :
    totalLength lengths = lengths.length + lengths.countP (1 < ·) := by
  induction lengths with
  | nil => rfl
  | cons length rest ih =>
      obtain ⟨positive, le⟩ := small length List.mem_cons_self
      have others := ih fun other member => small other (List.mem_cons_of_mem _ member)
      rw [totalLength, others, List.length_cons, List.countP_cons]
      by_cases two : 1 < length
      · simp only [two, decide_true, if_true]
        omega
      · simp only [two, decide_false, Bool.false_eq_true, if_false]
        omega

/-- The lengths of eight-byte elements that are legal are legal as pairs. -/
theorem oddLengths_small
    (legal : ∀ index, index < count → recordedLength .eight stream index ≤ 8) :
    ∀ length ∈ oddLengths stream count, 0 < length ∧ length ≤ 2 := by
  intro length member
  obtain ⟨index, inside, rfl⟩ := List.mem_map.mp member
  exact ⟨recordedLength_pos _ _ _,
    (recordedLength_eight_le_iff stream index).mp (legal index (List.mem_range.mp inside))⟩

theorem totalLength_oddLengths
    (legal : ∀ index, index < count → recordedLength .eight stream index ≤ 8) :
    totalLength (oddLengths stream count) =
      count + (oddLengths stream count).countP (1 < ·) := by
  have total := totalLength_eq_length_add_countP (oddLengths_small legal)
  simpa [oddLengths] using total

/-! ## When the demanded sizes coincide -/

/-- As four-byte elements: in a third of the pairs the second element takes two bytes. -/
theorem span_eight_eq_span_four_iff
    (legal : ∀ index, index < count → recordedLength .eight stream index ≤ 8) :
    span .eight stream count = span .four stream (2 * count) ↔
      3 * (oddLengths stream count).countP (1 < ·) = count := by
  have keys : keyCount .eight count = keyCount .four (2 * count) := by
    simp only [keyCount, Size.ceilDiv, ElementWidth.slots, ElementWidth.fieldBits]
    omega
  have sums := totalLength_eight stream count
  have odd := totalLength_oddLengths legal
  rw [span, span, keys]
  omega

/-- Every further element demands at least one byte. -/
theorem totalLength_recordedLengths_add_le (width : ElementWidth) (stream : Bytes)
    (count more : Nat) :
    totalLength (recordedLengths width stream count) + more ≤
      totalLength (recordedLengths width stream (count + more)) := by
  induction more with
  | zero => exact Nat.le_refl _
  | succ more ih =>
      have positive := recordedLength_pos width stream (count + more)
      rw [← Nat.add_assoc count, totalLength_recordedLengths_succ]
      omega

/-- A single element as four two-byte elements. -/
theorem span_eight_one_eq_span_two_iff
    (legal : recordedLength .eight stream 0 ≤ 8) :
    span .eight stream 1 = span .two stream 4 ↔
      recordedLength .two stream 1 = 2 ∧ recordedLength .two stream 2 = 1 ∧
        recordedLength .two stream 3 = 1 := by
  have narrow : recordedLength .two = recordedLength .four := recordedLength_congr rfl
  have parts := recordedLength_eight stream 0
  have small := (recordedLength_eight_le_iff stream 0).mp legal
  have third := recordedLength_pos .four stream 2
  have fourth := recordedLength_pos .four stream 3
  have eight : span .eight stream 1 = 1 + recordedLength .eight stream 0 := rfl
  have two : span .two stream 4 = 1 + (recordedLength .two stream 0 +
      (recordedLength .two stream 1 + (recordedLength .two stream 2 +
        (recordedLength .two stream 3 + 0)))) := rfl
  simp only [Nat.mul_zero, Nat.zero_add] at parts small
  rw [eight, two, narrow]
  omega

/-- As two-byte elements: only for a single element, read as lengths `_, 2, 1, 1`. -/
theorem span_eight_eq_span_two_iff (positive : 0 < count)
    (legal : ∀ index, index < count → recordedLength .eight stream index ≤ 8) :
    span .eight stream count = span .two stream (4 * count) ↔
      count = 1 ∧ recordedLength .two stream 1 = 2 ∧ recordedLength .two stream 2 = 1 ∧
        recordedLength .two stream 3 = 1 := by
  have single : span .eight stream count = span .two stream (4 * count) → count = 1 := by
    intro equal
    have keys : keyCount .eight count = (count + 1) / 2 := rfl
    have narrowKeys : keyCount .two (4 * count) = count := by
      simp only [keyCount, Size.ceilDiv, ElementWidth.slots, ElementWidth.fieldBits]
      omega
    have narrow : recordedLengths .two = recordedLengths .four := recordedLengths_congr rfl
    have sums := totalLength_eight stream count
    have odd := totalLength_oddLengths legal
    have most : (oddLengths stream count).countP (1 < ·) ≤ count := by
      have bound : (oddLengths stream count).countP (1 < ·) ≤ (oddLengths stream count).length :=
        List.countP_le_length
      simpa [oddLengths] using bound
    have rest := totalLength_recordedLengths_add_le .four stream
      (2 * count) (2 * count)
    rw [span, span, keys, narrowKeys, narrow] at equal
    rw [show 2 * count + 2 * count = 4 * count by omega] at rest
    omega
  constructor
  · intro equal
    obtain rfl := single equal
    exact ⟨rfl, (span_eight_one_eq_span_two_iff (legal 0 positive)).mp equal⟩
  · rintro ⟨rfl, lengths⟩
    exact (span_eight_one_eq_span_two_iff (legal 0 positive)).mpr lengths

/-- As single bytes: never. -/
theorem span_eight_ne_span_one (positive : 0 < count)
    (legal : ∀ index, index < count → recordedLength .eight stream index ≤ 8) :
    span .eight stream count ≠ span .one stream (8 * count) := by
  intro equal
  have keys : keyCount .eight count = (count + 1) / 2 := rfl
  have narrowKeys : keyCount .one (8 * count) = 2 * count := by
    simp only [keyCount, Size.ceilDiv, ElementWidth.slots, ElementWidth.fieldBits]
    omega
  have least := totalLength_recordedLengths_add_le .one stream 0 (8 * count)
  have most : totalLength (recordedLengths .eight stream count) ≤ count * 8 := by
    have each : ∀ length ∈ recordedLengths .eight stream count, length ≤ 8 := by
      intro length member
      obtain ⟨index, inside, rfl⟩ := mem_recordedLengths.mp member
      exact legal index inside
    simpa using totalLength_le each
  rw [Nat.zero_add] at least
  rw [span, span, keys, narrowKeys] at equal
  omega

end GroupVarint

end SeriesCodec
