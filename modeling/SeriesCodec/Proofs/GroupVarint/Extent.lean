import SeriesCodec.Proofs.GroupVarint.Recorded

/-!
# Cut and continued streams

The keys of a stream fix how many data bytes its elements take up.  A stream
that is one of `count` elements and is cut anywhere lacks some of its keys or
some of its data, and one that goes on has bytes that no element asks for.
-/

namespace SeriesCodec

namespace GroupVarint

variable {width : ElementWidth} {stream keys data : Bytes} {count offset : Nat}

/-! ## Legal keys -/

/-- Behind its keys a stream is read group by group. -/
theorem decode_keys_append (keyed : keyCount width count = keys.length) (data : Bytes) :
    decode width (keys ++ data) count = decodeGroups width keys count keys.length data := by
  rw [decode, keyed, Bytes.splitExact?_append]

/-- Legal keys ask for all of their data before anything else can be wrong. -/
theorem decodeGroups_short (keyed : keyCount width count = keys.length)
    (legal : ∀ length ∈ recordedLengths width keys count, length ≤ width.bytes)
    (short : data.length < totalLength (recordedLengths width keys count)) :
    ∃ position needed available, available < needed ∧
      decodeGroups width keys count offset data =
        .error (.truncated position needed available) := by
  induction keys generalizing count offset data with
  | nil =>
      obtain rfl := eq_zero_of_keyCount_eq_zero keyed
      cases short
  | cons key keys ih =>
      obtain ⟨_, fewer⟩ := keyCount_eq_succ keyed
      have rest : count - min count width.slots = count - width.slots := by omega
      rw [recordedLengths_cons] at legal short
      rw [totalLength_append] at short
      have here := find?_overlong_eq_none_iff.mpr fun length member =>
        legal length (List.mem_append_left _ member)
      by_cases lacking : data.length < totalLength (lengthsOf width key (min count width.slots))
      · exact ⟨_, _, _, lacking, decodeGroups_truncated keys offset here lacking⟩
      · have enough := Nat.le_of_not_lt lacking
        have others : (data.drop (totalLength (lengthsOf width key (min count width.slots)))).length <
            totalLength (recordedLengths width keys (count - width.slots)) := by
          rw [List.length_drop]
          omega
        obtain ⟨position, needed, available, less, stopped⟩ := ih fewer
          (fun length member => legal length (List.mem_append_right _ member)) others
        refine ⟨position, needed, available, less, ?_⟩
        rw [decodeGroups_group keys offset here enough, rest, stopped]
        rfl

/-- Bytes behind the data that legal keys ask for are left over. -/
theorem decodeGroups_long (keyed : keyCount width count = keys.length)
    (legal : ∀ length ∈ recordedLengths width keys count, length ≤ width.bytes)
    (full : data.length = totalLength (recordedLengths width keys count))
    {extra : Bytes} (more : 0 < extra.length) :
    decodeGroups width keys count offset (data ++ extra) = .error (.trailing extra.length) := by
  induction keys generalizing count offset data with
  | nil =>
      obtain rfl := eq_zero_of_keyCount_eq_zero keyed
      obtain rfl := List.eq_nil_of_length_eq_zero full
      rw [List.nil_append, decodeGroups, if_neg (Nat.ne_of_gt more)]
  | cons key keys ih =>
      obtain ⟨_, fewer⟩ := keyCount_eq_succ keyed
      have rest : count - min count width.slots = count - width.slots := by omega
      rw [recordedLengths_cons] at legal full
      rw [totalLength_append] at full
      have here := find?_overlong_eq_none_iff.mpr fun length member =>
        legal length (List.mem_append_left _ member)
      have inside : totalLength (lengthsOf width key (min count width.slots)) ≤ data.length := by
        omega
      have enough := Nat.le_trans inside (List.sublist_append_left data extra).length_le
      have others : (data.drop (totalLength (lengthsOf width key (min count width.slots)))).length =
          totalLength (recordedLengths width keys (count - width.slots)) := by
        rw [List.length_drop]
        omega
      rw [decodeGroups_group keys offset here enough, rest, List.drop_append_of_le_length inside,
        ih fewer (fun length member => legal length (List.mem_append_right _ member)) others]
      rfl

/-! ## Streams of so many elements -/

/-- A stream is its keys and as many data bytes as these record. -/
theorem Holds.exists_keys_data (held : Holds width stream count) :
    ∃ keys data, stream = keys ++ data ∧ keyCount width count = keys.length ∧
      (∀ length ∈ recordedLengths width keys count, length ≤ width.bytes) ∧
      data.length = totalLength (recordedLengths width keys count) := by
  have size := held.size
  rw [span] at size
  have keyed : (stream.take (keyCount width count)).length = keyCount width count :=
    List.length_take_of_le (by omega)
  have front := recordedLengths_append (Nat.le_of_eq keyed.symm)
    (stream.drop (keyCount width count))
  rw [List.take_append_drop] at front
  refine ⟨_, _, (List.take_append_drop (keyCount width count) stream).symm, keyed.symm, ?_, ?_⟩
  · intro length member
    rw [← front] at member
    obtain ⟨index, inside, rfl⟩ := mem_recordedLengths.mp member
    exact held.legal index inside
  · rw [← front, List.length_drop]
    omega

/-- Wherever a stream is cut, a block of it is too short. -/
theorem Holds.decode_take (held : Holds width stream count) {kept : Nat}
    (cut : kept < stream.length) :
    ∃ position needed available, available < needed ∧
      decode width (stream.take kept) count =
        .error (.truncated position needed available) := by
  obtain ⟨keys, data, rfl, keyed, legal, full⟩ := held.exists_keys_data
  by_cases inKeys : kept < keys.length
  · have left : ((keys ++ data).take kept).length = kept :=
      List.length_take_of_le (Nat.le_of_lt cut)
    have short : ((keys ++ data).take kept).length < keyCount width count := by
      rw [left, keyed]
      exact inKeys
    refine ⟨0, _, _, short, ?_⟩
    rw [decode, Bytes.splitExact?_eq_none_iff.mpr short]
  · have behind := Nat.le_of_not_lt inKeys
    rw [List.length_append] at cut
    rw [List.take_append, List.take_of_length_le behind, decode_keys_append keyed]
    apply decodeGroups_short keyed legal
    rw [List.length_take]
    omega

/-- Whatever follows a stream is left over. -/
theorem Holds.decode_append (held : Holds width stream count) {extra : Bytes}
    (more : 0 < extra.length) :
    decode width (stream ++ extra) count = .error (.trailing extra.length) := by
  obtain ⟨keys, data, rfl, keyed, legal, full⟩ := held.exists_keys_data
  rw [List.append_assoc, decode_keys_append keyed]
  exact decodeGroups_long keyed legal full more

end GroupVarint

end SeriesCodec
