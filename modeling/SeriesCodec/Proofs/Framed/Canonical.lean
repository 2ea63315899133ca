import SeriesCodec.Proofs.Delta.Inverse
import SeriesCodec.Proofs.Framed.Extent
import SeriesCodec.Proofs.GroupVarint.Canonical

/-!
# Compressing what was decompressed

Every list of words is what some series is packed as, so without a compressor
whatever is decompressed can be compressed again.  The payload is then the canonical
one for its series, and the shortest of all that are decompressed to it.
-/

namespace SeriesCodec

/-- The words of a series are the ones that it was read from. -/
theorem Packed.words_toBytes (options : Options) (read : List (Word options.width)) :
    Packed.words options (Elements.toBytes (Delta.decode options.delta read)) = read := by
  rw [words_of_elements, Delta.encode_decode]

namespace Framed

variable {compressor : Compressor} {framing : Framing} {options : Options}
variable {destination framed : Bytes} {answer : Written}

/-- Without a compressor, the words in an accepted payload are what its series is packed as. -/
theorem compress_of_accepted (plain : options.level = 0)
    (accepted : (decompressInto compressor framing options destination framed).outcome =
      .ok answer) :
    ∃ header payload words, framed = header ++ payload ∧ header.length = framing.headerSize ∧
      GroupVarint.decode options.width payload (answer.size / options.width.bytes) = .ok words ∧
      (compress compressor framing options (answer.destination.take answer.size)).outcome =
        .ok (header ++ GroupVarint.encode words) := by
  rw [decompressInto_outcome] at accepted
  obtain ⟨output, found, rfl⟩ := Fallible.map_eq_ok_iff.mp accepted
  obtain ⟨supported, recorded, payload, parts, whole, fits, packed, unpacks, words, reads, same⟩ :=
    decompress_outcome_eq_ok_iff.mp found
  obtain ⟨header, rfl, front, rfl⟩ := Framing.exists_header_of_split parts
  rw [decompress_outcome_of_fits parts fits] at found
  have size : output.length = (framing.lengthIn header).getD destination.length :=
    contents_length found
  have again : (payloadOf compressor options output.length
      (GroupVarint.encode (Packed.words options output))).outcome =
        .ok (GroupVarint.encode words) := by
    rw [payloadOf_outcome, Options.usesCompressor_eq_false plain, same, Packed.words_toBytes]
    rfl
  have heads := Framing.header_lengthIn front destination.length
  rw [packedOf_plain plain] at unpacks
  cases unpacks
  rw [← size] at heads reads whole
  refine ⟨header, payload, words, rfl, front, reads, ?_⟩
  rw [Written.front_take]
  exact compress_outcome_eq_ok_iff.mpr ⟨supported, whole, header, _, heads, again, rfl⟩

/--
Writing what was read gives the shortest stream for it, and gives the stream itself
exactly if that is canonical.  So it is with payloads without a compressor: whatever
was decompressed is compressed again, to nothing longer, and to the payload itself
exactly if its stream is canonical.
-/
theorem canonical_form_is_shortest :
    (∀ (width : ElementWidth) (stream : Bytes) (count : Nat) (words : List (Word width)),
      GroupVarint.decode width stream count = .ok words →
        GroupVarint.decode width (GroupVarint.encode words) count = .ok words ∧
        (GroupVarint.encode words).length ≤ stream.length ∧
        (stream = GroupVarint.encode words ↔ GroupVarint.Canonical width stream count)) ∧
    ∀ (compressor : Compressor) (framing : Framing) (options : Options)
      (destination framed : Bytes) (answer : Written), options.level = 0 →
      (decompressInto compressor framing options destination framed).outcome = .ok answer →
        ∃ again,
          (compress compressor framing options (answer.destination.take answer.size)).outcome =
            .ok again ∧
          again.length ≤ framed.length ∧
          (framed = again ↔ GroupVarint.Canonical options.width
            (framed.drop framing.headerSize) (answer.size / options.width.bytes)) := by
  refine ⟨fun _ _ _ _ read => GroupVarint.encode_of_read read, ?_⟩
  intro compressor framing options destination framed answer plain accepted
  obtain ⟨header, payload, words, rfl, front, reads, written⟩ := compress_of_accepted plain accepted
  obtain ⟨_, shorter, same⟩ := GroupVarint.encode_of_read reads
  refine ⟨_, written, ?_, ?_⟩
  · rw [List.length_append, List.length_append]
    exact Nat.add_le_add_left shorter _
  · rw [List.append_right_inj, List.drop_left' front]
    exact same

/-- One word with a leading zero byte and bits in unused slots, and the same without. -/
theorem canonical_form_is_shortest_one_word :
    (decompressInto .passthrough .raw ⟨false, .two, 0, 0⟩ [7, 7] [253, 5, 0]).outcome =
      .ok ⟨2, [5, 0]⟩ ∧
    (compress .passthrough .raw ⟨false, .two, 0, 0⟩ [5, 0]).outcome = .ok [0, 5] ∧
    ¬ GroupVarint.Canonical .two [253, 5, 0] 1 ∧
    GroupVarint.Canonical .two [0, 5] 1 := by
  have accepted : (decompressInto .passthrough .raw ⟨false, .two, 0, 0⟩ [7, 7]
      [253, 5, 0]).outcome = .ok ⟨2, [5, 0]⟩ := rfl
  have written : (compress .passthrough .raw ⟨false, .two, 0, 0⟩ [5, 0]).outcome = .ok [0, 5] := rfl
  have read : GroupVarint.decode .two [0, 5] 1 = .ok [5] := rfl
  obtain ⟨streams, payloads⟩ := canonical_form_is_shortest
  obtain ⟨again, compressed, _, same⟩ := payloads _ _ _ _ _ _ rfl accepted
  refine ⟨accepted, written, ?_, (streams _ _ _ _ read).2.2.mp rfl⟩
  intro canonical
  have equal := same.mpr canonical
  rw [← equal] at compressed
  cases compressed

end Framed

end SeriesCodec
