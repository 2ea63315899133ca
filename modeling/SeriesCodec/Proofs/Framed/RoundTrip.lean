import SeriesCodec.Proofs.Delta.Inverse
import SeriesCodec.Proofs.Framed.Bound

/-!
# The round trip of a series

A series that was compressed comes back from its payload, byte for byte, in
front of what the destination held.  The level only has to agree on whether the
compressor is asked at all.
-/

namespace SeriesCodec

namespace Framed

variable {compressor : Compressor} {framing : Framing} {options : Options} {input : Bytes}

/-- A compressor that takes everything leaves only the header to fail for a whole series. -/
theorem compress_isOk_of_takesAll (supported : options.version = 0)
    (whole : input.length % options.width.bytes = 0)
    (headed : framing = .sized → input.length ≤ Framing.greatestLength)
    (takes : options.level = 0 ∨ compressor.TakesAll) :
    ∃ framed, (compress compressor framing options input).outcome = .ok framed := by
  obtain ⟨header, heads⟩ := Framing.header_isOk headed
  have pays : ∃ payload, (payloadOf compressor options input.length
      (GroupVarint.encode (Packed.words options input))).outcome = .ok payload := by
    rw [payloadOf_outcome]
    by_cases used : options.usesCompressor
    · rw [if_pos used]
      exact Options.of_usesCompressor takes used _ _
    · exact ⟨_, if_neg used⟩
  obtain ⟨payload, pays⟩ := pays
  exact ⟨_, compress_outcome_eq_ok_iff.mpr ⟨supported, whole, header, payload, heads, pays, rfl⟩⟩

theorem compress_isOk_of_level_zero
    (supported : options.version = 0) (whole : input.length % options.width.bytes = 0)
    (headed : framing = .sized → input.length ≤ Framing.greatestLength)
    (plain : options.level = 0) :
    ∃ framed, (compress compressor framing options input).outcome = .ok framed :=
  compress_isOk_of_takesAll supported whole headed (.inl plain)

/-- The compressor gives back the packed stream under the limit of the reading side. -/
theorem packedOf_payloadOf_upTo (reading : Options) {payload : Bytes} {greatest : Nat}
    (lossless : compressor.LosslessUpTo greatest)
    (short : (GroupVarint.encode (Packed.words options input)).length ≤ greatest)
    (whole : input.length % options.width.bytes = 0)
    (buffered : input.length ≤ Size.greatestBuffer)
    (sameWidth : reading.width = options.width)
    (sameStages : reading.usesCompressor = options.usesCompressor)
    (pays : (payloadOf compressor options input.length
      (GroupVarint.encode (Packed.words options input))).outcome = .ok payload) :
    (packedOf compressor reading (input.length / options.width.bytes) payload).outcome =
      .ok (GroupVarint.encode (Packed.words options input)) := by
  rw [payloadOf_outcome] at pays
  rw [packedOf_outcome, sameStages, sameWidth]
  split at pays
  next used =>
    have size := Packed.words_bytes whole
    have limit := GroupVarint.encode_length_le_maxPackedSize (size ▸ buffered)
    rw [Packed.words_length] at limit
    rw [if_pos used]
    exact lossless _ _ _ _ short pays limit
  next unused =>
    rw [if_neg unused]
    exact pays.symm

theorem packedOf_payloadOf (reading : Options) {payload : Bytes}
    (lossless : compressor.Lossless) (whole : input.length % options.width.bytes = 0)
    (buffered : input.length ≤ Size.greatestBuffer)
    (sameWidth : reading.width = options.width)
    (sameStages : reading.usesCompressor = options.usesCompressor)
    (pays : (payloadOf compressor options input.length
      (GroupVarint.encode (Packed.words options input))).outcome = .ok payload) :
    (packedOf compressor reading (input.length / options.width.bytes) payload).outcome =
      .ok (GroupVarint.encode (Packed.words options input)) :=
  packedOf_payloadOf_upTo reading (lossless.upTo _) (Nat.le_refl _) whole buffered sameWidth
    sameStages pays

/-- The words of a series are the words that its packed stream is read into. -/
theorem toBytes_words (whole : input.length % options.width.bytes = 0) :
    Elements.toBytes (Delta.decode options.delta (Packed.words options input)) = input := by
  rw [Packed.words, Delta.decode_encode]
  apply Elements.toBytes_take
  exact (Nat.div_mul_cancel (Nat.dvd_of_mod_eq_zero whole)).symm

/--
Whatever was compressed comes back.  The reading side may ask for another level,
as long as both sides or neither of them go through the compressor.
-/
theorem decompressInto_compress (lossless : compressor.Lossless)
    (supported : options.version = 0) (whole : input.length % options.width.bytes = 0)
    (buffered : input.length ≤ Size.greatestBuffer)
    (headed : framing = .sized → input.length ≤ Framing.greatestLength) :
    (options.level = 0 →
      ∃ framed, (compress compressor framing options input).outcome = .ok framed) ∧
    ∀ framed, (compress compressor framing options input).outcome = .ok framed →
      ∀ level destination,
        level = options.level ∨ (0 < options.level ∧ 0 < level) →
        framing.Admits destination.length input.length →
        (decompressInto compressor framing { options with level } destination framed).outcome =
          .ok ⟨input.length, input ++ destination.drop input.length⟩ := by
  refine ⟨compress_isOk_of_level_zero supported whole headed, ?_⟩
  intro framed written level destination stages room
  obtain ⟨_, _, header, payload, heads, pays, rfl⟩ := compress_outcome_eq_ok_iff.mp written
  have sameStages : Options.usesCompressor { options with level } = options.usesCompressor := by
    rcases stages with rfl | ⟨writes, reads⟩
    · rfl
    · simp [Options.usesCompressor, writes, reads]
  have unpacks := packedOf_payloadOf { options with level } lossless whole buffered rfl
    sameStages pays
  have reads := GroupVarint.decode_encode (Packed.words options input)
  rw [Packed.words_length] at reads
  have back : (decompress compressor framing { options with level } (header ++ payload)
      destination.length).outcome = .ok input :=
    (decompress_header_outcome_eq_ok_iff { options with level } supported heads room payload).mpr
      ⟨whole, _, unpacks, _, reads, (toBytes_words whole).symm⟩
  rw [decompressInto_outcome, back]
  rfl

/-- Two elements behind a length field, read with another positive level. -/
theorem decompressInto_compress_sized_pair :
    (compress .passthrough .sized ⟨true, .two, 3, 0⟩ [5, 0, 3, 1]).outcome =
      .ok [4, 0, 0, 0, 4, 10, 252, 1] ∧
    (decompressInto .passthrough .sized ⟨true, .two, 9, 0⟩ [7, 7, 7, 7, 7]
      [4, 0, 0, 0, 4, 10, 252, 1]).outcome = .ok ⟨4, [5, 0, 3, 1, 7]⟩ := by
  have written : (compress .passthrough .sized ⟨true, .two, 3, 0⟩ [5, 0, 3, 1]).outcome =
      .ok [4, 0, 0, 0, 4, 10, 252, 1] := by
    rfl
  refine ⟨written, ?_⟩
  exact (decompressInto_compress Compressor.passthrough_lossless rfl rfl (by decide)
    (fun _ => by decide)).2 _ written 9 [7, 7, 7, 7, 7] (.inr ⟨by decide, by decide⟩)
    (by simp [Framing.Admits])

/-! ## What is read from a written payload -/

variable {framed destination : Bytes}

/-- Whoever finds the packed stream behind a header gets the series back. -/
theorem decompressInto_of_unpacks {header payload : Bytes} (supported : options.version = 0)
    (whole : input.length % options.width.bytes = 0)
    (heads : framing.header input.length = .ok header)
    (room : framing.Admits destination.length input.length)
    (unpacks : (packedOf compressor options (input.length / options.width.bytes) payload).outcome =
      .ok (GroupVarint.encode (Packed.words options input))) :
    (decompressInto compressor framing options destination (header ++ payload)).outcome =
      .ok ⟨input.length, input ++ destination.drop input.length⟩ := by
  have reads := GroupVarint.decode_encode (Packed.words options input)
  rw [Packed.words_length] at reads
  have back : (decompress compressor framing options (header ++ payload)
      destination.length).outcome = .ok input :=
    (decompress_header_outcome_eq_ok_iff options supported heads room payload).mpr
      ⟨whole, _, unpacks, _, reads, (toBytes_words whole).symm⟩
  rw [decompressInto_outcome, back]
  rfl

/-- It is enough that the compressor gives back what a buffer can hold. -/
theorem decompressInto_of_written (lossless : compressor.LosslessUpTo Size.greatestBuffer)
    (short : input.length + input.length ≤ Size.greatestBuffer)
    (written : (compress compressor framing options input).outcome = .ok framed)
    (room : framing.Admits destination.length input.length) :
    (decompressInto compressor framing options destination framed).outcome =
      .ok ⟨input.length, input ++ destination.drop input.length⟩ := by
  obtain ⟨supported, whole, header, payload, heads, pays, rfl⟩ :=
    compress_outcome_eq_ok_iff.mp written
  have packed : (GroupVarint.encode (Packed.words options input)).length ≤ Size.greatestBuffer :=
    Nat.le_trans (encode_words_length_le_double whole) short
  have buffered := Nat.le_trans (Nat.le_add_left _ _) short
  exact decompressInto_of_unpacks supported whole heads room
    (packedOf_payloadOf_upTo options lossless packed whole buffered rfl rfl pays)

end Framed

end SeriesCodec
