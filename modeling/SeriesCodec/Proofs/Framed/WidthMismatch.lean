import SeriesCodec.Proofs.Compressor
import SeriesCodec.Proofs.Framed.Outcome
import SeriesCodec.Proofs.GroupVarint.Mismatch

/-!
# Reading at another element width

Nothing in a payload tells its element width, so a reader with another width has
to find out by the packed stream.  Among the widths one, two and four it always
does.  Between eight and a narrower width it does unless the lengths of the
elements are confusable, and then the reader accepts the payload.
-/

namespace SeriesCodec

theorem ElementWidth.bytes_injective {width other : ElementWidth}
    (same : width.bytes = other.bytes) : width = other := by
  cases width <;> cases other <;> first | rfl | exact absurd same (by decide)

namespace Framed

variable {compressor : Compressor} {framing : Framing} {options : Options}
variable {input framed destination : Bytes} {reader : ElementWidth}

theorem words_pos (whole : input.length % options.width.bytes = 0) (nonempty : input ≠ []) :
    0 < (Packed.words options input).length := by
  have size := Packed.words_bytes whole
  have some := List.length_pos_iff.mpr nonempty
  apply Nat.pos_of_ne_zero
  intro none
  rw [none, Nat.zero_mul] at size
  omega

theorem decompressInto_isOk_iff :
    (∃ answer, (decompressInto compressor framing options destination framed).outcome =
      .ok answer) ↔
      ∃ output, (decompress compressor framing options framed destination.length).outcome =
        .ok output := by
  rw [decompressInto_outcome]
  constructor
  · rintro ⟨answer, written⟩
    obtain ⟨output, found, _⟩ := Fallible.map_eq_ok_iff.mp written
    exact ⟨output, found⟩
  · rintro ⟨output, found⟩
    exact ⟨_, Fallible.map_eq_ok_iff.mpr ⟨output, found, rfl⟩⟩

/-- Without a compressor a payload is accepted exactly if it is a stream of so many elements. -/
theorem decompressInto_plain_isOk_iff (plain : options.level = 0) (supported : options.version = 0)
    {length : Nat} {header : Bytes} (heads : framing.header length = .ok header)
    (room : framing.Admits destination.length length) (payload : Bytes) :
    (∃ answer, (decompressInto compressor framing options destination
      (header ++ payload)).outcome = .ok answer) ↔
      length % options.width.bytes = 0 ∧
        GroupVarint.Holds options.width payload (length / options.width.bytes) := by
  rw [decompressInto_isOk_iff]
  have accepts (output : Bytes) :=
    @decompress_header_outcome_eq_ok_iff compressor framing options _ _ _ supported heads room
      payload output
  constructor
  · rintro ⟨output, found⟩
    obtain ⟨whole, packed, unpacks, words, reads, _⟩ := (accepts output).mp found
    rw [packedOf_plain plain] at unpacks
    cases unpacks
    exact ⟨whole, (GroupVarint.decode_eq_ok_iff_holds.mp reads).1⟩
  · rintro ⟨whole, held⟩
    obtain ⟨words, reads⟩ := GroupVarint.decode_isOk_iff_holds.mpr held
    exact ⟨_, (accepts _).mpr ⟨whole, payload, packedOf_plain plain _ _, words, reads, rfl⟩⟩

/-- What a reader gets out of a genuine payload is the packed stream of the series. -/
theorem eq_encode_of_packedOf {packed payload : Bytes} {count : Nat}
    (faithful : options.level = 0 ∨ compressor.Faithful)
    (pays : (payloadOf compressor options input.length
      (GroupVarint.encode (Packed.words options input))).outcome = .ok payload)
    (unpacks : (packedOf compressor { options with width := reader } count payload).outcome =
      .ok packed) :
    packed = GroupVarint.encode (Packed.words options input) := by
  rw [payloadOf_outcome] at pays
  rw [packedOf_outcome] at unpacks
  have stages : Options.usesCompressor { options with width := reader } =
    options.usesCompressor := rfl
  rw [stages] at unpacks
  split at pays
  next used =>
    rw [if_pos used] at unpacks
    exact Options.of_usesCompressor faithful used _ _ _ _ _ pays unpacks
  next unused =>
    rw [if_neg unused] at unpacks
    cases pays
    cases unpacks
    rfl

/-- A reader that accepts a genuine payload takes its packed stream for one of its own. -/
theorem holds_of_decompressInto (faithful : options.level = 0 ∨ compressor.Faithful)
    (written : (compress compressor framing options input).outcome = .ok framed)
    (room : framing.Admits destination.length input.length)
    (accepts : ∃ answer, (decompressInto compressor framing { options with width := reader }
      destination framed).outcome = .ok answer) :
    input.length % reader.bytes = 0 ∧
      GroupVarint.Holds reader (GroupVarint.encode (Packed.words options input))
        (input.length / reader.bytes) := by
  obtain ⟨supported, _, header, payload, heads, pays, rfl⟩ := compress_outcome_eq_ok_iff.mp written
  obtain ⟨output, found⟩ := decompressInto_isOk_iff.mp accepts
  obtain ⟨whole, packed, unpacks, words, reads, _⟩ :=
    (decompress_header_outcome_eq_ok_iff { options with width := reader }
      supported heads room payload).mp found
  obtain rfl := eq_encode_of_packedOf faithful pays unpacks
  exact ⟨whole, (GroupVarint.decode_eq_ok_iff_holds.mp reads).1⟩

/-- Without a compressor that is all that a reader looks for. -/
theorem decompressInto_isOk_of_holds (plain : options.level = 0)
    (written : (compress compressor framing options input).outcome = .ok framed)
    (room : framing.Admits destination.length input.length)
    (whole : input.length % reader.bytes = 0)
    (held : GroupVarint.Holds reader (GroupVarint.encode (Packed.words options input))
      (input.length / reader.bytes)) :
    ∃ answer, (decompressInto compressor framing { options with width := reader }
      destination framed).outcome = .ok answer := by
  obtain ⟨supported, _, header, payload, heads, pays, rfl⟩ := compress_outcome_eq_ok_iff.mp written
  have plainReader : Options.level { options with width := reader } = 0 := plain
  rw [payloadOf_outcome, Options.usesCompressor_eq_false plain] at pays
  cases pays
  exact (decompressInto_plain_isOk_iff plainReader supported heads room _).mpr ⟨whole, held⟩

/-! ## Widths one, two and four -/

/--
Between two of the widths one, two and four a mismatch is noticed, whatever the
series is and wherever the payload goes.
-/
theorem decompressInto_narrowMismatch_isError
    (faithful : options.level = 0 ∨ compressor.Faithful)
    (writerNarrow : options.width ≠ .eight) (readerNarrow : reader ≠ .eight)
    (different : reader ≠ options.width) (nonempty : input ≠ [])
    (written : (compress compressor framing options input).outcome = .ok framed)
    (room : framing.Admits destination.length input.length) :
    ∃ error, (decompressInto compressor framing { options with width := reader }
      destination framed).outcome = .error error := by
  cases outcome : (decompressInto compressor framing { options with width := reader }
      destination framed).outcome with
  | error error => exact ⟨error, rfl⟩
  | ok answer =>
      obtain ⟨_, whole, _⟩ := compress_outcome_eq_ok_iff.mp written
      obtain ⟨wholeReader, held⟩ := holds_of_decompressInto faithful written room ⟨answer, outcome⟩
      have fields : options.width.fieldBits = reader.fieldBits :=
        (GroupVarint.fieldBits_eq_two writerNarrow).trans
          (GroupVarint.fieldBits_eq_two readerNarrow).symm
      have counts := (GroupVarint.holds_encode (Packed.words options input)).count_eq fields held
      have some := words_pos whole nonempty
      have size := Packed.words_bytes whole
      have sizeReader := Nat.div_mul_cancel (Nat.dvd_of_mod_eq_zero wholeReader)
      rw [← counts] at sizeReader
      -- As many elements in as many bytes: the elements are equally wide.
      have widths : reader.bytes = options.width.bytes :=
        Nat.eq_of_mul_eq_mul_left some (sizeReader.trans size.symm)
      exact absurd (ElementWidth.bytes_injective widths) different

/-- One four-byte element, read as two elements of two bytes. -/
theorem decompressInto_narrowMismatch_one_element :
    (compress .passthrough .raw ⟨true, .four, 3, 0⟩ [1, 0, 0, 0]).outcome = .ok [0, 2] ∧
    ∃ error, (decompressInto .passthrough .raw ⟨true, .two, 3, 0⟩ [7, 7, 7, 7]
      [0, 2]).outcome = .error error := by
  have written : (compress .passthrough .raw ⟨true, .four, 3, 0⟩ [1, 0, 0, 0]).outcome =
      .ok [0, 2] := rfl
  refine ⟨written, ?_⟩
  exact @decompressInto_narrowMismatch_isError _ _ ⟨true, .four, 3, 0⟩ _ _ [7, 7, 7, 7] .two
    (.inr Compressor.passthrough_faithful) (by decide) (by decide) (by decide) (by decide)
    written rfl

/-! ## Eight and a narrower width -/

/-- A confusable series is a whole number of elements for the reader. -/
theorem confusable_whole {writer : ElementWidth} {lengths : List Nat}
    (confusable : GroupVarint.Confusable writer reader lengths) :
    lengths.length * writer.bytes % reader.bytes = 0 := by
  cases writer <;> cases reader <;> simp only [GroupVarint.Confusable] at confusable
  case eight.two | eight.four => simp only [ElementWidth.bytes]; omega
  case four.eight =>
      have pairs := confusable.1
      simp only [ElementWidth.bytes]
      omega
  case two.eight =>
      rcases confusable with rfl | rfl
      · rfl
      · rfl

/--
Between the width eight and a narrower one a payload is accepted exactly if the
lengths of its elements are confusable.
-/
theorem decompressInto_eightMismatch_isOk_iff (plain : options.level = 0)
    (mixed : options.width = .eight ↔ reader ≠ .eight) (nonempty : input ≠ [])
    (written : (compress compressor framing options input).outcome = .ok framed)
    (room : framing.Admits destination.length input.length) :
    (∃ answer, (decompressInto compressor framing { options with width := reader }
      destination framed).outcome = .ok answer) ↔
      GroupVarint.Confusable options.width reader
        (GroupVarint.minimalLengths (Packed.words options input)) := by
  obtain ⟨_, whole, _⟩ := compress_outcome_eq_ok_iff.mp written
  have some := words_pos whole nonempty
  have size := Packed.words_bytes whole
  have decided (wholeReader : input.length % reader.bytes = 0) :=
    GroupVarint.holds_encode_iff_confusable mixed (Packed.words options input) some
      (size.trans (Nat.div_mul_cancel (Nat.dvd_of_mod_eq_zero wholeReader)).symm)
  constructor
  · intro accepts
    obtain ⟨wholeReader, held⟩ := holds_of_decompressInto (.inl plain) written room accepts
    exact (decided wholeReader).mp held
  · intro confusable
    have wholeReader := confusable_whole confusable
    rw [GroupVarint.minimalLengths_length, size] at wholeReader
    exact decompressInto_isOk_of_holds plain written room wholeReader
      ((decided wholeReader).mpr confusable)

/--
One eight-byte element of five significant bytes, read as four elements of two
bytes: the payload is accepted, and what comes out is another series.
-/
theorem decompressInto_eightMismatch_accepts_five_bytes :
    (compress .passthrough .sized ⟨false, .eight, 0, 0⟩ [0, 0, 0, 0, 1, 0, 0, 0]).outcome =
      .ok [8, 0, 0, 0, 4, 0, 0, 0, 0, 1] ∧
    (∃ answer, (decompressInto .passthrough .sized ⟨false, .two, 0, 0⟩ [7, 7, 7, 7, 7, 7, 7, 7]
      [8, 0, 0, 0, 4, 0, 0, 0, 0, 1]).outcome = .ok answer) ∧
    (decompressInto .passthrough .sized ⟨false, .two, 0, 0⟩ [7, 7, 7, 7, 7, 7, 7, 7]
      [8, 0, 0, 0, 4, 0, 0, 0, 0, 1]).outcome = .ok ⟨8, [0, 0, 0, 0, 0, 0, 1, 0]⟩ := by
  have written : (compress .passthrough .sized ⟨false, .eight, 0, 0⟩
      [0, 0, 0, 0, 1, 0, 0, 0]).outcome = .ok [8, 0, 0, 0, 4, 0, 0, 0, 0, 1] := rfl
  have five : GroupVarint.minimalLengths (Packed.words ⟨false, .eight, 0, 0⟩
      [0, 0, 0, 0, 1, 0, 0, 0]) = [5] := rfl
  refine ⟨written, ?_, rfl⟩
  exact (decompressInto_eightMismatch_isOk_iff rfl (by decide) (by decide) written
    (by simp [Framing.Admits])).mpr (.inl five)

end Framed

end SeriesCodec
