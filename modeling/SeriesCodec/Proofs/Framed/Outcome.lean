import SeriesCodec.Framed
import SeriesCodec.Proofs.GroupVarint.Recorded

/-!
# Outcomes of the two directions

What compressing and decompressing come to once the notices are left out:
compressing succeeds on whole series whose length fits the header and whose
packed stream the compressor takes, and behind a written header decompressing
goes on with the length that was written.
-/

namespace SeriesCodec

theorem Options.validate_eq_error {options : Options} {reason : CodecError}
    (failed : options.validate = .error reason) :
    reason = .unsupportedVersion options.version := by
  unfold validate at failed
  split at failed
  · cases failed
  · cases failed
    rfl

theorem Elements.checkWhole_eq_error {width : ElementWidth} {length : Nat} {reason : CodecError}
    (failed : checkWhole width length = .error reason) :
    reason = .partialElement width.bytes length := by
  unfold checkWhole at failed
  split at failed
  · cases failed
  · cases failed
    rfl

theorem Elements.toBytesWithin_of_room {width : ElementWidth} {capacity : Nat}
    {elements : List (Word width)} (room : elements.length * width.bytes ≤ capacity) :
    toBytesWithin capacity elements = .ok (toBytes elements) :=
  if_neg (Nat.not_lt_of_le room)

namespace Framing

/-- The destinations that are offered for an answer of `length` bytes. -/
def Admits : (framing : Framing) → (capacity length : Nat) → Prop
  | raw, capacity, length => capacity = length
  | sized, capacity, length => length ≤ capacity

theorem Admits.le {framing : Framing} {capacity length : Nat}
    (room : framing.Admits capacity length) : length ≤ capacity := by
  cases framing with
  | raw => exact Nat.le_of_eq (Eq.symm room)
  | sized => exact room

/-- A header can be written for every length that its field can hold. -/
theorem header_isOk {framing : Framing} {length : Nat}
    (short : framing = sized → length ≤ greatestLength) :
    ∃ bytes, framing.header length = .ok bytes := by
  cases framing with
  | raw => exact ⟨[], rfl⟩
  | sized => exact ⟨_, if_pos (short rfl)⟩

theorem header_eq_error {framing : Framing} {length : Nat} {reason : CodecError}
    (failed : framing.header length = .error reason) : reason = .lengthFieldOverflow length := by
  cases framing with
  | raw => cases failed
  | sized =>
      simp only [header] at failed
      split at failed
      · cases failed
      · cases failed
        rfl

/-- Behind a written header the length is the written one, or the whole capacity. -/
theorem split_header {framing : Framing} {capacity length : Nat} {header : Bytes}
    (written : framing.header length = .ok header)
    (room : framing.Admits capacity length) (payload : Bytes) :
    ∃ recorded, framing.split (header ++ payload) = .ok (recorded, payload) ∧
      recorded.getD capacity = length := by
  cases framing with
  | raw =>
      cases written
      exact ⟨none, rfl, room⟩
  | sized =>
      refine ⟨some length, ?_, rfl⟩
      rw [split, splitSized_header written payload]
      rfl

end Framing

namespace Packed

def words (options : Options) (input : Bytes) : List (Word options.width) :=
  Delta.encode options.delta
    (Elements.take options.width (input.length / options.width.bytes) input)

@[simp] theorem words_length (options : Options) (input : Bytes) :
    (words options input).length = input.length / options.width.bytes := by
  simp [words]

/-- The words stand for all bytes of a whole series. -/
theorem words_bytes {options : Options} {input : Bytes}
    (whole : input.length % options.width.bytes = 0) :
    (words options input).length * options.width.bytes = input.length := by
  rw [words_length]
  exact Nat.div_mul_cancel (Nat.dvd_of_mod_eq_zero whole)

/-- The words for the bytes of some elements. -/
theorem words_of_elements (options : Options) (elements : List (Word options.width)) :
    words options (Elements.toBytes elements) = Delta.encode options.delta elements := by
  have taken := Elements.take_toBytes elements []
  rw [List.append_nil] at taken
  rw [words, Elements.toBytes_length, Nat.mul_div_cancel _ options.width.bytes_pos, taken]

theorem ofBytes_eq_ok_iff {options : Options} {input packed : Bytes} :
    ofBytes options input = .ok packed ↔
      input.length % options.width.bytes = 0 ∧
      packed = GroupVarint.encode (words options input) := by
  rw [ofBytes, Fallible.bind_eq_ok_iff]
  constructor
  · rintro ⟨elements, whole, packs⟩
    obtain ⟨⟨⟩, checked, taken⟩ := Fallible.bind_eq_ok_iff.mp whole
    cases taken
    cases packs
    exact ⟨(Elements.checkWhole_eq_ok_iff _).mp checked, rfl⟩
  · rintro ⟨whole, rfl⟩
    refine ⟨_, Fallible.bind_eq_ok_iff.mpr ⟨(), ?_, rfl⟩, rfl⟩
    exact (Elements.checkWhole_eq_ok_iff _).mpr whole

theorem ofBytes_eq_error {options : Options} {input : Bytes} {reason : CodecError}
    (failed : ofBytes options input = .error reason) :
    reason = .partialElement options.width.bytes input.length := by
  rcases Fallible.bind_eq_error_iff.mp failed with refused | ⟨_, _, impossible⟩
  · rcases Fallible.bind_eq_error_iff.mp refused with refused | ⟨_, _, impossible⟩
    · exact Elements.checkWhole_eq_error refused
    · cases impossible
  · cases impossible

def toBytes (options : Options) (packed : Bytes) (count : Nat) : Except CodecError Bytes := do
  let words ← (GroupVarint.decode options.width packed count).mapError .packedStream
  pure (Elements.toBytes (Delta.decode options.delta words))

theorem toBytes_eq_ok_iff {options : Options} {packed output : Bytes} {count : Nat} :
    toBytes options packed count = .ok output ↔
      ∃ words, GroupVarint.decode options.width packed count = .ok words ∧
        output = Elements.toBytes (Delta.decode options.delta words) := by
  rw [toBytes, Fallible.bind_eq_ok_iff]
  constructor
  · rintro ⟨words, read, same⟩
    cases same
    exact ⟨words, Fallible.mapError_eq_ok_iff.mp read, rfl⟩
  · rintro ⟨words, read, rfl⟩
    exact ⟨words, Fallible.mapError_eq_ok_iff.mpr read, rfl⟩

theorem toBytes_eq_error {options : Options} {packed : Bytes} {count : Nat} {reason : CodecError}
    (failed : toBytes options packed count = .error reason) :
    ∃ fault, reason = .packedStream fault := by
  rw [toBytes] at failed
  cases read : GroupVarint.decode options.width packed count with
  | error fault =>
      rw [read] at failed
      cases failed
      exact ⟨fault, rfl⟩
  | ok words =>
      rw [read] at failed
      cases failed

theorem toBytes_length {options : Options} {packed output : Bytes} {count : Nat}
    (read : toBytes options packed count = .ok output) :
    output.length = count * options.width.bytes := by
  obtain ⟨words, decoded, rfl⟩ := toBytes_eq_ok_iff.mp read
  rw [Elements.toBytes_length, Delta.decode_length, (GroupVarint.decode_eq_ok_iff_holds.mp decoded).2,
    GroupVarint.readWords_length, GroupVarint.recordedLengths_length]

/-- In a destination with room for `count` elements only the packed stream decides. -/
theorem toBytesWithin_of_room {options : Options} {capacity count : Nat}
    (room : count * options.width.bytes ≤ capacity) (packed : Bytes) :
    toBytesWithin capacity options packed count = toBytes options packed count := by
  rw [toBytesWithin, toBytes]
  cases read : GroupVarint.decode options.width packed count with
  | error fault => rfl
  | ok words =>
      have size : (Delta.decode options.delta words).length = count := by
        rw [Delta.decode_length, (GroupVarint.decode_eq_ok_iff_holds.mp read).2]
        simp
      exact Elements.toBytesWithin_of_room (size ▸ room)

end Packed

namespace Framed

variable {compressor : Compressor} {framing : Framing} {options : Options}

theorem payloadOf_outcome (inputLength : Nat) (packed : Bytes) :
    (payloadOf compressor options inputLength packed).outcome =
      if options.usesCompressor then compressor.compress packed options.level
      else .ok packed := by
  unfold payloadOf
  split
  · rw [Op.outcome_bind]
    simp only [Compressor.runCompress, Op.outcome_call, Op.outcome_bind, Op.outcome_log,
      Op.outcome_pure]
    cases compressor.compress packed options.level <;> rfl
  · rfl

theorem packedOf_outcome (count : Nat) (payload : Bytes) :
    (packedOf compressor options count payload).outcome =
      if options.usesCompressor then
        compressor.decompress payload (GroupVarint.maxPackedSize options.width count)
      else .ok payload := by
  unfold packedOf
  split <;> rfl

/-- Without a compressor the payload is the packed stream. -/
theorem packedOf_plain (plain : options.level = 0) (count : Nat) (payload : Bytes) :
    (packedOf compressor options count payload).outcome = .ok payload := by
  rw [packedOf_outcome, Options.usesCompressor_eq_false plain]
  rfl

theorem compress_outcome_eq_ok_iff {input framed : Bytes} :
    (compress compressor framing options input).outcome = .ok framed ↔
      options.version = 0 ∧ input.length % options.width.bytes = 0 ∧
      ∃ header payload, framing.header input.length = .ok header ∧
        (payloadOf compressor options input.length
          (GroupVarint.encode (Packed.words options input))).outcome = .ok payload ∧
        framed = header ++ payload := by
  simp only [compress, Op.outcome_bind, Op.outcome_ofExcept, Op.outcome_log, Op.outcome_pure,
    Fallible.bind_eq_ok_iff]
  constructor
  · rintro ⟨⟨⟩, supported, ⟨⟩, whole, packed, packs, header, heads, payload, pays,
      ⟨⟩, _, done⟩
    obtain ⟨_, rfl⟩ := Packed.ofBytes_eq_ok_iff.mp packs
    cases done
    exact ⟨options.validate_eq_ok_iff.mp supported,
      (Elements.checkWhole_eq_ok_iff _).mp whole, header, payload, heads, pays, rfl⟩
  · rintro ⟨supported, whole, header, payload, heads, pays, rfl⟩
    exact ⟨(), options.validate_eq_ok_iff.mpr supported, (),
      (Elements.checkWhole_eq_ok_iff _).mpr whole, _, Packed.ofBytes_eq_ok_iff.mpr ⟨whole, rfl⟩,
      header, heads, payload, pays, (), trivial, rfl⟩

/-- The options, the input or the compressor is to blame when compressing fails. -/
theorem compress_outcome_error {input : Bytes} {reason : CodecError}
    (failed : (compress compressor framing options input).outcome = .error reason) :
    reason = .unsupportedVersion options.version ∨
      reason = .partialElement options.width.bytes input.length ∨
      reason = .lengthFieldOverflow input.length ∨
      ∃ packed, compressor.compress packed options.level = .error reason := by
  simp only [compress, Op.outcome_bind, Op.outcome_ofExcept, Op.outcome_log,
    Op.outcome_pure] at failed
  rcases Fallible.bind_eq_error_iff.mp failed with refused | ⟨_, _, failed⟩
  · exact .inl (Options.validate_eq_error refused)
  rcases Fallible.bind_eq_error_iff.mp failed with refused | ⟨_, _, failed⟩
  · exact .inr (.inl (Elements.checkWhole_eq_error refused))
  rcases Fallible.bind_eq_error_iff.mp failed with refused | ⟨packed, _, failed⟩
  · exact .inr (.inl (Packed.ofBytes_eq_error refused))
  rcases Fallible.bind_eq_error_iff.mp failed with refused | ⟨header, _, failed⟩
  · exact .inr (.inr (.inl (Framing.header_eq_error refused)))
  rcases Fallible.bind_eq_error_iff.mp failed with refused | ⟨payload, _, failed⟩
  · rw [payloadOf_outcome] at refused
    split at refused
    · exact .inr (.inr (.inr ⟨packed, refused⟩))
    · cases refused
  · cases failed

def payloadFor (compressor : Compressor) (options : Options) (input : Bytes) :
    Except CodecError Bytes := do
  options.validate
  Elements.checkWhole options.width input.length
  let packed ← Packed.ofBytes options input
  (payloadOf compressor options input.length packed).outcome

/-- A header that can be written stands in front of the payload. -/
theorem compress_outcome_of_header {input header : Bytes}
    (heads : framing.header input.length = .ok header) :
    (compress compressor framing options input).outcome =
      (payloadFor compressor options input).map (header ++ ·) := by
  simp only [compress, payloadFor, Op.outcome_bind, Op.outcome_ofExcept, Op.outcome_log,
    Op.outcome_pure, heads, Fallible.ok_bind]
  cases options.validate with
  | error reason => rfl
  | ok _ =>
      cases Elements.checkWhole options.width input.length with
      | error reason => rfl
      | ok _ =>
          cases Packed.ofBytes options input with
          | error reason => rfl
          | ok packed =>
              simp only [Fallible.ok_bind]
              cases (payloadOf compressor options input.length packed).outcome <;> rfl

/-- The series of `length` bytes behind a payload, wherever it goes. -/
def contents (compressor : Compressor) (options : Options) (length : Nat) (payload : Bytes) :
    Except CodecError Bytes := do
  options.validate
  Elements.checkWhole options.width length
  let packed ← (packedOf compressor options (length / options.width.bytes) payload).outcome
  Packed.toBytes options packed (length / options.width.bytes)

theorem contents_eq_ok_iff {length : Nat} {payload output : Bytes} :
    contents compressor options length payload = .ok output ↔
      options.version = 0 ∧ length % options.width.bytes = 0 ∧
      ∃ packed, (packedOf compressor options
          (length / options.width.bytes) payload).outcome = .ok packed ∧
        ∃ words, GroupVarint.decode options.width packed
            (length / options.width.bytes) = .ok words ∧
          output = Elements.toBytes (Delta.decode options.delta words) := by
  simp only [contents, Fallible.bind_eq_ok_iff]
  constructor
  · rintro ⟨⟨⟩, valid, ⟨⟩, whole, packed, unpacks, stores⟩
    exact ⟨options.validate_eq_ok_iff.mp valid, (Elements.checkWhole_eq_ok_iff _).mp whole, packed,
      unpacks, Packed.toBytes_eq_ok_iff.mp stores⟩
  · rintro ⟨supported, whole, packed, unpacks, stores⟩
    exact ⟨(), options.validate_eq_ok_iff.mpr supported, (),
      (Elements.checkWhole_eq_ok_iff _).mpr whole, packed, unpacks,
      Packed.toBytes_eq_ok_iff.mpr stores⟩

theorem contents_length {length : Nat} {payload output : Bytes}
    (read : contents compressor options length payload = .ok output) : output.length = length := by
  obtain ⟨_, whole, _, _, stores⟩ := contents_eq_ok_iff.mp read
  rw [Packed.toBytes_length (Packed.toBytes_eq_ok_iff.mpr stores),
    Nat.div_mul_cancel (Nat.dvd_of_mod_eq_zero whole)]

/-- Where the series fits, the destination does not matter. -/
theorem decompress_outcome_of_fits {framed payload : Bytes} {capacity : Nat}
    {recorded : Option Nat} (parts : framing.split framed = .ok (recorded, payload))
    (fits : recorded.getD capacity ≤ capacity) :
    (decompress compressor framing options framed capacity).outcome =
      contents compressor options (recorded.getD capacity) payload := by
  have room := Nat.le_trans (Nat.div_mul_le_self (recorded.getD capacity) options.width.bytes) fits
  simp only [decompress, contents, Op.outcome_bind, Op.outcome_ofExcept, Op.outcome_log,
    Op.outcome_pure, Fallible.ok_bind, Fallible.bind_ok, parts, if_neg (Nat.not_lt_of_le fits),
    Packed.toBytesWithin_of_room room]

theorem exists_parts_of_decompress {framed output : Bytes} {capacity : Nat}
    (read : (decompress compressor framing options framed capacity).outcome = .ok output) :
    ∃ recorded payload, framing.split framed = .ok (recorded, payload) ∧
      recorded.getD capacity ≤ capacity := by
  simp only [decompress, Op.outcome_bind, Op.outcome_ofExcept, Fallible.bind_eq_ok_iff] at read
  obtain ⟨⟨⟩, _, ⟨recorded, payload⟩, parts, ⟨⟩, _, rest⟩ := read
  simp only at rest
  split at rest
  next short => cases rest
  next enough => exact ⟨recorded, payload, parts, Nat.le_of_not_lt enough⟩

theorem decompress_outcome_eq_ok_iff {framed output : Bytes} {capacity : Nat} :
    (decompress compressor framing options framed capacity).outcome = .ok output ↔
      options.version = 0 ∧ ∃ recorded payload,
        framing.split framed = .ok (recorded, payload) ∧
        recorded.getD capacity % options.width.bytes = 0 ∧
        recorded.getD capacity ≤ capacity ∧
        ∃ packed, (packedOf compressor options
            (recorded.getD capacity / options.width.bytes) payload).outcome = .ok packed ∧
          ∃ words, GroupVarint.decode options.width packed
              (recorded.getD capacity / options.width.bytes) = .ok words ∧
            output = Elements.toBytes (Delta.decode options.delta words) := by
  constructor
  · intro read
    obtain ⟨recorded, payload, parts, fits⟩ := exists_parts_of_decompress read
    rw [decompress_outcome_of_fits parts fits] at read
    obtain ⟨supported, whole, stores⟩ := contents_eq_ok_iff.mp read
    exact ⟨supported, recorded, payload, parts, whole, fits, stores⟩
  · rintro ⟨supported, recorded, payload, parts, whole, fits, stores⟩
    rw [decompress_outcome_of_fits parts fits]
    exact contents_eq_ok_iff.mpr ⟨supported, whole, stores⟩

/-- Behind a written header the contents of the payload are read. -/
theorem decompress_header_outcome {capacity length : Nat} {header : Bytes}
    (written : framing.header length = .ok header) (room : framing.Admits capacity length)
    (payload : Bytes) :
    (decompress compressor framing options (header ++ payload) capacity).outcome =
      contents compressor options length payload := by
  obtain ⟨recorded, parts, rfl⟩ := Framing.split_header written room payload
  exact decompress_outcome_of_fits parts room.le

/-- Behind a written header only the compressor and the packed stream decide. -/
theorem decompress_header_outcome_eq_ok_iff (options : Options) {capacity length : Nat}
    {header : Bytes} (supported : options.version = 0) (written : framing.header length = .ok header)
    (room : framing.Admits capacity length) (payload : Bytes) {output : Bytes} :
    (decompress compressor framing options (header ++ payload) capacity).outcome = .ok output ↔
      length % options.width.bytes = 0 ∧
      ∃ packed, (packedOf compressor options
          (length / options.width.bytes) payload).outcome = .ok packed ∧
        ∃ words, GroupVarint.decode options.width packed
            (length / options.width.bytes) = .ok words ∧
          output = Elements.toBytes (Delta.decode options.delta words) := by
  rw [decompress_header_outcome written room, contents_eq_ok_iff]
  exact and_iff_right supported

theorem decompressInto_outcome (destination framed : Bytes) :
    (decompressInto compressor framing options destination framed).outcome =
      (decompress compressor framing options framed destination.length).outcome.map
        (Written.front destination) := by
  rw [decompressInto, Op.outcome_bind]
  rfl

end Framed

end SeriesCodec
