import SeriesCodec.Proofs.Framed.Extent

/-!
# The order of refusals

Both directions look at the options first and at the packed stream last, and a call
fails with the first refusal that applies.  Inner stages check some of it again, but
they are only reached by calls for which those checks hold.
-/

namespace SeriesCodec

variable {framing : Framing} {options : Options}

theorem Options.validate_of_unsupported (unsupported : options.version ≠ 0) :
    options.validate = .error (.unsupportedVersion options.version) :=
  if_neg fun supported => unsupported (options.supported_iff.mp supported)

/-- The level decides whether the compressor is used. -/
theorem Options.ite_usesCompressor {α : Type} (options : Options) (staged direct : α) :
    (if options.usesCompressor then staged else direct) =
      if options.level = 0 then direct else staged := by
  by_cases plain : options.level = 0
  · rw [if_pos plain, usesCompressor_eq_false plain]
    rfl
  · have used : options.usesCompressor := decide_eq_true (UInt32.pos_iff_ne_zero.mpr plain)
    rw [if_neg plain, if_pos used]

theorem Elements.checkWhole_of_partial {width : ElementWidth} {length : Nat}
    (ragged : length % width.bytes ≠ 0) :
    checkWhole width length = .error (.partialElement width.bytes length) :=
  if_neg ragged

/-- The elements of a whole series are there. -/
theorem Elements.ofBytes_of_whole {width : ElementWidth} {bytes : Bytes}
    (whole : bytes.length % width.bytes = 0) :
    ofBytes width bytes = .ok (take width (bytes.length / width.bytes) bytes) := by
  rw [ofBytes, (checkWhole_eq_ok_iff _).mpr whole]
  rfl

namespace Framing

def field : (framing : Framing) → (length : Nat) → Bytes
  | raw, _ => []
  | sized, length => LittleEndian.encode lengthFieldSize length

def lengthFor : (framing : Framing) → (framed : Bytes) → (capacity : Nat) → Nat
  | raw, _, capacity => capacity
  | sized, framed, _ => LittleEndian.value (framed.take lengthFieldSize)

theorem header_of_long {length : Nat} (long : framing = sized ∧ greatestLength < length) :
    framing.header length = .error (.lengthFieldOverflow length) := by
  obtain ⟨rfl, beyond⟩ := long
  exact if_neg (Nat.not_le_of_lt beyond)

theorem header_eq_field {length : Nat} (short : ¬(framing = sized ∧ greatestLength < length)) :
    framing.header length = .ok (framing.field length) := by
  cases framing with
  | raw => rfl
  | sized => exact header_of_short (Nat.le_of_not_lt fun beyond => short ⟨rfl, beyond⟩)

/-- What has room for a header is split behind it. -/
theorem split_of_headed {framed : Bytes} (headed : framing.headerSize ≤ framed.length)
    (capacity : Nat) :
    ∃ recorded, framing.split framed = .ok (recorded, framed.drop framing.headerSize) ∧
      recorded.getD capacity = framing.lengthFor framed capacity := by
  have parts := split_append (List.length_take_of_le headed) (framed.drop framing.headerSize)
  rw [List.take_append_drop] at parts
  exact ⟨_, parts, by cases framing <;> rfl⟩

end Framing

namespace Framed

variable {compressor : Compressor} {input destination framed : Bytes}

/-- The first refusal of a series of `inputLength` bytes, before a compressor is asked. -/
def writingRefusal (framing : Framing) (options : Options) (inputLength : Nat) :
    Option CodecError :=
  if options.version ≠ 0 then some (.unsupportedVersion options.version)
  else if inputLength % options.width.bytes ≠ 0 then
    some (.partialElement options.width.bytes inputLength)
  else if framing = .sized ∧ Framing.greatestLength < inputLength then
    some (.lengthFieldOverflow inputLength)
  else none

def payloadIn (compressor : Compressor) (options : Options) (packed : Bytes) :
    Except CodecError Bytes :=
  if options.level = 0 then .ok packed else compressor.compress packed options.level

/-- The framed payload of a series, or the first refusal that applies. -/
def writeInOrder (compressor : Compressor) (framing : Framing) (options : Options)
    (input : Bytes) : Except CodecError Bytes :=
  match writingRefusal framing options input.length with
  | some reason => .error reason
  | none =>
      (payloadIn compressor options (GroupVarint.encode (Packed.words options input))).map
        (framing.field input.length ++ ·)

/-- The first refusal of a call to read, before a compressor is asked. -/
def readingRefusal (framing : Framing) (options : Options) (capacity : Nat) (framed : Bytes) :
    Option CodecError :=
  let length := framing.lengthFor framed capacity
  if options.version ≠ 0 then some (.unsupportedVersion options.version)
  else if framed.length < framing.headerSize then some (.lengthFieldMissing framed.length)
  else if length % options.width.bytes ≠ 0 then
    some (.partialElement options.width.bytes length)
  else if capacity < length then some (.destinationTooSmall length capacity)
  else none

theorem readingRefusal_eq_none_iff {framing : Framing} {options : Options} {capacity : Nat} :
    readingRefusal framing options capacity framed = none ↔
      options.version = 0 ∧ framing.headerSize ≤ framed.length ∧
        framing.lengthFor framed capacity % options.width.bytes = 0 ∧
        framing.lengthFor framed capacity ≤ capacity := by
  have refused (applies : Prop) [Decidable applies] (reason : CodecError)
      (others : Option CodecError) :
      (if applies then some reason else others) = none ↔ ¬applies ∧ others = none := by
    by_cases here : applies
    · simp [here]
    · simp [here]
  simp only [readingRefusal, refused, Decidable.not_not, Nat.not_lt, and_true]

def streamIn (compressor : Compressor) (options : Options) (count : Nat) (payload : Bytes) :
    Except CodecError Bytes :=
  if options.level = 0 then .ok payload
  else compressor.decompress payload (GroupVarint.maxPackedSize options.width count)

def answerOf (compressor : Compressor) (options : Options) (length : Nat)
    (destination payload : Bytes) : Except CodecError Written := do
  let count := length / options.width.bytes
  let packed ← streamIn compressor options count payload
  let words ← (GroupVarint.decode options.width packed count).mapError .packedStream
  pure ⟨length, Elements.toBytes (Delta.decode options.delta words) ++ destination.drop length⟩

/-- A destination with the series behind a payload, or the first refusal that applies. -/
def readInOrder (compressor : Compressor) (framing : Framing) (options : Options)
    (destination framed : Bytes) : Except CodecError Written :=
  match readingRefusal framing options destination.length framed with
  | some reason => .error reason
  | none =>
      answerOf compressor options (framing.lengthFor framed destination.length) destination
        (framed.drop framing.headerSize)

/-! ## Compressing -/

theorem payloadOf_outcome_eq (inputLength : Nat) (packed : Bytes) :
    (payloadOf compressor options inputLength packed).outcome =
      payloadIn compressor options packed := by
  rw [payloadOf_outcome, payloadIn, Options.ite_usesCompressor]

/-- Nothing is done for a series that is refused; for any other a payload is made and framed. -/
theorem compress_eq (input : Bytes) :
    compress compressor framing options input =
      match writingRefusal framing options input.length with
      | some reason => throw reason
      | none => (do
          let payload ← payloadOf compressor options input.length
            (GroupVarint.encode (Packed.words options input))
          let framed := framing.field input.length ++ payload
          Op.log (.compressed input.length options.width framed.length framing)
          pure framed) := by
  rw [compress, writingRefusal]
  by_cases supported : options.version = 0
  case neg =>
    rw [Op.check_of_error (Options.validate_of_unsupported supported), if_pos supported]
  rw [Op.check_of_ok (options.validate_eq_ok_iff.mpr supported), if_neg (not_not_intro supported)]
  by_cases whole : input.length % options.width.bytes = 0
  case neg =>
    rw [Op.check_of_error (Elements.checkWhole_of_partial whole), if_pos whole]
  rw [Op.check_of_ok ((Elements.checkWhole_eq_ok_iff _).mpr whole),
    Op.check_of_ok (Packed.ofBytes_eq_ok_iff.mpr ⟨whole, rfl⟩), if_neg (not_not_intro whole)]
  by_cases long : framing = .sized ∧ Framing.greatestLength < input.length
  · rw [Op.check_of_error (Framing.header_of_long long), if_pos long]
  · rw [Op.check_of_ok (Framing.header_eq_field long), if_neg long]

theorem compress_outcome_eq (input : Bytes) :
    (compress compressor framing options input).outcome =
      writeInOrder compressor framing options input := by
  rw [compress_eq, writeInOrder]
  cases writingRefusal framing options input.length with
  | some reason => rfl
  | none =>
      simp only [Op.outcome_bind, Op.outcome_log, Op.outcome_pure, Fallible.ok_bind,
        payloadOf_outcome_eq]
      cases payloadIn compressor options (GroupVarint.encode (Packed.words options input)) <;> rfl

/-! ## Decompressing -/

theorem packedOf_outcome_eq (count : Nat) (payload : Bytes) :
    (packedOf compressor options count payload).outcome =
      streamIn compressor options count payload := by
  rw [packedOf_outcome, streamIn, Options.ite_usesCompressor]

/-- The elements of a stream fill the length that their count was computed from. -/
theorem toBytes_decode_length {length : Nat} {packed : Bytes} {words : List (Word options.width)}
    (whole : length % options.width.bytes = 0)
    (read : GroupVarint.decode options.width packed (length / options.width.bytes) = .ok words) :
    (Elements.toBytes (Delta.decode options.delta words)).length = length := by
  rw [Packed.toBytes_length (Packed.toBytes_eq_ok_iff.mpr ⟨words, read, rfl⟩),
    Nat.div_mul_cancel (Nat.dvd_of_mod_eq_zero whole)]

/-- Once everything but the payload is in order, the compressor and the stream decide. -/
theorem contents_of_checked {length : Nat} (supported : options.version = 0)
    (whole : length % options.width.bytes = 0) (destination payload : Bytes) :
    (contents compressor options length payload).map (Written.front destination) =
      answerOf compressor options length destination payload := by
  rw [contents, options.validate_eq_ok_iff.mpr supported, (Elements.checkWhole_eq_ok_iff _).mpr whole,
    Fallible.ok_bind, Fallible.ok_bind, packedOf_outcome_eq, answerOf]
  cases streamIn compressor options (length / options.width.bytes) payload with
  | error reason => rfl
  | ok packed =>
      rw [Fallible.ok_bind, Fallible.ok_bind, Packed.toBytes]
      cases read : GroupVarint.decode options.width packed (length / options.width.bytes) with
      | error fault => rfl
      | ok words =>
          have size := toBytes_decode_length whole read
          have filled : Written.front destination
              (Elements.toBytes (Delta.decode options.delta words)) =
              ⟨length, Elements.toBytes (Delta.decode options.delta words) ++
                destination.drop length⟩ := by
            rw [Written.front, Bytes.overwrite, size]
          exact congrArg Except.ok filled

/-- Nothing is done for a payload that is refused; any other is unpacked into its elements. -/
theorem decompress_eq (framed : Bytes) (capacity : Nat) :
    decompress compressor framing options framed capacity =
      match readingRefusal framing options capacity framed with
      | some reason => throw reason
      | none => (do
          let count := framing.lengthFor framed capacity / options.width.bytes
          let packed ← packedOf compressor options count (framed.drop framing.headerSize)
          let output ← Op.ofExcept (Packed.toBytesWithin capacity options packed count)
          Op.log (.decompressSizes framed.length packed.length output.length)
          pure output) := by
  rw [decompress, readingRefusal]
  by_cases supported : options.version = 0
  case neg =>
    rw [Op.check_of_error (Options.validate_of_unsupported supported), if_pos supported]
  rw [Op.check_of_ok (options.validate_eq_ok_iff.mpr supported), if_neg (not_not_intro supported)]
  by_cases headed : framed.length < framing.headerSize
  · rw [Op.check_of_error (Framing.split_short headed), if_pos headed]
  obtain ⟨recorded, parts, known⟩ := Framing.split_of_headed (Nat.le_of_not_lt headed) capacity
  rw [Op.check_of_ok parts, if_neg headed, ← known]
  by_cases whole : recorded.getD capacity % options.width.bytes = 0
  case neg =>
    rw [if_pos whole]
    exact Op.check_of_error (Elements.checkWhole_of_partial whole) _
  rw [if_neg (not_not_intro whole)]
  refine (Op.check_of_ok ((Elements.checkWhole_eq_ok_iff _).mpr whole) _).trans ?_
  by_cases small : capacity < recorded.getD capacity
  · rw [if_pos small, if_pos small]
    rfl
  · rw [if_neg small, if_neg small]

theorem decompressInto_outcome_eq (destination framed : Bytes) :
    (decompressInto compressor framing options destination framed).outcome =
      readInOrder compressor framing options destination framed := by
  rw [decompressInto_outcome, readInOrder]
  cases refusal : readingRefusal framing options destination.length framed with
  | some reason =>
      rw [decompress_eq, refusal]
      rfl
  | none =>
      obtain ⟨supported, headed, whole, fits⟩ := readingRefusal_eq_none_iff.mp refusal
      obtain ⟨recorded, parts, known⟩ := Framing.split_of_headed headed destination.length
      rw [← known] at whole fits ⊢
      rw [decompress_outcome_of_fits parts fits]
      exact contents_of_checked supported whole _ _

/--
A call fails with the first refusal that applies and succeeds if none does.  Writing
asks for the version, for whole elements, for a length that the header can hold and then
the compressor.  Reading asks for the version, for the header, for whole elements, for
room, then the compressor and at last the packed stream, and answers with as many bytes
as the length says.  Where these checks hold, the elements are there to be packed, and
unpacked ones fit.
-/
theorem refusals_in_order (compressor : Compressor) (framing : Framing) (options : Options) :
    (∀ input, (compress compressor framing options input).outcome =
      writeInOrder compressor framing options input) ∧
    (∀ destination framed,
      (decompressInto compressor framing options destination framed).outcome =
        readInOrder compressor framing options destination framed) ∧
    (∀ input : Bytes, input.length % options.width.bytes = 0 →
      ∃ elements, Elements.ofBytes options.width input = .ok elements) ∧
    ∀ (packed : Bytes) (words : List (Word options.width)) (length capacity : Nat),
      length % options.width.bytes = 0 → length ≤ capacity →
      GroupVarint.decode options.width packed (length / options.width.bytes) = .ok words →
        ∃ output, output.length = length ∧
          Elements.toBytesWithin capacity (Delta.decode options.delta words) = .ok output := by
  refine ⟨compress_outcome_eq, decompressInto_outcome_eq,
    fun _ whole => ⟨_, Elements.ofBytes_of_whole whole⟩, ?_⟩
  intro packed words length capacity whole fits read
  have size := toBytes_decode_length whole read
  refine ⟨_, size, Elements.toBytesWithin_of_room ?_⟩
  rw [Elements.toBytes_length] at size
  exact Nat.le_trans (Nat.le_of_eq size) fits

/--
A length field that is no whole number of elements, and more than there is room for, in
front of a stream that is cut: the elements are what is refused.
-/
theorem refusals_in_order_ragged_length :
    (decompressInto .passthrough .sized ⟨true, .two, 3, 0⟩ [7, 7] [5, 0, 0, 0, 4]).outcome =
      .error (.partialElement 2 5) ∧
    (compress .passthrough .sized ⟨true, .two, 3, 0⟩ [5, 0, 3, 1]).outcome =
      .ok [4, 0, 0, 0, 4, 10, 252, 1] ∧
    (∃ elements, Elements.ofBytes .two [5, 0, 3, 1] = .ok elements) ∧
    ∃ output, output.length = 4 ∧
      Elements.toBytesWithin 5 (Delta.decode true [(10 : Word .two), 508]) = .ok output := by
  obtain ⟨writes, reads, packs, unpacks⟩ :=
    refusals_in_order .passthrough .sized ⟨true, .two, 3, 0⟩
  refine ⟨?_, ?_, packs [5, 0, 3, 1] rfl, ?_⟩
  · rw [reads]
    rfl
  · rw [writes]
    rfl
  · exact unpacks [4, 10, 252, 1] [10, 508] 4 5 rfl (by decide) rfl

end Framed

end SeriesCodec
