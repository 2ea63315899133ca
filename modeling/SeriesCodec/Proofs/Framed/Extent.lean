import SeriesCodec.Proofs.Framed.WidthMismatch
import SeriesCodec.Proofs.GroupVarint.Extent

/-!
# The extent of a payload

A payload does not tell how many bytes it stands for, but it stands for one
number of bytes only, so a destination or a length field of another size is
refused.  That this number is the one it was written for is owed to a compressor
that gives back what it took.  For the same reason a payload that is cut or
continued is refused, and the refusal says which of the two has happened.
-/

namespace SeriesCodec

namespace Framing

variable {framing : Framing} {header framed payload : Bytes}

def lengthIn : (framing : Framing) → (header : Bytes) → Option Nat
  | raw, _ => none
  | sized, header => some (LittleEndian.value header)

theorem split_append (whole : header.length = framing.headerSize) (payload : Bytes) :
    framing.split (header ++ payload) = .ok (framing.lengthIn header, payload) := by
  cases framing with
  | raw =>
      obtain rfl := List.eq_nil_of_length_eq_zero whole
      rfl
  | sized =>
      have cut := Bytes.splitExact?_append header payload
      rw [whole, headerSize] at cut
      rw [split, splitSized, cut]
      rfl

theorem split_short (short : framed.length < framing.headerSize) :
    framing.split framed = .error (.lengthFieldMissing framed.length) := by
  cases framing with
  | raw => cases short
  | sized =>
      rw [headerSize] at short
      rw [split, splitSized, Bytes.splitExact?_eq_none_iff.mpr short]
      rfl

/-- What splits has a header in front, and the header records the length. -/
theorem exists_header_of_split {recorded : Option Nat}
    (parts : framing.split framed = .ok (recorded, payload)) :
    ∃ header, framed = header ++ payload ∧ header.length = framing.headerSize ∧
      recorded = framing.lengthIn header := by
  have enough : framing.headerSize ≤ framed.length := by
    apply Nat.le_of_not_lt
    intro short
    rw [split_short short] at parts
    cases parts
  have whole := List.length_take_of_le enough
  have again := split_append whole (framed.drop framing.headerSize)
  rw [List.take_append_drop, parts] at again
  cases again
  exact ⟨_, (List.take_append_drop _ _).symm, whole, rfl⟩

theorem header_of_short {length : Nat} (short : length ≤ greatestLength) :
    sized.header length = .ok (LittleEndian.encode lengthFieldSize length) :=
  if_pos short

/-- Every length that the field can hold is read back from it. -/
theorem split_of_short {length : Nat} (short : length ≤ greatestLength) (payload : Bytes) :
    sized.split (LittleEndian.encode lengthFieldSize length ++ payload) =
      .ok (some length, payload) := by
  rw [split, splitSized_header (header_of_short short) payload]
  rfl

theorem split_lengthField (length : UInt32) (payload : Bytes) :
    sized.split (LittleEndian.encode lengthFieldSize length.toNat ++ payload) =
      .ok (some length.toNat, payload) :=
  split_of_short (Nat.le_of_lt_succ length.toNat_lt) payload

/-- A header is written again for the length that it records. -/
theorem header_lengthIn (whole : header.length = framing.headerSize) (capacity : Nat) :
    framing.header ((framing.lengthIn header).getD capacity) = .ok header := by
  cases framing with
  | raw =>
      obtain rfl := List.eq_nil_of_length_eq_zero whole
      rfl
  | sized =>
      have small := LittleEndian.value_lt header
      have written := LittleEndian.encode_value header
      rw [whole, headerSize] at small written
      have short : LittleEndian.value header ≤ greatestLength := Nat.le_of_lt_succ small
      rw [lengthIn, Option.getD_some, header_of_short short, written]

end Framing

namespace Framed

variable {compressor : Compressor} {framing : Framing} {options : Options}
variable {destination framed payload : Bytes} {recorded : Option Nat} {answer : Written}

/-! ## What an accepted payload is -/

/-- An accepted payload is, behind the compressor, a stream of the length that is read. -/
theorem holds_of_accepted (parts : framing.split framed = .ok (recorded, payload))
    (accepted : (decompressInto compressor framing options destination framed).outcome =
      .ok answer) :
    options.version = 0 ∧ recorded.getD destination.length % options.width.bytes = 0 ∧
      recorded.getD destination.length ≤ destination.length ∧
      ∃ packed, (packedOf compressor options
          (recorded.getD destination.length / options.width.bytes) payload).outcome = .ok packed ∧
        GroupVarint.Holds options.width packed
          (recorded.getD destination.length / options.width.bytes) := by
  obtain ⟨output, found⟩ := decompressInto_isOk_iff.mp ⟨answer, accepted⟩
  obtain ⟨supported, _, _, again, whole, fits, packed, unpacks, words, reads, _⟩ :=
    decompress_outcome_eq_ok_iff.mp found
  rw [parts] at again
  cases again
  exact ⟨supported, whole, fits, packed, unpacks, (GroupVarint.decode_eq_ok_iff_holds.mp reads).1⟩

/-- The count only limits what a steady compressor gives back. -/
theorem packedOf_unique (steady : options.level = 0 ∨ compressor.Steady) {count another : Nat}
    {packed other : Bytes}
    (first : (packedOf compressor options count payload).outcome = .ok packed)
    (second : (packedOf compressor options another payload).outcome = .ok other) :
    packed = other := by
  rw [packedOf_outcome] at first second
  by_cases used : options.usesCompressor
  · rw [if_pos used] at first second
    exact Options.of_usesCompressor steady used _ _ _ _ _ first second
  · rw [if_neg used] at first second
    cases first
    cases second
    rfl

/-- Behind whatever headers, one payload is accepted for one length only. -/
theorem length_eq_of_accepted (steady : options.level = 0 ∨ compressor.Steady)
    {otherFraming : Framing} {otherDestination otherFramed : Bytes} {otherRecorded : Option Nat}
    {otherAnswer : Written} (parts : framing.split framed = .ok (recorded, payload))
    (otherParts : otherFraming.split otherFramed = .ok (otherRecorded, payload))
    (accepted : (decompressInto compressor framing options destination framed).outcome =
      .ok answer)
    (otherAccepted : (decompressInto compressor otherFraming options otherDestination
      otherFramed).outcome = .ok otherAnswer) :
    recorded.getD destination.length = otherRecorded.getD otherDestination.length := by
  obtain ⟨_, whole, _, packed, unpacks, held⟩ := holds_of_accepted parts accepted
  obtain ⟨_, otherWhole, _, other, otherUnpacks, otherHeld⟩ :=
    holds_of_accepted otherParts otherAccepted
  obtain rfl := packedOf_unique steady unpacks otherUnpacks
  have counts := held.count_eq rfl otherHeld
  rw [← Nat.div_mul_cancel (Nat.dvd_of_mod_eq_zero whole), counts,
    Nat.div_mul_cancel (Nat.dvd_of_mod_eq_zero otherWhole)]

/-- From a faithful compressor a payload is accepted for the length of its series only. -/
theorem length_eq_of_faithful {input : Bytes} (faithful : options.level = 0 ∨ compressor.Faithful)
    (wholeInput : input.length % options.width.bytes = 0)
    (pays : (payloadOf compressor options input.length
      (GroupVarint.encode (Packed.words options input))).outcome = .ok payload)
    (parts : framing.split framed = .ok (recorded, payload))
    (accepted : (decompressInto compressor framing options destination framed).outcome =
      .ok answer) :
    recorded.getD destination.length = input.length := by
  obtain ⟨_, whole, _, packed, unpacks, held⟩ := holds_of_accepted parts accepted
  obtain rfl := eq_encode_of_packedOf faithful pays unpacks
  have counts := held.count_eq rfl (GroupVarint.holds_encode (Packed.words options input))
  rw [← Nat.div_mul_cancel (Nat.dvd_of_mod_eq_zero whole), counts, Packed.words_bytes wholeInput]

/--
A payload that was written for a series, and of which a compressor does not make
something else: it never does, or it has been seen to give a series of that length.
-/
structure Genuine (compressor : Compressor) (framing : Framing) (options : Options)
    (input framed : Bytes) : Prop where
  written : (compress compressor framing options input).outcome = .ok framed
  trusted : options.level = 0 ∨ compressor.Faithful ∨ ∃ (own : Bytes) (answer : Written),
    framing.Admits own.length input.length ∧
      (decompressInto compressor framing options own framed).outcome = .ok answer

/-- Behind whatever header, a genuine payload is accepted for the length of its series only. -/
theorem Genuine.exists_payload {input genuine : Bytes}
    (origin : Genuine compressor framing options input genuine)
    (steady : options.level = 0 ∨ compressor.Steady) :
    ∃ header payload, framing.header input.length = .ok header ∧ genuine = header ++ payload ∧
      ∀ (destination framed : Bytes) (recorded : Option Nat) (answer : Written),
        framing.split framed = .ok (recorded, payload) →
        (decompressInto compressor framing options destination framed).outcome = .ok answer →
          recorded.getD destination.length = input.length := by
  obtain ⟨_, whole, header, payload, heads, pays, rfl⟩ :=
    compress_outcome_eq_ok_iff.mp origin.written
  refine ⟨header, payload, heads, rfl, ?_⟩
  intro destination framed recorded answer parts accepted
  rcases origin.trusted with plain | faithful | ⟨own, ownAnswer, room, ownAccepted⟩
  · exact length_eq_of_faithful (.inl plain) whole pays parts accepted
  · exact length_eq_of_faithful (.inr faithful) whole pays parts accepted
  · obtain ⟨ownRecorded, ownParts, known⟩ := Framing.split_header heads room payload
    rw [← known]
    exact length_eq_of_accepted steady parts ownParts accepted ownAccepted

/--
At most one length goes with a payload, and a genuine payload goes with its own:
under another capacity, or behind another length field, it is refused.  With a
compressor the limit must not matter for what is given back.
-/
theorem payload_length_unique (steady : options.level = 0 ∨ compressor.Steady) :
    (∀ (payload first second : Bytes) (answer another : Written),
      (decompressInto compressor .raw options first payload).outcome = .ok answer →
      (decompressInto compressor .raw options second payload).outcome = .ok another →
        first.length = second.length) ∧
    (∀ (payload first second : Bytes) (answer another : Written) (length other : UInt32),
      (decompressInto compressor .sized options first
        (LittleEndian.encode Framing.lengthFieldSize length.toNat ++ payload)).outcome =
          .ok answer →
      (decompressInto compressor .sized options second
        (LittleEndian.encode Framing.lengthFieldSize other.toNat ++ payload)).outcome =
          .ok another →
        length = other) ∧
    ∀ input framed : Bytes,
      (Genuine compressor .raw options input framed →
        ∀ destination : Bytes, destination.length ≠ input.length →
          ∃ error, (decompressInto compressor .raw options destination framed).outcome =
            .error error) ∧
      (Genuine compressor .sized options input framed →
        ∀ (length : UInt32) (destination : Bytes), length.toNat ≠ input.length →
          ∃ error, (decompressInto compressor .sized options destination
            (LittleEndian.encode Framing.lengthFieldSize length.toNat ++
              framed.drop Framing.lengthFieldSize)).outcome = .error error) := by
  refine ⟨?_, ?_, ?_⟩
  · intro payload first second answer another accepted otherAccepted
    exact length_eq_of_accepted steady rfl rfl accepted otherAccepted
  · intro payload first second answer another length other accepted otherAccepted
    exact UInt32.toNat_inj.mp (length_eq_of_accepted steady
      (Framing.split_lengthField length payload) (Framing.split_lengthField other payload)
      accepted otherAccepted)
  · intro input framed
    refine ⟨?_, ?_⟩
    · intro genuine destination different
      obtain ⟨header, payload, heads, rfl, unique⟩ := genuine.exists_payload steady
      cases heads
      apply Fallible.exists_error_of_not_ok
      intro answer accepted
      exact different (unique destination payload none answer rfl accepted)
    · intro genuine length destination different
      obtain ⟨header, payload, heads, rfl, unique⟩ := genuine.exists_payload steady
      have front : header.length = Framing.lengthFieldSize := Framing.header_length heads
      rw [List.drop_left' front]
      apply Fallible.exists_error_of_not_ok
      intro answer accepted
      exact different (unique destination _ (some length.toNat) answer
        (Framing.split_lengthField length payload) accepted)

/-- Two elements: no other capacity and no other length field will do. -/
theorem payload_length_unique_pair :
    (compress .passthrough .raw ⟨true, .two, 3, 0⟩ [5, 0, 3, 1]).outcome = .ok [4, 10, 252, 1] ∧
    (decompressInto .passthrough .raw ⟨true, .two, 3, 0⟩ [7, 7, 7, 7] [4, 10, 252, 1]).outcome =
      .ok ⟨4, [5, 0, 3, 1]⟩ ∧
    (∀ destination answer, (decompressInto .passthrough .raw ⟨true, .two, 3, 0⟩ destination
      [4, 10, 252, 1]).outcome = .ok answer → destination.length = 4) ∧
    (∃ error, (decompressInto .passthrough .raw ⟨true, .two, 3, 0⟩ [7, 7] [4, 10, 252, 1]).outcome =
      .error error) ∧
    (compress .passthrough .sized ⟨true, .two, 3, 0⟩ [5, 0, 3, 1]).outcome =
      .ok [4, 0, 0, 0, 4, 10, 252, 1] ∧
    ∃ error, (decompressInto .passthrough .sized ⟨true, .two, 3, 0⟩ [7, 7, 7, 7, 7, 7, 7, 7]
      [6, 0, 0, 0, 4, 10, 252, 1]).outcome = .error error := by
  obtain ⟨rawUnique, _, refused⟩ := @payload_length_unique .passthrough ⟨true, .two, 3, 0⟩
    (.inr Compressor.passthrough_steady)
  have rawWritten : (compress .passthrough .raw ⟨true, .two, 3, 0⟩ [5, 0, 3, 1]).outcome =
      .ok [4, 10, 252, 1] := rfl
  have sizedWritten : (compress .passthrough .sized ⟨true, .two, 3, 0⟩ [5, 0, 3, 1]).outcome =
      .ok [4, 0, 0, 0, 4, 10, 252, 1] := rfl
  have accepted : (decompressInto .passthrough .raw ⟨true, .two, 3, 0⟩ [7, 7, 7, 7]
      [4, 10, 252, 1]).outcome = .ok ⟨4, [5, 0, 3, 1]⟩ := rfl
  refine ⟨rawWritten, accepted, ?_, ?_, sizedWritten, ?_⟩
  · intro destination answer found
    exact rawUnique _ _ _ _ _ found accepted
  · exact (refused _ _).1 ⟨rawWritten, .inr (.inl Compressor.passthrough_faithful)⟩ _ (by decide)
  · exact (refused _ _).2 ⟨sizedWritten, .inr (.inl Compressor.passthrough_faithful)⟩ 6 _
      (by decide)

/-- Stores bytes as they are, and gives back what stands behind the first four of them. -/
def forgetful : Compressor where
  compress input _ := .ok input
  decompress compressed _ :=
    if 4 ≤ compressed.length then .ok (compressed.drop 4)
    else .error (.secondaryCompressor "nothing left")
  maxCompressedSize length := length

theorem forgetful_steady : forgetful.Steady := by
  intro compressed limit another found other given again
  -- The limit is not looked at, so both are the same answer.
  exact Except.ok.inj (given.symm.trans again)

/--
That the limit does not matter is not enough for a genuine payload to go with its own
length: behind a steady compressor that gives back another stream than it took, the
payload of five bytes is accepted for two, under either framing.
-/
theorem forgetful_payload_of_another_length :
    forgetful.Steady ∧
    (compress forgetful .raw ⟨false, .one, 1, 0⟩ [1, 2, 0, 4, 5]).outcome =
      .ok [0, 0, 1, 2, 0, 4, 5] ∧
    (decompressInto forgetful .raw ⟨false, .one, 1, 0⟩ [7, 7] [0, 0, 1, 2, 0, 4, 5]).outcome =
      .ok ⟨2, [4, 5]⟩ ∧
    (compress forgetful .sized ⟨false, .one, 1, 0⟩ [1, 2, 0, 4, 5]).outcome =
      .ok [5, 0, 0, 0, 0, 0, 1, 2, 0, 4, 5] ∧
    (decompressInto forgetful .sized ⟨false, .one, 1, 0⟩ [7, 7]
      [2, 0, 0, 0, 0, 0, 1, 2, 0, 4, 5]).outcome = .ok ⟨2, [4, 5]⟩ :=
  ⟨forgetful_steady, rfl, rfl, rfl, rfl⟩

/-! ## Cut and continued payloads -/

/-- Without a compressor, or with one that stores, the payload itself is the stream. -/
theorem holds_of_stored (stored : options.level = 0 ∨ compressor = .passthrough)
    (parts : framing.split framed = .ok (recorded, payload))
    (accepted : (decompressInto compressor framing options destination framed).outcome =
      .ok answer) :
    GroupVarint.Holds options.width payload
      (recorded.getD destination.length / options.width.bytes) := by
  obtain ⟨_, _, _, packed, unpacks, held⟩ := holds_of_accepted parts accepted
  rw [packedOf_outcome] at unpacks
  by_cases used : options.usesCompressor
  · rw [if_pos used, Options.of_usesCompressor stored used] at unpacks
    rw [← Compressor.passthrough_decompress unpacks]
    exact held
  · rw [if_neg used] at unpacks
    cases unpacks
    exact held

theorem decompressInto_headerless (supported : options.version = 0)
    (short : framed.length < framing.headerSize) :
    (decompressInto compressor framing options destination framed).outcome =
      .error (.lengthFieldMissing framed.length) := by
  have valid := options.validate_eq_ok_iff.mpr supported
  rw [decompressInto_outcome, decompress]
  simp only [Op.outcome_bind, Op.outcome_ofExcept, valid, Framing.split_short short]
  rfl

/-- Without a compressor the fault of the stream is the fault of the payload. -/
theorem decompressInto_faulty (plain : options.level = 0) (supported : options.version = 0)
    (parts : framing.split framed = .ok (recorded, payload))
    (whole : recorded.getD destination.length % options.width.bytes = 0)
    (fits : recorded.getD destination.length ≤ destination.length) {fault : GroupVarint.Fault}
    (faulty : GroupVarint.decode options.width payload
      (recorded.getD destination.length / options.width.bytes) = .error fault) :
    (decompressInto compressor framing options destination framed).outcome =
      .error (.packedStream fault) := by
  rw [decompressInto_outcome, decompress_outcome_of_fits parts fits, contents,
    options.validate_eq_ok_iff.mpr supported, (Elements.checkWhole_eq_ok_iff _).mpr whole,
    Fallible.ok_bind, Fallible.ok_bind, packedOf_plain plain, Fallible.ok_bind, Packed.toBytes,
    faulty]
  rfl

/-- A compressor that stores does not make a faulty stream acceptable. -/
theorem exists_error_of_faulty (parts : framing.split framed = .ok (recorded, payload))
    {fault : GroupVarint.Fault}
    (faulty : GroupVarint.decode options.width payload
      (recorded.getD destination.length / options.width.bytes) = .error fault) :
    ∃ error, (decompressInto .passthrough framing options destination framed).outcome =
      .error error := by
  apply Fallible.exists_error_of_not_ok
  intro answer accepted
  have held := holds_of_stored (.inr rfl) parts accepted
  obtain ⟨words, reads⟩ := GroupVarint.decode_isOk_iff_holds.mpr held
  rw [faulty] at reads
  cases reads

/-- A payload that is accepted as stored, taken apart. -/
structure StoredParts (framing : Framing) (options : Options) (capacity : Nat)
    (header payload : Bytes) : Prop where
  supported : options.version = 0
  front : header.length = framing.headerSize
  whole : (framing.lengthIn header).getD capacity % options.width.bytes = 0
  fits : (framing.lengthIn header).getD capacity ≤ capacity
  held : GroupVarint.Holds options.width payload
    ((framing.lengthIn header).getD capacity / options.width.bytes)

theorem exists_storedParts (stored : options.level = 0 ∨ compressor = .passthrough)
    (accepted : (decompressInto compressor framing options destination framed).outcome =
      .ok answer) :
    ∃ header payload, framed = header ++ payload ∧
      StoredParts framing options destination.length header payload := by
  obtain ⟨output, found⟩ := decompressInto_isOk_iff.mp ⟨answer, accepted⟩
  obtain ⟨supported, recorded, payload, parts, whole, fits, _⟩ :=
    decompress_outcome_eq_ok_iff.mp found
  have held := holds_of_stored stored parts accepted
  obtain ⟨header, rfl, front, rfl⟩ := Framing.exists_header_of_split parts
  exact ⟨header, payload, rfl, supported, front, whole, fits, held⟩

section Faulty

variable {header behind : Bytes} {fault : GroupVarint.Fault}

/-- Behind an intact header a fault of the stream is told. -/
theorem StoredParts.told (parts : StoredParts framing options destination.length header payload)
    (faulty : GroupVarint.decode options.width behind
      ((framing.lengthIn header).getD destination.length / options.width.bytes) = .error fault) :
    (decompressInto compressor framing { options with level := 0 } destination
      (header ++ behind)).outcome = .error (.packedStream fault) := by
  have plain : Options.level { options with level := 0 } = 0 := rfl
  exact decompressInto_faulty plain parts.supported (Framing.split_append parts.front behind)
    parts.whole parts.fits faulty

/-- With a compressor that stores, the fault is at least noticed. -/
theorem StoredParts.noticed
    (parts : StoredParts framing options destination.length header payload)
    (faulty : GroupVarint.decode options.width behind
      ((framing.lengthIn header).getD destination.length / options.width.bytes) = .error fault)
    (level : UInt32) :
    ∃ error, (decompressInto .passthrough framing { options with level } destination
      (header ++ behind)).outcome = .error error := by
  apply exists_error_of_faulty (Framing.split_append parts.front behind)
  exact faulty

end Faulty

/--
What is accepted without a compressor, or with one that stores, is refused for the
same capacity once it is cut or continued, without a compressor or with that one.
Without it the refusal says what is wrong: the length field or a block of the stream
is too short, or so many bytes are left over.
-/
theorem cut_and_continued_refused (stored : options.level = 0 ∨ compressor = .passthrough)
    (accepted : (decompressInto compressor framing options destination framed).outcome =
      .ok answer)
    (other : Bytes) (same : other.length = destination.length) :
    (∀ kept, kept < framed.length →
      (framing = .sized ∧ kept < Framing.lengthFieldSize →
        (decompressInto compressor framing { options with level := 0 } other
          (framed.take kept)).outcome = .error (.lengthFieldMissing kept)) ∧
      (¬ (framing = .sized ∧ kept < Framing.lengthFieldSize) →
        ∃ position needed available, available < needed ∧
          (decompressInto compressor framing { options with level := 0 } other
            (framed.take kept)).outcome =
              .error (.packedStream (.truncated position needed available))) ∧
      ∀ level, ∃ error, (decompressInto .passthrough framing { options with level } other
        (framed.take kept)).outcome = .error error) ∧
    ∀ extra : Bytes, 0 < extra.length →
      (decompressInto compressor framing { options with level := 0 } other
        (framed ++ extra)).outcome = .error (.packedStream (.trailing extra.length)) ∧
      ∀ level, ∃ error, (decompressInto .passthrough framing { options with level } other
        (framed ++ extra)).outcome = .error error := by
  obtain ⟨header, payload, rfl, parts⟩ := exists_storedParts stored accepted
  rw [← same] at parts
  have inHeader (kept : Nat) : framing = .sized ∧ kept < Framing.lengthFieldSize ↔
      kept < framing.headerSize := by
    cases framing <;> simp [Framing.headerSize]
  refine ⟨?_, ?_⟩
  · intro kept cut
    rw [inHeader]
    by_cases short : kept < framing.headerSize
    · have left := List.length_take_of_le (Nat.le_of_lt cut)
      have headerless (compressor : Compressor) (level : UInt32) :
          (decompressInto compressor framing { options with level } other
            ((header ++ payload).take kept)).outcome = .error (.lengthFieldMissing kept) := by
        have shorter := Nat.lt_of_le_of_lt (Nat.le_of_eq left) short
        have supported : Options.version { options with level } = 0 := parts.supported
        rw [decompressInto_headerless supported shorter, left]
      exact ⟨fun _ => headerless compressor 0, fun intact => absurd short intact,
        fun level => ⟨_, headerless .passthrough level⟩⟩
    · have behind : header.length ≤ kept := parts.front ▸ Nat.le_of_not_lt short
      rw [List.length_append] at cut
      have inPayload : kept - header.length < payload.length := by omega
      obtain ⟨position, needed, available, less, faulty⟩ := parts.held.decode_take inPayload
      rw [List.take_append, List.take_of_length_le behind]
      exact ⟨fun missing => absurd missing short,
        fun _ => ⟨position, needed, available, less, parts.told faulty⟩, parts.noticed faulty⟩
  · intro extra more
    rw [List.append_assoc]
    have faulty := parts.held.decode_append more
    exact ⟨parts.told faulty, parts.noticed faulty⟩

/-- Two elements behind a length field, cut in front of and behind its end, and continued. -/
theorem cut_and_continued_refused_sized_pair :
    (decompressInto .passthrough .sized ⟨true, .two, 0, 0⟩ [7, 7, 7, 7, 7]
      [4, 0, 0, 0, 4, 10, 252, 1]).outcome = .ok ⟨4, [5, 0, 3, 1, 7]⟩ ∧
    (decompressInto .passthrough .sized ⟨true, .two, 0, 0⟩ [8, 8, 8, 8, 8] [4, 0]).outcome =
      .error (.lengthFieldMissing 2) ∧
    (∃ position needed available, available < needed ∧
      (decompressInto .passthrough .sized ⟨true, .two, 0, 0⟩ [8, 8, 8, 8, 8]
        [4, 0, 0, 0, 4, 10]).outcome =
          .error (.packedStream (.truncated position needed available))) ∧
    (decompressInto .passthrough .sized ⟨true, .two, 0, 0⟩ [8, 8, 8, 8, 8]
      [4, 0, 0, 0, 4, 10, 252, 1, 9, 9]).outcome = .error (.packedStream (.trailing 2)) ∧
    ∃ error, (decompressInto .passthrough .sized ⟨true, .two, 6, 0⟩ [8, 8, 8, 8, 8]
      [4, 0, 0, 0, 4, 10, 252, 1, 9, 9]).outcome = .error error := by
  have accepted : (decompressInto .passthrough .sized ⟨true, .two, 0, 0⟩ [7, 7, 7, 7, 7]
      [4, 0, 0, 0, 4, 10, 252, 1]).outcome = .ok ⟨4, [5, 0, 3, 1, 7]⟩ := rfl
  obtain ⟨cut, continued⟩ := cut_and_continued_refused (.inl rfl) accepted [8, 8, 8, 8, 8] rfl
  refine ⟨accepted, ?_, ?_, ?_, ?_⟩
  · exact (cut 2 (by decide)).1 ⟨rfl, by decide⟩
  · exact (cut 6 (by decide)).2.1 (by decide)
  · exact (continued [9, 9] (by decide)).1
  · exact (continued [9, 9] (by decide)).2 6

end Framed

end SeriesCodec
