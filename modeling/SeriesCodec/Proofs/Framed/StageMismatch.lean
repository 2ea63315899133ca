import SeriesCodec.Proofs.Framed.Precedence
import SeriesCodec.Proofs.Framed.WidthMismatch
import SeriesCodec.Proofs.GroupVarint.Bound
import SeriesCodec.Proofs.Zstandard.Stored

/-!
# Reading without the compressor

Nothing in a payload tells whether a compressor made it, so a reader that skips
the compressor takes the compressed bytes for the packed stream.  Here they are
a frame that stores the packed stream.  The bytes in front of the stored content
are then read as keys, and the keys of the content describe later elements than
before.  A reader of four-byte elements accepts that if the lengths happen to add
up, which takes seven elements at least, and a reader of other elements never does.
-/

namespace SeriesCodec

namespace Zstandard

namespace Frame

/-- The bytes in front of the content of a frame that is one stored block. -/
def front (size : Nat) : Bytes :=
  Header.write size ++ BlockHeader.stored true size

theorem write_of_small {content : Bytes} (small : content.length ≤ greatestBlock) :
    write content = front content.length ++ content := by
  rw [write, Block.write, if_pos small, front, List.append_assoc]

theorem nine_le_front_length (size : Nat) : 9 ≤ (front size).length := by
  have header := Header.least_le_write_length size
  rw [front, List.length_append, BlockHeader.stored_length]
  exact Nat.add_le_add_right header blockHeaderSize

end Frame

end Zstandard

namespace GroupVarint

open Zstandard

variable {width : ElementWidth} {size count : Nat} {content : Bytes}

/-! ## A stored frame as a stream -/

/-- The first byte of a frame is taken for the key of the first group. -/
theorem recordedLength_front (size : Nat) (content : Bytes) {slot : Nat}
    (inside : slot < width.slots) :
    recordedLength width (Frame.front size ++ content) slot = lengthAt width 0x28 slot := by
  rw [recordedLength, Nat.div_eq_of_lt inside, Nat.mod_eq_of_lt inside]
  rfl

/-- No element stands in a slot in which the first byte of a frame records too much. -/
theorem Holds.count_le_of_front (held : Holds width (Frame.front size ++ content) count)
    (slot : Nat) (inside : slot < width.slots)
    (overlong : width.bytes < lengthAt width 0x28 slot) : count ≤ slot := by
  apply Nat.le_of_not_lt
  intro present
  have legal := held.legal slot present
  rw [recordedLength_front size content inside] at legal
  exact absurd legal (Nat.not_le_of_lt overlong)

/-- The slots before that one hold less than what stands in front of the content. -/
theorem Holds.four_of_front (held : Holds width (Frame.front size ++ content) count) :
    width = .four := by
  have least := Frame.nine_le_front_length size
  have whole := held.length_le
  have keys := keyCount_le width count
  rw [List.length_append] at whole
  cases width
  case four => rfl
  case one | two =>
    have few := held.count_le_of_front 1 (by decide) (by decide)
    simp only [ElementWidth.bytes] at whole
    omega
  case eight =>
    have few := held.count_le_of_front 0 (by decide) (by decide)
    simp only [ElementWidth.bytes] at whole
    omega

/--
Whether four-byte elements of the given lengths make a packed stream whose stored frame
is again a stream of as many elements.  The bytes in front add their slots to those of the
keys, and as many slots at the end are read no more: what the added slots record exceeds
what the lost slots record by just the bytes in front.
-/
def Misreadable (lengths : List Nat) : Prop :=
  let front := Frame.front (keyCount .four lengths.length + totalLength lengths)
  let slots := front.length * ElementWidth.slots .four
  totalLength (recordedLengths .four front (min lengths.length slots)) =
    front.length + totalLength (lengths.drop (lengths.length - slots))

instance (lengths : List Nat) : Decidable (Misreadable lengths) :=
  inferInstanceAs (Decidable (_ = _))

/--
In a series of up to six elements the front records too little to make up for its own
size, so none of these is misread.
-/
theorem Misreadable.seven_le {lengths : List Nat} (misreadable : Misreadable lengths)
    (positive : ∀ length ∈ lengths, 0 < length) : 7 ≤ lengths.length := by
  apply Nat.le_of_not_lt
  intro few
  rw [Misreadable] at misreadable
  generalize keyCount .four lengths.length + totalLength lengths = size at misreadable
  have least := Frame.nine_le_front_length size
  have slots : ElementWidth.slots .four = 4 := rfl
  have inside : lengths.length ≤ (Frame.front size).length * ElementWidth.slots .four := by
    rw [slots]
    omega
  have others := length_le_totalLength positive
  rw [Nat.min_eq_left inside, Nat.sub_eq_zero_of_le inside, List.drop_zero] at misreadable
  -- Two keys are enough for six elements, and no size stands in the first two bytes.
  have opened : Frame.front size = [0x28, 0xb5] ++ (Frame.front size).drop 2 := rfl
  have keys : keyCount .four lengths.length ≤ [(0x28 : UInt8), 0xb5].length :=
    (Size.ceilDiv_le_iff (by decide)).mpr (Nat.le_of_lt (Nat.lt_trans few (by decide)))
  have recorded : ∀ count < 7,
      totalLength (recordedLengths .four [0x28, 0xb5] count) < 9 + count := by decide
  have short := recorded lengths.length few
  rw [← recordedLengths_append keys ((Frame.front size).drop 2), ← opened, misreadable] at short
  omega

/-- The lengths that a frame records are those of its front, and then those of its content. -/
theorem recordedLengths_front_encode (elements : List (Word width)) (front : Bytes) :
    recordedLengths width (front ++ encode elements) elements.length =
      recordedLengths width front (min elements.length (front.length * width.slots)) ++
        (minimalLengths elements).take (elements.length - front.length * width.slots) := by
  rw [recordedLengths_behind, ← recordedLengths_encode elements,
    recordedLengths_take _ (Nat.sub_le _ _)]

/-- Four bytes are as long as a length can be, so only the size of the frame decides. -/
theorem holds_front_encode_iff (elements : List (Word .four)) :
    Holds .four (Frame.front (encode elements).length ++ encode elements) elements.length ↔
      Misreadable (minimalLengths elements) := by
  have packed := encode_length elements
  generalize front : Frame.front (encode elements).length = header
  have kept := totalLength_take_add_drop (minimalLengths elements)
    (elements.length - header.length * ElementWidth.slots .four)
  have recorded := congrArg totalLength (recordedLengths_front_encode elements header)
  rw [totalLength_append] at recorded
  have sizes : (header ++ encode elements).length =
      span .four (header ++ encode elements) elements.length ↔
        Misreadable (minimalLengths elements) := by
    rw [Misreadable, minimalLengths_length, ← packed, front, span, recorded, List.length_append]
    omega
  rw [← sizes]
  constructor
  · intro held
    exact held.size
  · intro size
    exact ⟨fun index _ => recordedLength_four_le _ index, size⟩

theorem holds_stored_encode_iff (elements : List (Word width)) :
    Holds width (Frame.front (encode elements).length ++ encode elements) elements.length ↔
      width = .four ∧ Misreadable (minimalLengths elements) := by
  constructor
  · intro held
    obtain rfl := held.four_of_front
    exact ⟨rfl, (holds_front_encode_iff elements).mp held⟩
  · rintro ⟨rfl, misreadable⟩
    exact (holds_front_encode_iff elements).mpr misreadable

end GroupVarint

namespace Framed

variable {compressor : Compressor} {framing : Framing} {options : Options}
variable {input framed destination : Bytes}

/-! ## Payloads read without the compressor -/

/--
A payload whose packed stream a compressor has stored in a frame is accepted without
the compressor exactly if its elements have four bytes and their lengths are misreadable.
-/
theorem decompressInto_skippedStage_isOk_iff {packed : Bytes} (used : 0 < options.level)
    (packs : packed = GroupVarint.encode (Packed.words options input))
    (stores : compressor.compress packed options.level =
      .ok (Zstandard.Frame.front packed.length ++ packed))
    (written : (compress compressor framing options input).outcome = .ok framed)
    (room : framing.Admits destination.length input.length) :
    (∃ answer, (decompressInto compressor framing { options with level := 0 }
      destination framed).outcome = .ok answer) ↔
      options.width = .four ∧
        GroupVarint.Misreadable (GroupVarint.minimalLengths (Packed.words options input)) := by
  obtain ⟨supported, whole, header, payload, heads, pays, rfl⟩ :=
    compress_outcome_eq_ok_iff.mp written
  rw [payloadOf_outcome_eq, payloadIn, if_neg (UInt32.pos_iff_ne_zero.mp used), ← packs,
    stores] at pays
  cases pays
  have plain : Options.level { options with level := 0 } = 0 := rfl
  have supportedPlain : Options.version { options with level := 0 } = 0 := supported
  have stream := GroupVarint.holds_stored_encode_iff (Packed.words options input)
  rw [← packs, Packed.words_length] at stream
  rw [decompressInto_plain_isOk_iff plain supportedPlain heads room, ← stream]
  exact and_iff_right whole

/--
Seven four-byte elements of one significant byte each: the payload is accepted, and
what comes out is another series.
-/
theorem decompressInto_skippedStage_accepts_seven_elements :
    (compress Zstandard.compressor .raw ⟨false, .four, 1, 0⟩
      [1, 0, 0, 0, 2, 0, 0, 0, 3, 0, 0, 0, 4, 0, 0, 0, 5, 0, 0, 0, 6, 0, 0, 0,
        7, 0, 0, 0]).outcome =
      .ok [0x28, 0xb5, 0x2f, 0xfd, 0x20, 9, 0x49, 0, 0, 0, 0, 1, 2, 3, 4, 5, 6, 7] ∧
    (∃ answer, (decompressInto Zstandard.compressor .raw ⟨false, .four, 0, 0⟩
      (List.replicate 28 7)
      [0x28, 0xb5, 0x2f, 0xfd, 0x20, 9, 0x49, 0, 0, 0, 0, 1, 2, 3, 4, 5, 6, 7]).outcome =
      .ok answer) ∧
    (decompressInto Zstandard.compressor .raw ⟨false, .four, 0, 0⟩ (List.replicate 28 7)
      [0x28, 0xb5, 0x2f, 0xfd, 0x20, 9, 0x49, 0, 0, 0, 0, 1, 2, 3, 4, 5, 6, 7]).outcome =
      .ok ⟨28, [0x2f, 0, 0, 0, 0xfd, 0x20, 9, 0, 0x49, 0, 0, 0, 0, 0, 0, 0, 0, 1, 0, 0, 2, 3, 0, 0,
        4, 5, 6, 7]⟩ := by
  have frame : Zstandard.Frame.write [0, 0, 1, 2, 3, 4, 5, 6, 7] =
      [0x28, 0xb5, 0x2f, 0xfd, 0x20, 9, 0x49, 0, 0, 0, 0, 1, 2, 3, 4, 5, 6, 7] :=
    Zstandard.Frame.write_of_small (by decide)
  have written : (compress Zstandard.compressor .raw ⟨false, .four, 1, 0⟩
      [1, 0, 0, 0, 2, 0, 0, 0, 3, 0, 0, 0, 4, 0, 0, 0, 5, 0, 0, 0, 6, 0, 0, 0,
        7, 0, 0, 0]).outcome =
      .ok [0x28, 0xb5, 0x2f, 0xfd, 0x20, 9, 0x49, 0, 0, 0, 0, 1, 2, 3, 4, 5, 6, 7] := by
    rw [compress_outcome_eq]
    exact congrArg Except.ok frame
  have lengths : GroupVarint.minimalLengths (Packed.words ⟨false, .four, 1, 0⟩
      [1, 0, 0, 0, 2, 0, 0, 0, 3, 0, 0, 0, 4, 0, 0, 0, 5, 0, 0, 0, 6, 0, 0, 0,
        7, 0, 0, 0]) =
      List.replicate 7 1 := rfl
  have misreadable : GroupVarint.Misreadable (List.replicate 7 1) := by decide
  refine ⟨written, ?_, rfl⟩
  rw [← lengths] at misreadable
  exact (decompressInto_skippedStage_isOk_iff (by decide) rfl (congrArg Except.ok frame) written
    rfl).mpr ⟨rfl, misreadable⟩

end Framed

end SeriesCodec
