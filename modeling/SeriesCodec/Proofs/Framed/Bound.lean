import SeriesCodec.Codec
import SeriesCodec.Proofs.Compressor
import SeriesCodec.Proofs.Framed.Outcome
import SeriesCodec.Proofs.GroupVarint.Bound

/-!
# One bound for both framings

The declared greatest size covers the worst packed stream, what the compressor
may make of it, and the length field.  A packed stream that is better than the
worst is covered because the bound of the compressor does not decrease.  Sizes
saturate, but no buffer is large enough for a saturated bound to matter.
-/

namespace SeriesCodec

namespace Framed

variable {compressor : Compressor} {framing : Framing} {options : Options}
variable {input framed payload : Bytes}

def packedBound (options : Options) (inputLength : Nat) : Nat :=
  GroupVarint.maxPackedSize options.width (Size.ceilDiv inputLength options.width.bytes)

/-- The size of the longest packed stream of `inputLength` bytes. -/
def worstPackedSize (width : ElementWidth) (inputLength : Nat) : Nat :=
  GroupVarint.worstSize width (Size.ceilDiv inputLength width.bytes)

theorem worstPackedSize_mono {width : ElementWidth} {shorter longer : Nat} (le : shorter ≤ longer) :
    worstPackedSize width shorter ≤ worstPackedSize width longer :=
  GroupVarint.worstSize_mono (Size.ceilDiv_mono width.bytes_pos le)

theorem maxCompressedSize_value (inputLength : Nat) :
    (maxCompressedSize compressor options inputLength).value =
      Size.add (if options.usesCompressor then
          compressor.maxCompressedSize (packedBound options inputLength)
        else packedBound options inputLength) Framing.lengthFieldSize := by
  rw [maxCompressedSize, packedBound]
  split <;> rfl

theorem headerSize_le (framing : Framing) : framing.headerSize ≤ Framing.lengthFieldSize := by
  cases framing <;> decide

/-- The packed stream of a whole series is within the bound that is computed for it. -/
theorem encode_words_length_le (whole : input.length % options.width.bytes = 0)
    (buffered : input.length ≤ Size.greatestBuffer) :
    (GroupVarint.encode (Packed.words options input)).length ≤ packedBound options input.length := by
  have size := Packed.words_bytes whole
  have count : Size.ceilDiv input.length options.width.bytes =
      (Packed.words options input).length := by
    rw [← size, Size.ceilDiv_mul options.width.bytes_pos]
  rw [packedBound, count]
  exact GroupVarint.encode_length_le_maxPackedSize (size ▸ buffered)

/-- Keys at most double a series. -/
theorem encode_words_length_le_double (whole : input.length % options.width.bytes = 0) :
    (GroupVarint.encode (Packed.words options input)).length ≤ input.length + input.length := by
  have size := Packed.words_bytes whole
  have count : (Packed.words options input).length ≤ input.length := by
    rw [← size]
    exact Nat.le_mul_of_pos_right _ options.width.bytes_pos
  have keys := GroupVarint.keyCount_le options.width (Packed.words options input).length
  have packed := GroupVarint.encode_length_le (Packed.words options input)
  rw [size] at packed
  exact Nat.le_trans packed (Nat.add_le_add_left (Nat.le_trans keys count) _)

theorem payload_length_le (bounded : compressor.BoundedUpTo (packedBound options input.length))
    (whole : input.length % options.width.bytes = 0)
    (buffered : input.length ≤ Size.greatestBuffer)
    (pays : (payloadOf compressor options input.length
      (GroupVarint.encode (Packed.words options input))).outcome = .ok payload) :
    payload.length ≤ if options.usesCompressor then
        compressor.maxCompressedSize (packedBound options input.length)
      else packedBound options input.length := by
  have packed : (GroupVarint.encode (Packed.words options input)).length ≤
      packedBound options input.length := encode_words_length_le whole buffered
  rw [payloadOf_outcome] at pays
  split at pays
  next used =>
    rw [if_pos used]
    exact Nat.le_trans (bounded.fits _ _ _ packed pays) (bounded.mono _ _ packed (Nat.le_refl _))
  next unused =>
    rw [if_neg unused]
    cases pays
    exact packed

/-- What is written fits the bound in either framing. -/
theorem compress_length_le (bounded : compressor.BoundedUpTo (packedBound options input.length))
    (buffered : input.length ≤ Size.greatestBuffer)
    (written : (compress compressor framing options input).outcome = .ok framed)
    (framedBuffered : framed.length ≤ Size.greatestBuffer) :
    framed.length ≤ (maxCompressedSize compressor options input.length).value := by
  obtain ⟨_, whole, header, payload, heads, pays, rfl⟩ := compress_outcome_eq_ok_iff.mp written
  have front := Nat.le_trans (Nat.le_of_eq (Framing.header_length heads)) (headerSize_le framing)
  have behind := payload_length_le bounded whole buffered pays
  have countable : Size.greatestBuffer ≤ Size.greatest := by decide
  rw [maxCompressedSize_value, Size.add]
  rw [List.length_append] at framedBuffered ⊢
  omega

/-- Compressing has no destination that could be too small. -/
theorem compress_outcome_ne_destinationTooSmall (own : compressor.FailsOnItsOwn)
    (required capacity : Nat) :
    (compress compressor framing options input).outcome ≠
      .error (.destinationTooSmall required capacity) := by
  intro failed
  rcases compress_outcome_error failed with other | other | other | ⟨packed, refused⟩
  · cases other
  · cases other
  · cases other
  · obtain ⟨reason, other⟩ := own _ _ _ refused
    cases other

end Framed

namespace Codec

variable {codec : Codec} {framing : Framing} {input framed destination : Bytes}

/-- A destination only decides whether what is written fits. -/
theorem compressInto_outcome :
    (codec.compressInto framing destination input).outcome =
      ((codec.compress framing input).outcome >>= fun framed =>
        if destination.length < framed.length then
          .error (.destinationTooSmall framed.length destination.length)
        else .ok (Written.front destination framed)) := by
  simp only [compressInto, compressWithin, Op.outcome_bind]
  cases (codec.compress framing input).outcome with
  | error reason => rfl
  | ok framed =>
      simp only [Fallible.ok_bind]
      split <;> rfl

theorem compressInto_outcome_eq_ok_iff {answer : Written} :
    (codec.compressInto framing destination input).outcome = .ok answer ↔
      ∃ framed, (codec.compress framing input).outcome = .ok framed ∧
        framed.length ≤ destination.length ∧ answer = Written.front destination framed := by
  rw [compressInto_outcome, Fallible.bind_eq_ok_iff]
  constructor
  · rintro ⟨framed, written, answers⟩
    split at answers
    next => cases answers
    next enough =>
      cases answers
      exact ⟨framed, written, Nat.le_of_not_lt enough, rfl⟩
  · rintro ⟨framed, written, fits, rfl⟩
    exact ⟨framed, written, if_neg (Nat.not_lt_of_le fits)⟩

theorem compressInto_outcome_of_fits (written : (codec.compress framing input).outcome = .ok framed)
    (fits : framed.length ≤ destination.length) :
    (codec.compressInto framing destination input).outcome =
      .ok ⟨framed.length, framed ++ destination.drop framed.length⟩ :=
  compressInto_outcome_eq_ok_iff.mpr ⟨framed, written, fits, rfl⟩

end Codec

end SeriesCodec
