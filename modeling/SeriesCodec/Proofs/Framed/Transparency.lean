import SeriesCodec.Proofs.Framed.Precedence
import SeriesCodec.Proofs.GroupVarint.Bound

/-!
# A compressor that stores

Going through a compressor that stores bytes as they are makes no difference to what
is written, and none to what is read but one: it enforces the limit of the packed
stream.  No stream of so many elements is longer than that limit, so a payload that
exceeds it is refused either way, for another reason.
-/

namespace SeriesCodec

namespace Framed

variable {framing : Framing} {options : Options} {destination framed : Bytes}

/--
Nothing is wrong with a call but that its payload is longer than any packed stream of
the elements that are to be read.
-/
structure Overlong (framing : Framing) (options : Options) (capacity : Nat)
    (framed : Bytes) : Prop where
  unrefused : readingRefusal framing options capacity framed = none
  exceeds : GroupVarint.maxPackedSize options.width
      (framing.lengthFor framed capacity / options.width.bytes) <
    (framed.drop framing.headerSize).length

/-- The level matters for nothing but the stream behind the payload. -/
theorem readInOrder_of_level {compressor : Compressor} {level : UInt32}
    (same : readingRefusal framing options destination.length framed = none →
      streamIn compressor options (framing.lengthFor framed destination.length / options.width.bytes)
          (framed.drop framing.headerSize) =
        streamIn compressor { options with level }
          (framing.lengthFor framed destination.length / options.width.bytes)
          (framed.drop framing.headerSize)) :
    readInOrder compressor framing options destination framed =
      readInOrder compressor framing { options with level } destination framed := by
  have refusals : readingRefusal framing { options with level } destination.length framed =
    readingRefusal framing options destination.length framed := rfl
  rw [readInOrder, readInOrder, refusals]
  cases refusal : readingRefusal framing options destination.length framed with
  | some reason => rfl
  | none =>
      simp only [answerOf, same refusal]

/-! ## The stage that stores -/

/-- Up to its limit a payload is the stream, as it is without a compressor. -/
theorem streamIn_passthrough {count : Nat} {payload : Bytes}
    (short : payload.length ≤ GroupVarint.maxPackedSize options.width count) :
    streamIn .passthrough options count payload =
      streamIn .passthrough { options with level := 0 } count payload := by
  by_cases plain : options.level = 0
  · rw [streamIn, if_pos plain]
    rfl
  · rw [streamIn, if_neg plain]
    exact if_pos short

/-- Unless the limit is exceeded it makes no difference whether the payload is stored. -/
theorem readInOrder_passthrough
    (within : ¬ Overlong framing options destination.length framed) :
    readInOrder .passthrough framing options destination framed =
      readInOrder .passthrough framing { options with level := 0 } destination framed := by
  apply readInOrder_of_level
  intro checked
  have short := Nat.le_of_not_lt fun exceeds => within ⟨checked, exceeds⟩
  exact streamIn_passthrough short

theorem streamIn_passthrough_exceeded {count : Nat} {payload : Bytes} (staged : options.level ≠ 0)
    (exceeds : GroupVarint.maxPackedSize options.width count < payload.length) :
    ∃ reason, streamIn .passthrough options count payload =
      .error (.secondaryCompressor reason) := by
  rw [streamIn, if_neg staged]
  exact ⟨_, if_neg (Nat.not_le_of_lt exceeds)⟩

/-- A payload that exceeds the limit is refused for that by a compressor that stores. -/
theorem Overlong.refused (overlong : Overlong framing options destination.length framed)
    (staged : options.level ≠ 0) :
    ∃ reason, readInOrder .passthrough framing options destination framed =
      .error (.secondaryCompressor reason) := by
  obtain ⟨reason, refuses⟩ := streamIn_passthrough_exceeded staged overlong.exceeds
  simp only [readInOrder, overlong.unrefused, answerOf, refuses]
  exact ⟨reason, rfl⟩

/-- Without a compressor what exceeds the limit is no stream of so many elements. -/
theorem Overlong.exists_error (overlong : Overlong framing options destination.length framed)
    (compressor : Compressor) (buffered : destination.length ≤ Size.greatestBuffer) :
    ∃ reason, readInOrder compressor framing { options with level := 0 } destination framed =
      .error reason := by
  apply Fallible.exists_error_of_not_ok
  intro answer accepted
  rw [← decompressInto_outcome_eq] at accepted
  obtain ⟨_, headed, _, fits⟩ := readingRefusal_eq_none_iff.mp overlong.unrefused
  obtain ⟨recorded, parts, known⟩ := Framing.split_of_headed headed destination.length
  have held := holds_of_stored (.inl rfl) parts accepted
  have room : recorded.getD destination.length / options.width.bytes * options.width.bytes ≤
      Size.greatestBuffer := by
    rw [known]
    exact Nat.le_trans (Nat.div_mul_le_self _ _) (Nat.le_trans fits buffered)
  have short := held.length_le_maxPackedSize room
  rw [known] at short
  exact absurd short (Nat.not_le_of_lt overlong.exceeds)

/--
A compressor that stores is a stage that makes no difference: what is written is the
same without it, and so is the outcome of reading, unless all is in order but the
payload, which exceeds the limit.  Then the compressor refuses it, and without the
compressor it is refused as well.
-/
theorem passthrough_is_transparent (framing : Framing) (options : Options)
    (staged : 0 < options.level) :
    (∀ input, (compress .passthrough framing options input).outcome =
      (compress .passthrough framing { options with level := 0 } input).outcome) ∧
    ∀ destination framed : Bytes, destination.length ≤ Size.greatestBuffer →
      (∀ answer,
        (decompressInto .passthrough framing options destination framed).outcome = .ok answer ↔
          (decompressInto .passthrough framing { options with level := 0 } destination
            framed).outcome = .ok answer) ∧
      (¬ Overlong framing options destination.length framed →
        (decompressInto .passthrough framing options destination framed).outcome =
          (decompressInto .passthrough framing { options with level := 0 } destination
            framed).outcome) ∧
      (Overlong framing options destination.length framed →
        (∃ reason, (decompressInto .passthrough framing options destination framed).outcome =
          .error (.secondaryCompressor reason)) ∧
        ∃ reason, (decompressInto .passthrough framing { options with level := 0 } destination
          framed).outcome = .error reason) := by
  have used : options.level ≠ 0 := UInt32.pos_iff_ne_zero.mp staged
  refine ⟨?_, ?_⟩
  · intro input
    have stored : payloadIn .passthrough options (GroupVarint.encode (Packed.words options input)) =
        .ok (GroupVarint.encode (Packed.words options input)) :=
      if_neg used
    rw [compress_outcome_eq, compress_outcome_eq, writeInOrder, stored]
    rfl
  · intro destination framed buffered
    simp only [decompressInto_outcome_eq]
    refine ⟨?_, readInOrder_passthrough, fun overlong =>
      ⟨overlong.refused used, overlong.exists_error .passthrough buffered⟩⟩
    intro answer
    by_cases overlong : Overlong framing options destination.length framed
    · obtain ⟨reason, refused⟩ := overlong.refused used
      obtain ⟨other, failed⟩ := overlong.exists_error .passthrough buffered
      rw [refused, failed]
      constructor
      · intro impossible
        cases impossible
      · intro impossible
        cases impossible
    · rw [readInOrder_passthrough overlong]

/-- A stream of one element, and one that is longer than any of one element. -/
theorem passthrough_is_transparent_one_element :
    (compress .passthrough .raw ⟨false, .two, 3, 0⟩ [5, 1]).outcome = .ok [1, 5, 1] ∧
    (decompressInto .passthrough .raw ⟨false, .two, 3, 0⟩ [7, 7] [1, 5, 1]).outcome =
      .ok ⟨2, [5, 1]⟩ ∧
    (∃ reason, (decompressInto .passthrough .raw ⟨false, .two, 3, 0⟩ [7, 7] [1, 5, 1, 9]).outcome =
      .error (.secondaryCompressor reason)) ∧
    ∃ reason, (decompressInto .passthrough .raw ⟨false, .two, 0, 0⟩ [7, 7] [1, 5, 1, 9]).outcome =
      .error reason := by
  obtain ⟨written, read⟩ := passthrough_is_transparent .raw ⟨false, .two, 3, 0⟩ (by decide)
  obtain ⟨_, same, _⟩ := read [7, 7] [1, 5, 1] (by decide)
  obtain ⟨_, _, refused⟩ := read [7, 7] [1, 5, 1, 9] (by decide)
  obtain ⟨stored, plain⟩ := refused ⟨rfl, by decide⟩
  refine ⟨?_, ?_, stored, plain⟩
  · rw [written]
    rfl
  · rw [same fun overlong => absurd overlong.exceeds (by decide)]
    rfl

end Framed

end SeriesCodec
