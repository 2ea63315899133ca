import SeriesCodec.Proofs.Boundary.Capacity
import SeriesCodec.Proofs.Framed.Allocation
import SeriesCodec.Proofs.Framed.Zeros

/-!
# Sized payloads across the boundary

A sized payload tells a caller how many bytes it stands for, and with that many
bytes of room the caller gets them.  One length is left out: the greatest length
that the length field can hold is the size that is reserved for failure.  A
series of that length can be compressed, but it comes back as a failure.
-/

namespace SeriesCodec

namespace Boundary

variable {compressor : Compressor} {codec : Codec} {options : Option RawOptions}
variable {source destination : Buffer} {input framed old : Bytes}

theorem decompressedSize_of_written (made : codecOf compressor options = .ok codec)
    (held : source.contents .sourceMissing = .ok framed)
    (written : (codec.compress .sized input).outcome = .ok framed) :
    (decompressedSize compressor options source).value = (sizeOf (.ok input.length)).value := by
  have recorded : codec.decompressedSize framed = .ok input.length :=
    Framed.decompressedSize_of_written written
  rw [decompressedSize, made, held]
  exact congrArg (fun outcome => (sizeOf outcome).value) recorded

/-- In a large enough destination a series comes back, if its length can be told. -/
theorem decompress_of_written (lossless : compressor.LosslessUpTo Size.greatestBuffer)
    (made : codecOf compressor options = .ok codec)
    (held : source.contents .sourceMissing = .ok framed)
    (written : (codec.compress .sized input).outcome = .ok framed)
    (told : input.length < errorSize.toNat)
    (room : destination.contents .destinationMissing = .ok old)
    (fits : input.length ≤ old.length) :
    (decompress .sized compressor options source destination).value =
      ⟨UInt32.ofNat input.length, some (input ++ old.drop input.length)⟩ := by
  obtain rfl := codecOf_compressor made
  have short : input.length + input.length ≤ Size.greatestBuffer :=
    Nat.le_trans (Nat.add_le_add (Nat.le_of_lt told) (Nat.le_of_lt told)) (by decide)
  have back : (codec.decompressInto .sized old framed).outcome =
      .ok ⟨input.length, input ++ old.drop input.length⟩ :=
    Framed.decompressInto_of_written lossless short written fits
  rw [decompress, transfer_value, transferred_eq made held, room, Fallible.ok_bind, back,
    replyTo_eq_iff (ofNat_ne_errorSize told), toNat_ofNat_of_lt told]

/-- A series of the reserved length comes back as a failure, whatever the destination. -/
theorem decompress_of_reserved (made : codecOf compressor options = .ok codec)
    (held : source.contents .sourceMissing = .ok framed)
    (written : (codec.compress .sized input).outcome = .ok framed)
    (reserved : input.length = errorSize.toNat) :
    (decompress .sized compressor options source destination).value = ⟨errorSize, none⟩ := by
  rw [decompress, transfer_value]
  apply replyTo_of_large
  intro answer done
  rw [transferred_eq made held] at done
  obtain ⟨output, _, accepted⟩ := Fallible.bind_eq_ok_iff.mp done
  exact Nat.le_of_eq (reserved.symm.trans (Framed.size_eq_of_accepted written accepted).symm)

/--
What has been compressed with a length field describes itself: its length is told,
and with that many bytes of room the series comes back.  The reserved length alone is
not told, and a series of that length comes back as a failure.
-/
theorem compress_sized_describes_itself (lossless : compressor.LosslessUpTo Size.greatestBuffer)
    (held : source.contents .sourceMissing = .ok input)
    (proper : (compress .sized compressor options source destination).value.size ≠ errorSize) :
    ∃ size after,
      (compress .sized compressor options source destination).value = ⟨size, some after⟩ ∧
      size.toNat ≤ after.length ∧
      ∀ stored : Buffer, stored.contents .sourceMissing = .ok (after.take size.toNat) →
        (input.length ≠ errorSize.toNat →
          UInt32.ofNat input.length ≠ errorSize ∧
          (decompressedSize compressor options stored).value = UInt32.ofNat input.length ∧
          ∀ target old, target.contents .destinationMissing = .ok old →
            input.length ≤ old.length →
              (decompress .sized compressor options stored target).value =
                ⟨UInt32.ofNat input.length, some (input ++ old.drop input.length)⟩) ∧
        (input.length = errorSize.toNat →
          (decompressedSize compressor options stored).value = errorSize ∧
          ∀ target, (decompress .sized compressor options stored target).value =
            ⟨errorSize, none⟩) := by
  obtain ⟨after, replied⟩ := exists_transfer_value_eq proper
  obtain ⟨codec, made, again, sameSource, output, _, done⟩ :=
    (transfer_value_eq_iff proper).mp replied
  rw [held] at sameSource
  cases sameSource
  obtain ⟨framed, written, fits, answers⟩ := Codec.compressInto_outcome_eq_ok_iff.mp done
  have size : (compress .sized compressor options source destination).value.size.toNat =
      framed.length := congrArg Written.size answers
  have front : after = Bytes.overwrite output framed := congrArg Written.destination answers
  refine ⟨(compress .sized compressor options source destination).value.size, after, replied,
    ?_, ?_⟩
  · rw [size, front, Bytes.overwrite_length fits]
    exact fits
  · intro stored storedHeld
    rw [size, front, Bytes.overwrite_take] at storedHeld
    have length := decompressedSize_of_written made storedHeld written
    refine ⟨?_, ?_⟩
    · intro other
      have told : input.length < errorSize.toNat :=
        Nat.lt_of_le_of_ne (headed_of_contents held) other
      rw [sizeOf_value_of_lt told] at length
      refine ⟨ofNat_ne_errorSize told, length, ?_⟩
      intro target old room enough
      exact decompress_of_written lossless made storedHeld written told room enough
    · intro reserved
      rw [sizeOf_value_of_ge (Nat.le_of_eq reserved.symm)] at length
      exact ⟨length, fun target => decompress_of_reserved made storedHeld written reserved⟩

/-- One element is described by the 18 bytes that it takes up in front of two others. -/
theorem compress_sized_describes_one_element :
    (compress .sized Zstandard.compressor (some ⟨false, 4, 1, 0⟩)
        (.holding [0, 0, 0, 128] (by decide)) (.holding (List.replicate 20 170) (by decide))).value =
      ⟨18, some ([4, 0, 0, 0] ++ elementPayload ++ [170, 170])⟩ ∧
    (decompressedSize Zstandard.compressor (some ⟨false, 4, 1, 0⟩)
        (.holding ([4, 0, 0, 0] ++ elementPayload) (by decide))).value = 4 ∧
    (decompress .sized Zstandard.compressor (some ⟨false, 4, 1, 0⟩)
        (.holding ([4, 0, 0, 0] ++ elementPayload) (by decide))
        (.holding [7, 7, 7, 7, 7] (by decide))).value = ⟨4, some [0, 0, 0, 128, 7]⟩ := by
  have made : codecOf Zstandard.compressor (some ⟨false, 4, 1, 0⟩) =
      .ok ⟨⟨false, .four, 1, 0⟩, Zstandard.compressor, by decide⟩ := rfl
  have held : (Buffer.holding [0, 0, 0, 128] (by decide)).contents .sourceMissing =
      .ok [0, 0, 0, 128] := rfl
  have room : (Buffer.holding (List.replicate 20 170) (by decide)).contents .destinationMissing =
      .ok (List.replicate 20 170) := rfl
  have replied := (compress_value_of_fits made held room (compress_one_element .sized) (by decide)
    (by decide)).2
  have proper : (compress .sized Zstandard.compressor (some ⟨false, 4, 1, 0⟩)
      (.holding [0, 0, 0, 128] (by decide))
      (.holding (List.replicate 20 170) (by decide))).value.size ≠ errorSize := by
    rw [replied]
    decide
  obtain ⟨size, after, again, _, described⟩ := compress_sized_describes_itself
    (Zstandard.compressor_losslessUpTo.mono (by decide)) held proper
  rw [replied] at again
  cases again
  obtain ⟨told, _⟩ := described (.holding ([4, 0, 0, 0] ++ elementPayload) (by decide)) rfl
  obtain ⟨_, length, back⟩ := told (by decide)
  exact ⟨replied, length, back (.holding [7, 7, 7, 7, 7] (by decide)) [7, 7, 7, 7, 7] rfl
    (by decide)⟩

def Buffer.zeros (length : UInt32) : Buffer :=
  .holding (List.replicate length.toNat 0)
    (Nat.lt_of_le_of_lt (Nat.le_of_eq List.length_replicate) length.toNat_lt)

/-- The sized payload of zeros of the reserved length, one byte each. -/
def reservedPayload : Bytes := [255, 255, 255, 255, 0, 255, 255, 255, 63, 1]

theorem compress_reserved_zeros :
    (Framed.compress .zeroRuns .sized ⟨false, .one, 1, 0⟩
      (List.replicate errorSize.toNat 0)).outcome = .ok reservedPayload := by
  have short : errorSize.toNat * ElementWidth.one.bytes ≤ Framing.greatestLength := by decide
  have same : errorSize.toNat * ElementWidth.one.bytes = errorSize.toNat := Nat.mul_one _
  -- Only numbers are computed here; the four billion zeros are never written out.
  have written := Framed.compress_zeros .one 1 (by decide) short
  rw [same] at written
  rw [written]
  rfl

/-- Zeros of the reserved length are compressed into ten bytes that do not describe them. -/
theorem compress_sized_reserved_length :
    Compressor.zeroRuns.Lossless ∧
    (compress .sized .zeroRuns (some ⟨false, 1, 1, 0⟩) (.zeros errorSize) (.zeros 10)).value =
      ⟨10, some reservedPayload⟩ ∧
    (10 : UInt32) ≠ errorSize ∧
    (decompressedSize .zeroRuns (some ⟨false, 1, 1, 0⟩)
      (.holding reservedPayload (by decide))).value = errorSize ∧
    ∀ target, (decompress .sized .zeroRuns (some ⟨false, 1, 1, 0⟩)
      (.holding reservedPayload (by decide)) target).value = ⟨errorSize, none⟩ := by
  have made : codecOf .zeroRuns (some ⟨false, 1, 1, 0⟩) =
      .ok ⟨⟨false, .one, 1, 0⟩, .zeroRuns, by decide⟩ := rfl
  have held : (Buffer.zeros errorSize).contents .sourceMissing =
      .ok (List.replicate errorSize.toNat 0) := rfl
  have room : (Buffer.zeros 10).contents .destinationMissing = .ok (List.replicate 10 0) := rfl
  have length : (List.replicate errorSize.toNat (0 : UInt8)).length = errorSize.toNat :=
    List.length_replicate
  have written : (Codec.compress ⟨⟨false, .one, 1, 0⟩, .zeroRuns, by decide⟩ .sized
      (List.replicate errorSize.toNat 0)).outcome = .ok reservedPayload :=
    compress_reserved_zeros
  refine ⟨Compressor.zeroRuns_lossless, ?_, by decide, ?_, ?_⟩
  · exact (compress_value_of_fits made held room written (by decide) (by decide)).2
  · rw [decompressedSize_of_written made rfl written, length]
    rfl
  · intro target
    exact decompress_of_reserved made rfl written length

end Boundary

end SeriesCodec
