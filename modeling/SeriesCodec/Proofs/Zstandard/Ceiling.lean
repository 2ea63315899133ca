import SeriesCodec.Proofs.Framed.Bound
import SeriesCodec.Proofs.Zstandard.Stored

/-!
# The declared size near the greatest one

The longest packed stream of a series is known exactly, and the declared size is
computed from it with sums that saturate.  The compressor refuses to bound the
longest lengths, however, and the code of its refusal is taken for a bound.  From
there on the declared size stays where it is, below the lengths that it should
cover, and below sizes that are declared for less.
-/

namespace SeriesCodec

namespace GroupVarint

variable {width : ElementWidth}

theorem totalLength_replicate (count length : Nat) :
    totalLength (List.replicate count length) = count * length := by
  induction count with
  | zero => rw [Nat.zero_mul]; rfl
  | succ count ih => rw [List.replicate_succ, totalLength, ih, Nat.succ_mul, Nat.add_comm]

/-- The word of ones leaves no byte out. -/
theorem encode_length_allOnes (width : ElementWidth) (count : Nat) :
    (encode (List.replicate count (BitVec.allOnes width.bits : Word width))).length =
      worstSize width count := by
  have full : Word.significantBytes (BitVec.allOnes width.bits : Word width) = width.bytes := by
    cases width <;> decide
  rw [encode_length, minimalLengths, List.map_replicate, full, totalLength_replicate,
    List.length_replicate, Nat.add_comm]
  rfl

/-- No series of so many elements has a longer packed stream, and one has a stream as long. -/
theorem worstSize_isWorst (width : ElementWidth) (count : Nat) :
    (∀ elements : List (Word width), elements.length = count →
      (encode elements).length ≤ worstSize width count) ∧
    ∃ elements : List (Word width), elements.length = count ∧
      (encode elements).length = worstSize width count := by
  refine ⟨?_, _, List.length_replicate, encode_length_allOnes width count⟩
  rintro elements rfl
  exact encode_length_le elements

end GroupVarint

namespace Zstandard

variable {length : Nat}

theorem maxCompressedSize_of_refused (refused : refusedLength ≤ length) :
    maxCompressedSize length = refusedBound :=
  if_pos refused

theorem le_maxCompressedSize (accepted : length < refusedLength) :
    length ≤ maxCompressedSize length := by
  rw [maxCompressedSize, if_neg (Nat.not_le_of_lt accepted), Nat.add_assoc]
  exact Nat.le_add_right _ _

/-- Lengths that saturate are refused like the greatest one. -/
theorem maxCompressedSize_min_greatest (length : Nat) :
    maxCompressedSize (min length Size.greatest) = maxCompressedSize length := by
  have known : refusedLength ≤ Size.greatest := by decide
  rcases Nat.le_total length Size.greatest with short | long
  · rw [Nat.min_eq_left short]
  · rw [Nat.min_eq_right long, maxCompressedSize_of_refused known,
      maxCompressedSize_of_refused (Nat.le_trans known long)]

end Zstandard

namespace Framed

variable {options : Options}

/-- The packed size saturates, but the compressor would not bound it otherwise either. -/
theorem maxCompressedSize_zstandard (used : 0 < options.level) (inputLength : Nat) :
    (maxCompressedSize Zstandard.compressor options inputLength).value =
      Size.add (Zstandard.maxCompressedSize (worstPackedSize options.width inputLength))
        Framing.lengthFieldSize := by
  have stages : options.usesCompressor := decide_eq_true used
  have declared : Zstandard.compressor.maxCompressedSize (packedBound options inputLength) =
      Zstandard.maxCompressedSize (worstPackedSize options.width inputLength) := by
    rw [packedBound, GroupVarint.maxPackedSize_eq_min]
    exact Zstandard.maxCompressedSize_min_greatest _
  rw [maxCompressedSize_value, if_pos stages, declared]

/-- The declared size of every series whose longest packed stream is not bounded. -/
theorem maxCompressedSize_of_refused (used : 0 < options.level) {inputLength : Nat}
    (refused : Zstandard.refusedLength ≤ worstPackedSize options.width inputLength) :
    (maxCompressedSize Zstandard.compressor options inputLength).value =
      Zstandard.refusedBound + Framing.lengthFieldSize := by
  rw [maxCompressedSize_zstandard used, Zstandard.maxCompressedSize_of_refused refused]
  rfl

/--
The longest packed stream of a series has exactly the size that the declared size is
computed from.  With the Zstandard compressor the declared size covers it and a length
field, or is the greatest size, exactly if that stream is not longer than the code of a
refusal.  It does not decrease from one length to a longer one, exactly if the longer
one is not refused or the shorter one has no bound above that code.
-/
theorem maxCompressedSize_covers_iff (used : 0 < options.level) :
    (∀ inputLength,
      (∀ elements : List (Word options.width),
        elements.length = Size.ceilDiv inputLength options.width.bytes →
          (GroupVarint.encode elements).length ≤ worstPackedSize options.width inputLength) ∧
      ∃ elements : List (Word options.width),
        elements.length = Size.ceilDiv inputLength options.width.bytes ∧
          (GroupVarint.encode elements).length = worstPackedSize options.width inputLength) ∧
    (∀ inputLength,
      min Size.greatest (worstPackedSize options.width inputLength + Framing.lengthFieldSize) ≤
          (maxCompressedSize Zstandard.compressor options inputLength).value ↔
        worstPackedSize options.width inputLength ≤ Zstandard.refusedBound) ∧
    ∀ shorter longer, shorter ≤ longer →
      ((maxCompressedSize Zstandard.compressor options shorter).value ≤
          (maxCompressedSize Zstandard.compressor options longer).value ↔
        worstPackedSize options.width longer < Zstandard.refusedLength ∨
          Zstandard.maxCompressedSize (worstPackedSize options.width shorter) ≤
            Zstandard.refusedBound) := by
  have below : Zstandard.refusedLength ≤ Zstandard.refusedBound := by decide
  have room : Zstandard.refusedBound + Framing.lengthFieldSize < Size.greatest := by decide
  refine ⟨fun _ => GroupVarint.worstSize_isWorst _ _, ?_, ?_⟩
  · intro inputLength
    rcases Nat.lt_or_ge (worstPackedSize options.width inputLength) Zstandard.refusedLength with
      accepted | refused
    · have covered := Zstandard.le_maxCompressedSize accepted
      rw [maxCompressedSize_zstandard used, Size.add]
      omega
    · rw [maxCompressedSize_of_refused used refused]
      omega
  · intro shorter longer le
    rcases Nat.lt_or_ge (worstPackedSize options.width longer) Zstandard.refusedLength with
      accepted | refused
    · have grows := Zstandard.maxCompressedSize_mono (worstPackedSize_mono le) accepted
      rw [maxCompressedSize_zstandard used, maxCompressedSize_zstandard used]
      exact iff_of_true (Size.add_mono grows (Nat.le_refl _)) (.inl accepted)
    · rw [maxCompressedSize_of_refused used refused, maxCompressedSize_zstandard used, Size.add]
      omega

/--
One-byte elements: the greatest length is not covered, and one more byte, with which
the longest packed stream is no longer bounded, makes the declared size smaller.
-/
theorem maxCompressedSize_falls_behind :
    (maxCompressedSize Zstandard.compressor ⟨true, .one, 1, 0⟩ Size.greatest).value =
      18446744073709551548 ∧
    ¬ min Size.greatest (worstPackedSize .one Size.greatest + Framing.lengthFieldSize) ≤
        (maxCompressedSize Zstandard.compressor ⟨true, .one, 1, 0⟩ Size.greatest).value ∧
    ¬ (maxCompressedSize Zstandard.compressor ⟨true, .one, 1, 0⟩ 14699973487531969535).value ≤
        (maxCompressedSize Zstandard.compressor ⟨true, .one, 1, 0⟩ 14699973487531969536).value := by
  obtain ⟨_, covers, grows⟩ := @maxCompressedSize_covers_iff ⟨true, .one, 1, 0⟩ (by decide)
  refine ⟨by decide, ?_, ?_⟩
  · rw [covers]
    decide
  · rw [grows _ _ (by decide)]
    decide

end Framed

end SeriesCodec
