import SeriesCodec.Proofs.Compressor
import SeriesCodec.Proofs.Framed.Outcome

/-!
# Series of zeros

A series of zeros is packed into zeros only.  A compressor that keeps no more than
the length of such a stream makes a payload of a few bytes out of it, however long
the series is.
-/

namespace SeriesCodec

namespace Compressor

/-- The compressor that keeps only the length of a byte string of zeros. -/
def zeroRuns : Compressor where
  compress input _ := .ok <|
    if input = List.replicate input.length 0 then
      0 :: LittleEndian.encode (LittleEndian.minimalLength input.length) input.length
    else 1 :: input
  decompress input limit :=
    let plain := match input with
      | 0 :: length => List.replicate (LittleEndian.value length) 0
      | _ => input.drop 1
    if plain.length ≤ limit then .ok plain
    else .error (.secondaryCompressor "content exceeds limit")
  maxCompressedSize length := length + 9

theorem zeroRuns_compress_zeros (length : Nat) (level : UInt32) :
    zeroRuns.compress (List.replicate length 0) level =
      .ok (0 :: LittleEndian.encode (LittleEndian.minimalLength length) length) := by
  simp only [zeroRuns, List.length_replicate, if_true]

theorem zeroRuns_lossless : zeroRuns.Lossless := by
  intro plain level compressed limit stored fits
  simp only [zeroRuns, Except.ok.injEq] at stored
  split at stored
  next zeros =>
    rw [← stored]
    have length := LittleEndian.value_encode_of_lt (LittleEndian.lt_bound_minimalLength plain.length)
    simp only [zeroRuns, length, ← zeros, if_pos fits]
  next =>
    rw [← stored]
    exact if_pos fits

end Compressor

theorem LittleEndian.value_zeros (length : Nat) : value (List.replicate length 0) = 0 := by
  induction length with
  | zero => rfl
  | succ length ih => rw [List.replicate_succ, value, ih]; rfl

theorem Elements.take_zeros (width : ElementWidth) (count length : Nat) :
    take width count (List.replicate length 0) = List.replicate count 0 := by
  induction count generalizing length with
  | zero => rfl
  | succ count ih =>
      have zero : (Word.ofBytes ((List.replicate length 0).take width.bytes) : Word width) = 0 := by
        rw [List.take_replicate, Word.ofBytes, LittleEndian.value_zeros]
        rfl
      rw [take, zero, List.drop_replicate, ih, List.replicate_succ]

namespace GroupVarint

variable {width : ElementWidth}

theorem keyValue_ones (width : ElementWidth) (count : Nat) :
    keyValue width (List.replicate count 1) = 0 := by
  induction count with
  | zero => rfl
  | succ count ih => rw [List.replicate_succ, keyValue, ih, Nat.mul_zero]

theorem keysOf_ones (width : ElementWidth) (groups count : Nat) :
    keysOf width groups (List.replicate count 1) = List.replicate groups 0 := by
  induction groups generalizing count with
  | zero => rfl
  | succ groups ih =>
      rw [keysOf, List.drop_replicate, ih, List.take_replicate, keyOf, keyValue_ones,
        List.replicate_succ]
      rfl

/-- Zeros are packed into zeros: a key of zeros for every group, and a zero for every element. -/
theorem encode_zeros (width : ElementWidth) (count : Nat) :
    encode (List.replicate count (0 : Word width)) =
      List.replicate (keyCount width count + count) 0 := by
  have one : Word.significantBytes (0 : Word width) = 1 := by
    cases width <;> rfl
  have low : Word.lowBytes (0 : Word width) 1 = [0] := by
    cases width <;> rfl
  have lengths : minimalLengths (List.replicate count (0 : Word width)) = List.replicate count 1 := by
    rw [minimalLengths, List.map_replicate, one]
  have data : dataOf (List.replicate count (0 : Word width)) = List.replicate count 0 := by
    rw [dataOf, List.flatMap_replicate, one, low, List.flatten_replicate_singleton]
  rw [encode, lengths, data, keysOf_ones, List.length_replicate, List.replicate_append_replicate]

end GroupVarint

namespace Framed

/-- Without differences a series of zeros has a packed stream of zeros. -/
theorem compress_zeros (width : ElementWidth) (level : UInt32) {count : Nat} (used : 0 < level)
    (short : count * width.bytes ≤ Framing.greatestLength) :
    (compress .zeroRuns .sized ⟨false, width, level, 0⟩
        (List.replicate (count * width.bytes) 0)).outcome =
      .ok (LittleEndian.encode Framing.lengthFieldSize (count * width.bytes) ++
        0 :: LittleEndian.encode
          (LittleEndian.minimalLength (GroupVarint.keyCount width count + count))
          (GroupVarint.keyCount width count + count)) := by
  have words : Packed.words ⟨false, width, level, 0⟩ (List.replicate (count * width.bytes) 0) =
      List.replicate count 0 := by
    rw [Packed.words, List.length_replicate, Nat.mul_div_cancel _ width.bytes_pos]
    exact Elements.take_zeros width count _
  have stages : Options.usesCompressor ⟨false, width, level, 0⟩ = true := decide_eq_true used
  rw [compress_outcome_eq_ok_iff]
  refine ⟨rfl, ?_, _, _, ?_, ?_, rfl⟩
  · rw [List.length_replicate]
    exact Nat.mul_mod_left _ _
  · rw [List.length_replicate]
    exact if_pos short
  · rw [payloadOf_outcome, if_pos stages, words, GroupVarint.encode_zeros]
    exact Compressor.zeroRuns_compress_zeros _ _

end Framed

end SeriesCodec
