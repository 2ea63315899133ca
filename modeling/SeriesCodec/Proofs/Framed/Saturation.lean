import Mathlib.Algebra.Order.Floor.Div
import SeriesCodec.Proofs.Framed.Bound
import SeriesCodec.Proofs.GroupVarint.Layout
import SeriesCodec.Proofs.Size

/-!
# The declared size in machine words

The declared size is computed in machine words, through two quotients that are rounded
up, a product and two sums.  What saturates early is the greatest size in the end as
well, so without a compressor, or with one that stores, the declared size is the exact
one or the greatest one, whichever is less.
-/

namespace SeriesCodec

namespace GroupVarint

namespace Counter

/-- The greatest size of a packed stream, in machine words. -/
def maxPackedSize? (width : ElementWidth) (count : UInt64) : Option UInt64 := do
  let keys ← Size.Counter.ceilDiv? count (UInt64.ofNat width.slots)
  pure (Size.Counter.add (Size.Counter.mul count (UInt64.ofNat width.bytes)) keys)

theorem ofNat_bytes (width : ElementWidth) :
    (UInt64.ofNat width.bytes).toNat = width.bytes := by
  cases width <;> rfl

theorem ofNat_slots (width : ElementWidth) :
    (UInt64.ofNat width.slots).toNat = width.slots := by
  cases width <;> rfl

theorem maxPackedSize?_eq_some (width : ElementWidth) (count : UInt64) :
    ∃ size, maxPackedSize? width count = some size ∧
      size.toNat = maxPackedSize width count.toNat := by
  have positive := Nat.lt_of_lt_of_eq width.slots_pos (ofNat_slots width).symm
  obtain ⟨keys, rounds, number⟩ := Size.Counter.ceilDiv?_eq_some count positive
  refine ⟨_, congrArg (· >>= _) rounds, ?_⟩
  rw [Size.Counter.add_toNat, Size.Counter.mul_toNat, number, ofNat_slots, ofNat_bytes]
  rfl

end Counter

end GroupVarint

namespace Framed

namespace Counter

def payloadBound (compressor : Compressor) (options : Options) (packed : UInt64) : UInt64 :=
  if options.usesCompressor then UInt64.ofNat (compressor.maxCompressedSize packed.toNat)
  else packed

def maxCompressedSize? (compressor : Compressor) (options : Options) (inputLength : UInt64) :
    Option UInt64 := do
  let count ← Size.Counter.ceilDiv? inputLength (UInt64.ofNat options.width.bytes)
  let packed ← GroupVarint.Counter.maxPackedSize? options.width count
  pure (Size.Counter.add (payloadBound compressor options packed)
    (UInt64.ofNat Framing.lengthFieldSize))

theorem payloadBound_toNat {compressor : Compressor} {options : Options}
    (counted : options.level = 0 ∨ ∀ length, length ≤ Size.greatest →
      compressor.maxCompressedSize length ≤ Size.greatest) (packed : UInt64) :
    (payloadBound compressor options packed).toNat =
      if options.usesCompressor then compressor.maxCompressedSize packed.toNat
      else packed.toNat := by
  rw [payloadBound]
  split
  next used =>
    have size := Options.of_usesCompressor counted used _ (Size.Counter.toNat_le_greatest packed)
    exact Size.Counter.ofNat_toNat size
  next => rfl

/-- What the compressor declares for a size has to be a size, and nothing else is asked. -/
theorem maxCompressedSize?_eq_some {compressor : Compressor} {options : Options}
    (counted : options.level = 0 ∨ ∀ length, length ≤ Size.greatest →
      compressor.maxCompressedSize length ≤ Size.greatest) (inputLength : UInt64) :
    ∃ size, maxCompressedSize? compressor options inputLength = some size ∧
      size.toNat = (maxCompressedSize compressor options inputLength.toNat).value := by
  have positive := Nat.lt_of_lt_of_eq options.width.bytes_pos
    (GroupVarint.Counter.ofNat_bytes options.width).symm
  obtain ⟨count, rounds, elements⟩ := Size.Counter.ceilDiv?_eq_some inputLength positive
  obtain ⟨packed, packs, number⟩ := GroupVarint.Counter.maxPackedSize?_eq_some options.width count
  rw [elements, GroupVarint.Counter.ofNat_bytes] at number
  refine ⟨Size.Counter.add (payloadBound compressor options packed)
    (UInt64.ofNat Framing.lengthFieldSize), ?_, ?_⟩
  · rw [maxCompressedSize?, rounds, Option.bind_eq_bind, Option.bind_some, packs]
    rfl
  · rw [Size.Counter.add_toNat, payloadBound_toNat counted, number, maxCompressedSize_value]
    rfl

end Counter

/-- Without a compressor, or with one that stores, the payload is the packed stream. -/
theorem maxCompressedSize_of_stored {compressor : Compressor} {options : Options}
    (stored : options.level = 0 ∨ compressor = .passthrough) (inputLength : Nat) :
    (maxCompressedSize compressor options inputLength).value =
      min (worstPackedSize options.width inputLength + Framing.lengthFieldSize) Size.greatest := by
  have payload : (if options.usesCompressor then
      compressor.maxCompressedSize (packedBound options inputLength)
    else packedBound options inputLength) = packedBound options inputLength := by
    split
    next used =>
      rw [Options.of_usesCompressor stored used]
      rfl
    next => rfl
  rw [maxCompressedSize_value, payload, packedBound, GroupVarint.maxPackedSize_eq_min,
    Size.add_min_greatest]
  rfl

/--
The declared size of a packed stream is the one of its elements at full width and of
their keys, or the greatest size if that is less.  Without a compressor, or with one that
stores, the declared size of an input adds a length field to this for the elements that
the input fills, the last one perhaps in part, and it does not decrease.  Machine words
come to the same sizes, with no step on the way that has no result.
-/
theorem saturated_bound_is_exact :
    (∀ width : ElementWidth,
      (∀ count : Nat, GroupVarint.maxPackedSize width count =
        min (2 ^ 64 - 1)
          (count * width.bytes + count ⌈/⌉ (GroupVarint.KeyFields.of width).slots)) ∧
      ∀ count : UInt64, ∃ size, GroupVarint.Counter.maxPackedSize? width count = some size ∧
        size.toNat = GroupVarint.maxPackedSize width count.toNat) ∧
    ∀ (compressor : Compressor) (options : Options),
      options.level = 0 ∨ compressor = .passthrough →
      (∀ inputLength : Nat, (maxCompressedSize compressor options inputLength).value =
        min (2 ^ 64 - 1)
          ((inputLength ⌈/⌉ options.width.bytes) * options.width.bytes +
            (inputLength ⌈/⌉ options.width.bytes) ⌈/⌉
              (GroupVarint.KeyFields.of options.width).slots + 4)) ∧
      (∀ inputLength : UInt64, ∃ size,
        Counter.maxCompressedSize? compressor options inputLength = some size ∧
        size.toNat = (maxCompressedSize compressor options inputLength.toNat).value) ∧
      Monotone fun inputLength => (maxCompressedSize compressor options inputLength).value := by
  refine ⟨fun width => ⟨?_, GroupVarint.Counter.maxPackedSize?_eq_some width⟩, ?_⟩
  · intro count
    rw [GroupVarint.maxPackedSize_eq_min, Nat.min_comm, GroupVarint.keyFields_slots]
    rfl
  · intro compressor options stored
    refine ⟨?_, ?_, ?_⟩
    · intro inputLength
      rw [maxCompressedSize_of_stored stored, Nat.min_comm, GroupVarint.keyFields_slots]
      rfl
    · intro inputLength
      apply Counter.maxCompressedSize?_eq_some
      rcases stored with plain | rfl
      · exact .inl plain
      · exact .inr fun _ counted => counted
    · intro shorter longer le
      have grows : worstPackedSize options.width shorter ≤ worstPackedSize options.width longer :=
        worstPackedSize_mono le
      simp only [maxCompressedSize_of_stored stored]
      omega

/-- One-byte elements: the last length with a bound of its own, the one behind it, and all. -/
theorem saturated_bound_is_exact_at_the_end :
    (maxCompressedSize .passthrough ⟨true, .one, 5, 0⟩ 14757395258967641288).value =
      2 ^ 64 - 2 ∧
    (maxCompressedSize .passthrough ⟨true, .one, 5, 0⟩ 14757395258967641289).value =
      2 ^ 64 - 1 ∧
    ∃ size, Counter.maxCompressedSize? .passthrough ⟨true, .one, 5, 0⟩ Size.Counter.full =
        some size ∧ size.toNat = 2 ^ 64 - 1 := by
  obtain ⟨_, declares⟩ := saturated_bound_is_exact
  obtain ⟨exact, counts, _⟩ := declares .passthrough ⟨true, .one, 5, 0⟩ (.inr rfl)
  obtain ⟨size, counted, value⟩ := counts Size.Counter.full
  refine ⟨?_, ?_, size, counted, ?_⟩
  · rw [exact]
    decide
  · rw [exact]
    decide
  · rw [value, exact]
    decide

end Framed

end SeriesCodec
