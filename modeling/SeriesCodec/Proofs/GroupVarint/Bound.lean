import SeriesCodec.Proofs.GroupVarint.Inverse

/-!
# The size of a stream

No element takes more bytes than the width, so a stream, whoever wrote it, is
within the declared greatest size.  This is the size of a stream of elements at full
width, or the greatest size if that is less.  For a series that fits a buffer it is never
less: a buffer holds at most half of what a size can count.
-/

namespace SeriesCodec

namespace Size

def greatestBuffer : Nat := 2 ^ 63 - 1

end Size

namespace GroupVarint

variable {width : ElementWidth} {stream : Bytes} {count : Nat}

/-- A key describes at least one element. -/
theorem keyCount_le (width : ElementWidth) (count : Nat) : keyCount width count ≤ count :=
  (Size.ceilDiv_le_iff width.slots_pos).mpr (Nat.le_mul_of_pos_right count width.slots_pos)

/-- The size of a packed stream of `count` elements that are all stored at full width. -/
def worstSize (width : ElementWidth) (count : Nat) : Nat :=
  count * width.bytes + keyCount width count

theorem maxPackedSize_eq_min (width : ElementWidth) (count : Nat) :
    maxPackedSize width count = min (worstSize width count) Size.greatest := by
  rw [maxPackedSize, Size.mul, Size.add_min_greatest]
  rfl

theorem worstSize_mono {fewer more : Nat} (le : fewer ≤ more) :
    worstSize width fewer ≤ worstSize width more :=
  Nat.add_le_add (Nat.mul_le_mul_right _ le) (keyCount_mono le)

theorem Holds.length_le (held : Holds width stream count) :
    stream.length ≤ count * width.bytes + keyCount width count := by
  have legal : ∀ length ∈ recordedLengths width stream count, length ≤ width.bytes := by
    intro length member
    obtain ⟨index, inside, rfl⟩ := mem_recordedLengths.mp member
    exact held.legal index inside
  have data := totalLength_le legal
  rw [recordedLengths_length] at data
  rw [held.size, span, Nat.add_comm]
  exact Nat.add_le_add_right data _

theorem encode_length_le (elements : List (Word width)) :
    (encode elements).length ≤
      elements.length * width.bytes + keyCount width elements.length :=
  (holds_encode elements).length_le

theorem maxPackedSize_eq (buffered : count * width.bytes ≤ Size.greatestBuffer) :
    maxPackedSize width count = count * width.bytes + keyCount width count := by
  have keys := keyCount_le width count
  have elements : count ≤ count * width.bytes := Nat.le_mul_of_pos_right count width.bytes_pos
  have half : Size.greatestBuffer + Size.greatestBuffer ≤ Size.greatest := by decide
  rw [maxPackedSize_eq_min, worstSize]
  omega

theorem Holds.length_le_maxPackedSize (held : Holds width stream count)
    (buffered : count * width.bytes ≤ Size.greatestBuffer) :
    stream.length ≤ maxPackedSize width count := by
  rw [maxPackedSize_eq buffered]
  exact held.length_le

theorem encode_length_le_maxPackedSize {elements : List (Word width)}
    (buffered : elements.length * width.bytes ≤ Size.greatestBuffer) :
    (encode elements).length ≤ maxPackedSize width elements.length :=
  (holds_encode elements).length_le_maxPackedSize buffered

end GroupVarint

end SeriesCodec
