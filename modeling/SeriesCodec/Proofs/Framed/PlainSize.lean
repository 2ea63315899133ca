import Mathlib.Data.List.GetD
import SeriesCodec.Proofs.Delta.Steps
import SeriesCodec.Proofs.Framed.Outcome
import SeriesCodec.Proofs.GroupVarint.Bound
import SeriesCodec.Proofs.GroupVarint.Layout

/-!
# The size of a payload without a compressor

Without a compressor the size of a payload is known from the series alone: each
element takes up as many bytes as the signed range needs that has its step in it,
or as many as the element itself needs if it is packed as it is.  So the packed
stream is longest exactly if every element needs the full width.
-/

namespace SeriesCodec

namespace Delta

variable {width : ElementWidth}

/-- So many bytes hold the step to an element, or the element itself without the transform. -/
def FitsIn (enabled : Bool) (elements : List (Word width)) (index length : Nat) : Prop :=
  if enabled then
    -(2 : Int) ^ (8 * length - 1) ≤ step elements index ∧
      step elements index < 2 ^ (8 * length - 1)
  else (elements.getD index 0).toNat < 256 ^ length

theorem significantBytes_encode_step (elements : List (Word width)) (index : Nat) :
    Word.significantBytes (ZigZag.encode (BitVec.ofInt width.bits (step elements index))) =
      LittleEndian.minimalLength (ZigZag.number (step elements index)) := by
  rw [Word.significantBytes, ZigZag.encode_toNat, ofInt_step_toInt]

/-- A word is written with the least number of bytes that hold its step or its element. -/
theorem minimalLengths_isLeast (enabled : Bool) (elements : List (Word width)) {index : Nat}
    (inside : index < elements.length) :
    IsLeast {length | 1 ≤ length ∧ FitsIn enabled elements index length}
      ((GroupVarint.minimalLengths (encode enabled elements)).getD index 0) := by
  rw [List.getD_eq_getElem _ _ (by simpa using inside)]
  cases enabled with
  | true =>
      simp only [encode_eq_map_step, GroupVarint.minimalLengths, List.map_map, List.getElem_map,
        List.getElem_range, Function.comp, significantBytes_encode_step]
      exact ZigZag.minimalLength_number_isLeast _
  | false =>
      have element : elements.getD index 0 = elements[index] := List.getD_eq_getElem _ _ inside
      simp only [FitsIn, element, GroupVarint.minimalLengths, encode, List.getElem_map]
      exact LittleEndian.minimalLength_isLeast _

end Delta

namespace GroupVarint

variable {width : ElementWidth}

/-- A sum of bounded lengths reaches its bound only if each of them does. -/
theorem totalLength_eq_mul_iff {lengths : List Nat} {bound : Nat}
    (legal : ∀ length ∈ lengths, length ≤ bound) :
    totalLength lengths = lengths.length * bound ↔ ∀ length ∈ lengths, length = bound := by
  induction lengths with
  | nil => simp [totalLength]
  | cons length rest ih =>
      have here := legal length List.mem_cons_self
      have there : ∀ other ∈ rest, other ≤ bound :=
        fun other member => legal other (List.mem_cons_of_mem _ member)
      have others := totalLength_le there
      rw [List.forall_mem_cons, ← ih there, totalLength, List.length_cons, Nat.succ_mul]
      omega

theorem keyCount_add_length_le (elements : List (Word width)) :
    keyCount width elements.length + elements.length ≤ (encode elements).length := by
  have least := length_le_totalLength fun length member =>
    (minimalLengths_legal elements length member).1
  rw [minimalLengths_length] at least
  rw [encode_length]
  exact Nat.add_le_add_left least _

/-- A stream is as long as it can be exactly if no element is written with fewer bytes. -/
theorem encode_length_eq_maxPackedSize_iff {elements : List (Word width)}
    (buffered : elements.length * width.bytes ≤ Size.greatestBuffer) :
    (encode elements).length = maxPackedSize width elements.length ↔
      ∀ length ∈ minimalLengths elements, length = width.bytes := by
  have reaches := totalLength_eq_mul_iff fun length member =>
    (minimalLengths_legal elements length member).2
  rw [minimalLengths_length] at reaches
  rw [encode_length, maxPackedSize_eq buffered, ← reaches, Nat.add_comm, Nat.add_right_cancel_iff]

end GroupVarint

namespace Framed

variable {compressor : Compressor} {framing : Framing} {width : ElementWidth}

/-- Without a compressor a payload is the header and the packed stream of the elements. -/
theorem compress_plain_elements (compressor : Compressor) (delta : Bool)
    {elements : List (Word width)} {header : Bytes}
    (heads : framing.header (elements.length * width.bytes) = .ok header) :
    (compress compressor framing ⟨delta, width, 0, 0⟩ (Elements.toBytes elements)).outcome =
      .ok (header ++ GroupVarint.encode (Delta.encode delta elements)) := by
  have whole : (Elements.toBytes elements).length % width.bytes = 0 := by
    rw [Elements.toBytes_length, Nat.mul_mod_left]
  have words := Packed.words_of_elements ⟨delta, width, 0, 0⟩ elements
  refine compress_outcome_eq_ok_iff.mpr ⟨rfl, whole, header, _, ?_, ?_, rfl⟩
  · rwa [Elements.toBytes_length]
  · rw [words, payloadOf_outcome]
    rfl

/--
Behind the header stand the keys and the least numbers of bytes that hold the steps of
the series, or its elements.  So a packed stream has at least one byte for each element,
at most the declared greatest size, and just this exactly if every element needs the
full width.
-/
theorem plain_payload_length (compressor : Compressor) (framing : Framing) (delta : Bool)
    (elements : List (Word width))
    (buffered : elements.length * width.bytes ≤ Size.greatestBuffer)
    (headed : framing = .sized → elements.length * width.bytes ≤ Framing.greatestLength) :
    ∃ (header packed : Bytes) (lengths : List Nat),
      (compress compressor framing ⟨delta, width, 0, 0⟩ (Elements.toBytes elements)).outcome =
        .ok (header ++ packed) ∧
      header.length = framing.headerSize ∧
      lengths.length = elements.length ∧
      (∀ index, index < elements.length →
        IsLeast {length | 1 ≤ length ∧ Delta.FitsIn delta elements index length}
          (lengths.getD index 0)) ∧
      packed.length =
        (GroupVarint.KeyFields.of width).keys elements.length + GroupVarint.totalLength lengths ∧
      (GroupVarint.KeyFields.of width).keys elements.length + elements.length ≤ packed.length ∧
      packed.length ≤ GroupVarint.maxPackedSize width elements.length ∧
      (packed.length = GroupVarint.maxPackedSize width elements.length ↔
        ∀ length ∈ lengths, length = width.bytes) := by
  obtain ⟨header, heads⟩ := Framing.header_isOk headed
  have size := Delta.encode_length delta elements
  have words : (Delta.encode delta elements).length * width.bytes ≤ Size.greatestBuffer := by
    rwa [size]
  have shortest := GroupVarint.keyCount_add_length_le (Delta.encode delta elements)
  have longest := GroupVarint.encode_length_le_maxPackedSize words
  have reaches := GroupVarint.encode_length_eq_maxPackedSize_iff words
  have total := GroupVarint.encode_length (Delta.encode delta elements)
  rw [size] at shortest longest reaches total
  rw [GroupVarint.keyFields_keys]
  refine ⟨header, _, GroupVarint.minimalLengths (Delta.encode delta elements),
    compress_plain_elements compressor delta heads, Framing.header_length heads, ?_, ?_, total,
    shortest, longest, reaches⟩
  · rw [GroupVarint.minimalLengths_length, size]
  · intro index inside
    exact Delta.minimalLengths_isLeast delta elements inside

/-- Two elements, of which the second one is a step of two bytes away. -/
theorem plain_payload_length_pair :
    2 * ElementWidth.two.bytes ≤ Size.greatestBuffer ∧
    2 * ElementWidth.two.bytes ≤ Framing.greatestLength ∧
    (compress .passthrough .sized ⟨true, .two, 0, 0⟩
      (Elements.toBytes ([5, 259] : List (Word .two)))).outcome =
        .ok [4, 0, 0, 0, 4, 10, 252, 1] ∧
    ∃ lengths : List Nat, lengths.length = 2 ∧ GroupVarint.totalLength lengths = 3 ∧
      IsLeast {length | 1 ≤ length ∧ Delta.FitsIn true ([5, 259] : List (Word .two)) 1 length}
        (lengths.getD 1 0) := by
  have buffered : 2 * ElementWidth.two.bytes ≤ Size.greatestBuffer := by decide
  have headed : 2 * ElementWidth.two.bytes ≤ Framing.greatestLength := by decide
  have written : (compress .passthrough .sized ⟨true, .two, 0, 0⟩
      (Elements.toBytes ([5, 259] : List (Word .two)))).outcome =
        .ok [4, 0, 0, 0, 4, 10, 252, 1] := rfl
  obtain ⟨header, packed, lengths, found, front, size, least, total, _⟩ :=
    plain_payload_length .passthrough .sized true ([5, 259] : List (Word .two)) buffered
      fun _ => headed
  rw [written] at found
  have parts := congrArg List.length (Except.ok.inj found)
  rw [List.length_append, front, total] at parts
  have three : 8 = 4 + (1 + GroupVarint.totalLength lengths) := parts
  exact ⟨buffered, headed, written, lengths, size, by omega, least 1 (by decide)⟩

end Framed

end SeriesCodec
