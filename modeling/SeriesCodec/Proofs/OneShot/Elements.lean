import SeriesCodec.OneShot
import SeriesCodec.Proofs.Boundary.Capacity
import SeriesCodec.Proofs.Elements
import SeriesCodec.Proofs.Framed.Allocation

/-!
# Series given as elements

The calls that take elements do what the codec does on the bytes of the series.  They
compress into an allocation of the declared greatest size, which is always enough, and
read the bytes of a payload as elements, which these bytes always are.
-/

namespace SeriesCodec

namespace Codec

variable {codec : Codec} {compressed output : Bytes}

/-- What a sized payload is read into are the bytes of some elements. -/
theorem exists_elements_of_decompressSized
    (read : (codec.decompressSized compressed).outcome = .ok output) :
    ∃ elements : List (Word codec.options.width), output = Elements.toBytes elements := by
  rw [decompressSized, Op.outcome_bind, Op.outcome_ofExcept, Fallible.bind_eq_ok_iff] at read
  obtain ⟨length, sized, found⟩ := read
  obtain ⟨payload, same⟩ := Framed.exists_contents codec.compressor sized
  rw [same length (Nat.le_refl _)] at found
  obtain ⟨_, _, _, _, words, _, stores⟩ := Framed.contents_eq_ok_iff.mp found
  exact ⟨_, stores⟩

/-- A sized payload is read into the series that it was made from. -/
theorem decompressSized_of_written {input : Bytes}
    (lossless : codec.compressor.LosslessUpTo Size.greatestBuffer)
    (short : input.length + input.length ≤ Size.greatestBuffer)
    (written : (codec.compress .sized input).outcome = .ok compressed) :
    (codec.decompressSized compressed).outcome = .ok input := by
  have room : Framing.sized.Admits (List.replicate input.length (0 : UInt8)).length
      input.length := Nat.le_of_eq List.length_replicate.symm
  have back := Framed.decompressInto_of_written lossless short written room
  refine (Framed.decompressSized_eq_ok_iff codec.supported).mpr ⟨_, _, back, ?_⟩
  exact List.take_left.symm

end Codec

namespace OneShot

variable {codec : Codec}

theorem checkWidth_self (options : Options) : checkWidth options.width options = .ok () :=
  if_pos rfl

/-- With elements of the declared width a series is compressed as far as the capacity allows. -/
theorem compressElements_outcome (elements : List (Word codec.options.width)) :
    (compressElements codec.compressor codec.options elements).outcome =
      (codec.compressWithin .sized (codec.maxCompressedSize (Elements.toBytes elements).length).value
        (Elements.toBytes elements)).outcome := by
  rw [compressElements, Op.check_of_ok (checkWidth_self _), Op.check_of_ok codec.ofOptions_self,
    Op.outcome_bind]
  rfl

/-- That is the front of an allocation of the declared size, once the rest is cut off. -/
theorem compressElements_allocates (elements : List (Word codec.options.width)) :
    (compressElements codec.compressor codec.options elements).outcome =
      (compressInto codec.compressor codec.options .sized
        (List.replicate (codec.maxCompressedSize (Elements.toBytes elements).length).value 0)
        (Elements.toBytes elements)).outcome.map fun answer =>
          answer.destination.take answer.size := by
  rw [compressElements_outcome, compressInto, Op.check_of_ok codec.ofOptions_self,
    Codec.compressInto, Op.outcome_bind, List.length_replicate]
  cases (codec.compressWithin .sized _ (Elements.toBytes elements)).outcome with
  | error reason => rfl
  | ok framed => exact congrArg Except.ok (Written.front_take _ framed).symm

/-- Elements are read from the payloads from which bytes are, and in the same bytes. -/
theorem decompressElements_outcome (codec : Codec) (compressed : Bytes) :
    (codec.decompressSized compressed).outcome =
      (decompressElements codec.options.width codec.compressor codec.options
        compressed).outcome.map Elements.toBytes := by
  rw [decompressElements, Op.check_of_ok (checkWidth_self _), Op.check_of_ok codec.ofOptions_self,
    Op.outcome_bind]
  cases read : (codec.decompressSized compressed).outcome with
  | error reason => rfl
  | ok output =>
      obtain ⟨elements, stores⟩ := Codec.exists_elements_of_decompressSized read
      rw [Fallible.ok_bind, Op.outcome_ofExcept, Elements.ofBytes_eq_ok_iff.mpr stores, stores]
      rfl

theorem decompressElements_eq_ok_iff {compressed : Bytes}
    {elements : List (Word codec.options.width)} :
    (decompressElements codec.options.width codec.compressor codec.options
        compressed).outcome = .ok elements ↔
      (codec.decompressSized compressed).outcome = .ok (Elements.toBytes elements) := by
  rw [decompressElements_outcome, Fallible.map_eq_ok_iff]
  constructor
  · intro read
    exact ⟨elements, read, rfl⟩
  · rintro ⟨others, read, same⟩
    rwa [Elements.toBytes_injective same] at read

theorem analyze_outcome {input compressed : Bytes}
    (written : (codec.compress .sized input).outcome = .ok compressed) :
    (analyze codec.compressor codec.options compressed).outcome =
      .ok ⟨input.length, compressed.length⟩ := by
  have told : codec.decompressedSize compressed = .ok input.length :=
    Framed.decompressedSize_of_written written
  rw [analyze, decompressedSize, Op.check_of_ok codec.ofOptions_self, told]
  rfl

/--
Elements are compressed into what the codec makes of their bytes, which never is too
large for the allocation, and come back; the sizes are those of the series and of the
payload.  Of any payload whatsoever elements are read exactly when the codec reads bytes,
and then these are the bytes of the elements.
-/
theorem elements_survive (codec : Codec) :
    (∀ elements : List (Word codec.options.width),
      (compressElements codec.compressor codec.options elements).outcome =
        (compressInto codec.compressor codec.options .sized
          (List.replicate (codec.maxCompressedSize (Elements.toBytes elements).length).value 0)
          (Elements.toBytes elements)).outcome.map fun answer =>
            answer.destination.take answer.size) ∧
    (∀ elements : List (Word codec.options.width),
      elements.length * codec.options.width.bytes ≤ Framing.greatestLength →
      codec.compressor.LosslessUpTo Size.greatestBuffer →
      codec.options.level = 0 ∨ codec.compressor.TakesAll →
      codec.compressor.BoundedUpTo
        (Framed.packedBound codec.options (elements.length * codec.options.width.bytes)) →
      (∀ framed, (codec.compress .sized (Elements.toBytes elements)).outcome = .ok framed →
        framed.length ≤ Size.greatestBuffer) →
      ∃ framed, (codec.compress .sized (Elements.toBytes elements)).outcome = .ok framed ∧
        (compressElements codec.compressor codec.options elements).outcome = .ok framed ∧
        (decompressElements codec.options.width codec.compressor codec.options
          framed).outcome = .ok elements ∧
        (analyze codec.compressor codec.options framed).outcome =
          .ok ⟨elements.length * codec.options.width.bytes, framed.length⟩) ∧
    ∀ compressed,
      (codec.decompressSized compressed).outcome =
        (decompressElements codec.options.width codec.compressor codec.options
          compressed).outcome.map Elements.toBytes ∧
      ∀ elements : List (Word codec.options.width),
        (decompressElements codec.options.width codec.compressor codec.options
            compressed).outcome = .ok elements ↔
          (codec.decompressSized compressed).outcome = .ok (Elements.toBytes elements) := by
  refine ⟨compressElements_allocates, ?_, fun compressed =>
    ⟨decompressElements_outcome codec compressed, fun _ => decompressElements_eq_ok_iff⟩⟩
  intro elements headed lossless takes bounded framedBuffered
  have size := Elements.toBytes_length elements
  rw [← size] at headed bounded ⊢
  have buffered : (Elements.toBytes elements).length ≤ Size.greatestBuffer :=
    Nat.le_trans headed (by decide)
  have short : (Elements.toBytes elements).length + (Elements.toBytes elements).length ≤
      Size.greatestBuffer := Nat.le_trans (Nat.add_le_add headed headed) (by decide)
  have whole : (Elements.toBytes elements).length % codec.options.width.bytes = 0 := by
    rw [size, Nat.mul_mod_left]
  obtain ⟨framed, written⟩ := Framed.compress_isOk_of_takesAll
    (codec.options.supported_iff.mp codec.supported) whole (fun _ => headed) takes
  have fits := Framed.compress_length_le bounded buffered written (framedBuffered framed written)
  refine ⟨framed, written, ?_, ?_, analyze_outcome written⟩
  · rw [compressElements_outcome, Codec.compressWithin, Op.outcome_bind]
    exact (congrArg (· >>= _) written).trans
      (congrArg Op.outcome (if_neg (Nat.not_lt_of_le fits)))
  · exact decompressElements_eq_ok_iff.mpr
      (Codec.decompressSized_of_written lossless short written)

/-- One element of four bytes, its payload and what is read from it again. -/
theorem elements_survive_one_element :
    (compressElements Zstandard.compressor ⟨false, .four, 1, 0⟩
      ([0x80000000] : List (Word .four))).outcome = .ok ([4, 0, 0, 0] ++ Boundary.elementPayload) ∧
    (decompressElements .four Zstandard.compressor ⟨false, .four, 1, 0⟩
      ([4, 0, 0, 0] ++ Boundary.elementPayload)).outcome = .ok [0x80000000] ∧
    (analyze Zstandard.compressor ⟨false, .four, 1, 0⟩
      ([4, 0, 0, 0] ++ Boundary.elementPayload)).outcome = .ok ⟨4, 18⟩ := by
  obtain ⟨_, survives, _⟩ := elements_survive
    ⟨⟨false, .four, 1, 0⟩, Zstandard.compressor, by decide⟩
  have only := Boundary.compress_one_element .sized
  obtain ⟨framed, written, packs, back, sizes⟩ := survives [0x80000000] (by decide)
    (Zstandard.compressor_losslessUpTo.mono (by decide)) (.inr Zstandard.compressor_takesAll)
    (Zstandard.compressor_boundedUpTo (by decide)) (by
      intro framed written
      cases only.symm.trans written
      decide)
  cases only.symm.trans written
  exact ⟨packs, back, sizes⟩

end OneShot

end SeriesCodec
