import SeriesCodec.Codec
import SeriesCodec.Proofs.Framed.Extent

/-!
# How much to allocate

The length that a sized payload records is the length of its series, if it has one.
A destination of that length is as good as any larger one, and a smaller one is
refused before the payload is looked at.
-/

namespace SeriesCodec

namespace Framed

variable {compressor : Compressor} {options : Options} {framed : Bytes}

/-! ## Contents -/

theorem packedOf_outcome_ne_destinationTooSmall
    (own : options.level = 0 ∨ compressor.RefusesOnItsOwn) (count : Nat) (payload : Bytes)
    (required capacity : Nat) :
    (packedOf compressor options count payload).outcome ≠
      .error (.destinationTooSmall required capacity) := by
  intro failed
  rw [packedOf_outcome] at failed
  split at failed
  next used =>
    obtain ⟨reason, other⟩ := Options.of_usesCompressor own used _ _ _ failed
    cases other
  next => cases failed

/-- Contents have no destination that could be too small. -/
theorem contents_ne_destinationTooSmall (own : options.level = 0 ∨ compressor.RefusesOnItsOwn)
    (length : Nat) (payload : Bytes) (required capacity : Nat) :
    contents compressor options length payload ≠
      .error (.destinationTooSmall required capacity) := by
  intro failed
  rcases Fallible.bind_eq_error_iff.mp failed with refused | ⟨_, _, failed⟩
  · cases Options.validate_eq_error refused
  rcases Fallible.bind_eq_error_iff.mp failed with refused | ⟨_, _, failed⟩
  · cases Elements.checkWhole_eq_error refused
  rcases Fallible.bind_eq_error_iff.mp failed with refused | ⟨packed, _, failed⟩
  · exact packedOf_outcome_ne_destinationTooSmall own _ _ _ _ refused
  obtain ⟨fault, other⟩ := Packed.toBytes_eq_error failed
  cases other

/-! ## The recorded length -/

theorem decompressedSize_eq_ok_iff {length : Nat} :
    decompressedSize options framed = .ok length ↔
      options.version = 0 ∧ ∃ payload, Framing.sized.split framed = .ok (some length, payload) := by
  rw [decompressedSize, Fallible.bind_eq_ok_iff, Framing.recordedLength, Framing.split]
  constructor
  · rintro ⟨⟨⟩, valid, read⟩
    obtain ⟨⟨_, payload⟩, parts, rfl⟩ := Fallible.map_eq_ok_iff.mp read
    exact ⟨options.validate_eq_ok_iff.mp valid, payload,
      Fallible.map_eq_ok_iff.mpr ⟨_, parts, rfl⟩⟩
  · rintro ⟨supported, payload, split⟩
    obtain ⟨⟨_, _⟩, parts, same⟩ := Fallible.map_eq_ok_iff.mp split
    cases same
    exact ⟨(), options.validate_eq_ok_iff.mpr supported,
      Fallible.map_eq_ok_iff.mpr ⟨_, parts, rfl⟩⟩

/-- Without a length field there is nothing to be told. -/
theorem decompressedSize_of_headless (supported : options.version = 0)
    (short : framed.length < Framing.lengthFieldSize) :
    decompressedSize options framed = .error (.lengthFieldMissing framed.length) := by
  rw [decompressedSize, options.validate_eq_ok_iff.mpr supported, Fallible.ok_bind,
    Framing.recordedLength, Framing.splitSized, Bytes.splitExact?_eq_none_iff.mpr short]
  rfl

/-- An answer is the contents of the payload, in the length that is recorded. -/
theorem exists_contents_of_accepted {destination : Bytes} {answer : Written}
    (accepted : (decompressInto compressor .sized options destination framed).outcome =
      .ok answer) :
    decompressedSize options framed = .ok answer.size ∧
      ∃ payload output, Framing.sized.split framed = .ok (some answer.size, payload) ∧
        contents compressor options answer.size payload = .ok output ∧
        answer = Written.front destination output := by
  rw [decompressInto_outcome] at accepted
  obtain ⟨output, found, rfl⟩ := Fallible.map_eq_ok_iff.mp accepted
  obtain ⟨supported, recorded, payload, parts, _, fits, _⟩ := decompress_outcome_eq_ok_iff.mp found
  obtain ⟨header, rfl, _, rfl⟩ := Framing.exists_header_of_split parts
  rw [decompress_outcome_of_fits parts fits] at found
  have size : (Written.front destination output).size = LittleEndian.value header :=
    contents_length found
  rw [size]
  exact ⟨decompressedSize_eq_ok_iff.mpr ⟨supported, payload, parts⟩, payload, output, parts, found,
    rfl⟩

theorem decompressedSize_of_written {input : Bytes}
    (written : (compress compressor .sized options input).outcome = .ok framed) :
    decompressedSize options framed = .ok input.length := by
  obtain ⟨supported, _, header, payload, heads, _, rfl⟩ := compress_outcome_eq_ok_iff.mp written
  rw [decompressedSize, options.validate_eq_ok_iff.mpr supported, Fallible.ok_bind,
    Framing.recordedLength, Framing.splitSized_header heads]
  rfl

/-- Whatever is read from a sized payload, it is of the length that was compressed. -/
theorem size_eq_of_accepted {input destination : Bytes} {answer : Written}
    (written : (compress compressor .sized options input).outcome = .ok framed)
    (accepted : (decompressInto compressor .sized options destination framed).outcome =
      .ok answer) : answer.size = input.length := by
  have told := (exists_contents_of_accepted accepted).1
  rw [decompressedSize_of_written written] at told
  exact (Except.ok.inj told).symm

/-- A shorter destination is refused before the payload is looked at. -/
theorem decompressInto_short {length : Nat} {destination : Bytes}
    (sized : decompressedSize options framed = .ok length)
    (whole : length % options.width.bytes = 0) (short : destination.length < length) :
    (decompressInto compressor .sized options destination framed).outcome =
      .error (.destinationTooSmall length destination.length) := by
  obtain ⟨supported, payload, parts⟩ := decompressedSize_eq_ok_iff.mp sized
  have valid := options.validate_eq_ok_iff.mpr supported
  have checked : Elements.checkWhole options.width length = .ok () :=
    (Elements.checkWhole_eq_ok_iff length).mpr whole
  rw [decompressInto_outcome, decompress]
  simp only [Op.outcome_bind, Op.outcome_ofExcept, valid, parts, Fallible.ok_bind,
    Option.getD_some, checked, if_pos short]
  rfl

/-- Wherever there is room, the contents of one payload are read. -/
theorem exists_contents {length : Nat} (compressor : Compressor)
    (sized : decompressedSize options framed = .ok length) :
    ∃ payload, ∀ capacity, length ≤ capacity →
      (decompress compressor .sized options framed capacity).outcome =
        contents compressor options length payload := by
  obtain ⟨_, payload, parts⟩ := decompressedSize_eq_ok_iff.mp sized
  exact ⟨payload, fun capacity fits => decompress_outcome_of_fits parts fits⟩

/-- A codec reads into bytes of its own what any other destination is answered with. -/
theorem decompressSized_eq_ok_iff (supported : options.Supported) {output : Bytes} :
    (Codec.decompressSized ⟨options, compressor, supported⟩ framed).outcome = .ok output ↔
      ∃ destination answer,
        (Codec.decompressInto ⟨options, compressor, supported⟩ .sized destination
          framed).outcome = .ok answer ∧
        output = answer.destination.take answer.size := by
  rw [Codec.decompressSized, Op.outcome_bind, Op.outcome_ofExcept, Codec.decompressedSize,
    Fallible.bind_eq_ok_iff]
  simp only [Codec.decompressInto]
  constructor
  · rintro ⟨length, _, read⟩
    refine ⟨List.replicate length 0, Written.front (List.replicate length 0) output, ?_,
      (Written.front_take _ _).symm⟩
    rw [decompressInto_outcome, List.length_replicate, read]
    rfl
  · rintro ⟨destination, answer, accepted, rfl⟩
    obtain ⟨sized, payload, output, parts, read, same⟩ := exists_contents_of_accepted accepted
    refine ⟨answer.size, sized, ?_⟩
    rw [decompress_outcome_of_fits parts (Nat.le_refl _), same, Written.front_take, ← same]
    exact read

/--
The recorded length is the one to allocate: whatever is read is that long, every
destination with room for it leads to one and the same outcome, which does not speak of
room, and every smaller one is refused if the length is a whole number of elements.
A byte string of its own is what a codec reads exactly where some destination would do.
-/
theorem decompressedSize_is_enough (compressor : Compressor) (options : Options)
    (framed : Bytes) :
    (∀ destination answer,
      (decompressInto compressor .sized options destination framed).outcome = .ok answer →
        decompressedSize options framed = .ok answer.size) ∧
    (∀ length, decompressedSize options framed = .ok length →
      (∃ outcome : Except CodecError Bytes,
        (∀ destination : Bytes, length ≤ destination.length →
          (decompressInto compressor .sized options destination framed).outcome =
            outcome.map fun output => ⟨length, output ++ destination.drop length⟩) ∧
        (∀ output, outcome = .ok output → output.length = length) ∧
        (options.level = 0 ∨ compressor.RefusesOnItsOwn → ∀ required capacity,
          outcome ≠ .error (.destinationTooSmall required capacity))) ∧
      ∀ destination : Bytes, destination.length < length → length % options.width.bytes = 0 →
        (decompressInto compressor .sized options destination framed).outcome =
          .error (.destinationTooSmall length destination.length)) ∧
    ∀ (supported : options.Supported) (output : Bytes),
      (Codec.decompressSized ⟨options, compressor, supported⟩ framed).outcome = .ok output ↔
        ∃ destination answer,
          (Codec.decompressInto ⟨options, compressor, supported⟩ .sized destination
            framed).outcome = .ok answer ∧
          output = answer.destination.take answer.size := by
  refine ⟨fun _ _ accepted => (exists_contents_of_accepted accepted).1, ?_,
    fun supported _ => decompressSized_eq_ok_iff supported⟩
  intro length sized
  refine ⟨?_, fun _ short whole => decompressInto_short sized whole short⟩
  obtain ⟨payload, same⟩ := exists_contents compressor sized
  refine ⟨contents compressor options length payload, ?_, fun _ => contents_length,
    fun own => contents_ne_destinationTooSmall own length payload⟩
  intro destination fits
  rw [decompressInto_outcome, same _ fits]
  cases read : contents compressor options length payload with
  | error reason => rfl
  | ok output =>
      simp only [Except.map, Written.front, Bytes.overwrite, contents_length read]

/-- Two elements: into four bytes or more, but not into three. -/
theorem decompressedSize_is_enough_pair :
    decompressedSize ⟨true, .two, 3, 0⟩ [4, 0, 0, 0, 4, 10, 252, 1] = .ok 4 ∧
    (∃ outcome : Except CodecError Bytes,
      (∀ destination : Bytes, 4 ≤ destination.length →
        (decompressInto .passthrough .sized ⟨true, .two, 3, 0⟩ destination
          [4, 0, 0, 0, 4, 10, 252, 1]).outcome =
            outcome.map fun output => ⟨4, output ++ destination.drop 4⟩) ∧
      ∀ required capacity, outcome ≠ .error (.destinationTooSmall required capacity)) ∧
    (decompressInto .passthrough .sized ⟨true, .two, 3, 0⟩ [7, 7, 7]
      [4, 0, 0, 0, 4, 10, 252, 1]).outcome = .error (.destinationTooSmall 4 3) ∧
    (Codec.decompressSized ⟨⟨true, .two, 3, 0⟩, .passthrough, by decide⟩
      [4, 0, 0, 0, 4, 10, 252, 1]).outcome = .ok [5, 0, 3, 1] := by
  obtain ⟨told, enough, owned⟩ := decompressedSize_is_enough .passthrough ⟨true, .two, 3, 0⟩
    [4, 0, 0, 0, 4, 10, 252, 1]
  have accepted : (decompressInto .passthrough .sized ⟨true, .two, 3, 0⟩ [7, 7, 7, 7, 9]
      [4, 0, 0, 0, 4, 10, 252, 1]).outcome = .ok ⟨4, [5, 0, 3, 1, 9]⟩ := rfl
  have sized := told _ _ accepted
  obtain ⟨⟨outcome, everywhere, _, roomy⟩, short⟩ := enough _ sized
  exact ⟨sized, ⟨outcome, everywhere, roomy (.inr Compressor.passthrough_refusesOnItsOwn)⟩,
    short [7, 7, 7] (by decide) rfl, (owned (by decide) [5, 0, 3, 1]).mpr ⟨_, _, accepted, rfl⟩⟩

end Framed

end SeriesCodec
