import SeriesCodec.Proofs.Framed.Extent

/-!
# One codec in two framings

With a length field in front, or with a destination that gives the length, the
payload is the same and is read the same way.  The length field says where the
series ends in a destination that is larger.
-/

namespace SeriesCodec

namespace Framed

variable {compressor : Compressor} {options : Options}

theorem compress_sized_eq_raw {input : Bytes} (short : input.length ≤ Framing.greatestLength) :
    (compress compressor .sized options input).outcome =
      (compress compressor .raw options input).outcome.map
        (LittleEndian.encode Framing.lengthFieldSize input.length ++ ·) := by
  have raw : Framing.raw.header input.length = .ok [] := rfl
  rw [compress_outcome_of_header (Framing.header_of_short short), compress_outcome_of_header raw]
  cases payloadFor compressor options input <;> rfl

/-- What is read is the contents of the payload, in front of what it does not need. -/
theorem decompressInto_sized {length : Nat} (payload : Bytes) {destination : Bytes}
    (short : length ≤ Framing.greatestLength) (fits : length ≤ destination.length) :
    (decompressInto compressor .sized options destination
      (LittleEndian.encode Framing.lengthFieldSize length ++ payload)).outcome =
      (contents compressor options length payload).map (Written.front destination) := by
  rw [decompressInto_outcome,
    decompress_header_outcome (Framing.header_of_short short) fits payload]

theorem decompressInto_raw (payload exact : Bytes) :
    (decompressInto compressor .raw options exact payload).outcome =
      (contents compressor options exact.length payload).map (Written.front exact) := by
  have parts : Framing.raw.split payload = .ok (none, payload) := rfl
  rw [decompressInto_outcome, decompress_outcome_of_fits parts (Nat.le_refl _)]
  rfl

/--
Compressing with a length field is compressing without one and putting the length in
front.  Decompressing behind a length field is decompressing without one into exactly
as many bytes, with the rest of the destination left behind them.  Failures are the
same, whatever the payload is and whatever the compressor answers.
-/
theorem framings_agree (compressor : Compressor) (options : Options) :
    (∀ input : Bytes, input.length ≤ Framing.greatestLength →
      (compress compressor .sized options input).outcome =
        (compress compressor .raw options input).outcome.map
          (LittleEndian.encode Framing.lengthFieldSize input.length ++ ·)) ∧
    ∀ (payload destination exact : Bytes), exact.length ≤ Framing.greatestLength →
      exact.length ≤ destination.length →
      (decompressInto compressor .sized options destination
        (LittleEndian.encode Framing.lengthFieldSize exact.length ++ payload)).outcome =
        (decompressInto compressor .raw options exact payload).outcome.map fun answer =>
          ⟨answer.size, answer.destination ++ destination.drop exact.length⟩ := by
  refine ⟨fun _ short => compress_sized_eq_raw short, ?_⟩
  intro payload destination exact short fits
  rw [decompressInto_sized payload short fits, decompressInto_raw]
  cases read : contents compressor options exact.length payload with
  | error reason => rfl
  | ok output =>
      have size := contents_length read
      have filled : Written.front exact output = ⟨exact.length, output⟩ := by
        rw [Written.front, Bytes.overwrite, size, List.drop_length, List.append_nil]
      have extended : Written.front destination output =
          ⟨exact.length, output ++ destination.drop exact.length⟩ := by
        rw [Written.front, Bytes.overwrite, size]
      simp only [Except.map, filled, extended]

/-- Two elements, and a stream that ends inside the second one. -/
theorem framings_agree_pair :
    (compress .passthrough .sized ⟨true, .two, 3, 0⟩ [5, 0, 3, 1]).outcome =
      (compress .passthrough .raw ⟨true, .two, 3, 0⟩ [5, 0, 3, 1]).outcome.map
        ([4, 0, 0, 0] ++ ·) ∧
    (decompressInto .passthrough .sized ⟨true, .two, 3, 0⟩ [7, 7, 7, 7, 9]
      ([4, 0, 0, 0] ++ [4, 10, 252, 1])).outcome =
      (decompressInto .passthrough .raw ⟨true, .two, 3, 0⟩ [8, 8, 8, 8]
        [4, 10, 252, 1]).outcome.map (fun answer => ⟨answer.size, answer.destination ++ [9]⟩) ∧
    (decompressInto .passthrough .sized ⟨true, .two, 3, 0⟩ [7, 7, 7, 7, 9]
      ([4, 0, 0, 0] ++ [4, 10, 252])).outcome =
      (decompressInto .passthrough .raw ⟨true, .two, 3, 0⟩ [8, 8, 8, 8]
        [4, 10, 252]).outcome.map (fun answer => ⟨answer.size, answer.destination ++ [9]⟩) := by
  obtain ⟨writing, reading⟩ := framings_agree .passthrough ⟨true, .two, 3, 0⟩
  exact ⟨writing [5, 0, 3, 1] (by decide),
    reading [4, 10, 252, 1] [7, 7, 7, 7, 9] [8, 8, 8, 8] (by decide) (by decide),
    reading [4, 10, 252] [7, 7, 7, 7, 9] [8, 8, 8, 8] (by decide) (by decide)⟩

end Framed

end SeriesCodec
