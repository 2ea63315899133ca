import SeriesCodec.Proofs.Boundary.Reply
import SeriesCodec.Proofs.Framed.Bound
import SeriesCodec.Proofs.Framed.RoundTrip
import SeriesCodec.Proofs.Zstandard.Stored

/-!
# Destinations of the declared capacity

A destination of the declared greatest size is large enough in either framing.
Then it makes no difference that there is a destination at all: what is written
is what would have been written into a byte string of its own.  Across the
boundary this holds for every bound that can be told from failure.
-/

namespace SeriesCodec

namespace Boundary

variable {compressor : Compressor} {codec : Codec} {options : Option RawOptions}
variable {source destination : Buffer} {framing : Framing} {input framed output : Bytes}

/-- In a destination of the declared size compressing fails only as it does without one. -/
theorem compressInto_outcome_of_capacity
    (bounded : codec.compressor.BoundedUpTo (Framed.packedBound codec.options input.length))
    (buffered : input.length ≤ Size.greatestBuffer)
    (framedBuffered : ∀ framed, (codec.compress framing input).outcome = .ok framed →
      framed.length ≤ Size.greatestBuffer)
    (capacity : (codec.maxCompressedSize input.length).value ≤ output.length) :
    (codec.compressInto framing output input).outcome =
      (codec.compress framing input).outcome.map fun framed =>
        ⟨framed.length, framed ++ output.drop framed.length⟩ := by
  cases written : (codec.compress framing input).outcome with
  | error reason =>
      rw [Codec.compressInto_outcome, written]
      rfl
  | ok framed =>
      have fits := Framed.compress_length_le bounded buffered written (framedBuffered framed written)
      exact Codec.compressInto_outcome_of_fits written (Nat.le_trans fits capacity)

/-- A length that a buffer can have fits the length field. -/
theorem headed_of_contents {fault : ConfigFault} (held : source.contents fault = .ok input) :
    input.length ≤ Framing.greatestLength :=
  Nat.le_sub_one_of_lt (Buffer.contents_length_lt held)

/-- A returned bound is the one that the codec declares for the contents of the source. -/
theorem declared_of_maxCompressedSize (made : codecOf compressor options = .ok codec)
    (held : source.contents .sourceMissing = .ok input)
    (proper : (maxCompressedSize compressor options (UInt32.ofNat input.length)).value ≠ errorSize) :
    (codec.maxCompressedSize input.length).value =
      (maxCompressedSize compressor options (UInt32.ofNat input.length)).value.toNat := by
  obtain ⟨_, again, declared⟩ := (maxCompressedSize_value_eq_iff proper).mp rfl
  rw [made] at again
  cases again
  rwa [UInt32.toNat_ofNat_of_lt' (Buffer.contents_length_lt held)] at declared

/-- What is shorter than the reserved size and fits is replied with its size. -/
theorem compress_value_of_fits (made : codecOf compressor options = .ok codec)
    (held : source.contents .sourceMissing = .ok input)
    (room : destination.contents .destinationMissing = .ok output)
    (written : (codec.compress framing input).outcome = .ok framed)
    (fits : framed.length ≤ output.length) (told : framed.length < errorSize.toNat) :
    UInt32.ofNat framed.length ≠ errorSize ∧
      (compress framing compressor options source destination).value =
        ⟨UInt32.ofNat framed.length, some (framed ++ output.drop framed.length)⟩ := by
  have proper := ofNat_ne_errorSize told
  refine ⟨proper, (transfer_value_eq_iff proper).mpr ⟨codec, made, input, held, output, room, ?_⟩⟩
  rw [toNat_ofNat_of_lt told]
  exact Codec.compressInto_outcome_of_fits written fits

/--
The declared size bounds what is written in either framing.  A destination of
that size is never too small and receives what would be written without it.
Across the boundary a series is compressed into the size that was asked for,
unless that size was the reserved one.
-/
theorem maxCompressedSize_suffices
    (bounded : codec.compressor.BoundedUpTo (Framed.packedBound codec.options input.length))
    (own : codec.compressor.FailsOnItsOwn) (buffered : input.length ≤ Size.greatestBuffer)
    (framedBuffered : ∀ framing framed, (codec.compress framing input).outcome = .ok framed →
      framed.length ≤ Size.greatestBuffer) :
    (∀ framing framed, (codec.compress framing input).outcome = .ok framed →
      framed.length ≤ (codec.maxCompressedSize input.length).value) ∧
    (∀ framing output, (codec.maxCompressedSize input.length).value ≤ output.length →
      (∀ required capacity, (codec.compressInto framing output input).outcome ≠
        .error (.destinationTooSmall required capacity)) ∧
      (codec.compressInto framing output input).outcome =
        (codec.compress framing input).outcome.map fun framed =>
          ⟨framed.length, framed ++ output.drop framed.length⟩) ∧
    ∀ options source destination output bound,
      codecOf codec.compressor options = .ok codec →
      source.contents .sourceMissing = .ok input →
      input.length % codec.options.width.bytes = 0 →
      codec.options.level = 0 ∨ codec.compressor.TakesAll →
      (maxCompressedSize codec.compressor options (UInt32.ofNat input.length)).value = bound →
      bound ≠ errorSize →
      destination.contents .destinationMissing = .ok output →
      bound.toNat ≤ output.length →
      ∀ framing, ∃ framed, (codec.compress framing input).outcome = .ok framed ∧
        framed.length ≤ bound.toNat ∧ UInt32.ofNat framed.length ≠ errorSize ∧
        (compress framing codec.compressor options source destination).value =
          ⟨UInt32.ofNat framed.length, some (framed ++ output.drop framed.length)⟩ := by
  have within : ∀ framing framed, (codec.compress framing input).outcome = .ok framed →
      framed.length ≤ (codec.maxCompressedSize input.length).value := by
    intro framing framed written
    exact Framed.compress_length_le bounded buffered written (framedBuffered framing framed written)
  refine ⟨within, ?_, ?_⟩
  · intro framing output capacity
    have same := compressInto_outcome_of_capacity bounded buffered (framedBuffered framing) capacity
    refine ⟨?_, same⟩
    intro required available failed
    rw [same] at failed
    cases written : (codec.compress framing input).outcome with
    | error reason =>
        rw [written] at failed
        cases failed
        exact Framed.compress_outcome_ne_destinationTooSmall own _ _ written
    | ok framed =>
        rw [written] at failed
        cases failed
  · rintro options source destination output bound made held whole takes rfl proper room capacity
      framing
    have declared := declared_of_maxCompressedSize made held proper
    have supported := (Options.supported_iff codec.options).mp codec.supported
    have headed : framing = .sized → input.length ≤ Framing.greatestLength :=
      fun _ => headed_of_contents held
    obtain ⟨framed, written⟩ := Framed.compress_isOk_of_takesAll supported whole headed takes
    have short := within framing framed written
    rw [declared] at short
    obtain ⟨told, replied⟩ := compress_value_of_fits made held room written
      (Nat.le_trans short capacity) (Nat.lt_of_le_of_lt short (toNat_lt_of_ne_errorSize proper))
    exact ⟨framed, written, short, told, replied⟩

/-- A frame that stores the packed stream of one element of four bytes. -/
def elementPayload : Bytes := [0x28, 0xb5, 0x2f, 0xfd, 0x20, 5, 0x29, 0, 0, 3, 0, 0, 0, 128]

theorem compress_one_element (framing : Framing) :
    (Framed.compress Zstandard.compressor framing ⟨false, .four, 1, 0⟩ [0, 0, 0, 128]).outcome =
      (framing.header 4).map (· ++ elementPayload) := by
  have block : Zstandard.Block.write [3, 0, 0, 0, 128] = [0x29, 0, 0, 3, 0, 0, 0, 128] := by
    rw [Zstandard.Block.write, if_pos (by decide)]
    rfl
  have pays : (Framed.payloadOf Zstandard.compressor ⟨false, .four, 1, 0⟩ 4
      [3, 0, 0, 0, 128]).outcome = .ok elementPayload := by
    rw [Framed.payloadOf_outcome]
    exact congrArg (fun behind => Except.ok (Zstandard.Header.write 5 ++ behind)) block
  have headed : framing = .sized → 4 ≤ Framing.greatestLength := fun _ => by decide
  obtain ⟨header, heads⟩ := Framing.header_isOk headed
  rw [heads]
  exact Framed.compress_outcome_eq_ok_iff.mpr ⟨rfl, rfl, header, _, heads, pays, rfl⟩

/-- In 72 bytes there is room for one element and the length field in front of it. -/
theorem maxCompressedSize_suffices_one_element :
    (maxCompressedSize Zstandard.compressor (some ⟨false, 4, 1, 0⟩) 4).value = 72 ∧
    (compress .sized Zstandard.compressor (some ⟨false, 4, 1, 0⟩)
        (.holding [0, 0, 0, 128] (by decide))
        (.holding (List.replicate 72 170) (by decide))).value =
      ⟨18, some ([4, 0, 0, 0] ++ elementPayload ++ List.replicate 54 170)⟩ := by
  have bound : (maxCompressedSize Zstandard.compressor (some ⟨false, 4, 1, 0⟩) 4).value = 72 := by
    rfl
  have buffered : ∀ framing framed, (Framed.compress Zstandard.compressor framing
      ⟨false, .four, 1, 0⟩ [0, 0, 0, 128]).outcome = .ok framed →
        framed.length ≤ Size.greatestBuffer := by
    intro framing framed written
    rw [compress_one_element] at written
    obtain ⟨header, heads, rfl⟩ := Fallible.map_eq_ok_iff.mp written
    have front := Framed.headerSize_le framing
    rw [← Framing.header_length heads] at front
    rw [List.length_append]
    exact Nat.le_trans (Nat.add_le_add_right front _) (by decide)
  refine ⟨bound, ?_⟩
  obtain ⟨_, _, across⟩ := @maxCompressedSize_suffices
    ⟨⟨false, .four, 1, 0⟩, Zstandard.compressor, by decide⟩ [0, 0, 0, 128]
    (Zstandard.compressor_boundedUpTo (by decide)) Zstandard.compressor_takesAll.failsOnItsOwn
    (by decide) buffered
  obtain ⟨framed, written, _, _, replied⟩ := across (some ⟨false, 4, 1, 0⟩)
    (.holding [0, 0, 0, 128] (by decide)) (.holding (List.replicate 72 170) (by decide))
    (List.replicate 72 170) 72 rfl rfl rfl (.inr Zstandard.compressor_takesAll) bound (by decide)
    rfl (by decide) .sized
  cases (compress_one_element .sized).symm.trans written
  exact replied

end Boundary

end SeriesCodec
