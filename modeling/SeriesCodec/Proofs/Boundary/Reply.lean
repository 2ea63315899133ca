import SeriesCodec.Boundary
import SeriesCodec.Proofs.Fallible

/-!
# Replies

A returned size other than the reserved one tells that an operation succeeded
and what its size is.  The reserved size tells that it failed, or that its size
cannot be told from failure.
-/

namespace SeriesCodec

namespace Boundary

theorem toNat_lt_of_ne_errorSize {size : UInt32} (proper : size ≠ errorSize) :
    size.toNat < errorSize.toNat := by
  have below := size.toNat_lt
  have other : size.toNat ≠ errorSize.toNat := fun same => proper (UInt32.toNat_inj.mp same)
  have greatest : errorSize.toNat = 4294967295 := rfl
  omega

/-- A size below the reserved one is returned as it is. -/
theorem toNat_ofNat_of_lt {size : Nat} (told : size < errorSize.toNat) :
    (UInt32.ofNat size).toNat = size :=
  UInt32.toNat_ofNat_of_lt' (Nat.lt_trans told errorSize.toNat_lt)

theorem ofNat_ne_errorSize {size : Nat} (told : size < errorSize.toNat) :
    UInt32.ofNat size ≠ errorSize := by
  intro reserved
  have same := toNat_ofNat_of_lt told
  rw [reserved] at same
  exact Nat.ne_of_gt told same

/-! ## Sizes -/

theorem sizeOf_value_of_lt {size : Nat} (fits : size < errorSize.toNat) :
    (sizeOf (.ok size)).value = UInt32.ofNat size := by
  rw [sizeOf, if_pos fits]
  rfl

theorem sizeOf_value_of_ge {size : Nat} (large : errorSize.toNat ≤ size) :
    (sizeOf (.ok size)).value = errorSize := by
  rw [sizeOf, if_neg (Nat.not_lt_of_le large)]
  rfl

/-- A size that is not reserved is returned for the outcome of that size, and for no other. -/
theorem sizeOf_value_eq_iff {outcome : Except CodecError Nat} {size : UInt32}
    (proper : size ≠ errorSize) : (sizeOf outcome).value = size ↔ outcome = .ok size.toNat := by
  have small := toNat_lt_of_ne_errorSize proper
  constructor
  · intro returned
    cases outcome with
    | error reason => exact absurd returned.symm proper
    | ok found =>
        by_cases fits : found < errorSize.toNat
        · rw [sizeOf_value_of_lt fits] at returned
          rw [← returned, toNat_ofNat_of_lt fits]
        · rw [sizeOf_value_of_ge (Nat.le_of_not_lt fits)] at returned
          exact absurd returned.symm proper
  · rintro rfl
    rw [sizeOf_value_of_lt small, UInt32.ofNat_toNat]

/-! ## Codecs and buffers -/

variable {compressor : Compressor} {options : Option RawOptions} {codec : Codec}

theorem codecOf_compressor (made : codecOf compressor options = .ok codec) :
    codec.compressor = compressor := by
  cases options with
  | none => cases made
  | some raw =>
      obtain ⟨checked, _, made⟩ := Fallible.bind_eq_ok_iff.mp made
      rw [Codec.ofOptions] at made
      split at made
      · cases made
        rfl
      · cases made

/-- The contents of a buffer are shorter than a 32-bit length can say. -/
theorem Buffer.contents_length_lt {fault : ConfigFault} {buffer : Buffer} {bytes : Bytes}
    (held : buffer.contents fault = .ok bytes) : bytes.length < UInt32.size := by
  cases buffer with
  | missing length =>
      rw [contents] at held
      split at held
      · cases held
        decide
      · cases held
  | holding _ short =>
      cases held
      exact short

/-! ## Calls that return a size -/

/-- A codec declares a bound for every length. -/
theorem bound_outcome (compressor : Compressor) (options : Option RawOptions)
    (sourceSize : UInt32) :
    (do
      let codec ← Op.ofExcept (codecOf compressor options)
      codec.maxCompressedSize sourceSize.toNat : Op Nat).outcome =
      (codecOf compressor options >>= fun codec =>
        .ok (codec.maxCompressedSize sourceSize.toNat).value) := by
  rw [Op.outcome_bind, Op.outcome_ofExcept]
  rfl

/-- A bound is returned exactly if there is a codec that declares it. -/
theorem maxCompressedSize_value_eq_iff {sourceSize bound : UInt32} (proper : bound ≠ errorSize) :
    (maxCompressedSize compressor options sourceSize).value = bound ↔
      ∃ codec, codecOf compressor options = .ok codec ∧
        (codec.maxCompressedSize sourceSize.toNat).value = bound.toNat := by
  have outcome := bound_outcome compressor options sourceSize
  rw [Op.outcome] at outcome
  rw [maxCompressedSize, Traced.bind_value, outcome, sizeOf_value_eq_iff proper,
    Fallible.bind_eq_ok_iff]
  simp only [Except.ok.injEq]

/-! ## Calls that move bytes -/

variable {operation : Codec → (destination input : Bytes) → Op Written}
variable {source destination : Buffer}

def transferred (operation : Codec → (destination input : Bytes) → Op Written)
    (compressor : Compressor) (options : Option RawOptions) (source destination : Buffer) :
    Except CodecError Written := do
  let codec ← codecOf compressor options
  let input ← source.contents .sourceMissing
  let output ← destination.contents .destinationMissing
  (operation codec output input).outcome

/-- With a codec and a source, what is left of a call is its destination and its operation. -/
theorem transferred_eq {input : Bytes} (made : codecOf compressor options = .ok codec)
    (held : source.contents .sourceMissing = .ok input) :
    transferred operation compressor options source destination =
      (destination.contents .destinationMissing >>= fun output =>
        (operation codec output input).outcome) := by
  rw [transferred, made, held]
  rfl

def replyTo (outcome : Except CodecError Written) : Reply :=
  let size := (sizeOf (outcome.map Written.size)).value
  ⟨size, (if isError size then none else outcome.toOption).map Written.destination⟩

theorem transferred_outcome :
    (do
      let codec ← Op.ofExcept (codecOf compressor options)
      let input ← Op.ofExcept (source.contents .sourceMissing)
      let output ← Op.ofExcept (destination.contents .destinationMissing)
      operation codec output input : Op Written).outcome =
      transferred operation compressor options source destination := by
  simp only [Op.outcome_bind, Op.outcome_ofExcept]
  rfl

theorem transfer_value :
    (transfer operation compressor options source destination).value =
      replyTo (transferred operation compressor options source destination) := by
  have outcome := @transferred_outcome compressor options operation source destination
  rw [Op.outcome] at outcome
  rw [transfer, replyTo]
  simp only [Traced.bind_value, Traced.pure_value, outcome]

/-- An operation fails, or its size is too large to be told: the reply is the same. -/
theorem replyTo_of_large {outcome : Except CodecError Written}
    (large : ∀ answer, outcome = .ok answer → errorSize.toNat ≤ answer.size) :
    replyTo outcome = ⟨errorSize, none⟩ := by
  have reserved : (sizeOf (outcome.map Written.size)).value = errorSize := by
    cases outcome with
    | error reason => rfl
    | ok answer => exact sizeOf_value_of_ge (large answer rfl)
  rw [replyTo, reserved]
  rfl

/-- A size that is not reserved comes with the destination that the operation leaves. -/
theorem replyTo_eq_iff {outcome : Except CodecError Written} {size : UInt32}
    (proper : size ≠ errorSize) {after : Bytes} :
    replyTo outcome = ⟨size, some after⟩ ↔ outcome = .ok ⟨size.toNat, after⟩ := by
  have told : isError size = false := decide_eq_false proper
  constructor
  · intro replied
    rw [replyTo, Reply.mk.injEq] at replied
    obtain ⟨returned, left⟩ := replied
    rw [returned, told] at left
    have counted := (sizeOf_value_eq_iff proper).mp returned
    obtain ⟨⟨found, holding⟩, rfl, rfl⟩ := Fallible.map_eq_ok_iff.mp counted
    cases left
    rfl
  · rintro rfl
    have returned : (sizeOf (.ok size.toNat)).value = size := (sizeOf_value_eq_iff proper).mpr rfl
    rw [replyTo, Except.map, returned, told]
    rfl

/-- Without the reserved size there is an answer in the destination. -/
theorem exists_replyTo_eq {outcome : Except CodecError Written}
    (proper : (replyTo outcome).size ≠ errorSize) :
    ∃ after, outcome = .ok ⟨(replyTo outcome).size.toNat, after⟩ := by
  have counted := (sizeOf_value_eq_iff proper).mp (Eq.refl (sizeOf (outcome.map Written.size)).value)
  obtain ⟨⟨found, after⟩, rfl, same⟩ := Fallible.map_eq_ok_iff.mp counted
  exact ⟨after, by rw [← same]⟩

/-- What a call has done that does not return the reserved size. -/
theorem transfer_value_eq_iff {size : UInt32} (proper : size ≠ errorSize) {after : Bytes} :
    (transfer operation compressor options source destination).value = ⟨size, some after⟩ ↔
      ∃ codec, codecOf compressor options = .ok codec ∧
        ∃ input, source.contents .sourceMissing = .ok input ∧
          ∃ output, destination.contents .destinationMissing = .ok output ∧
            (operation codec output input).outcome = .ok ⟨size.toNat, after⟩ := by
  rw [transfer_value, replyTo_eq_iff proper]
  simp only [transferred, Fallible.bind_eq_ok_iff]

/-- Without the reserved size a call has left an answer of the returned size. -/
theorem exists_transfer_value_eq
    (proper : (transfer operation compressor options source destination).value.size ≠ errorSize) :
    ∃ after, (transfer operation compressor options source destination).value =
      ⟨(transfer operation compressor options source destination).value.size, some after⟩ := by
  rw [transfer_value] at proper ⊢
  obtain ⟨after, found⟩ := exists_replyTo_eq proper
  exact ⟨after, (replyTo_eq_iff proper).mpr found⟩

end Boundary

end SeriesCodec
