import SeriesCodec.Framed
import SeriesCodec.Proofs.Delta.InPlace
import SeriesCodec.Proofs.GroupVarint.BackPatch
import SeriesCodec.Proofs.GroupVarint.Cursor

/-!
# Framed payloads by position

The way from a payload of unknown origin into a destination, with every slice
of either checked.  The compressor may answer with anything: what it gives back
is a stream of unknown origin like any other.
-/

namespace SeriesCodec

namespace Framed

namespace Cursor

variable {width : ElementWidth}

def split (framing : Framing) (framed : Bytes) : Walk CodecError (Option Nat × Bytes) :=
  match framing with
  | .raw => pure (none, framed)
  | .sized =>
      if framed.length < Framing.lengthFieldSize then throw (.lengthFieldMissing framed.length)
      else do
        let field ← (Access.slice? framed 0 Framing.lengthFieldSize : Walk CodecError Bytes)
        let payload ←
          (Access.slice? framed Framing.lengthFieldSize framed.length : Walk CodecError Bytes)
        pure (some (LittleEndian.value field), payload)

/-- Copies words over consecutive chunks of a target, as long as there are both. -/
def fill? : (target : Bytes) → (elements : List (Word width)) → Option Bytes
  | target, [] => some target
  | target, element :: elements =>
      if target.length < width.bytes then some target
      else do
        let chunk ← Access.slice? target 0 width.bytes
        let rest ← Access.slice? target width.bytes target.length
        let copied ← Access.copy? chunk (Word.toBytes element)
        let others ← fill? rest elements
        pure (copied ++ others)

def writeInto (destination : Bytes) (elements : List (Word width)) : Walk CodecError Written := do
  let required := elements.length * width.bytes
  if destination.length < required then
    throw (.destinationTooSmall required destination.length)
  else do
    let target ← (Access.slice? destination 0 required : Walk CodecError Bytes)
    let rest ← (Access.slice? destination required destination.length : Walk CodecError Bytes)
    let filled ← (fill? target elements : Walk CodecError Bytes)
    pure ⟨required, filled ++ rest⟩

def packedOf (compressor : Compressor) (options : Options) (count : Nat) (payload : Bytes) :
    Walk CodecError Bytes :=
  if options.usesCompressor then
    Walk.ofExcept (compressor.decompress payload (GroupVarint.maxPackedSize options.width count))
  else pure payload

def unpackInto (options : Options) (packed : Bytes) (count : Nat) (destination : Bytes) :
    Walk CodecError Written := do
  let words ← (GroupVarint.Cursor.read options.width packed count).mapError .packedStream
  let elements ←
    (Delta.InPlace.decode? options.delta words : Walk CodecError (List (Word options.width)))
  writeInto destination elements

def decompressInto (compressor : Compressor) (framing : Framing) (options : Options)
    (destination framed : Bytes) : Walk CodecError Written := do
  Walk.ofExcept options.validate
  let (recorded, payload) ← split framing framed
  let length := recorded.getD destination.length
  Walk.ofExcept (Elements.checkWhole options.width length)
  if destination.length < length then
    throw (.destinationTooSmall length destination.length)
  else do
    let count := length / options.width.bytes
    let packed ← packedOf compressor options count payload
    unpackInto options packed count destination

theorem split_follows (framing : Framing) (framed : Bytes) :
    Walk.Follows (split framing framed) (framing.split framed) := by
  cases framing with
  | raw => exact Walk.follows_pure _
  | sized =>
      rw [split, Framing.split, Framing.splitSized]
      by_cases short : framed.length < Framing.lengthFieldSize
      · rw [if_pos short, Bytes.splitExact?_eq_none_iff.mpr short]
        exact Walk.follows_throw _
      · have enough := Nat.le_of_not_lt short
        rw [if_neg short, Bytes.splitExact?, if_pos enough]
        apply Walk.follows_access (Access.slice?_front enough)
        apply Walk.follows_access (Access.slice?_rest enough)
        exact Walk.follows_pure _

theorem fill?_eq (target : Bytes) {elements : List (Word width)}
    (same : target.length = elements.length * width.bytes) :
    fill? target elements = some (Elements.toBytes elements) := by
  induction elements generalizing target with
  | nil =>
      rw [List.length_nil, Nat.zero_mul] at same
      rw [List.eq_nil_of_length_eq_zero same]
      rfl
  | cons element elements ih =>
      rw [List.length_cons, Nat.succ_mul] at same
      have enough : width.bytes ≤ target.length := by omega
      have chunk : (target.take width.bytes).length = (Word.toBytes element).length := by
        rw [List.length_take_of_le enough, Word.toBytes_length]
      have others := ih (target.drop width.bytes) (by rw [List.length_drop]; omega)
      rw [fill?, if_neg (Nat.not_lt_of_le enough), Access.slice?_front enough,
        Access.slice?_rest enough]
      simp only [Option.bind_eq_bind, Option.bind_some, Access.copy?_of_length_eq chunk, others]
      rfl

theorem writeInto_follows (destination : Bytes) (elements : List (Word width)) :
    Walk.Follows (writeInto destination elements) (Elements.writeInto destination elements) := by
  rw [writeInto, Elements.writeInto, Elements.toBytesWithin]
  by_cases short : destination.length < elements.length * width.bytes
  · rw [if_pos short, if_pos short]
    exact Walk.follows_throw _
  · have enough := Nat.le_of_not_lt short
    rw [if_neg short, if_neg short]
    apply Walk.follows_access (Access.slice?_front enough)
    apply Walk.follows_access (Access.slice?_rest enough)
    apply Walk.follows_access (fill?_eq _ (List.length_take_of_le enough))
    rw [Except.map, Written.front, Bytes.overwrite, Elements.toBytes_length]
    exact Walk.follows_pure _

theorem packedOf_follows (compressor : Compressor) (options : Options) (count : Nat)
    (payload : Bytes) :
    Walk.Follows (packedOf compressor options count payload)
      (Framed.packedOf compressor options count payload).outcome := by
  unfold packedOf Framed.packedOf
  split
  · exact Walk.follows_ofExcept _
  · exact Walk.follows_pure payload

theorem unpackInto_follows (options : Options) (packed : Bytes) (count : Nat)
    (destination : Bytes) :
    Walk.Follows (unpackInto options packed count destination)
      ((Packed.toBytesWithin destination.length options packed count).map
        (Written.front destination)) := by
  have read := (GroupVarint.Cursor.read_follows options.width packed count).mapError
    CodecError.packedStream
  rw [unpackInto, Packed.toBytesWithin]
  cases outcome : (GroupVarint.decode options.width packed count).mapError
      CodecError.packedStream with
  | error reason =>
      rw [outcome] at read
      exact read.bind_error _
  | ok words =>
      rw [outcome] at read
      apply read.bind_ok
      apply Walk.follows_access (Delta.InPlace.decode?_eq options.delta words)
      exact writeInto_follows destination _

/-- No payload, compressor or destination leads outside of a buffer. -/
theorem decompressInto_follows (compressor : Compressor) (framing : Framing) (options : Options)
    (destination framed : Bytes) :
    Walk.Follows (decompressInto compressor framing options destination framed)
      (Framed.decompressInto compressor framing options destination framed).outcome := by
  rw [decompressInto, Framed.decompressInto, decompress]
  simp only [Op.outcome_bind, Op.outcome_ofExcept, bind_assoc]
  apply (Walk.follows_ofExcept _).bind
  intro _ _
  apply (split_follows framing framed).bind
  rintro ⟨recorded, payload⟩ _
  apply (Walk.follows_ofExcept _).bind
  intro _ _
  by_cases short : destination.length < recorded.getD destination.length
  · simp only [short, if_true, Op.outcome_bind, Op.outcome_throw]
    exact Walk.follows_throw _
  · simp only [short, if_false, Op.outcome_bind, Op.outcome_ofExcept, Op.outcome_log,
      Op.outcome_pure, bind_assoc]
    apply (packedOf_follows compressor options _ payload).bind
    intro packed _
    have unpacked := unpackInto_follows options packed
      (recorded.getD destination.length / options.width.bytes) destination
    cases outcome : Packed.toBytesWithin destination.length options packed
        (recorded.getD destination.length / options.width.bytes) with
    | error reason =>
        rw [outcome] at unpacked
        exact unpacked
    | ok output =>
        rw [outcome] at unpacked
        exact unpacked

end Cursor

/--
Whatever the bytes, the count, the options and the compressor are, reading comes
to its outcome without an access outside of a buffer, and so does writing.
-/
theorem accesses_are_inside :
    (∀ (width : ElementWidth) (stream : Bytes) (count : Nat),
      Walk.Follows (GroupVarint.Cursor.read width stream count)
        (GroupVarint.decode width stream count)) ∧
    (∀ (compressor : Compressor) (framing : Framing) (options : Options)
      (destination framed : Bytes),
      Walk.Follows (Cursor.decompressInto compressor framing options destination framed)
        (decompressInto compressor framing options destination framed).outcome) ∧
    ∀ (width : ElementWidth) (buffer : Bytes) (elements : List (Word width)),
      GroupVarint.BackPatch.write? buffer elements = some (GroupVarint.append buffer elements) := by
  refine ⟨?_, ?_, ?_⟩
  · exact GroupVarint.Cursor.read_follows
  · exact Cursor.decompressInto_follows
  · intro width buffer elements
    exact GroupVarint.BackPatch.write?_eq buffer elements

end Framed

end SeriesCodec
