import Mathlib.Data.List.Forall2
import SeriesCodec.Proofs.Boundary.Reply
import SeriesCodec.Proofs.Framed.Precedence
import SeriesCodec.Proofs.Observed

/-!
# What calls across the boundary come to

A call does what a codec does on the bytes of its buffers, unless something about the
call itself speaks against it: its options, its source or its destination, in this order.
Whatever fails is told in one error record and nowhere else in the log.
-/

namespace SeriesCodec

namespace Options

def toRaw (options : Options) : RawOptions :=
  ⟨options.delta, options.width.toUInt32, options.level, options.version⟩

theorem unvalidated_toRaw (options : Options) : unvalidated options.toRaw = .ok options := by
  rw [unvalidated, widthOf, toRaw, ElementWidth.ofUInt32?_toUInt32]
  rfl

end Options

namespace Boundary

/-! ## Calls -/

inductive Task where
  | bound (sourceSize : UInt32)
  | recordedLength (source : Buffer)
  | compress (framing : Framing) (source destination : Buffer)
  | decompress (framing : Framing) (source destination : Buffer)

structure Call where
  options : Option RawOptions
  task : Task

def perform (compressor : Compressor) (call : Call) : Traced Reply :=
  match call.task with
  | .bound sourceSize => do
      let size ← maxCompressedSize compressor call.options sourceSize
      pure ⟨size, none⟩
  | .recordedLength source => do
      let size ← decompressedSize compressor call.options source
      pure ⟨size, none⟩
  | .compress framing source destination =>
      compress framing compressor call.options source destination
  | .decompress framing source destination =>
      decompress framing compressor call.options source destination

def session (compressor : Compressor) (calls : List Call) : Traced (List Reply) :=
  calls.mapM (perform compressor)

/-! ## What is asked of a call -/

/-- What speaks against options: they are missing, of no width, or of another version. -/
def refusalOf (options : Option RawOptions) : Option CodecError :=
  match options with
  | none => some (.invalidConfig .optionsMissing)
  | some raw =>
      if raw.size ∈ [1, 2, 4, 8] then
        if raw.version = 0 then none else some (.unsupportedVersion raw.version)
      else some (.unsupportedWidth raw.size)

structure AsksFor (compressor : Compressor) (options : Option RawOptions) (codec : Codec) :
    Prop where
  given : options = some codec.options.toRaw
  own : codec.compressor = compressor

namespace Buffer

/-- What speaks against a buffer: memory is missing for its length. -/
def refusal? (fault : ConfigFault) : Buffer → Option CodecError
  | missing length => if length = 0 then none else some (.invalidConfig fault)
  | holding _ _ => none

def bytes : Buffer → Bytes
  | missing _ => []
  | holding bytes _ => bytes

end Buffer

/-- What a codec comes to: a size, and the destination if there is one. -/
structure Done where
  size : Nat
  destination : Option Bytes

def Done.ofWritten (answer : Written) : Done := ⟨answer.size, some answer.destination⟩

namespace Task

/-- What speaks against the buffers of a task, the source first. -/
def refusal? : Task → Option CodecError
  | bound _ => none
  | recordedLength source => source.refusal? .sourceMissing
  | compress _ source destination =>
      (source.refusal? .sourceMissing).or (destination.refusal? .destinationMissing)
  | decompress _ source destination =>
      (source.refusal? .sourceMissing).or (destination.refusal? .destinationMissing)

def outcome (codec : Codec) : Task → Except CodecError Done
  | bound sourceSize => .ok ⟨(codec.maxCompressedSize sourceSize.toNat).value, none⟩
  | recordedLength source => (codec.decompressedSize source.bytes).map (⟨·, none⟩)
  | compress framing source destination =>
      (codec.compressInto framing destination.bytes source.bytes).outcome.map Done.ofWritten
  | decompress framing source destination =>
      (codec.decompressInto framing destination.bytes source.bytes).outcome.map Done.ofWritten

end Task

/-- What a call comes to: the first failure on its way, or what the codec has done. -/
inductive ComesTo (compressor : Compressor) (call : Call) : Except Notice Done → Prop where
  | optionsRefused {reason : CodecError} (refused : refusalOf call.options = some reason) :
      ComesTo compressor call (.error (.failed reason))
  | bufferRefused {codec : Codec} {reason : CodecError}
      (asked : AsksFor compressor call.options codec)
      (refused : call.task.refusal? = some reason) :
      ComesTo compressor call (.error (.failed reason))
  | failed {codec : Codec} {reason : CodecError}
      (asked : AsksFor compressor call.options codec) (held : call.task.refusal? = none)
      (failure : call.task.outcome codec = .error reason) :
      ComesTo compressor call (.error (.failed reason))
  | tooLarge {codec : Codec} {done : Done}
      (asked : AsksFor compressor call.options codec) (held : call.task.refusal? = none)
      (success : call.task.outcome codec = .ok done) (large : errorSize.toNat ≤ done.size) :
      ComesTo compressor call (.error (.sizeNotExpressible done.size))
  | succeeded {codec : Codec} {done : Done}
      (asked : AsksFor compressor call.options codec) (held : call.task.refusal? = none)
      (success : call.task.outcome codec = .ok done) (told : done.size < errorSize.toNat) :
      ComesTo compressor call (.ok done)

def Reply.of : Except Notice Done → Reply
  | .ok done => ⟨UInt32.ofNat done.size, done.destination⟩
  | .error _ => ⟨errorSize, none⟩

def complaint? : Except Notice Done → Option Notice
  | .ok _ => none
  | .error notice => some notice

/--
The words for a failure of the options, of a buffer, or of what the codec does.  They are
spelled out, so that a record is not only said to repeat what the error says of itself.
-/
def failureText : CodecError → String
  | .invalidConfig .optionsMissing => "Invalid configuration: options pointer is null"
  | .unsupportedWidth size =>
      "Unsupported element width: " ++ toString size.toNat ++ " (expected 1, 2, 4 or 8)"
  | .unsupportedVersion version => "Unsupported format version: " ++ toString version.toNat
  | .invalidConfig .sourceMissing => "Invalid configuration: source pointer is null"
  | .invalidConfig .destinationMissing => "Invalid configuration: destination pointer is null"
  | .partialElement width length =>
      "Buffer length mismatch: expected a multiple of " ++ toString width ++ ", got " ++
        toString length
  | .lengthFieldOverflow length =>
      "Input of " ++ toString length ++ " bytes is too large for the sized length field"
  | .lengthFieldMissing available =>
      "Sized payload of " ++ toString available ++ " bytes is too short to hold the length field"
  | .packedStream (.truncated offset needed available) =>
      "Group varint stream truncated: needed " ++ toString needed ++ " bytes at offset " ++
        toString offset ++ ", " ++ toString available ++ " available"
  | .packedStream (.overlong key length width) =>
      "Control byte " ++ Text.byteLiteral key ++ " encodes a " ++ toString length ++
        "-byte value, element width is " ++ toString width
  | .packedStream (.trailing count) =>
      "Group varint stream has " ++ toString count ++ " unconsumed trailing bytes"
  | .destinationTooSmall required capacity =>
      "Destination too small: " ++ toString required ++ " bytes required, capacity is " ++
        toString capacity
  | .secondaryCompressor reason => "Secondary compressor failed: " ++ reason
  -- Neither a document nor elements of a known width cross the boundary.
  | .invalidConfig fault => "Invalid configuration: " ++ fault.message

/-- The error record in which a failure is told; what else is logged has its own record. -/
def failureRecord : Notice → Log.Record
  | .failed reason => ⟨.error, "vbz::ffi", "vbz: " ++ failureText reason⟩
  | .sizeNotExpressible size =>
      ⟨.error, "vbz::ffi", "vbz: result size " ++ toString size ++ " does not fit vbz_size_t"⟩
  | notice => notice.record

/-! ## Codecs and contents -/

variable {compressor : Compressor} {options : Option RawOptions} {codec : Codec}

theorem size_mem_iff {size : UInt32} :
    size ∈ [1, 2, 4, 8] ↔ ∃ width : ElementWidth, size = width.toUInt32 := by
  constructor
  · intro known
    simp only [List.mem_cons, List.not_mem_nil, or_false] at known
    rcases known with rfl | rfl | rfl | rfl
    · exact ⟨.one, rfl⟩
    · exact ⟨.two, rfl⟩
    · exact ⟨.four, rfl⟩
    · exact ⟨.eight, rfl⟩
  · rintro ⟨width, rfl⟩
    cases width <;> decide

theorem codecOf_of_asksFor (asked : AsksFor compressor options codec) :
    codecOf compressor options = .ok codec := by
  obtain ⟨rfl, rfl⟩ := asked
  have checked : Options.ofRaw codec.options.toRaw = .ok codec.options := by
    rw [Options.ofRaw, Options.unvalidated_toRaw, Fallible.ok_bind,
      codec.options.validate_eq_ok_iff.mpr (codec.options.supported_iff.mp codec.supported)]
    rfl
  rw [codecOf, checked, Fallible.ok_bind, Codec.ofOptions_self]

theorem codecOf_of_refused {reason : CodecError} (refused : refusalOf options = some reason) :
    codecOf compressor options = .error reason := by
  cases options with
  | none =>
      cases refused
      rfl
  | some raw =>
      rw [refusalOf] at refused
      split at refused
      next known =>
        obtain ⟨delta, _, level, version⟩ := raw
        obtain ⟨width, rfl⟩ := size_mem_iff.mp known
        split at refused
        next => cases refused
        next unsupported =>
          cases refused
          have unchecked := Options.unvalidated_toRaw ⟨delta, width, level, version⟩
          have invalid : Options.validate ⟨delta, width, level, version⟩ =
              .error (.unsupportedVersion version) := Options.validate_of_unsupported unsupported
          rw [Options.toRaw] at unchecked
          rw [codecOf, Options.ofRaw, unchecked, Fallible.ok_bind, invalid]
          rfl
      next unknown =>
        cases refused
        have none : ElementWidth.ofUInt32? raw.size = none := by
          rw [Option.eq_none_iff_forall_ne_some]
          intro width found
          exact unknown (size_mem_iff.mpr ⟨width, ElementWidth.ofUInt32?_eq_some_iff.mp found⟩)
        rw [codecOf, Options.ofRaw, Options.unvalidated, Options.widthOf, none]
        rfl

/-- Options that nothing speaks against ask for a codec. -/
theorem exists_asksFor (compressor : Compressor) (accepted : refusalOf options = none) :
    ∃ codec, AsksFor compressor options codec := by
  cases options with
  | none => cases accepted
  | some raw =>
      rw [refusalOf] at accepted
      split at accepted
      next known =>
        obtain ⟨width, size⟩ := size_mem_iff.mp known
        split at accepted
        next supported =>
          refine ⟨⟨⟨raw.delta, width, raw.level, raw.version⟩, compressor,
            (Options.supported_iff _).mpr supported⟩, ?_, rfl⟩
          rw [Options.toRaw, ← size]
        next => cases accepted
      next => cases accepted

theorem Buffer.contents_of_refused {fault : ConfigFault} {buffer : Buffer} {reason : CodecError}
    (refused : buffer.refusal? fault = some reason) : buffer.contents fault = .error reason := by
  cases buffer with
  | missing length =>
      rw [refusal?] at refused
      split at refused
      next => cases refused
      next lacking =>
        cases refused
        exact if_neg lacking
  | holding bytes short => cases refused

theorem Buffer.contents_of_held {fault : ConfigFault} {buffer : Buffer}
    (held : buffer.refusal? fault = none) : buffer.contents fault = .ok buffer.bytes := by
  cases buffer with
  | missing length =>
      rw [refusal?] at held
      split at held
      next empty => exact if_pos empty
      next => cases held
  | holding bytes short => rfl

/-! ## Outcomes -/

/-- A result is told in a size, unless that is reserved or too large. -/
def settle : Except CodecError Done → Except Notice Done
  | .error reason => .error (.failed reason)
  | .ok done =>
      if done.size < errorSize.toNat then .ok done else .error (.sizeNotExpressible done.size)

namespace Task

def run (codec : Codec) : Task → Except CodecError Done
  | bound sourceSize => .ok ⟨(codec.maxCompressedSize sourceSize.toNat).value, none⟩
  | recordedLength source => do
      let input ← source.contents .sourceMissing
      (codec.decompressedSize input).map (⟨·, none⟩)
  | compress framing source destination => do
      let input ← source.contents .sourceMissing
      let output ← destination.contents .destinationMissing
      (codec.compressInto framing output input).outcome.map Done.ofWritten
  | decompress framing source destination => do
      let input ← source.contents .sourceMissing
      let output ← destination.contents .destinationMissing
      (codec.decompressInto framing output input).outcome.map Done.ofWritten

/-- Two buffers have contents unless something speaks against one of them. -/
theorem contents_bind {α : Type} {source destination : Buffer}
    (next : Bytes → Bytes → Except CodecError α) :
    (do
      let input ← source.contents .sourceMissing
      let output ← destination.contents .destinationMissing
      next input output) =
      match (source.refusal? .sourceMissing).or (destination.refusal? .destinationMissing) with
      | some reason => .error reason
      | none => next source.bytes destination.bytes := by
  cases first : source.refusal? .sourceMissing with
  | some reason => rw [Buffer.contents_of_refused first]; rfl
  | none =>
      rw [Buffer.contents_of_held first]
      cases second : destination.refusal? .destinationMissing with
      | some reason => rw [Buffer.contents_of_refused second]; rfl
      | none => rw [Buffer.contents_of_held second]; rfl

theorem run_eq (codec : Codec) (task : Task) :
    task.run codec =
      match task.refusal? with
      | some reason => .error reason
      | none => task.outcome codec := by
  cases task with
  | bound sourceSize => rfl
  | recordedLength source =>
      rw [run, refusal?]
      cases first : source.refusal? .sourceMissing with
      | some reason => rw [Buffer.contents_of_refused first]; rfl
      | none => rw [Buffer.contents_of_held first]; rfl
  | compress framing source destination => exact contents_bind _
  | decompress framing source destination => exact contents_bind _

end Task

/-- What becomes of a call before it is told. -/
def Call.outcome (compressor : Compressor) (call : Call) : Except CodecError Done := do
  let codec ← codecOf compressor call.options
  call.task.run codec

/-- A call comes to one thing. -/
theorem comesTo_iff {call : Call} {result : Except Notice Done} :
    ComesTo compressor call result ↔ result = settle (call.outcome compressor) := by
  constructor
  · intro comes
    cases comes with
    | optionsRefused refused =>
        rw [Call.outcome, codecOf_of_refused refused]
        rfl
    | bufferRefused asked refused =>
        rw [Call.outcome, codecOf_of_asksFor asked, Fallible.ok_bind, Task.run_eq, refused]
        rfl
    | failed asked held failure =>
        rw [Call.outcome, codecOf_of_asksFor asked, Fallible.ok_bind, Task.run_eq, held]
        exact (congrArg settle failure).symm
    | tooLarge asked held success large =>
        rw [Call.outcome, codecOf_of_asksFor asked, Fallible.ok_bind, Task.run_eq, held]
        exact ((congrArg settle success).trans (if_neg (Nat.not_lt_of_le large))).symm
    | succeeded asked held success told =>
        rw [Call.outcome, codecOf_of_asksFor asked, Fallible.ok_bind, Task.run_eq, held]
        exact ((congrArg settle success).trans (if_pos told)).symm
  · rintro rfl
    cases refusal : refusalOf call.options with
    | some reason =>
        rw [Call.outcome, codecOf_of_refused refusal]
        exact .optionsRefused refusal
    | none =>
        obtain ⟨codec, asked⟩ := exists_asksFor compressor refusal
        rw [Call.outcome, codecOf_of_asksFor asked, Fallible.ok_bind, Task.run_eq]
        cases held : call.task.refusal? with
        | some reason => exact .bufferRefused asked held
        | none =>
            cases success : call.task.outcome codec with
            | error reason => exact .failed asked held success
            | ok done =>
                simp only [settle]
                split
                next told => exact .succeeded asked held success told
                next large => exact .tooLarge asked held success (Nat.le_of_not_lt large)

/-! ## Replies and records -/

def complaintOf (event : Event) : Option Notice :=
  event.notice?.filter fun notice => Log.Threshold.admits (some .error) notice.level

theorem failureText_eq (reason : CodecError) : failureText reason = reason.message := by
  cases reason with
  | invalidConfig fault => cases fault <;> rfl
  | packedStream fault => cases fault <;> rfl
  | _ => rfl

theorem failureRecord_eq (notice : Notice) : failureRecord notice = notice.record := by
  cases notice with
  | failed reason => rw [failureRecord, failureText_eq]; rfl
  | _ => rfl

theorem admitted_error_records {α : Type} (traced : Traced α) :
    Log.admitted (some .error) (traced.notices.map Notice.record) =
      (traced.seen complaintOf).map failureRecord := by
  rw [funext failureRecord_eq, Log.admitted, List.filter_map, Traced.notices,
    List.filter_filterMap]
  rfl

/-- Only the outcome of an operation that does not complain is told. -/
theorem seen_run_bind {α β : Type} {operation : Op α}
    (quiet : Op.seen complaintOf operation = [])
    (next : Except CodecError α → Traced β) :
    (operation.run >>= next).seen complaintOf = (next operation.outcome).seen complaintOf :=
  (Traced.seen_bind operation.run next).trans (congrArg (· ++ _) quiet)

/-- The reply to a size that comes without a destination. -/
theorem reply_of_size (sizes : Except CodecError Nat) :
    Reply.of (settle (sizes.map (⟨·, none⟩))) = ⟨(sizeOf sizes).value, none⟩ := by
  cases sizes with
  | error reason => rfl
  | ok size =>
      simp only [settle, Except.map]
      split
      next told => rw [sizeOf_value_of_lt told]; rfl
      next large => rw [sizeOf_value_of_ge (Nat.le_of_not_lt large)]; rfl

theorem sizeOf_seen (outcome : Except CodecError Done) :
    (sizeOf (outcome.map Done.size)).seen complaintOf =
      (complaint? (settle outcome)).toList := by
  cases outcome with
  | error reason => rfl
  | ok done =>
      simp only [settle, Except.map, sizeOf]
      split <;> rfl

theorem replyTo_eq (outcome : Except CodecError Written) :
    replyTo outcome = Reply.of (settle (outcome.map Done.ofWritten)) := by
  cases outcome with
  | error reason => rfl
  | ok answer =>
      simp only [settle, Except.map]
      split
      next told =>
        have proper := ofNat_ne_errorSize told
        have size := toNat_ofNat_of_lt told
        refine (replyTo_eq_iff proper).mpr ?_
        rw [size]
        rfl
      next large =>
        refine replyTo_of_large fun other same => ?_
        cases same
        exact Nat.le_of_not_lt large

/-! ## Operations without complaints -/

theorem payloadOf_quiet (compressor : Compressor) (options : Options) (inputLength : Nat)
    (packed : Bytes) :
    Op.seen complaintOf (Framed.payloadOf compressor options inputLength packed) = [] := by
  rw [Framed.payloadOf, Options.ite_usesCompressor]
  split
  · rfl
  · exact Op.seen_bind_of_quiet rfl fun _ => rfl

theorem packedOf_quiet (compressor : Compressor) (options : Options) (count : Nat)
    (payload : Bytes) :
    Op.seen complaintOf (Framed.packedOf compressor options count payload) = [] := by
  rw [Framed.packedOf, Options.ite_usesCompressor]
  split <;> rfl

theorem compress_quiet (codec : Codec) (framing : Framing) (input : Bytes) :
    Op.seen complaintOf (codec.compress framing input) = [] := by
  rw [Codec.compress, Framed.compress_eq]
  cases Framed.writingRefusal framing codec.options input.length with
  | some reason => rfl
  | none => exact Op.seen_bind_of_quiet (payloadOf_quiet _ _ _ _) fun _ => rfl

theorem compressInto_quiet (codec : Codec) (framing : Framing) (destination input : Bytes) :
    Op.seen complaintOf (codec.compressInto framing destination input) = [] := by
  refine Op.seen_bind_of_quiet (Op.seen_bind_of_quiet (compress_quiet codec framing input) ?_)
    fun _ => rfl
  intro compressed
  dsimp only
  split <;> rfl

theorem decompressInto_quiet (codec : Codec) (framing : Framing) (destination framed : Bytes) :
    Op.seen complaintOf (codec.decompressInto framing destination framed) = [] := by
  refine Op.seen_bind_of_quiet ?_ fun _ => rfl
  rw [Framed.decompress_eq]
  cases Framed.readingRefusal framing codec.options destination.length framed with
  | some reason => rfl
  | none =>
      refine Op.seen_bind_of_quiet (packedOf_quiet _ _ _ _) fun packed => ?_
      exact Op.seen_bind_of_quiet rfl fun _ => rfl

theorem bound_quiet (codec : Codec) (length : Nat) :
    (codec.maxCompressedSize length).seen complaintOf = [] := by
  rw [Codec.maxCompressedSize, Framed.maxCompressedSize]
  split <;> rfl

/-! ## One call -/

variable {operation : Codec → (destination input : Bytes) → Op Written}
variable {source destination : Buffer}

theorem transfer_seen
    (quiet : ∀ codec output input, Op.seen complaintOf (operation codec output input) = []) :
    (transfer operation compressor options source destination).seen complaintOf =
      (complaint? (settle
        ((transferred operation compressor options source destination).map
          Done.ofWritten))).toList := by
  rw [transfer, seen_run_bind, transferred_outcome, Traced.seen_bind, ← sizeOf_seen]
  · cases transferred operation compressor options source destination with
    | error reason => rfl
    | ok answer => exact List.append_nil _
  · refine Op.seen_bind_of_quiet rfl fun codec => ?_
    refine Op.seen_bind_of_quiet rfl fun input => ?_
    exact Op.seen_bind_of_quiet rfl fun output => quiet codec output input

theorem transferred_map :
    (transferred operation compressor options source destination).map Done.ofWritten =
      (do
        let codec ← codecOf compressor options
        let input ← source.contents .sourceMissing
        let output ← destination.contents .destinationMissing
        (operation codec output input).outcome.map Done.ofWritten) := by
  rw [transferred]
  cases codecOf compressor options with
  | error reason => rfl
  | ok codec =>
      cases source.contents .sourceMissing with
      | error reason => rfl
      | ok input => cases destination.contents .destinationMissing <;> rfl

/-- The call for a bound tells what the codec declares. -/
theorem maxCompressedSize_told (compressor : Compressor) (options : Option RawOptions)
    (sourceSize : UInt32) :
    (maxCompressedSize compressor options sourceSize).value =
        (sizeOf (codecOf compressor options >>= fun codec =>
          .ok (codec.maxCompressedSize sourceSize.toNat).value)).value ∧
      (maxCompressedSize compressor options sourceSize).seen complaintOf =
        (sizeOf (codecOf compressor options >>= fun codec =>
          .ok (codec.maxCompressedSize sourceSize.toNat).value)).seen complaintOf := by
  rw [← bound_outcome]
  refine ⟨rfl, ?_⟩
  rw [maxCompressedSize, seen_run_bind]
  exact Op.seen_bind_of_quiet rfl fun codec =>
    (Traced.seen_bind _ _).trans (congrArg (· ++ _) (bound_quiet codec _))

theorem bound_call (options : Option RawOptions) (sourceSize : UInt32) :
    Call.outcome compressor ⟨options, .bound sourceSize⟩ =
      (codecOf compressor options >>= fun codec =>
        .ok (codec.maxCompressedSize sourceSize.toNat).value).map (⟨·, none⟩) := by
  rw [Call.outcome]
  cases codecOf compressor options <;> rfl

theorem recordedLength_call (options : Option RawOptions) (source : Buffer) :
    Call.outcome compressor ⟨options, .recordedLength source⟩ =
      (do
        let codec ← codecOf compressor options
        let input ← source.contents .sourceMissing
        codec.decompressedSize input).map (⟨·, none⟩) := by
  rw [Call.outcome]
  cases codecOf compressor options with
  | error reason => rfl
  | ok codec =>
      rw [Fallible.ok_bind, Task.run]
      cases source.contents .sourceMissing <;> rfl

/-- A call is replied to with what it comes to. -/
theorem perform_value (call : Call) :
    (perform compressor call).value = Reply.of (settle (call.outcome compressor)) := by
  obtain ⟨options, task⟩ := call
  cases task with
  | bound sourceSize =>
      rw [bound_call, reply_of_size, ← (maxCompressedSize_told compressor options sourceSize).1]
      rfl
  | recordedLength source =>
      rw [recordedLength_call, reply_of_size]
      rfl
  | compress framing source destination =>
      exact transfer_value.trans ((replyTo_eq _).trans (congrArg _ (congrArg _ transferred_map)))
  | decompress framing source destination =>
      exact transfer_value.trans ((replyTo_eq _).trans (congrArg _ (congrArg _ transferred_map)))

theorem sizeOf_seen_of_size (sizes : Except CodecError Nat) :
    (sizeOf sizes).seen complaintOf =
      (complaint? (settle (sizes.map (⟨·, none⟩)))).toList := by
  rw [← sizeOf_seen]
  cases sizes <;> rfl

/-- The complaint of a call is the failure that it comes to. -/
theorem perform_seen (call : Call) :
    (perform compressor call).seen complaintOf =
      (complaint? (settle (call.outcome compressor))).toList := by
  obtain ⟨options, task⟩ := call
  cases task with
  | bound sourceSize =>
      rw [bound_call, ← sizeOf_seen_of_size,
        ← (maxCompressedSize_told compressor options sourceSize).2]
      exact (Traced.seen_bind _ _).trans (List.append_nil _)
  | recordedLength source =>
      rw [recordedLength_call, ← sizeOf_seen_of_size]
      exact (Traced.seen_bind _ _).trans (List.append_nil _)
  | compress framing source destination =>
      refine (transfer_seen fun codec => compressInto_quiet codec framing).trans ?_
      rw [transferred_map]
      rfl
  | decompress framing source destination =>
      refine (transfer_seen fun codec => decompressInto_quiet codec framing).trans ?_
      rw [transferred_map]
      rfl

/-! ## Sessions -/

theorem refusalOf_of_asksFor (asked : AsksFor compressor options codec) :
    refusalOf options = none := by
  cases refusal : refusalOf options with
  | none => rfl
  | some reason =>
      have impossible : codecOf compressor options = .error reason := codecOf_of_refused refusal
      rw [codecOf_of_asksFor asked] at impossible
      cases impossible

theorem asksFor_unique {other : Codec} (asked : AsksFor compressor options codec)
    (again : AsksFor compressor options other) : codec = other :=
  Except.ok.inj ((codecOf_of_asksFor asked).symm.trans (codecOf_of_asksFor again))

/-- The reserved size is returned for failures only, whatever they are. -/
theorem size_eq_errorSize_iff (call : Call) :
    (perform compressor call).value.size = errorSize ↔
      refusalOf call.options ≠ none ∨ call.task.refusal? ≠ none ∨
        ∃ codec, AsksFor compressor call.options codec ∧
          ∀ done, call.task.outcome codec = .ok done → errorSize.toNat ≤ done.size := by
  rw [perform_value]
  have comes : ComesTo compressor call (settle (call.outcome compressor)) := comesTo_iff.mpr rfl
  generalize settle (call.outcome compressor) = result at comes ⊢
  cases comes with
  | optionsRefused refused =>
      exact iff_of_true rfl (.inl (refused ▸ Option.some_ne_none _))
  | bufferRefused asked refused =>
      exact iff_of_true rfl (.inr (.inl (refused ▸ Option.some_ne_none _)))
  | failed asked held failure =>
      refine iff_of_true rfl (.inr (.inr ⟨_, asked, fun done success => ?_⟩))
      cases failure.symm.trans success
  | tooLarge asked held success large =>
      refine iff_of_true rfl (.inr (.inr ⟨_, asked, fun done again => ?_⟩))
      cases success.symm.trans again
      exact large
  | succeeded asked held success told =>
      refine iff_of_false (ofNat_ne_errorSize told) ?_
      rintro (refused | refused | ⟨other, again, large⟩)
      · exact refused (refusalOf_of_asksFor asked)
      · exact refused held
      · cases asksFor_unique asked again
        exact Nat.not_le_of_lt told (large _ success)

/-- The reserved size is the reply to failures. -/
theorem size_eq_errorSize_iff_failure (call : Call) :
    (perform compressor call).value.size = errorSize ↔
      ∃ notice, ComesTo compressor call (.error notice) := by
  rw [perform_value]
  constructor
  · intro reserved
    have comes : ComesTo compressor call (settle (call.outcome compressor)) := comesTo_iff.mpr rfl
    generalize settle (call.outcome compressor) = result at comes reserved
    cases comes with
    | succeeded asked held success told => exact absurd reserved (ofNat_ne_errorSize told)
    | optionsRefused refused => exact ⟨_, .optionsRefused refused⟩
    | bufferRefused asked refused => exact ⟨_, .bufferRefused asked refused⟩
    | failed asked held failure => exact ⟨_, .failed asked held failure⟩
    | tooLarge asked held success large => exact ⟨_, .tooLarge asked held success large⟩
  · rintro ⟨notice, comes⟩
    rw [← comesTo_iff.mp comes]
    rfl

/--
Each call comes to one thing: to the first failure among its options, its source, its
destination, the codec and the size, or to what the codec has done.  The reserved size is
returned exactly for failures, which are those of the call itself, of the codec and of
sizes that are too large.  In every session the replies are those to what the calls come
to, and the error records of the log are those of the failures, one for each, in order, in
the words for that failure.
-/
theorem calls_refine_codec (compressor : Compressor) :
    (∀ call, ∃! result, ComesTo compressor call result) ∧
    (∀ call,
      ((perform compressor call).value.size = errorSize ↔
        ∃ notice, ComesTo compressor call (.error notice)) ∧
      ((perform compressor call).value.size = errorSize ↔
        refusalOf call.options ≠ none ∨ call.task.refusal? ≠ none ∨
          ∃ codec, AsksFor compressor call.options codec ∧
            ∀ done, call.task.outcome codec = .ok done → errorSize.toNat ≤ done.size)) ∧
    ∀ calls, ∃ results, List.Forall₂ (ComesTo compressor) calls results ∧
      (session compressor calls).value = results.map Reply.of ∧
      Log.admitted (some .error) ((session compressor calls).notices.map Notice.record) =
        (results.filterMap complaint?).map failureRecord := by
  refine ⟨?_, fun call => ⟨size_eq_errorSize_iff_failure call, size_eq_errorSize_iff call⟩, ?_⟩
  · intro call
    exact ⟨_, comesTo_iff.mpr rfl, fun result comes => comesTo_iff.mp comes⟩
  · intro calls
    refine ⟨calls.map fun call => settle (call.outcome compressor), ?_, ?_, ?_⟩
    · rw [List.forall₂_map_right_iff, List.forall₂_same]
      exact fun call _ => comesTo_iff.mpr rfl
    · rw [session, Traced.mapM_value, List.map_map]
      exact congrArg (calls.map ·) (funext perform_value)
    · rw [admitted_error_records, session, Traced.seen_mapM, List.filterMap_eq_flatMap_toList,
        List.flatMap_map]
      exact congrArg (fun complaints => (calls.flatMap complaints).map failureRecord)
        (funext perform_seen)

/-- No memory for nothing is as good as none needed; no memory for something is not. -/
example :
    let answered := session .passthrough
      [⟨some ⟨true, 2, 0, 0⟩, .compress .raw (.missing 0) (.missing 0)⟩,
        ⟨none, .compress .raw (.missing 1) (.missing 1)⟩,
        ⟨some ⟨true, 2, 0, 0⟩, .compress .raw (.missing 1) (.missing 1)⟩]
    answered.value = [⟨0, some []⟩, ⟨errorSize, none⟩, ⟨errorSize, none⟩] ∧
      Log.admitted (some .error) (answered.notices.map Notice.record) =
        [⟨.error, "vbz::ffi", "vbz: Invalid configuration: options pointer is null"⟩,
          ⟨.error, "vbz::ffi", "vbz: Invalid configuration: source pointer is null"⟩] :=
  ⟨rfl, rfl⟩

end Boundary

end SeriesCodec
