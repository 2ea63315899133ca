import SeriesCodec.Log.Notice

/-!
# Traced operations

The codec is pure, but what it does on the way to an answer can be observed:
the notices that it logs and the calls that it makes to its secondary
compressor.  An operation therefore has an outcome and the list of its events.
A failing operation keeps the events up to its failure.
-/

namespace SeriesCodec

inductive CompressorCall where
  | compress (input : Bytes) (level : UInt32)
  | decompress (input : Bytes) (limit : Nat)
  | bound (length : Nat)
  deriving DecidableEq, Repr

inductive Event where
  | notice (logged : Notice)
  | call (made : CompressorCall)
  deriving DecidableEq, Repr

namespace Event

def notice? : Event → Option Notice
  | .notice logged => some logged
  | .call _ => none

def call? : Event → Option CompressorCall
  | .notice _ => none
  | .call made => some made

end Event

/-- A value with the events observed on the way to it, oldest first. -/
structure Traced (α : Type) where
  value : α
  events : List Event

namespace Traced

instance : Monad Traced where
  pure value := ⟨value, []⟩
  bind first next :=
    let second := next first.value
    ⟨second.value, first.events ++ second.events⟩

instance : LawfulMonad Traced := LawfulMonad.mk' Traced
  (fun _ => by simp [Functor.map])
  (fun _ _ => by simp [bind, pure])
  (fun _ _ _ => by simp [bind, List.append_assoc])

def emit (event : Event) : Traced Unit := ⟨(), [event]⟩

def log (notice : Notice) : Traced Unit := emit (.notice notice)

def notices {α : Type} (traced : Traced α) : List Notice :=
  traced.events.filterMap Event.notice?

def calls {α : Type} (traced : Traced α) : List CompressorCall :=
  traced.events.filterMap Event.call?

variable {α β : Type}

@[simp] theorem pure_value (value : α) : (pure value : Traced α).value = value := rfl

@[simp] theorem bind_value (first : Traced α) (next : α → Traced β) :
    (first >>= next).value = (next first.value).value := rfl

@[simp] theorem bind_events (first : Traced α) (next : α → Traced β) :
    (first >>= next).events = first.events ++ (next first.value).events := rfl

end Traced

abbrev Op := ExceptT CodecError Traced

namespace Op

variable {α β : Type}

def ofExcept (outcome : Except CodecError α) : Op α := ExceptT.mk (pure outcome)

def outcome (operation : Op α) : Except CodecError α := operation.run.value

/-- The events of an operation, up to its end or its failure. -/
def events (operation : Op α) : List Event := operation.run.events

def log (notice : Notice) : Op Unit := ExceptT.lift (Traced.log notice)

def call (made : CompressorCall) (outcome : Except CodecError α) : Op α :=
  ExceptT.mk do
    Traced.emit (.call made)
    pure outcome

@[simp] theorem outcome_pure (value : α) : outcome (pure value) = .ok value := rfl

@[simp] theorem outcome_throw (error : CodecError) :
    outcome (throw error : Op α) = .error error := rfl

@[simp] theorem outcome_ofExcept (result : Except CodecError α) :
    outcome (ofExcept result) = result := rfl

@[simp] theorem outcome_log (notice : Notice) : outcome (log notice) = .ok () := rfl

@[simp] theorem outcome_call (made : CompressorCall) (result : Except CodecError α) :
    outcome (call made result) = result := rfl

@[simp] theorem outcome_bind (first : Op α) (next : α → Op β) :
    outcome (first >>= next) = (outcome first >>= fun value => outcome (next value)) := by
  simp only [outcome, ExceptT.run_bind, Traced.bind_value]
  cases first.run.value <;> rfl

/-- After a failure nothing more happens. -/
theorem events_bind (first : Op α) (next : α → Op β) :
    events (first >>= next) =
      events first ++
        match outcome first with
        | .ok value => events (next value)
        | .error _ => [] := by
  simp only [outcome, events, ExceptT.run_bind, Traced.bind_events]
  cases first.run.value <;> rfl

/-- A check that holds only hands on its answer. -/
theorem check_of_ok {result : Except CodecError α} {value : α} (holds : result = .ok value)
    (next : α → Op β) : (ofExcept result >>= next) = next value := by
  rw [holds]
  rfl

/-- A check that does not hold is the end. -/
theorem check_of_error {result : Except CodecError α} {reason : CodecError}
    (fails : result = .error reason) (next : α → Op β) :
    (ofExcept result >>= next) = throw reason := by
  rw [fails]
  rfl

end Op

end SeriesCodec
