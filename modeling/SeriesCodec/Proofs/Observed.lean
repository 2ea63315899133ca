import SeriesCodec.Trace

/-!
# What is observed of operations

Whoever watches for some kind of event sees, of steps taken one after the other, what
is to be seen of each of them, up to the first that fails.
-/

namespace SeriesCodec

variable {α β γ : Type}

namespace Traced

/-- What is seen of an operation by watching its events. -/
def seen (watch : Event → Option γ) (traced : Traced α) : List γ :=
  traced.events.filterMap watch

variable {watch : Event → Option γ}

theorem seen_bind (first : Traced α) (next : α → Traced β) :
    (first >>= next).seen watch = first.seen watch ++ (next first.value).seen watch :=
  List.filterMap_append

/-- Requests are served one after the other, whatever becomes of those before. -/
theorem mapM_value (serve : α → Traced β) (requests : List α) :
    (requests.mapM serve).value = requests.map fun request => (serve request).value := by
  induction requests with
  | nil => rfl
  | cons request later ih =>
      rw [List.mapM_cons, List.map_cons, ← ih]
      rfl

theorem seen_mapM (serve : α → Traced β) (requests : List α) :
    (requests.mapM serve).seen watch =
      requests.flatMap fun request => (serve request).seen watch := by
  induction requests with
  | nil => rfl
  | cons request later ih =>
      rw [List.mapM_cons, List.flatMap_cons, ← ih, seen_bind, seen_bind]
      exact congrArg _ (List.append_nil _)

end Traced

namespace Op

def seen (watch : Event → Option γ) (operation : Op α) : List γ :=
  operation.run.seen watch

variable {watch : Event → Option γ}

/-- After a failure there is nothing more to be seen. -/
theorem seen_bind (first : Op α) (next : α → Op β) :
    seen watch (first >>= next) =
      seen watch first ++
        match outcome first with
        | .ok value => seen watch (next value)
        | .error _ => [] := by
  have both := congrArg (List.filterMap watch) (events_bind first next)
  rw [List.filterMap_append] at both
  refine both.trans (congrArg _ ?_)
  cases outcome first <;> rfl

/-- Of steps without anything to be seen nothing is seen. -/
theorem seen_bind_of_quiet {first : Op α} {next : α → Op β} (quiet : seen watch first = [])
    (silent : ∀ value, seen watch (next value) = []) : seen watch (first >>= next) = [] := by
  rw [seen_bind, quiet]
  cases outcome first with
  | error reason => rfl
  | ok value => exact silent value

/-- A step that is followed by nothing to be seen is all that is seen. -/
theorem seen_bind_of_silent (first : Op α) {next : α → Op β}
    (silent : ∀ value, seen watch (next value) = []) :
    seen watch (first >>= next) = seen watch first := by
  rw [seen_bind]
  cases outcome first with
  | error reason => exact List.append_nil _
  | ok value => exact (congrArg _ (silent value)).trans (List.append_nil _)

end Op

end SeriesCodec
