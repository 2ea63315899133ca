/-!
# Log records

A record has a severity, a target that names its origin, and a message.  A
threshold lets through the records that are severe enough.
-/

namespace SeriesCodec

namespace Log

inductive Level where
  | error
  | warn
  | info
  | debug
  | trace
  deriving DecidableEq, Repr

namespace Level

def rank : Level → Nat
  | error => 1
  | warn => 2
  | info => 3
  | debug => 4
  | trace => 5

def label : Level → String
  | error => "ERROR"
  | warn => "WARN"
  | info => "INFO"
  | debug => "DEBUG"
  | trace => "TRACE"

end Level

structure Record where
  level : Level
  target : String
  message : String
  deriving DecidableEq, Repr

/-- The least severity that is logged; `none` switches the log off. -/
abbrev Threshold := Option Level

namespace Threshold

def admits (threshold : Threshold) (level : Level) : Bool :=
  match threshold with
  | none => false
  | some least => level.rank ≤ least.rank

end Threshold

namespace Record

def line (record : Record) : String :=
  "[" ++ record.level.label ++ "] " ++ record.message

end Record

def admitted (threshold : Threshold) (records : List Record) : List Record :=
  records.filter fun record => Threshold.admits threshold record.level

/--
The threshold after console logging has been asked for.  Only the first request
counts: it shows everything when it asks for metrics, and leaves them out
otherwise.
-/
def enableConsole (current : Threshold) (withMetrics : Bool) : Threshold :=
  match current with
  | some level => some level
  | none => some (if withMetrics then .trace else .debug)

/-- The threshold after a series of requests, starting with the log off. -/
def consoleThreshold (requests : List Bool) : Threshold :=
  requests.foldl enableConsole none

theorem consoleThreshold_cons (first : Bool) (later : List Bool) :
    consoleThreshold (first :: later) =
      some (if first then .trace else .debug) := by
  have settled : ∀ (level : Level) (requests : List Bool),
      requests.foldl enableConsole (some level) = some level := by
    intro level requests
    induction requests with
    | nil => rfl
    | cons request rest ih => simpa [enableConsole] using ih
  simp [consoleThreshold, enableConsole, settled]

end Log

end SeriesCodec
