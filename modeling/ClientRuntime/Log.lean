import ClientRuntime.History

/-!
The diagnostic log: leveled entries with named fields. It keeps the levels that are enabled in it,
which may be any of them; most often they are those down to a threshold.
-/

namespace ClientRuntime

inductive LogLevel where
  | error
  | warn
  | info
  | debug
  | trace
  deriving DecidableEq

def LogLevel.rank : LogLevel → Nat
  | error => 0
  | warn => 1
  | info => 2
  | debug => 3
  | trace => 4

inductive LogValue where
  | natural (n : Nat)
  | float (x : Float)
  | flag (b : Bool)
  | text (s : String)

structure LogEntry where
  level : LogLevel
  fields : List (String × LogValue)
  message : String

/-- The levels that a log keeps. -/
structure LogLevels where
  keeps : LogLevel → Bool

/-- Every level down to a threshold; none without one. -/
def LogLevels.downTo (threshold : Option LogLevel) : LogLevels :=
  ⟨fun level => threshold.any fun threshold => level.rank ≤ threshold.rank⟩

instance : Coe (Option LogLevel) LogLevels := ⟨.downTo⟩

structure Log where
  levels : LogLevels
  entries : History LogEntry

namespace Log

def silent : Log := ⟨.downTo none, .empty⟩

instance : Inhabited Log := ⟨silent⟩

def enabled (log : Log) (level : LogLevel) : Bool := log.levels.keeps level

def emit (log : Log) (level : LogLevel) (fields : List (String × LogValue)) (message : String) :
    Log :=
  if log.enabled level then { log with entries := log.entries.push ⟨level, fields, message⟩ }
  else log

end Log

end ClientRuntime
