import ClientRuntime.Operation.Interceptor

/-!
Steps over a draft, and what becomes of errors. A sequence of steps stops at the first error. Where
every hook runs whatever the others do, the last error is in force and earlier ones are suppressed.
-/

namespace ClientRuntime

variable {η : Type} {S : OperationShape} {δ : Type}

/-- Works on a draft; what was done to the draft survives an error. -/
abbrev Step (η δ : Type) (S : OperationShape) := δ → Change η δ S

namespace Step

/-- Looks at the draft only. -/
def ofCheck (check : δ → Check η S) : Step η δ S := fun d => do return (d, ← check d)

/-- Steps in order, up to the first error. -/
def sequence : List (Step η δ S) → Step η δ S
  | [], d => .keep d
  | step :: steps, d => do
    let (d, passed) ← step d
    match passed with
    | .ok () => sequence steps d
    | .error e => return (d, .error e)

end Step

def suppressError (i : ExecutionId) (stage : Stage) (e : S.Error) : Fiber (World η) Unit :=
  Fiber.modify (World.suppress i stage.name (OperationError.message e))

/-- The last error of several checks, all of which run; `latest` is the last one so far. -/
def lastError (i : ExecutionId) (stage : Stage) :
    Option S.Error → List (Check η S) → Fiber (World η) (Option S.Error)
  | latest, [] => return latest
  | latest, check :: checks => do
    match ← check with
    | .ok () => lastError i stage latest checks
    | .error e =>
      match latest with
      | some previous => suppressError i stage previous
      | none => pure ()
      lastError i stage (some e) checks

/-- Runs all checks; the last error is in force. -/
def checkAll (i : ExecutionId) (stage : Stage) (checks : List (Check η S)) : Check η S := do
  match ← lastError i stage none checks with
  | some e => return .error e
  | none => return .ok ()

/-- Puts an error in place of a result. An error that the result held before is suppressed. -/
def overrule (i : ExecutionId) (stage : Stage) (result : S.Result) (e : S.Error) :
    Fiber (World η) S.Result := do
  match result with
  | .error previous => suppressError i stage previous
  | .ok _ => pure ()
  return .error e

/-- Changes a result by several hooks, all of which run; the error of a hook overrules. -/
def reviseAll (i : ExecutionId) (stage : Stage) :
    List (Step η S.Result S) → S.Result → Fiber (World η) S.Result
  | [], result => return result
  | step :: steps, result => do
    let (result, passed) ← step result
    match passed with
    | .ok () => reviseAll i stage steps result
    | .error e => do reviseAll i stage steps (← overrule i stage result e)

end ClientRuntime
