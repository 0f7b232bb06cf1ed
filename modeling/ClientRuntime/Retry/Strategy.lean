import ClientRuntime.Retry.Outcome
import ClientRuntime.Retry.Policy
import ClientRuntime.Trace.Scope

/-!
Retry strategies run attempts until their judge says stop. Attempts are counted from one. Each
leaves a note for the caller beside its result; the note of the last attempt comes back with the
outcome.
-/

namespace ClientRuntime

/-- One attempt, by its number. -/
abbrev Attempt (η ρ ε ν : Type) := Nat → Fiber (World η) (Except ε ρ × ν)

/-- What retrying came to. -/
structure Retried (ρ ε ν : Type) where
  outcome : Outcome ρ ε
  /-- The note of the last attempt, if one was made. -/
  last : Option ν

structure RetryStrategy (η ρ ε ν : Type) where
  /-- Runs attempts as the judge of their results says, with diagnostics on a span. -/
  retry : Judge (World η) ρ ε → SpanId → Attempt η ρ ε ν → Fiber (World η) (Retried ρ ε ν)
  maxAttempts : Nat
  describe : World η → String

namespace Outcome

variable {ρ ε : Type}

/-- Fails with the error of the last attempt, or for the reason that its value was not accepted. -/
def refused [OperationError ε] (attempts : Nat) (result : Except ε ρ) (reason : RetryError) :
    Outcome ρ ε :=
  match result with
  | .error e => exception attempts e
  | .ok _ => exception attempts (OperationError.ofRetry reason)

end Outcome

/-- What a strategy that makes no further attempt makes of the result of attempt `n`. -/
def RetryDirective.conclude {ρ ε : Type} [OperationError ε] (d : RetryDirective) (n : Nat)
    (result : Except ε ρ) : Outcome ρ ε :=
  match d with
  | success => .ofResult n result
  | failure => .refused n result (.unacceptableResult n)
  | retry _ => .refused n result (.tooManyAttempts n)

namespace RetryStrategy

variable {η ρ ε ν : Type} [OperationError ε]

def singleComponent : String := "NoRetryStrategy"

def retryOnce (judge : Judge (World η) ρ ε) (span : SpanId) (attempt : Attempt η ρ ε ν) :
    Fiber (World η) (Retried ρ ε ν) := do
  let (result, note) ← attempt 1
  let d ← Fiber.modifyGet (judge result)
  Fiber.modify (·.say span .trace singleComponent ("Single attempt finished: " ++ d.describe) none)
  return ⟨d.conclude 1 result, some note⟩

/-- Makes exactly one attempt. -/
def single : RetryStrategy η ρ ε ν where
  retry := retryOnce
  maxAttempts := 1
  describe _ := singleComponent

end RetryStrategy

end ClientRuntime
