import ClientRuntime.World

/-!
Retry tokens: permissions for one attempt each. A token is released with the outcome of its
attempt; one that is let go without an outcome counts as a retryable failure.
-/

namespace ClientRuntime

inductive TokenOutcome where
  | success
  | retryableFailure
  | nonRetryableFailure
  deriving DecidableEq

def TokenOutcome.name : TokenOutcome → String
  | success => "Success"
  | retryableFailure => "RetryableFailure"
  | nonRetryableFailure => "NonRetryableFailure"

/-- Accounts for a token of some cost released with an outcome. -/
abbrev Ledger (σ : Type) := Nat → TokenOutcome → σ → σ

structure RetryToken (η : Type) where
  attempt : Nat
  cost : Nat
  /-- Where a release is reported; nowhere without one. -/
  ledger : Option (Ledger (World η))

namespace RetryToken

variable {η : Type}

def release (t : RetryToken η) (outcome : TokenOutcome) (w : World η) : World η :=
  match t.ledger with
  | some report => report t.cost outcome w
  | none => w

/-- Letting go of the token without an outcome. -/
def drop (t : RetryToken η) (w : World η) : World η :=
  match t.ledger with
  | some report =>
    report t.cost .retryableFailure <|
      w.emit .debug [("attempt", .natural t.attempt), ("cost", .natural t.cost)]
        "Retry token dropped without release, returning it as a failure"
  | none => w

def describe (t : RetryToken η) : String :=
  Text.record "RetryToken"
    [("attempt", toString t.attempt), ("cost", toString t.cost),
      ("released", Text.flag t.ledger.isNone)]

end RetryToken

end ClientRuntime
