import ClientRuntime.Retry.Error
import ClientRuntime.Text.Record

/-!
Retry policies: what the result of an attempt means for the execution. Policies neither wait nor
count.
-/

namespace ClientRuntime

inductive RetryDirective where
  /-- The result is final and accepted. -/
  | success
  /-- The result is a failure that is worth another attempt. -/
  | retry (cause : RetryCause)
  /-- The result is a final failure. -/
  | failure
  deriving DecidableEq

namespace RetryDirective

def isRetry : RetryDirective → Bool
  | retry _ => true
  | _ => false

def describe : RetryDirective → String
  | success => "TerminateSuccess"
  | retry cause => Text.application "RetryError" cause.name
  | failure => "TerminateFailure"

end RetryDirective

abbrev RetryPolicy (ρ ε : Type) := Except ε ρ → RetryDirective

/-- Judges the result of an attempt. Unlike a policy, it may keep account of what it was asked. -/
abbrev Judge (σ ρ ε : Type) := Except ε ρ → σ → RetryDirective × σ

namespace RetryPolicy

variable {σ ρ ε : Type}

def judge (p : RetryPolicy ρ ε) : Judge σ ρ ε := fun result s => (p result, s)

/-- Values succeed and errors fail. -/
def never : RetryPolicy ρ ε
  | .ok _ => .success
  | .error _ => .failure

end RetryPolicy

/-- Classifies errors by what they tell about themselves. -/
structure StandardPolicy where
  throttlingNames : List String
  transientNames : List String

namespace StandardPolicy

variable {ρ ε : Type}

def default : StandardPolicy where
  throttlingNames :=
    ["Throttling", "ThrottlingException", "ThrottledException", "TooManyRequestsException",
      "RequestLimitExceeded", "SlowDown"]
  transientNames := ["RequestTimeout", "RequestTimeoutException"]

def withThrottling (p : StandardPolicy) (name : String) : StandardPolicy :=
  { p with throttlingNames := name :: p.throttlingNames }

def withTransient (p : StandardPolicy) (name : String) : StandardPolicy :=
  { p with transientNames := name :: p.transientNames }

def tooManyRequests : Nat := 429

/-- Statuses of a service that may do better the next time. -/
def serverStatuses : List Nat := [500, 502, 503, 504]

/-- The first that applies: throttling, transient, a server's status, modelled as retryable. -/
def classify (p : StandardPolicy) (m : ErrorMetadata) : Option RetryCause :=
  if m.throttling || m.status = some tooManyRequests || m.name.any p.throttlingNames.contains then
    some .throttling
  else if m.transient || m.name.any p.transientNames.contains then some .transient
  else if m.status.any serverStatuses.contains then some .serverError
  else if m.retryable then
    some (if m.status.any (500 ≤ ·) then .serverError else .clientError)
  else none

def policy [OperationError ε] (p : StandardPolicy) : RetryPolicy ρ ε
  | .ok _ => .success
  | .error e =>
    match p.classify (OperationError.metadata e) with
    | some cause => .retry cause
    | none => .failure

end StandardPolicy

/-- What a matching acceptor makes of a result. -/
inductive AcceptorState where
  | success
  | failure
  | retry

namespace AcceptorState

def directive : AcceptorState → RetryDirective
  | success => .success
  | failure => .failure
  | retry => .retry .serverError

def name : AcceptorState → String
  | success => "Success"
  | failure => "Failure"
  | retry => "Retry"

end AcceptorState

/-- A condition on a result. -/
inductive Matcher (ρ : Type) where
  /-- Any value, or any error. -/
  | success (expected : Bool)
  | errorName (name : String)
  | status (code : Nat)
  | output (accepts : ρ → Bool)

namespace Matcher

variable {ρ ε : Type}

def accepts [OperationError ε] : Matcher ρ → Except ε ρ → Bool
  | success expected, .ok _ => expected
  | success expected, .error _ => !expected
  | errorName name, .error e => (OperationError.metadata e).name = some name
  | status code, .error e => (OperationError.metadata e).status = some code
  | output accepts, .ok value => accepts value
  | _, _ => false

def describe : Matcher ρ → String
  | success expected => Text.application "Success" (Text.flag expected)
  | errorName name => Text.application "ErrorName" (Text.quoted name)
  | status code => Text.application "Status" (toString code)
  | output _ => "Output(..)"

end Matcher

structure Acceptor (ρ : Type) where
  state : AcceptorState
  matcher : Matcher ρ

def Acceptor.describe {ρ : Type} (a : Acceptor ρ) : String :=
  Text.record "Acceptor" [("state", a.state.name), ("matcher", a.matcher.describe)]

/-- Rules tried in order; the first that matches decides, else the fallback. -/
structure AcceptorPolicy (ρ ε : Type) where
  acceptors : List (Acceptor ρ)
  fallback : RetryPolicy ρ ε

namespace AcceptorPolicy

variable {ρ ε : Type}

def withAcceptor (p : AcceptorPolicy ρ ε) (a : Acceptor ρ) : AcceptorPolicy ρ ε :=
  { p with acceptors := p.acceptors ++ [a] }

def policy [OperationError ε] (p : AcceptorPolicy ρ ε) : RetryPolicy ρ ε := fun result =>
  match p.acceptors.find? (·.matcher.accepts result) with
  | some a => a.state.directive
  | none => p.fallback result

def describe (p : AcceptorPolicy ρ ε) : String :=
  Text.openRecord "AcceptorRetryPolicy"
    [("acceptors", Text.list (p.acceptors.map Acceptor.describe))]

end AcceptorPolicy

end ClientRuntime
