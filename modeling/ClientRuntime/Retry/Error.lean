/-!
Errors: what every error of an operation can tell a retry policy, and the errors that retrying
itself comes to.
-/

namespace ClientRuntime

/-- Why another attempt is asked for. -/
inductive RetryCause where
  | transient
  | throttling
  | serverError
  | clientError
  deriving DecidableEq

def RetryCause.name : RetryCause → String
  | transient => "Transient"
  | throttling => "Throttling"
  | serverError => "ServerError"
  | clientError => "ClientError"

inductive RetryError where
  /-- The bucket does not hold what the attempt costs. -/
  | capacityExceeded (requested available : Nat)
  | tooManyAttempts (attempts : Nat)
  /-- The policy turned down a value. -/
  | unacceptableResult (attempts : Nat)
  | cancelled
  deriving DecidableEq

namespace RetryError

def message : RetryError → String
  | capacityExceeded requested available =>
    "insufficient retry capacity: " ++ toString requested ++ " units requested, "
      ++ toString available ++ " available"
  | tooManyAttempts attempts =>
    "retry attempts exhausted after " ++ toString attempts ++ " attempts"
  | unacceptableResult attempts =>
    "result rejected by retry policy after " ++ toString attempts ++ " attempts"
  | cancelled => "execution cancelled"

def name : RetryError → String
  | capacityExceeded _ _ => "RetryCapacityExceeded"
  | tooManyAttempts _ => "TooManyAttempts"
  | unacceptableResult _ => "UnacceptableResult"
  | cancelled => "Cancelled"

def isCapacityExceeded : RetryError → Bool
  | capacityExceeded _ _ => true
  | _ => false

end RetryError

/-- What an error says about itself. -/
structure ErrorMetadata where
  name : Option String
  status : Option Nat
  retryable : Bool
  throttling : Bool
  transient : Bool
  deriving DecidableEq

def RetryError.metadata (e : RetryError) : ErrorMetadata := ⟨some e.name, none, false, false, false⟩

/-- Errors of operations, among which errors of retrying can be expressed. -/
class OperationError (ε : Type) where
  message : ε → String
  metadata : ε → ErrorMetadata
  ofRetry : RetryError → ε

/-- An error modelled by a service, or one of retrying. -/
inductive ServiceError where
  | modeled (message : String) (metadata : ErrorMetadata)
  | retry (e : RetryError)
  deriving DecidableEq

instance : OperationError ServiceError where
  message
    | .modeled message _ => message
    | .retry e => e.message
  metadata
    | .modeled _ metadata => metadata
    | .retry e => e.metadata
  ofRetry := .retry

instance : OperationError RetryError where
  message := RetryError.message
  metadata := RetryError.metadata
  ofRetry := id

end ClientRuntime
