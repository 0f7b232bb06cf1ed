import ClientRuntime.Report.Basic
import ClientRuntime.Retry.Error
import ClientRuntime.Retry.Outcome

/-!
Reports of errors, results and outcomes.
-/

namespace ClientRuntime.Report

def retryError (e : RetryError) : Json :=
  let kind :=
    match e with
    | .capacityExceeded _ _ => "CapacityExceeded"
    | .tooManyAttempts _ => "TooManyAttempts"
    | .unacceptableResult _ => "UnacceptableResult"
    | .cancelled => "Cancelled"
  error kind e.message

def serviceError : ServiceError → Json
  | .modeled message metadata =>
    .object [("modeled", .text message), ("name", option .text metadata.name),
      ("status", option natural metadata.status)]
  | .retry e => retryError e

def result : Except ServiceError String → Json
  | .ok text => .object [("ok", .text text)]
  | .error e => .object [("err", serviceError e)]

def outcome (o : Outcome String ServiceError) : Json :=
  .object [("attempts", natural o.attempts), ("is_response", .flag o.isResponse),
    ("result", result o.toResult)]

/-- A retry error with everything it tells about itself. -/
def retryErrorDetails (e : RetryError) : Json :=
  let m := e.metadata
  .object [("display", retryError e), ("name", option .text m.name),
    ("status", option natural m.status), ("capacity", .flag e.isCapacityExceeded),
    ("flags", .array [.flag m.retryable, .flag m.throttling, .flag m.transient])]

end ClientRuntime.Report
