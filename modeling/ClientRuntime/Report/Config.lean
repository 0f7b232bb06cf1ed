import ClientRuntime.Report.Basic
import ClientRuntime.Retry.Config.Json

/-!
Reports of retry settings: the settings themselves, and their written form.
-/

namespace ClientRuntime.Report

def backoffConfig (c : BackoffConfig Float) : Json :=
  .object [("initial_delay", duration c.initialDelay), ("scale_factor", float c.scaleFactor),
    ("max_backoff", duration c.maxBackoff), ("jitter", float c.jitter)]

def bucketConfig (c : BucketConfig) : Json := c.write

def retryConfig (c : RetryConfig Float) : Json :=
  .object [("max_attempts", natural c.maxAttempts), ("backoff", backoffConfig c.backoff),
    ("token_bucket", bucketConfig c.bucket)]

mutual

/-- A JSON value with its floats shown by their bits. -/
def written : Json → Json
  | .number (.float x) => float x
  | .array items => .array (writtenItems items)
  | .object fields => .object (writtenFields fields)
  | v => v

def writtenItems : List Json → List Json
  | [] => []
  | v :: vs => written v :: writtenItems vs

def writtenFields : List (String × Json) → List (String × Json)
  | [] => []
  | (k, v) :: fs => (k, written v) :: writtenFields fs

end

/-- Settings, their written form, and whether that form reads back as the same settings. -/
def config {γ : Type} (report : γ → Json) (write : γ → Json) (read : Json.Reader γ)
    (agrees : γ → γ → Bool) (c : γ) : Json :=
  let again :=
    match read.ofValue (write c) with
    | .ok d => Json.flag (agrees c d)
    | .error _ => .null
  .object [("config", report c), ("written", written (write c)), ("again", again)]

def configError : Json := .object [("error", .text "ConfigError")]

/-- The fault of a text that settings were read from. -/
def configFault (f : JsonFault) : Json :=
  let kind :=
    match f with
    | .malformed => "Syntax"
    | .mismatch => "Data"
    | .truncated => "Eof"
  .object [("error", .text "ConfigError"), ("class", .text kind)]

end ClientRuntime.Report
