import ClientRuntime.Json.Record
import ClientRuntime.Retry.Config.Basic

/-!
Settings of the retry stack as JSON records. Spans of time are written in seconds. Settings that
are not given keep their defaults.
-/

namespace ClientRuntime

open Json

def readNatural : Reader Nat := readPlain Json.word32?

def readFlag : Reader Bool := readPlain Json.flag?

def readFloat : Reader Float := readPlain Json.float?

def readSeconds : Reader Duration := readPlain fun v => v.float?.bind Duration.ofSeconds?

def writeNatural (n : Nat) : Json := .number (.natural n)

/-- JSON has no infinities. -/
def writeFloat (x : Float) : Json := if x.isFinite then .number (.float x) else .null

def writeSeconds (d : Duration) : Json := writeFloat d.toSeconds

namespace BackoffConfig

def read : Reader (BackoffConfig Float) :=
  readRecord
    [.of "initial_delay" readSeconds fun d c => { c with initialDelay := d },
      .of "scale_factor" readFloat fun x c => { c with scaleFactor := x },
      .of "max_backoff" readSeconds fun d c => { c with maxBackoff := d },
      .of "jitter" readFloat fun x c => { c with jitter := x }]
    default

def write (c : BackoffConfig Float) : Json :=
  .object
    [("initial_delay", writeSeconds c.initialDelay), ("scale_factor", writeFloat c.scaleFactor),
      ("max_backoff", writeSeconds c.maxBackoff), ("jitter", writeFloat c.jitter)]

end BackoffConfig

namespace BucketConfig

def read : Reader BucketConfig :=
  readRecord
    [.of "capacity" readNatural fun n c => { c with capacity := n },
      .of "initial_try_cost" readNatural fun n c => { c with initialTryCost := n },
      .of "retry_cost" readNatural fun n c => { c with retryCost := n },
      .of "timeout_retry_cost" readNatural fun n c => { c with timeoutRetryCost := n },
      .of "success_increment" readNatural fun n c => { c with successIncrement := n },
      .of "refill_units_per_second" readNatural fun n c => { c with refillRate := n },
      .of "circuit_breaker_mode" readFlag fun b c => { c with circuitBreaker := b }]
    default

def write (c : BucketConfig) : Json :=
  .object
    [("capacity", writeNatural c.capacity), ("initial_try_cost", writeNatural c.initialTryCost),
      ("retry_cost", writeNatural c.retryCost),
      ("timeout_retry_cost", writeNatural c.timeoutRetryCost),
      ("success_increment", writeNatural c.successIncrement),
      ("refill_units_per_second", writeNatural c.refillRate),
      ("circuit_breaker_mode", .flag c.circuitBreaker)]

end BucketConfig

namespace RetryConfig

def read : Reader (RetryConfig Float) :=
  readRecord
    [.of "max_attempts" readNatural fun n c => { c with maxAttempts := n },
      .of "backoff" BackoffConfig.read fun b c => { c with backoff := b },
      .of "token_bucket" BucketConfig.read fun b c => { c with bucket := b }]
    default

def write (c : RetryConfig Float) : Json :=
  .object
    [("max_attempts", writeNatural c.maxAttempts), ("backoff", c.backoff.write),
      ("token_bucket", c.bucket.write)]

end RetryConfig

end ClientRuntime
