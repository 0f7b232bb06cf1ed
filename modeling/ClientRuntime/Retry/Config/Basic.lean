import ClientRuntime.Duration
import ClientRuntime.Text.Record
import ClientRuntime.Text.Shortest

/-!
Settings of the retry stack: how many attempts, how long between them, and how much they may cost
all together.
-/

namespace ClientRuntime

/-- Delays that grow by a factor per attempt up to a bound. `jitter` is the part of a delay that
may be taken off at random. -/
structure BackoffConfig (α : Type) where
  initialDelay : Duration
  scaleFactor : α
  maxBackoff : Duration
  jitter : α

namespace BackoffConfig

variable {α : Type} [Scalar α]

def default : BackoffConfig α := ⟨.ofMillis 10, Scalar.ofNat 2, .ofSecs 20, Scalar.ofNat 1⟩

/-- Equal as numbers are, which no undefined number is to itself. -/
def agrees (c d : BackoffConfig α) : Bool :=
  c.initialDelay = d.initialDelay && Scalar.equal c.scaleFactor d.scaleFactor
    && c.maxBackoff = d.maxBackoff && Scalar.equal c.jitter d.jitter

def describe (c : BackoffConfig Float) : String :=
  Text.record "ExponentialBackoffConfig"
    [("initial_delay", c.initialDelay.text), ("scale_factor", Text.ofFloat c.scaleFactor),
      ("max_backoff", c.maxBackoff.text), ("jitter", Text.ofFloat c.jitter)]

end BackoffConfig

structure BucketConfig where
  /-- The most units the bucket holds. -/
  capacity : Nat
  initialTryCost : Nat
  retryCost : Nat
  /-- The cost of a retry after a transient failure. -/
  timeoutRetryCost : Nat
  /-- What a success gives back on top of its cost. -/
  successIncrement : Nat
  /-- Units per second; none are refilled at rate zero. -/
  refillRate : Nat
  /-- Refuses at once what the bucket does not hold, instead of waiting for it. -/
  circuitBreaker : Bool
  deriving DecidableEq

namespace BucketConfig

def default : BucketConfig := ⟨500, 0, 5, 10, 1, 10, true⟩

def describe (c : BucketConfig) : String :=
  Text.record "TokenBucketConfig"
    [("capacity", toString c.capacity), ("initial_try_cost", toString c.initialTryCost),
      ("retry_cost", toString c.retryCost), ("timeout_retry_cost", toString c.timeoutRetryCost),
      ("success_increment", toString c.successIncrement),
      ("refill_units_per_second", toString c.refillRate),
      ("circuit_breaker_mode", Text.flag c.circuitBreaker)]

end BucketConfig

structure RetryConfig (α : Type) where
  /-- The first attempt counts. -/
  maxAttempts : Nat
  backoff : BackoffConfig α
  bucket : BucketConfig

namespace RetryConfig

variable {α : Type} [Scalar α]

def default : RetryConfig α := ⟨3, .default, .default⟩

/-- At least one attempt. -/
def withMaxAttempts (c : RetryConfig α) (n : Nat) : RetryConfig α :=
  { c with maxAttempts := max n 1 }

def withBackoff (c : RetryConfig α) (backoff : BackoffConfig α) : RetryConfig α :=
  { c with backoff }

def withBucket (c : RetryConfig α) (bucket : BucketConfig) : RetryConfig α := { c with bucket }

/-- A single attempt. -/
def noRetry : RetryConfig α := default.withMaxAttempts 1

def agrees (c d : RetryConfig α) : Bool :=
  c.maxAttempts = d.maxAttempts && c.backoff.agrees d.backoff && c.bucket = d.bucket

end RetryConfig

end ClientRuntime
