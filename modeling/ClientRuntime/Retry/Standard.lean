import ClientRuntime.Property
import ClientRuntime.Retry.Backoff
import ClientRuntime.Retry.Bucket.Acquire
import ClientRuntime.Retry.Strategy

/-!
The standard strategy: every attempt takes a token and gives it back with its outcome before
anything else happens; between attempts it waits and holds no token.
-/

namespace ClientRuntime

structure StandardStrategy (η : Type) where
  maxAttempts : Nat
  bucket : TokenBucket η
  delays : DelayProvider (World η)
  clock : Clock (World η)

namespace StandardStrategy

variable {η ρ ε ν : Type} [OperationError ε]

def component : String := "StandardRetryStrategy"

def note (span : SpanId) (level : TraceLevel) (text : String) : Fiber (World η) Unit :=
  Fiber.modify (·.say span level component text none)

/-- A bucket's refusal. -/
def warn (span : SpanId) (text : String) (e : RetryError) : Fiber (World η) Unit :=
  Fiber.modify (·.say span .warning component (text ++ e.message) (some e.message))

def ordinal (n : Nat) : String := "Attempt " ++ toString n

/-- How a token is released whose attempt was judged so. -/
def tokenOutcome : RetryDirective → TokenOutcome
  | .success => .success
  | .failure => .nonRetryableFailure
  | .retry _ => .retryableFailure

/-- Waits before attempt `n + 1`. -/
def backOff (s : StandardStrategy η) (span : SpanId) (n : Nat) (cause : RetryCause) :
    Fiber (World η) Unit := do
  let delay ← Fiber.modifyGet (s.delays.backoff n)
  Fiber.modify (·.emit .debug
    [("attempt", .natural n), ("cause", .text cause.name),
      ("delay_ms", .natural (delay.millis % (1 <<< 64)))]
    "Retrying after backoff")
  note span .debug
    (ordinal n ++ " failed with " ++ cause.name ++ "; retrying in " ++ delay.text)
  s.clock.sleep delay

/-- Attempt `n` with its token in hand: its result, its note, and how the result was judged. -/
def turn (s : StandardStrategy η) (judge : Judge (World η) ρ ε) (span : SpanId)
    (attempt : Attempt η ρ ε ν) (n : Nat) (token : RetryToken η) :
    Fiber (World η) (Except ε ρ × ν × RetryDirective) := do
  note span .trace ("Starting attempt " ++ toString n ++ " of " ++ toString s.maxAttempts)
  let (result, last) ← Fiber.guarded token.drop token.drop (attempt n)
  let d ← Fiber.modifyGet (judge result)
  Fiber.modify (token.release (tokenOutcome d))
  return (result, last, d)

/-- Attempt `n` with its token in hand, and up to `left` more. -/
def attemptFrom (s : StandardStrategy η) (judge : Judge (World η) ρ ε) (span : SpanId)
    (attempt : Attempt η ρ ε ν) : Nat → Nat → RetryToken η → Fiber (World η) (Retried ρ ε ν)
  | left, n, token => do
    let (result, last, d) ← s.turn judge span attempt n token
    match d with
    | .success =>
      note span .debug (ordinal n ++ " accepted")
      return ⟨d.conclude n result, some last⟩
    | .failure =>
      note span .debug (ordinal n ++ " failed terminally")
      return ⟨d.conclude n result, some last⟩
    | .retry cause =>
      match left with
      | 0 =>
        note span .debug (ordinal n ++ " failed with " ++ cause.name ++ "; no attempts left")
        return ⟨d.conclude n result, some last⟩
      | left + 1 =>
        s.backOff span n cause
        match ← s.bucket.acquire (n + 1) (some cause) with
        | .ok token => attemptFrom s judge span attempt left (n + 1) token
        | .error e =>
          warn span ("Retry capacity exhausted after attempt " ++ toString n ++ ": ") e
          return ⟨.refused n result e, some last⟩

def retry (s : StandardStrategy η) (judge : Judge (World η) ρ ε) (span : SpanId)
    (attempt : Attempt η ρ ε ν) : Fiber (World η) (Retried ρ ε ν) := do
  match ← s.bucket.acquire 1 none with
  | .ok token => s.attemptFrom judge span attempt (s.maxAttempts - 1) 1 token
  | .error e =>
    warn span "No capacity for first attempt: " e
    return ⟨.exception 0 (OperationError.ofRetry e), none⟩

def describe (s : StandardStrategy η) (w : World η) : String :=
  Text.record component
    [("max_attempts", toString s.maxAttempts), ("token_bucket", s.bucket.describe w),
      ("delay_provider", s.delays.describe)]

def strategy (s : StandardStrategy η) : RetryStrategy η ρ ε ν where
  retry := s.retry
  maxAttempts := s.maxAttempts
  describe := s.describe

end StandardStrategy

/-- Where a strategy keeps what is its own: the account of its bucket and its samples. -/
structure StrategyParts (η : Type) where
  account : Lens (World η) (BucketState Float)
  random : Lens (World η) Random
  /-- How many rounds of a call to its bucket are followed after the first. -/
  rounds : Nat

/-- A standard strategy under construction. Bucket and delays are given or configured. -/
structure StrategyBuilder (η : Type) where
  maxAttempts : Nat
  bucket : Property (TokenBucket η) (BucketBuilder η)
  delays : Property (DelayProvider (World η)) BackoffBuilder
  clock : Option (Clock (World η))

namespace StrategyBuilder

variable {η : Type}

def empty : StrategyBuilder η :=
  ⟨(RetryConfig.default : RetryConfig Float).maxAttempts, .unset, .unset, none⟩

def withMaxAttempts (b : StrategyBuilder η) (n : Nat) : StrategyBuilder η :=
  { b with maxAttempts := max n 1 }

def withBucket (b : StrategyBuilder η) (bucket : TokenBucket η) : StrategyBuilder η :=
  { b with bucket := b.bucket.give bucket }

def configureBucket (b : StrategyBuilder η) (f : BucketBuilder η → BucketBuilder η) :
    Except SettingError (StrategyBuilder η) :=
  (b.bucket.configure "token_bucket" .empty f).map fun bucket => { b with bucket }

def withDelays (b : StrategyBuilder η) (delays : DelayProvider (World η)) : StrategyBuilder η :=
  { b with delays := b.delays.give delays }

def configureDelays (b : StrategyBuilder η) (f : BackoffBuilder → BackoffBuilder) :
    Except SettingError (StrategyBuilder η) :=
  (b.delays.configure "delay_provider" .empty f).map fun delays => { b with delays }

def withClock (b : StrategyBuilder η) (clock : Clock (World η)) : StrategyBuilder η :=
  { b with clock := some clock }

/-- The strategy. A bucket that is configured gets the strategy's clock if it has none, and what was
not given is made in the world. -/
def build (b : StrategyBuilder η) (own : StrategyParts η) (w : World η) :
    StandardStrategy η × World η :=
  let clock := b.clock.getD .system
  let bucket := (b.bucket.edit (·.withDefaultClock clock)).buildM (·.make own.account own.rounds)
    ((BucketBuilder.empty.withClock clock).make own.account own.rounds)
  let delays := b.delays.buildM (·.make own.random) (BackoffBuilder.empty.make own.random)
  let strategy : StateM (World η) (StandardStrategy η) :=
    return ⟨b.maxAttempts, ← bucket, ← delays, clock⟩
  strategy.run w

end StrategyBuilder

namespace StandardStrategy

variable {η : Type}

/-- The strategy that settings describe, driven by a clock. -/
def ofConfig (c : RetryConfig Float) (clock : Clock (World η)) (own : StrategyParts η)
    (w : World η) : StandardStrategy η × World η :=
  let bucket : StandardBucket η Float := ⟨c.bucket, clock, own.account, own.rounds⟩
  (⟨max c.maxAttempts 1, bucket.tokenBucket, .exponential c.backoff false own.random, clock⟩,
    bucket.openAccount w)

end StandardStrategy

end ClientRuntime
