import ClientRuntime.Fiber.Control
import ClientRuntime.Retry.Bucket.Basic
import ClientRuntime.Retry.Token

/-!
Buckets that attempts get their tokens from. The standard bucket refuses at once what exceeds its
capacity; what it does not hold at the moment it refuses or waits for, as its settings say. It
waits until units are given back or refilling covers the cost, and then tries again.
-/

namespace ClientRuntime

/-- A source of retry tokens, with the whole units it holds. -/
structure TokenBucket (η : Type) where
  acquire : Nat → Option RetryCause → Fiber (World η) (Except RetryError (RetryToken η))
  available : World η → Nat × World η
  capacity : Nat
  describe : World η → String

namespace TokenBucket

variable {η : Type}

def unlimited : Nat := (1 <<< 32) - 1

/-- Grants every token at no cost. -/
def infinite : TokenBucket η where
  acquire attempt _ := return .ok ⟨attempt, 0, none⟩
  available w := (unlimited, w)
  capacity := unlimited
  describe _ := "InfiniteTokenBucket"

end TokenBucket

/-- A bucket whose account is a part of the world. -/
structure StandardBucket (η α : Type) where
  config : BucketConfig
  clock : Clock (World η)
  account : Lens (World η) (BucketState α)
  /-- How many rounds of a call are followed after its first. No call counts its rounds: what holds
  of calls holds for any number. -/
  rounds : Nat

namespace StandardBucket

variable {η α : Type} [Scalar α]

def take (b : StandardBucket η α) (cost : Nat) (w : World η) : Except Shortfall Unit × World η :=
  let (granted, s) := (b.account.get w).take b.config (b.clock.now w) cost
  (granted, b.account.set s w)

/-- Whole units after a refill. -/
def available (b : StandardBucket η α) (w : World η) : Nat × World η :=
  let s := (b.account.get w).refill b.config (b.clock.now w)
  (s.units, b.account.set s w)

/-- Counts a return, which all who wait notice. -/
def notifying (b : StandardBucket η α) : Fiber (World η) Unit :=
  Fiber.modify (b.account.modify (·.notify))

/-- Gives back what a success is worth. The units are there before anybody is told. -/
def giving (b : StandardBucket η α) (cost : Nat) : Fiber (World η) Unit := do
  Fiber.modify (b.account.modify (·.credit b.config cost))
  b.notifying

/-- Who gives back does so without a pause. -/
theorem poll_giving (b : StandardBucket η α) (cost : Nat) (w : World η) :
    (b.giving cost).poll w = (.ready (), b.account.modify (·.giveBack b.config cost) w) := by
  have hboth : b.account.modify (·.notify) (b.account.modify (·.credit b.config cost) w) =
      b.account.modify (·.giveBack b.config cost) w := b.account.modify_modify ..
  rw [← hboth]
  rfl

/-- Successes give back what they cost and more; failures give back nothing. -/
def ledger (b : StandardBucket η α) : Ledger (World η) := fun cost outcome w =>
  if outcome = .success then ((b.giving cost).poll w).2
  else
    w.emit .trace [("cost", .natural cost), ("outcome", .text outcome.name)]
      "Retry token released without refund"

def returnsSince (b : StandardBucket η α) (seen : Nat) (w : World η) : Bool :=
  (b.account.get w).returns != seen

/-- Waits for units to be given back, and for a time at most if refilling helps. -/
def wait (b : StandardBucket η α) (seen : Nat) (time : Duration) : Fiber (World η) Unit :=
  if time = .longest then Fiber.waitUntil (b.returnsSince seen)
  else Fiber.giveUpWhen (b.returnsSince seen) (return ()) (b.clock.sleep time)

/-- What a call makes of its try to take the cost: an answer, or none if it has to try again. -/
def settle (b : StandardBucket η α) (attempt cost seen : Nat) :
    Except Shortfall Unit → Fiber (World η) (Option (Except RetryError (RetryToken η)))
  | .ok () => return some (.ok ⟨attempt, cost, some b.ledger⟩)
  | .error missing => do
    let fields : List (String × LogValue) :=
      [("attempt", .natural attempt), ("cost", .natural cost),
        ("available", .natural missing.available)]
    if b.config.circuitBreaker then
      Fiber.modify (·.emit .debug fields "Retry capacity exhausted")
      return some (.error (.capacityExceeded cost missing.available))
    else
      Fiber.modify (·.emit .trace
        (fields ++ [("wait_ms", .natural (missing.wait.millis % (1 <<< 64)))])
        "Waiting for retry capacity")
      b.wait seen missing.wait
      return none

/-- Once round the loop of a call. It looks how often units were given back before it tries to take
its cost, so that it notices every return after that. -/
def round (b : StandardBucket η α) (attempt cost : Nat) :
    Fiber (World η) (Option (Except RetryError (RetryToken η))) := do
  let seen ← Fiber.gets fun w => (b.account.get w).returns
  let taken ← Fiber.modifyGet (b.take cost)
  b.settle attempt cost seen taken

def acquire (b : StandardBucket η α) (attempt : Nat) (cause : Option RetryCause) :
    Fiber (World η) (Except RetryError (RetryToken η)) := do
  let cost := b.config.costFor attempt cause
  if b.config.capacity < cost then
    return .error (.capacityExceeded cost (← Fiber.modifyGet b.available))
  else Fiber.rounds (b.round attempt cost) (b.rounds + 1)

/-- The units at hand as they were left, without a refill. -/
def describe (b : StandardBucket η Float) (w : World η) : String :=
  Text.record "StandardRetryTokenBucket"
    [("config", b.config.describe), ("available", Text.ofFloat (b.account.get w).available)]

/-- Opens a full account. -/
def openAccount (b : StandardBucket η α) (w : World η) : World η :=
  b.account.set (.full b.config (b.clock.now w)) w

def tokenBucket (b : StandardBucket η Float) : TokenBucket η where
  acquire := b.acquire
  available := b.available
  capacity := b.config.capacity
  describe := b.describe

end StandardBucket

/-- A bucket under construction; without a clock of its own it takes the one it is offered. -/
structure BucketBuilder (η : Type) where
  config : BucketConfig
  clock : Option (Clock (World η))

namespace BucketBuilder

variable {η : Type}

def empty : BucketBuilder η := ⟨.default, none⟩

def withDefaultClock (b : BucketBuilder η) (clock : Clock (World η)) : BucketBuilder η :=
  { b with clock := some (b.clock.getD clock) }

def withClock (b : BucketBuilder η) (clock : Clock (World η)) : BucketBuilder η :=
  { b with clock := some clock }

def build (b : BucketBuilder η) (account : Lens (World η) (BucketState Float)) (rounds : Nat) :
    StandardBucket η Float :=
  ⟨b.config, b.clock.getD .system, account, rounds⟩

/-- The bucket, with its account opened. -/
def make (b : BucketBuilder η) (account : Lens (World η) (BucketState Float)) (rounds : Nat) :
    StateM (World η) (TokenBucket η) := fun w =>
  let bucket := b.build account rounds
  (bucket.tokenBucket, bucket.openAccount w)

end BucketBuilder

end ClientRuntime
