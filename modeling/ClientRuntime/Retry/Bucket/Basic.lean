import ClientRuntime.Instant
import ClientRuntime.Retry.Config.Basic
import ClientRuntime.Retry.Error

/-!
The account of a token bucket: units that attempts take, successes give back and time refills,
never above the capacity.
-/

namespace ClientRuntime

structure BucketState (α : Type) where
  available : α
  /-- Time up to here has been credited. -/
  lastRefill : Instant
  /-- How often units were given back so far. -/
  returns : Nat

/-- What is missing for a cost: the whole units at hand, and the time until refilling covers it. -/
structure Shortfall where
  available : Nat
  wait : Duration

namespace BucketConfig

/-- What an attempt costs. First attempts and attempts without a cause cost the same. -/
def costFor (c : BucketConfig) (attempt : Nat) (cause : Option RetryCause) : Nat :=
  if attempt = 1 then c.initialTryCost
  else
    match cause with
    | none => c.initialTryCost
    | some .transient => c.timeoutRetryCost
    | some _ => c.retryCost

end BucketConfig

/-- Microseconds that count as elapsed when their number does not fit in 64 signed bits. -/
def longestElapsed : Int := (1 <<< 63 : Nat) - 1

namespace BucketState

variable {α : Type} [Scalar α]

/-- A full bucket. -/
def full (c : BucketConfig) (now : Instant) : BucketState α := ⟨Scalar.ofNat c.capacity, now, 0⟩

/-- Adds units up to the capacity. -/
def add (c : BucketConfig) (units : α) (s : BucketState α) : BucketState α :=
  { s with available := Scalar.minimum (s.available + units) (Scalar.ofNat c.capacity) }

/-- The units of a number of microseconds. -/
def unitsFor (c : BucketConfig) (micros : Nat) : α :=
  Scalar.ofNat micros / Scalar.ofNat 1000000 * Scalar.ofNat c.refillRate

/-- Credits the time since the last refill. A clock that did not move on credits nothing, and the
time is not forgotten. -/
def refill (c : BucketConfig) (now : Instant) (s : BucketState α) : BucketState α :=
  if c.refillRate = 0 then { s with lastRefill := now }
  else
    let elapsed := (now.microsSince? s.lastRefill).getD longestElapsed
    if elapsed ≤ 0 then s
    else { s.add c (unitsFor c elapsed.toNat) with lastRefill := now }

/-- Whole units. -/
def units (s : BucketState α) : Nat := Scalar.floor s.available

/-- Time until refilling covers what is missing. -/
def waitFor (c : BucketConfig) (missing : α) : Duration :=
  if c.refillRate = 0 then .longest
  else (Duration.ofSeconds? (missing / Scalar.ofNat c.refillRate)).getD .longest

/-- Takes the cost out, if it is there after a refill. -/
def take (c : BucketConfig) (now : Instant) (cost : Nat) (s : BucketState α) :
    Except Shortfall Unit × BucketState α :=
  let s := s.refill c now
  let needed : α := Scalar.ofNat cost
  if Scalar.le needed s.available then (.ok (), { s with available := s.available - needed })
  else (.error ⟨s.units, waitFor c (needed - s.available)⟩, s)

/-- Adds the cost of a success and the increment. -/
def credit (c : BucketConfig) (cost : Nat) (s : BucketState α) : BucketState α :=
  s.add c (Scalar.ofNat cost + Scalar.ofNat c.successIncrement)

/-- Counts a return, which is what callers wait for. -/
def notify (s : BucketState α) : BucketState α := { s with returns := s.returns + 1 }

/-- Gives back what a success is worth, and lets callers know. -/
def giveBack (c : BucketConfig) (cost : Nat) (s : BucketState α) : BucketState α :=
  (s.credit c cost).notify

end BucketState

end ClientRuntime
