import ClientRuntime.Lens
import ClientRuntime.Random
import ClientRuntime.Retry.Config.Basic

/-!
How long to wait between attempts: not at all, a fixed time, or a time that grows by a factor per
attempt up to a bound, less a random part of it.
-/

namespace ClientRuntime

/-- The largest exponent that a delay is computed with. -/
def largestExponent : Nat := (1 <<< 31) - 1

namespace BackoffConfig

variable {α : Type} [Scalar α]

/-- The delay after an attempt, before jitter. -/
def maxDelayFor (c : BackoffConfig α) (attempt : Nat) : Duration :=
  let grown :=
    (c.initialDelay.toSeconds : α) * Scalar.power c.scaleFactor (min (attempt - 1) largestExponent)
  let cap : α := c.maxBackoff.toSeconds
  let secs := if Scalar.isFinite grown then Scalar.minimum grown cap else cap
  let secs := if Scalar.lt secs (Scalar.ofNat 0) then Scalar.ofNat 0 else secs
  (Duration.ofSeconds? secs).getD c.maxBackoff

/-- Whether delays are drawn at random. -/
def isJittered (c : BackoffConfig α) : Bool :=
  !Scalar.equal (Scalar.clampUnit c.jitter) (Scalar.ofNat 0 : α)

/-- What a sample in the unit interval leaves of a delay. -/
def jitteredDelay (c : BackoffConfig α) (delay : Duration) (sample : α) : Duration :=
  let factor := Scalar.clampUnit (Scalar.ofNat 1 - Scalar.clampUnit c.jitter * sample)
  (Duration.ofSeconds? ((delay.toSeconds : α) * factor)).getD delay

/-- The delay after an attempt. A sample is drawn only if there is jitter. -/
def delay (c : BackoffConfig α) (attempt : Nat) (random : Random) : Duration × Random :=
  let longest := c.maxDelayFor attempt
  if c.isJittered then
    let (sample, random) : α × Random := random.sample
    (c.jitteredDelay longest sample, random)
  else (longest, random)

end BackoffConfig

/-- Tells how long to wait after an attempt, counted from one. -/
structure DelayProvider (σ : Type) where
  backoff : Nat → σ → Duration × σ
  describe : String

namespace DelayProvider

variable {σ : Type}

def none : DelayProvider σ := ⟨fun _ s => (.zero, s), "NoDelay"⟩

def fixed (d : Duration) : DelayProvider σ :=
  ⟨fun _ s => (d, s), Text.record "FixedDelay" [("delay", d.text)]⟩

/-- Exponential backoff that draws its samples from a part of the state. -/
def exponential (c : BackoffConfig Float) (seeded : Bool) (random : Lens σ Random) :
    DelayProvider σ where
  backoff attempt s :=
    let (d, r) := c.delay attempt (random.get s)
    (d, random.set r s)
  describe :=
    Text.record "ExponentialBackoffWithJitter"
      [("config", c.describe), ("seeded", Text.flag seeded)]

end DelayProvider

/-- Backoff settings under construction; what is not given keeps its default. -/
structure BackoffBuilder where
  initialDelay : Option Duration
  scaleFactor : Option Float
  maxBackoff : Option Duration
  jitter : Option Float
  seed : Option Nat

namespace BackoffBuilder

def empty : BackoffBuilder := ⟨.none, .none, .none, .none, .none⟩

instance : Inhabited BackoffBuilder := ⟨empty⟩

def config (b : BackoffBuilder) : BackoffConfig Float :=
  let d : BackoffConfig Float := .default
  ⟨b.initialDelay.getD d.initialDelay, b.scaleFactor.getD d.scaleFactor,
    b.maxBackoff.getD d.maxBackoff, b.jitter.getD d.jitter⟩

variable {σ : Type}

def build (b : BackoffBuilder) (random : Lens σ Random) : DelayProvider σ :=
  .exponential b.config b.seed.isSome random

/-- Starts the source from the seed, if there is one. -/
def start (b : BackoffBuilder) (random : Lens σ Random) (s : σ) : σ :=
  match b.seed with
  | some seed => random.modify (·.startFrom seed) s
  | .none => s

/-- The delays, with their source started. -/
def make (b : BackoffBuilder) (random : Lens σ Random) : StateM σ (DelayProvider σ) := fun s =>
  (b.build random, b.start random s)

end BackoffBuilder

end ClientRuntime
