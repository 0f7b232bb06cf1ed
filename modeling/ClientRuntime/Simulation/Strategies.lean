import ClientRuntime.Retry.Standard
import ClientRuntime.Simulation.Buckets
import ClientRuntime.Simulation.Delays

/-!
Strategies that sessions make, with the parts of the session's state that they use.
-/

namespace ClientRuntime.Simulation

/-- A step in building a strategy. -/
inductive StrategyCall where
  | maxAttempts (n : Nat)
  | bucket (plan : BucketPlan)
  | configureBucket (calls : List BucketCall)
  | delays (plan : DelayPlan)
  | configureDelays (f : BackoffBuilder → BackoffBuilder)
  /-- The session's clock. -/
  | clock

/-- Which strategy to make. -/
inductive StrategyPlan where
  | single
  /-- The standard strategy, on the clock of the system. -/
  | default
  | config (c : RetryConfig Float)
  | built (calls : List StrategyCall)

/-- State of a strategy's parts; a bucket that the builder is given has its own account. -/
structure StrategyHost where
  own : BucketState Float
  given : BucketState Float
  random : Random

instance : Inhabited StrategyHost := ⟨⟨⟨0, default, 0⟩, ⟨0, default, 0⟩, samplesFrom 0⟩⟩

namespace StrategyHost

def ownLens : Lens StrategyHost (BucketState Float) where
  get h := h.own
  set own h := { h with own }
  get_set _ _ := rfl
  set_get _ := rfl
  set_set _ _ _ := rfl

def givenLens : Lens StrategyHost (BucketState Float) where
  get h := h.given
  set given h := { h with given }
  get_set _ _ := rfl
  set_get _ := rfl
  set_set _ _ _ := rfl

def randomLens : Lens StrategyHost Random where
  get h := h.random
  set random h := { h with random }
  get_set _ _ := rfl
  set_get _ := rfl
  set_set _ _ _ := rfl

end StrategyHost

namespace StrategyPlan

variable {η : Type}

def applyCall (part : Lens (World η) StrategyHost) (session : Clock (World η))
    (state : StrategyBuilder η × World η) :
    StrategyCall → Except SettingError (StrategyBuilder η × World η)
  | .maxAttempts n => .ok (state.1.withMaxAttempts n, state.2)
  | .bucket plan =>
    let (bucket, _, w) := plan.build (part.comp StrategyHost.givenLens) session state.2
    .ok (state.1.withBucket bucket, w)
  | .configureBucket calls => do
    let b ← state.1.configureBucket fun b => calls.foldl (BucketCall.apply session) b
    return (b, state.2)
  | .delays plan =>
    let random := part.comp StrategyHost.randomLens
    .ok (state.1.withDelays (plan.provider random), random.set plan.random state.2)
  | .configureDelays f => do return (← state.1.configureDelays f, state.2)
  | .clock => .ok (state.1.withClock session, state.2)

/-- The strategy that a plan leads to; `none` stands for a single attempt. -/
def build (part : Lens (World η) StrategyHost) (session : Clock (World η)) (plan : StrategyPlan)
    (w : World η) : Except SettingError (Option (StandardStrategy η) × World η) :=
  let own : StrategyParts η :=
    ⟨part.comp StrategyHost.ownLens, part.comp StrategyHost.randomLens, callRounds⟩
  match plan with
  | single => .ok (none, w)
  | default =>
    let (s, w) := StandardStrategy.ofConfig .default .system own w
    .ok (some s, w)
  | config c =>
    let (s, w) := StandardStrategy.ofConfig c session own w
    .ok (some s, w)
  | built calls => do
    let (b, w) ← calls.foldlM (applyCall part session) (.empty, w)
    let (s, w) := b.build own w
    return (some s, w)

end StrategyPlan

/-- The strategy of a plan, which may be for a single attempt. -/
def strategyOf {η ρ ε ν : Type} [OperationError ε] (s : Option (StandardStrategy η)) :
    RetryStrategy η ρ ε ν :=
  match s with
  | some s => s.strategy
  | none => .single

end ClientRuntime.Simulation
