import ClientRuntime.Report.Config
import ClientRuntime.Report.Retry
import ClientRuntime.Retry.Bucket.Acquire
import ClientRuntime.Simulation.Session

/-!
Sessions with one token bucket: tokens and waiting acquisitions under names.
-/

namespace ClientRuntime.Simulation

inductive ClockChoice where
  /-- The clock of the session. -/
  | session
  /-- A clock that stands still. -/
  | frozen
  | system

def ClockChoice.clock {η : Type} (session : Clock (World η)) : ClockChoice → Clock (World η)
  | .session => session
  | frozen => .still "Frozen" .epoch
  | system => .system

/-- A step in building a bucket. -/
inductive BucketCall where
  | clock (choice : ClockChoice)
  /-- Offers the session's clock. -/
  | defaultClock
  | edit (f : BucketConfig → BucketConfig)

def BucketCall.apply {η : Type} (session : Clock (World η)) (b : BucketBuilder η) :
    BucketCall → BucketBuilder η
  | .clock choice => b.withClock (choice.clock session)
  | defaultClock => b.withDefaultClock session
  | edit f => { b with config := f b.config }

/-- Which bucket to make. -/
inductive BucketPlan where
  | infinite
  | standard (config : BucketConfig) (calls : List BucketCall)

namespace BucketPlan

variable {η : Type}

def builder (session : Clock (World η)) (config : BucketConfig) (calls : List BucketCall) :
    BucketBuilder η :=
  calls.foldl (BucketCall.apply session) ⟨config, none⟩

/-- The bucket and its settings, if it has any. -/
def build (account : Lens (World η) (BucketState Float)) (session : Clock (World η))
    (plan : BucketPlan) (w : World η) : TokenBucket η × Option BucketConfig × World η :=
  match plan with
  | infinite => (.infinite, none, w)
  | standard config calls =>
    let b := (builder session config calls).build account callRounds
    (b.tokenBucket, some b.config, b.openAccount w)

end BucketPlan

structure BucketHost where
  account : BucketState Float
  /-- Releases that the session's own ledger has seen. -/
  released : History (Nat × TokenOutcome)

instance : Inhabited BucketHost := ⟨⟨⟨0, default, 0⟩, .empty⟩⟩

namespace BucketHost

def accountLens : Lens BucketHost (BucketState Float) where
  get h := h.account
  set account h := { h with account }
  get_set _ _ := rfl
  set_get _ := rfl
  set_set _ _ _ := rfl

end BucketHost

inductive BucketCommand where
  | clock (c : ClockCommand)
  | acquire (name : String) (attempt : Nat) (cause : Option RetryCause)
  | poll (name : String)
  | giveUp (name : String)
  | burst (n attempt : Nat) (cause : Option RetryCause)
  | custom (name : String) (attempt cost : Nat) (reports : Bool)
  | release (name : String) (outcome : TokenOutcome)
  | drop (name : String)
  | token (name : String)
  | available
  | capacity
  | describe

abbrev Granting := Except RetryError (RetryToken BucketHost)

structure BucketSession where
  world : World BucketHost
  tokens : Names (RetryToken BucketHost)
  pending : Names (Paused (World BucketHost) Granting)

namespace BucketSession

def tokenReport (t : RetryToken BucketHost) : Json :=
  .object [("attempt", Report.natural t.attempt), ("cost", Report.natural t.cost)]

def grantingReport : Granting → Json
  | .ok t => tokenReport t
  | .error e => Report.retryError e

/-- Keeps a token; one that had its name is let go. -/
def keep (s : BucketSession) (name : String) (t : RetryToken BucketHost) : BucketSession :=
  let world := match s.tokens.at? name with | some old => old.drop s.world | none => s.world
  { s with world, tokens := s.tokens.put name t }

def forget (s : BucketSession) (name : String) : BucketSession :=
  match s.pending.at? name with
  | some p => { s with world := p.drop s.world, pending := s.pending.remove name }
  | none => s

/-- What a poll of an acquisition came to. -/
def settle (s : BucketSession) (name : String) :
    Paused.Outcome (World BucketHost) Granting → Json × BucketSession
  | .ready granting =>
    let s := match granting with | .ok t => s.keep name t | .error _ => s
    (grantingReport granting, s)
  | .panicked text => (.object [("panic", .text text)], s)
  | .pending p =>
    let s := s.forget name
    (.text "pending", { s with pending := s.pending.put name p })

/-- One poll for each of several acquisitions, in order. -/
def pollEach (b : TokenBucket BucketHost) (attempt : Nat) (cause : Option RetryCause) :
    Nat → World BucketHost →
      List (Paused.Outcome (World BucketHost) Granting) × World BucketHost
  | 0, w => ([], w)
  | n + 1, w =>
    let (o, w) := (Paused.start (b.acquire attempt cause)).poll w
    let (os, w) := pollEach b attempt cause n w
    (o :: os, w)

def dropOutcome (w : World BucketHost) :
    Paused.Outcome (World BucketHost) Granting → World BucketHost
  | .ready (.ok t) => t.drop w
  | .pending p => p.drop w
  | _ => w

def readyReport? : Paused.Outcome (World BucketHost) Granting → Option Json
  | .ready granting => some (grantingReport granting)
  | _ => none

def recordRelease : Ledger (World BucketHost) := fun cost outcome =>
  World.mapHost fun h => { h with released := h.released.push (cost, outcome) }

/-- Takes a token out of the session. -/
def withToken (s : BucketSession) (name : String)
    (f : RetryToken BucketHost → World BucketHost → World BucketHost) : Json × BucketSession :=
  match s.tokens.at? name with
  | some t => (.null, { s with world := f t s.world, tokens := s.tokens.remove name })
  | none => (.text "no token", s)

def run (b : TokenBucket BucketHost) : BucketCommand → BucketSession → Json × BucketSession
  | .clock c, s =>
    let (answer, world) := c.run s.world
    (answer, { s with world })
  | .acquire name attempt cause, s =>
    let (o, world) := (Paused.start (b.acquire attempt cause)).poll s.world
    settle { s with world } name o
  | .poll name, s =>
    match s.pending.at? name with
    | some p =>
      let (o, world) := p.poll s.world
      settle { s with world, pending := s.pending.remove name } name o
    | none => (.text "nothing waiting", s)
  | .giveUp name, s => (.flag (s.pending.at? name).isSome, s.forget name)
  | .burst n attempt cause, s =>
    let (os, world) := pollEach b attempt cause n s.world
    let answer :=
      match os.mapM readyReport? with
      | some reports => .array reports
      | none => .text "pending"
    (answer, { s with world := os.foldl dropOutcome world })
  | .custom name attempt cost reports, s =>
    let t : RetryToken BucketHost := ⟨attempt, cost, if reports then some recordRelease else none⟩
    (tokenReport t, s.keep name t)
  | .release name outcome, s => s.withToken name fun t w => t.release outcome w
  | .drop name, s => s.withToken name RetryToken.drop
  | .token name, s =>
    match s.tokens.at? name with
    | some t => (.text t.describe, s)
    | none => (.text "no token", s)
  | .available, s =>
    let (n, world) := b.available s.world
    (Report.natural n, { s with world })
  | .capacity, s => (Report.natural b.capacity, s)
  | .describe, s => (.text (b.describe s.world), s)

/-- Lets go of what is still waiting, then of the tokens still held. -/
def close (s : BucketSession) : World BucketHost :=
  let w := s.pending.sorted.foldl (fun w p => p.2.drop w) s.world
  s.tokens.sorted.foldl (fun w t => t.2.drop w) w

end BucketSession

/-- A whole session: what it answers, and the world it leaves. -/
def bucketSession (plan : BucketPlan) (clock : Clock (World BucketHost))
    (commands : List BucketCommand) (w : World BucketHost) :
    List (String × Json) × World BucketHost :=
  let (b, config, w) := plan.build (World.hostLens.comp BucketHost.accountLens) clock w
  let (answers, s) := runEach (BucketSession.run b) commands ⟨w, [], []⟩
  let w := s.close
  ([("config", Report.option Report.bucketConfig config), ("steps", .array answers),
    ("released", .array (w.host.released.toList.map fun r =>
      .array [Report.natural r.1, .text r.2.name])),
    ("sleeps", Report.durations w.clock.sleeps.toList)], w)

end ClientRuntime.Simulation
