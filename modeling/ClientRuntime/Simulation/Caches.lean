import ClientRuntime.Cache.ReadThrough
import ClientRuntime.Report.Retry
import ClientRuntime.Simulation.Act
import ClientRuntime.Simulation.Session

/-!
Sessions with one cache of texts, with scripted lookups.
-/

namespace ClientRuntime.Simulation

structure CacheHost where
  contents : CacheState String String
  lock : Lock
  /-- Keys looked up by the command under way. -/
  lookups : History String

instance : Inhabited CacheHost := ⟨⟨.empty .epoch, .free, .empty⟩⟩

namespace CacheHost

def contentsLens : Lens CacheHost (CacheState String String) where
  get h := h.contents
  set contents h := { h with contents }
  get_set _ _ := rfl
  set_get _ := rfl
  set_set _ _ _ := rfl

def lockLens : Lens CacheHost Lock where
  get h := h.lock
  set lock h := { h with lock }
  get_set _ _ := rfl
  set_get _ := rfl
  set_set _ _ _ := rfl

end CacheHost

/-- When a value that was looked up expires. -/
inductive Expiry where
  | after (ttl : Duration)
  | fixed (t : Instant)

structure CacheGet where
  key : String
  act : Act
  expiry : Expiry

inductive CacheCommand where
  | clock (c : ClockCommand)
  /-- Gets that are started together, and how often they are polled. -/
  | get (gets : List CacheGet) (polls : Nat)
  | invalidate (key : String)
  | size
  | period
  | describe

namespace CacheSession

abbrev State := World CacheHost

abbrev Got := Except ServiceError String

def lookup (g : CacheGet) (key : String) :
    Fiber State (Except ServiceError (Expiring String)) := do
  Fiber.modify (World.mapHost fun h => { h with lookups := h.lookups.push key })
  match (← g.act.run id).getD (.ok key) with
  | .error e => return .error e
  | .ok value =>
    let now ← Fiber.gets fun w => w.clock.now
    return .ok <|
      match g.expiry with
      | .after ttl => .expiresIn value now ttl
      | .fixed t => ⟨value, t⟩

/-- A round over several fibers: each that is not finished is polled once, in order. -/
def pollRound : List (Paused.Outcome State Got) → State → List (Paused.Outcome State Got) × State
  | [], w => ([], w)
  | .pending p :: os, w =>
    let (o, w) := p.poll w
    let (os, w) := pollRound os w
    (o :: os, w)
  | o :: os, w =>
    let (os, w) := pollRound os w
    (o :: os, w)

def finished? : Paused.Outcome State Got → Option Got
  | .ready r => some r
  | _ => none

def letGo (w : State) : Paused.Outcome State Got → State
  | .pending p => p.drop w
  | _ => w

/-- Polls until all are finished, a number of rounds at most; then the rest are let go. -/
def pollRounds : Nat → List (Paused.Outcome State Got) → State → Option (List Got) × State
  | 0, os, w => (none, os.foldl letGo w)
  | n + 1, os, w =>
    let (os, w) := pollRound os w
    match os.mapM finished? with
    | some results => (some results, w)
    | none => pollRounds n os w

/-- An operation that finds the lock free. -/
def atOnce (m : Fiber State Unit) (w : State) : State := ((Paused.start m).poll w).2

def run (c : ReadThroughCache CacheHost String String) : CacheCommand → State → Json × State
  | .clock command, w => command.run w
  | .get gets polls, w =>
    let w := (w.elapse (.ofNanos 1000)).mapHost fun h => { h with lookups := .empty }
    let (results, w) :=
      pollRounds polls
        (gets.map fun g => .pending (.start (c.get g.key (lookup g)))) w
    let answer :=
      match results with
      | some results => .array (results.map Report.result)
      | none => .text "pending"
    (.object [("results", answer), ("lookups", Report.texts w.host.lookups.toList)], w)
  | .invalidate key, w => (.null, atOnce (c.invalidate key) w)
  | .size, w =>
    match (Paused.start c.size).poll w with
    | (.ready n, w) => (Report.natural n, w)
    | (_, w) => (.text "pending", w)
  | .period, w => (Report.duration c.period, w)
  | .describe, w => (.text c.describe, w)

end CacheSession

/-- A whole session: its answers and the world it leaves. -/
def cacheSession (period : Duration) (clock : Clock (World CacheHost))
    (commands : List CacheCommand) (w : World CacheHost) : List Json × World CacheHost :=
  let c : ReadThroughCache CacheHost String String :=
    ⟨period, clock, World.hostLens.comp CacheHost.contentsLens,
      World.hostLens.comp CacheHost.lockLens⟩
  runEach (CacheSession.run c) commands
    (c.contents.set (ReadThroughCache.initial period (clock.now w)) w)

end ClientRuntime.Simulation
