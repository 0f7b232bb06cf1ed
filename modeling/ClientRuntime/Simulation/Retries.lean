import ClientRuntime.Simulation.Act
import ClientRuntime.Simulation.Policies
import ClientRuntime.Simulation.Strategies

/-!
Sessions with one retry strategy: executions of scripted attempts, under names while they are not
finished.
-/

namespace ClientRuntime.Simulation

structure RetryHost where
  strategy : StrategyHost
  /-- Attempts started: the name of the execution and the number. -/
  attempts : History (String × Nat)

instance : Inhabited RetryHost := ⟨⟨default, .empty⟩⟩

def RetryHost.strategyLens : Lens RetryHost StrategyHost where
  get h := h.strategy
  set strategy h := { h with strategy }
  get_set _ _ := rfl
  set_get _ := rfl
  set_set _ _ _ := rfl

inductive RetryCommand where
  | clock (c : ClockCommand)
  | run (name : String) (script : List Act) (polls : Nat)
  | start (name : String) (script : List Act) (polls : Nat)
  | poll (name : String) (polls : Nat)
  | stop (name : String)
  | maxAttempts
  | available
  | delay (attempt : Nat)
  | describe

namespace RetrySession

abbrev State := World RetryHost

abbrev Running := Paused State (Retried String ServiceError Unit)

structure Session where
  world : State
  running : Names Running

/-- What a session is about. -/
structure Setting where
  standard : Option (StandardStrategy RetryHost)
  policy : RetryPolicy String ServiceError
  span : SpanId

def attempt (name : String) (script : List Act) : Attempt RetryHost String ServiceError Unit :=
  fun n => do
    Fiber.modify (World.mapHost fun h => { h with attempts := h.attempts.push (name, n) })
    let result ← (scriptAt script (n - 1)).run id
    return (result.getD (.ok ("done " ++ toString n)), ())

def execution (c : Setting) (name : String) (script : List Act) : Running :=
  .start ((strategyOf c.standard).retry c.policy.judge c.span (attempt name script))

/-- The answer to polling, and what is left running. -/
def settled : Paused.Outcome State (Retried String ServiceError Unit) → Json × Option Running
  | .ready r => (Report.outcome r.outcome, none)
  | .panicked text => (.object [("panic", .text text)], none)
  | .pending p => (.text "pending", some p)

def forget (s : Session) (name : String) : Session :=
  match s.running.at? name with
  | some p => { world := p.drop s.world, running := s.running.remove name }
  | none => s

def pollNamed (s : Session) (name : String) (p : Running) (polls : Nat) : Json × Session :=
  let (o, world) := p.pollTimes polls s.world
  let (answer, left) := settled o
  match left with
  | some p =>
    let s := forget { s with world } name
    (answer, { s with running := s.running.put name p })
  | none => (answer, { s with world })

def run (c : Setting) : RetryCommand → Session → Json × Session
  | .clock command, s =>
    let (answer, world) := command.run s.world
    (answer, { s with world })
  | .run name script polls, s =>
    let (o, world) := (execution c name script).pollTimes polls s.world
    let (answer, left) := settled o
    (answer, { s with world := match left with | some p => p.drop world | none => world })
  | .start name script polls, s => pollNamed s name (execution c name script) polls
  | .poll name polls, s =>
    match s.running.at? name with
    | some p => pollNamed { s with running := s.running.remove name } name p polls
    | none => (.text "nothing running", s)
  | .stop name, s => (.flag (s.running.at? name).isSome, forget s name)
  | .maxAttempts, s =>
    let strategy : RetryStrategy RetryHost String ServiceError Unit := strategyOf c.standard
    (Report.natural strategy.maxAttempts, s)
  | .available, s =>
    match c.standard with
    | some standard =>
      let (n, world) := standard.bucket.available s.world
      (Report.natural n, { s with world })
    | none => (.null, s)
  | .delay n, s =>
    match c.standard with
    | some standard =>
      let (d, world) := standard.delays.backoff n s.world
      (Report.duration d, { s with world })
    | none => (.null, s)
  | .describe, s =>
    let strategy : RetryStrategy RetryHost String ServiceError Unit := strategyOf c.standard
    (.text (strategy.describe s.world), s)

/-- Lets go of what is still running. -/
def close (s : Session) : State := s.running.sorted.foldl (fun w p => p.2.drop w) s.world

end RetrySession

/-- A whole session: what it answers, and the world it leaves. -/
def retrySession (plan : StrategyPlan) (policy : PolicyPlan) (clock : Clock (World RetryHost))
    (commands : List RetryCommand) (w : World RetryHost) :
    Except SettingError (List (String × Json) × World RetryHost) := do
  let (standard, w) ← plan.build (World.hostLens.comp RetryHost.strategyLens) clock w
  let (span, w) := w.createRoot "op" (.recording 0)
  let (answers, s) :=
    runEach (RetrySession.run ⟨standard, policy.policy, span⟩) commands ⟨w, []⟩
  let w := RetrySession.close s
  return ([("steps", .array answers),
    ("blocks", .array (w.host.attempts.toList.map fun a => .array [.text a.1, Report.natural a.2])),
    ("sleeps", Report.durations w.clock.sleeps.toList),
    ("events", .array ((w.trace.recording 0).events.toList.map Report.event))], w)

end ClientRuntime.Simulation
