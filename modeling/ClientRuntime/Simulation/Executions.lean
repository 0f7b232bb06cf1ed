import ClientRuntime.Simulation.Contexts
import ClientRuntime.Simulation.Operations
import ClientRuntime.Simulation.Policies

/-!
Sessions with one operation that is executed several times, one execution after the other or in
turns.
-/

namespace ClientRuntime.Simulation

/-- Whether and when an execution is cancelled. -/
inductive CancelPlan where
  | never
  /-- It has a token that only scripts fire. -/
  | byScript
  /-- The token fires when so many polls have been done. -/
  | after (polls : Nat)

structure RunPlan where
  input : String
  /-- A context to use again. -/
  context : Option Nat
  cancel : CancelPlan
  /-- How often the execution is polled at most. -/
  polls : Nat
  /-- How far the clock moves before the run. -/
  advance : Option Duration

namespace ExecutionSession

abbrev Polled := Paused OperationWorld (Except ServiceError String)

/-- An execution under way. -/
structure Running where
  plan : RunPlan
  /-- Its cancellation token. -/
  token : Option Nat
  polls : Nat
  fiber : Polled

inductive Ending where
  | result (r : Except ServiceError String)
  | dropped
  | panicked (text : String)

/-- An execution that has ended, after a number of polls. -/
structure Ended where
  ending : Ending
  polls : Nat

def Ended.report (e : Ended) : List (String × Json) :=
  let result :=
    match e.ending with
    | .result r => Report.result r
    | .dropped => .text "dropped"
    | .panicked text => .object [("panic", .text text)]
  [("result", result), ("polls", Report.natural e.polls)]

/-- Starts contexts for all runs that have none to use again. -/
def startContexts (plan : ContextPlan) : List RunPlan → OperationWorld →
    List (RunPlan × ExecutionId) × OperationWorld
  | [], w => ([], w)
  | run :: runs, w =>
    let known := run.context.filter (· < w.executions.length)
    let (i, w) := match known with | some i => (i, w) | none => plan.start w
    let (rest, w) := startContexts plan runs w
    ((run, i) :: rest, w)

def start (op : OperationExecution OperationHost textShape) (run : RunPlan) (i : ExecutionId)
    (w : OperationWorld) : Running × OperationWorld :=
  let token := w.host.tokens.length
  let fired (w : OperationWorld) : Bool := w.host.fired.contains token
  match run.cancel with
  | .never => (⟨run, none, 0, .start (op.execute i run.input)⟩, w)
  | _ =>
    (⟨run, some token, 0, .start (op.executeUntil fired i run.input)⟩,
      w.mapHost fun h => { h with tokens := (i, token) :: h.tokens })

/-- Fires the token if its time has come. -/
def cancelDue (r : Running) (w : OperationWorld) : OperationWorld :=
  match r.plan.cancel, r.token with
  | .after polls, some token =>
    if r.polls = polls then w.mapHost (OperationHost.fire token) else w
  | _, _ => w

/-- One turn: the cancellation, the limit of polls, and then a poll. -/
def turn (r : Running) (w : OperationWorld) : (Ended ⊕ Running) × OperationWorld :=
  let w := cancelDue r w
  if r.plan.polls ≤ r.polls then (.inl ⟨.dropped, r.polls⟩, r.fiber.drop w)
  else
    let polls := r.polls + 1
    match r.fiber.poll w with
    | (.ready result, w) => (.inl ⟨.result result, polls⟩, w)
    | (.panicked text, w) => (.inl ⟨.panicked text, polls⟩, w)
    | (.pending fiber, w) => (.inr { r with polls, fiber }, w)

/-- Turns for every execution that has not ended, in order. -/
def round : List (Ended ⊕ Running) → OperationWorld → List (Ended ⊕ Running) × OperationWorld
  | [], w => ([], w)
  | .inl e :: rs, w =>
    let (rs, w) := round rs w
    (.inl e :: rs, w)
  | .inr r :: rs, w =>
    let (r, w) := turn r w
    let (rs, w) := round rs w
    (r :: rs, w)

def ended? : Ended ⊕ Running → Option Ended
  | .inl e => some e
  | .inr _ => none

/-- Rounds until all have ended, a number of them at most. -/
def rounds : Nat → List (Ended ⊕ Running) → OperationWorld →
    List (Ended ⊕ Running) × OperationWorld
  | 0, rs, w => (rs, w)
  | n + 1, rs, w =>
    if rs.all fun r => (ended? r).isSome then (rs, w)
    else
      let (rs, w) := round rs w
      rounds n rs w

/-- Runs several executions in turns until all have ended; none outlives its limit of polls. -/
def runTogether (rs : List Running) (w : OperationWorld) : List Ended × OperationWorld :=
  let longest := (rs.map (·.plan.polls)).foldl max 0
  let (rs, w) := rounds (longest + 1) (rs.map .inr) w
  (rs.filterMap ended?, w)

def startAll (op : OperationExecution OperationHost textShape) :
    List (RunPlan × ExecutionId) → OperationWorld → List Running × OperationWorld
  | [], w => ([], w)
  | (run, i) :: runs, w =>
    let (r, w) := start op run i w
    let (rs, w) := startAll op runs w
    (r :: rs, w)

/-- Runs executions one after the other, and looks at the bucket after each. -/
def runInOrder (op : OperationExecution OperationHost textShape)
    (bucket : Option (TokenBucket OperationHost)) :
    List (RunPlan × ExecutionId) → OperationWorld → List Json × OperationWorld
  | [], w => ([], w)
  | (run, i) :: runs, w =>
    let w := match run.advance with | some d => w.advance d | none => w
    let (r, w) := start op run i w
    let (ended, w) := runTogether [r] w
    let (available, w) :=
      match bucket with
      | some b =>
        let (n, w) := b.available w
        (Report.natural n, w)
      | none => (.null, w)
    let (rest, w) := runInOrder op bucket runs w
    (ended.map (fun e => .object (e.report ++ [("available", available)])) ++ rest, w)

end ExecutionSession

/-- What a session executes, and how. -/
structure ExecutionPlan where
  context : ContextPlan
  scripts : OperationScripts
  interceptors : List InterceptorPlan
  /-- The default strategy is used without one. -/
  strategy : Option StrategyPlan
  policy : PolicyPlan
  runs : List RunPlan
  /-- Whether executions take turns. -/
  interleaved : Bool
  described : Bool

open ExecutionSession in
/-- A whole session: what it answers, and the world it leaves. -/
def executionSession (plan : ExecutionPlan) (clock : Clock OperationWorld) (w : OperationWorld) :
    Except SettingError (List (String × Json) × OperationWorld) := do
  let (standard, w) ←
    (plan.strategy.getD .default).build (World.hostLens.comp OperationHost.strategyLens) clock w
  let op := operationOf plan.scripts plan.interceptors (strategyOf standard) plan.policy.policy
  let (runs, w) := startContexts plan.context plan.runs w
  let bucket := plan.strategy.bind fun _ => standard.map (·.bucket)
  let (answers, w) :=
    if plan.interleaved then
      let (running, w) := startAll op runs w
      let (ended, w) := runTogether running w
      (ended.map fun e => .object e.report, w)
    else runInOrder op bucket runs w
  return ([("runs", .array answers),
    ("contexts", .array ((List.range w.executions.length).map (Report.execution w))),
    ("calls", .array w.host.calls.toList), ("sleeps", Report.durations w.clock.sleeps.toList),
    ("probe", Report.recording (w.trace.recording 0)), ("now", Report.instant w.clock.now),
    ("interceptors", Report.natural op.interceptors.length),
    ("debug", if plan.described then .text (op.describe w) else .null)], w)

end ClientRuntime.Simulation
