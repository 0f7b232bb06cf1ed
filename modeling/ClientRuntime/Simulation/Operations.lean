import ClientRuntime.Operation.Execution
import ClientRuntime.Operation.Observers
import ClientRuntime.Report.Retry
import ClientRuntime.Simulation.Act
import ClientRuntime.Simulation.Strategies

/-!
An operation on texts whose collaborators and interceptors follow scripts. Every call is recorded.
-/

namespace ClientRuntime.Simulation

@[reducible] def textShape : OperationShape where
  Input := String
  Request := String
  Response := String
  Output := String
  Error := ServiceError
  errors := inferInstance

inductive Collaborator where
  | serializer
  | signer
  | transport
  | deserializer
  deriving DecidableEq

def Collaborator.label : Collaborator → String
  | serializer => "<serializer>"
  | signer => "<signer>"
  | transport => "<transport>"
  | deserializer => "<deserializer>"

/-- How often each of a few things happened. -/
abbrev Tally (κ : Type) := List (κ × Nat)

namespace Tally

variable {κ : Type} [DecidableEq κ]

def count (t : Tally κ) (k : κ) : Nat := ((t.find? (·.1 = k)).map (·.2)).getD 0

def add (t : Tally κ) (k : κ) : Tally κ := (k, t.count k + 1) :: t.filter (·.1 ≠ k)

end Tally

structure OperationHost where
  strategy : StrategyHost
  /-- Calls of collaborators and hooks. -/
  calls : History Json
  collaborations : Tally Collaborator
  /-- Calls of hooks, by the place of the interceptor and the stage. -/
  hookings : Tally (Nat × Stage)
  /-- Cancellation tokens of executions, the latest first. -/
  tokens : List (ExecutionId × Nat)
  /-- Tokens that have fired. -/
  fired : List Nat

instance : Inhabited OperationHost := ⟨⟨default, .empty, [], [], [], []⟩⟩

namespace OperationHost

def strategyLens : Lens OperationHost StrategyHost where
  get h := h.strategy
  set strategy h := { h with strategy }
  get_set _ _ := rfl
  set_get _ := rfl
  set_set _ _ _ := rfl

def record (call : Json) (h : OperationHost) : OperationHost :=
  { h with calls := h.calls.push call }

def fire (token : Nat) (h : OperationHost) : OperationHost := { h with fired := token :: h.fired }

/-- Fires the latest token of an execution, if it has one. -/
def fireLatest (i : ExecutionId) (h : OperationHost) : OperationHost :=
  match h.tokens.find? (·.1 = i) with
  | some (_, token) => h.fire token
  | none => h

end OperationHost

abbrev OperationWorld := World OperationHost

def cancelOf (i : ExecutionId) : OperationWorld → OperationWorld :=
  World.mapHost (OperationHost.fireLatest i)

/-- A call of a collaborator: it is recorded, and its script is followed. -/
def collaborate (c : Collaborator) (script : List Act) (i : ExecutionId) (argument : String) :
    Fiber OperationWorld (Option (Except ServiceError String)) := do
  let n ← Fiber.modifyGet fun w =>
    let call : Json :=
      .array [.text c.label, Report.natural (w.execution i).attempt, .text argument]
    (Tally.count w.host.collaborations c,
      w.mapHost fun h => { h.record call with collaborations := Tally.add h.collaborations c })
  (scriptAt script n).run (cancelOf i)

structure OperationScripts where
  serializer : List Act
  /-- Requests are left unsigned without a script. -/
  signer : Option (List Act)
  transport : List Act
  deserializer : List Act

namespace OperationScripts

def responseMark : String := "resp:"

def withoutMark (response : String) : String :=
  if responseMark.toList.isPrefixOf response.toList then
    String.ofList (response.toList.drop responseMark.length)
  else response

def serialize (s : OperationScripts) (i : ExecutionId) (input : String) :
    Fiber OperationWorld (Except ServiceError String) := do
  return (← collaborate .serializer s.serializer i input).getD (.ok ("req:" ++ input))

def sign (s : OperationScripts) (i : ExecutionId) (request : String) :
    Change OperationHost String textShape := do
  match s.signer with
  | none => OperationExecution.unsigned (S := textShape) i request
  | some script =>
    match (← collaborate .signer script i request).getD (.ok "|signed") with
    | .ok signature => return (request ++ signature, .ok ())
    | .error e => return (request, .error e)

def send (s : OperationScripts) (i : ExecutionId) (request : String) :
    Fiber OperationWorld (Except ServiceError String) := do
  return (← collaborate .transport s.transport i request).getD (.ok (responseMark ++ request))

def deserialize (s : OperationScripts) (i : ExecutionId) (response : String) :
    Fiber OperationWorld (Except ServiceError String) := do
  return (← collaborate .deserializer s.deserializer i response).getD (.ok (withoutMark response))

end OperationScripts

/-- What a hook does on some of its calls. -/
structure HookAct where
  stage : Stage
  /-- Numbers of the calls, counted from one; none given stands for all. -/
  calls : List Nat
  note : Option String
  act : Act
  replacement : Option String
  suffix : Option String
  failure : Option ServiceError

namespace HookAct

def idle (stage : Stage) : HookAct := ⟨stage, [], none, .plain, none, none, none⟩

def applies (a : HookAct) (stage : Stage) (call : Nat) : Bool :=
  a.stage = stage && (a.calls.isEmpty || a.calls.contains call)

def edit (a : HookAct) (text : String) : String :=
  a.replacement.getD text ++ a.suffix.getD ""

def verdict (a : HookAct) : Except ServiceError Unit :=
  match a.failure with
  | some e => .error e
  | none => .ok ()

end HookAct

structure HookScript where
  name : String
  acts : List HookAct

/-- What a hook sees, as it is recorded. -/
abbrev Seen := List (String × Json)

def noteKey : AttributeKey := ⟨"note", .text⟩

namespace HookScript

def callReport (w : OperationWorld) (name : String) (stage : Stage) (i : ExecutionId)
    (seen : Seen) : Json :=
  let e := w.execution i
  .array ([.text (name ++ ":" ++ stage.name), Report.natural e.attempt, .object seen]
    ++ ((e.attributes.get? noteKey).map Report.attributeValue).toList)

/-- Records a call of a hook and finds what it is to do. -/
def call (s : HookScript) (place : Nat) (stage : Stage) (i : ExecutionId) (seen : Seen) :
    Fiber OperationWorld HookAct :=
  Fiber.modifyGet fun w =>
    let report := callReport w s.name stage i seen
    let w := w.mapHost fun h =>
      { h.record report with hookings := Tally.add h.hookings (place, stage) }
    let number := Tally.count w.host.hookings (place, stage)
    let a := (s.acts.find? (·.applies stage number)).getD (.idle stage)
    (a,
      match a.note with
      | some note => w.setExecutionAttribute i noteKey (.text note)
      | none => w)

def check (s : HookScript) (place : Nat) (stage : Stage) (i : ExecutionId) (seen : Seen) :
    Check OperationHost textShape := do
  let a ← s.call place stage i seen
  let _ ← a.act.run (cancelOf i)
  return a.verdict

def change (s : HookScript) (place : Nat) (stage : Stage) (i : ExecutionId) (seen : Seen)
    (text : String) : Change OperationHost String textShape := do
  let a ← s.call place stage i seen
  let _ ← a.act.run (cancelOf i)
  return (a.edit text, a.verdict)

def revise (s : HookScript) (place : Nat) (stage : Stage) (i : ExecutionId) (seen : Seen)
    (result : Except ServiceError String) :
    Change OperationHost (Except ServiceError String) textShape := do
  let a ← s.call place stage i seen
  let result := (← a.act.run (cancelOf i)).getD result
  return (result.map a.edit, a.verdict)

def seenInput (v : InputView textShape) : Seen := [("in", .text v.input)]

def seenRequest (v : RequestView textShape) : Seen :=
  [("in", .text v.input), ("req", .text v.request)]

def seenResponse (v : ResponseView textShape) : Seen :=
  [("in", .text v.input), ("req", .text v.request), ("resp", .text v.response)]

def seenResult (v : ResultView textShape) : Seen :=
  [("in", .text v.input), ("req", Report.option .text v.request),
    ("resp", Report.option .text v.response), ("res", Report.result v.result)]

/-- The interceptor that follows the script, at its place among all. -/
def interceptor (s : HookScript) (place : Nat) : Interceptor OperationHost textShape :=
  let onInput (stage : Stage) (v : InputView textShape) :=
    s.check place stage v.execution (seenInput v)
  let onRequest (stage : Stage) (v : RequestView textShape) :=
    s.check place stage v.execution (seenRequest v)
  let changeRequest (stage : Stage) (v : RequestView textShape) :=
    s.change place stage v.execution (seenRequest v) v.request
  let onResponse (stage : Stage) (v : ResponseView textShape) :=
    s.check place stage v.execution (seenResponse v)
  let onResult (stage : Stage) (v : ResultView textShape) :=
    s.check place stage v.execution (seenResult v)
  let changeResult (stage : Stage) (v : ResultView textShape) :=
    s.revise place stage v.execution (seenResult v) v.result
  { describe := Text.application "Hooks" s.name
    readBeforeExecution := onInput .readBeforeExecution
    modifyBeforeSerialization := fun v =>
      s.change place .modifyBeforeSerialization v.execution (seenInput v) v.input
    readBeforeSerialization := onInput .readBeforeSerialization
    readAfterSerialization := onRequest .readAfterSerialization
    modifyBeforeRetryLoop := changeRequest .modifyBeforeRetryLoop
    readBeforeAttempt := onRequest .readBeforeAttempt
    modifyBeforeSigning := changeRequest .modifyBeforeSigning
    readBeforeSigning := onRequest .readBeforeSigning
    readAfterSigning := onRequest .readAfterSigning
    modifyBeforeTransmit := changeRequest .modifyBeforeTransmit
    readBeforeTransmit := onRequest .readBeforeTransmit
    readAfterTransmit := onResponse .readAfterTransmit
    modifyBeforeDeserialization := fun v =>
      s.change place .modifyBeforeDeserialization v.execution (seenResponse v) v.response
    readBeforeDeserialization := onResponse .readBeforeDeserialization
    readAfterDeserialization := onResult .readAfterDeserialization
    modifyBeforeAttemptCompletion := changeResult .modifyBeforeAttemptCompletion
    readAfterAttempt := onResult .readAfterAttempt
    modifyBeforeCompletion := changeResult .modifyBeforeCompletion
    readAfterExecution := onResult .readAfterExecution }

end HookScript

inductive InterceptorPlan where
  | logging
  | metrics
  | scripted (s : HookScript)

def InterceptorPlan.interceptor (place : Nat) :
    InterceptorPlan → Interceptor OperationHost textShape
  | logging => .logging
  | metrics => .metrics
  | scripted s => s.interceptor place

/-- The operation that scripts describe, with its interceptors in order. -/
def operationOf (scripts : OperationScripts) (interceptors : List InterceptorPlan)
    (strategy : RetryStrategy OperationHost String ServiceError (Exchange textShape))
    (policy : RetryPolicy String ServiceError) : OperationExecution OperationHost textShape where
  serialize := scripts.serialize
  sign := scripts.sign
  send := scripts.send
  deserialize := scripts.deserialize
  interceptors := interceptors.mapIdx fun place p => p.interceptor place
  strategy := strategy
  judge := policy.judge

end ClientRuntime.Simulation
