import ClientRuntime.Operation.Step
import ClientRuntime.Retry.Strategy

/-!
Executing an operation: the input is serialized, attempts are made as the retry strategy says, each
signs a request of its own, sends it and deserializes the response, and at every stage the
interceptors' hooks run in the order of registration. An error before the attempts leads to
completion; an error within an attempt leads to the end of the attempt.
-/

namespace ClientRuntime

/-- The request of an attempt as it was last, and the response if one came. -/
structure Exchange (S : OperationShape) where
  request : S.Request
  response : Option S.Response

structure OperationExecution (η : Type) (S : OperationShape) where
  serialize : ExecutionId → S.Input → Fiber (World η) (Except S.Error S.Request)
  sign : ExecutionId → S.Request → Change η S.Request S
  send : ExecutionId → S.Request → Fiber (World η) (Except S.Error S.Response)
  deserialize : ExecutionId → S.Response → Fiber (World η) S.Result
  interceptors : List (Interceptor η S)
  strategy : RetryStrategy η S.Output S.Error (Exchange S)
  judge : Judge (World η) S.Output S.Error

namespace OperationExecution

variable {η : Type} {S : OperationShape} {δ : Type}

/-- A modifying hook of every interceptor. -/
def modify (op : OperationExecution η S) (hook : Interceptor η S → Step η δ S) : Step η δ S :=
  .sequence (op.interceptors.map hook)

/-- A reading hook of every interceptor, up to the first error. -/
def read (op : OperationExecution η S) (hook : Interceptor η S → δ → Check η S) : Step η δ S :=
  op.modify fun i => .ofCheck (hook i)

/-- A reading hook of every interceptor, whatever the others do. -/
def readAll (op : OperationExecution η S) (id : ExecutionId) (stage : Stage)
    (hook : Interceptor η S → δ → Check η S) : Step η δ S :=
  .ofCheck fun d => checkAll id stage (op.interceptors.map (hook · d))

def beforeSerialization (op : OperationExecution η S) (id : ExecutionId) : Step η S.Input S :=
  let view (input : S.Input) : InputView S := ⟨id, input⟩
  .sequence
    [op.readAll id .readBeforeExecution fun i d => i.readBeforeExecution (view d),
      op.modify fun i d => i.modifyBeforeSerialization (view d),
      op.read fun i d => i.readBeforeSerialization (view d)]

def afterSerialization (op : OperationExecution η S) (id : ExecutionId) (input : S.Input) :
    Step η S.Request S :=
  let view (request : S.Request) : RequestView S := ⟨id, input, request⟩
  .sequence
    [op.read fun i d => i.readAfterSerialization (view d),
      op.modify fun i d => i.modifyBeforeRetryLoop (view d)]

/-- The request that attempts start from. The input comes back as hooks left it. -/
def prepare (op : OperationExecution η S) (id : ExecutionId) (input : S.Input) :
    Fiber (World η) (S.Input × Except S.Error S.Request) := do
  let (input, passed) ← op.beforeSerialization id input
  match passed with
  | .error e => return (input, .error e)
  | .ok () =>
    match ← op.serialize id input with
    | .error e => return (input, .error e)
    | .ok request =>
      let (request, passed) ← op.afterSerialization id input request
      return (input, passed.map fun _ => request)

def beforeTransmission (op : OperationExecution η S) (id : ExecutionId) (input : S.Input) :
    Step η S.Request S :=
  let view (request : S.Request) : RequestView S := ⟨id, input, request⟩
  .sequence
    [op.readAll id .readBeforeAttempt fun i d => i.readBeforeAttempt (view d),
      op.modify fun i d => i.modifyBeforeSigning (view d),
      op.read fun i d => i.readBeforeSigning (view d),
      op.sign id,
      op.read fun i d => i.readAfterSigning (view d),
      op.modify fun i d => i.modifyBeforeTransmit (view d),
      op.read fun i d => i.readBeforeTransmit (view d)]

def afterTransmission (op : OperationExecution η S) (id : ExecutionId) (input : S.Input)
    (request : S.Request) : Step η S.Response S :=
  let view (response : S.Response) : ResponseView S := ⟨id, input, request, response⟩
  .sequence
    [op.read fun i d => i.readAfterTransmit (view d),
      op.modify fun i d => i.modifyBeforeDeserialization (view d),
      op.read fun i d => i.readBeforeDeserialization (view d)]

/-- Everything up to deserialization. The inner result is what deserialization came to; any
earlier error is the outer one. -/
def transmit (op : OperationExecution η S) (id : ExecutionId) (input : S.Input)
    (base : S.Request) : Fiber (World η) (Exchange S × Except S.Error S.Result) := do
  let (request, passed) ← op.beforeTransmission id input base
  match passed with
  | .error e => return (⟨request, none⟩, .error e)
  | .ok () =>
    match ← op.send id request with
    | .error e => return (⟨request, none⟩, .error e)
    | .ok response =>
      let (response, passed) ← op.afterTransmission id input request response
      match passed with
      | .error e => return (⟨request, some response⟩, .error e)
      | .ok () => return (⟨request, some response⟩, .ok (← op.deserialize id response))

/-- Runs a last reading hook on a result; an error of it overrules. -/
def conclude (op : OperationExecution η S) (id : ExecutionId) (stage : Stage)
    (hook : Interceptor η S → Check η S) (result : S.Result) : Fiber (World η) S.Result := do
  match ← checkAll id stage (op.interceptors.map hook) with
  | .ok () => return result
  | .error e => overrule id stage result e

/-- What the hooks after deserialization make of its result. -/
def settle (op : OperationExecution η S) (id : ExecutionId) (view : S.Result → ResultView S)
    (result : S.Result) : Fiber (World η) S.Result := do
  let (_, passed) ← op.read (fun i d => i.readAfterDeserialization (view d)) result
  match passed with
  | .ok () =>
    reviseAll id .modifyBeforeAttemptCompletion
      (op.interceptors.map fun i d => i.modifyBeforeAttemptCompletion (view d)) result
  | .error e => overrule id .readAfterDeserialization result e

def failed (result : S.Result) : Bool := !result.isOk

/-- One attempt, in a span of its own. It starts from the request that was prepared. -/
def attempt (op : OperationExecution η S) (id : ExecutionId) (input : S.Input)
    (base : S.Request) : Attempt η S.Output S.Error (Exchange S) := fun n => do
  Fiber.modify (World.beginAttempt id n)
  let span ← Fiber.modifyGet fun w =>
    w.createChild (w.execution id).span ("attempt-" ++ toString n)
  spanClosing span (fun made => failed made.1) do
    let (exchange, sent) ← op.transmit id input base
    let view (result : S.Result) : ResultView S :=
      ⟨id, input, some exchange.request, exchange.response, result⟩
    let result ←
      match sent with
      | .ok result => op.settle id view result
      | .error e => pure (.error e)
    let result ← op.conclude id .readAfterAttempt (fun i => i.readAfterAttempt (view result)) result
    return (result, exchange)

/-- Makes attempts, if there is a request to make them with. -/
def retry (op : OperationExecution η S) (id : ExecutionId) (input : S.Input)
    (prepared : Except S.Error S.Request) :
    Fiber (World η) (S.Result × Option (Exchange S)) := do
  match prepared with
  | .error e => return (.error e, none)
  | .ok request =>
    let span ← Fiber.gets fun w => (w.execution id).span
    let retried ← op.strategy.retry op.judge span (op.attempt id input request)
    let outcome := retried.outcome
    Fiber.modify fun w =>
      w.emit .debug
        [("operation", .text (w.execution id).operation),
          ("attempts", .natural outcome.attempts), ("success", .flag outcome.isResponse)]
        "Retry loop finished"
    return (outcome.toResult, retried.last)

/-- What the hooks after the attempts make of a result. -/
def complete (op : OperationExecution η S) (id : ExecutionId) (view : S.Result → ResultView S)
    (result : S.Result) : Fiber (World η) S.Result := do
  let result ←
    reviseAll id .modifyBeforeCompletion
      (op.interceptors.map fun i d => i.modifyBeforeCompletion (view d)) result
  op.conclude id .readAfterExecution (fun i => i.readAfterExecution (view result)) result

/-- Runs the operation and closes its span. -/
def execute (op : OperationExecution η S) (id : ExecutionId) (input : S.Input) :
    Fiber (World η) S.Result := do
  let span ← Fiber.gets fun w => (w.execution id).span
  spanClosing span failed do
    let (input, prepared) ← op.prepare id input
    let (result, last) ← op.retry id input prepared
    let view (result : S.Result) : ResultView S :=
      ⟨id, input, last.map (·.request), last.bind (·.response), result⟩
    op.complete id view result

/-- Runs the operation until a signal fires, which is looked at whenever the execution is about to
be polled. Then the execution is dropped where it stands. -/
def executeUntil (op : OperationExecution η S) (fired : World η → Bool) (id : ExecutionId)
    (input : S.Input) : Fiber (World η) S.Result :=
  let cancelled : Fiber (World η) S.Result := do
    Fiber.modify fun w =>
      let e := w.execution id
      w.emit .debug
        [("operation", .text e.operation), ("execution_id", .text e.idText),
          ("attempt", .natural e.attempt)]
        "Execution cancelled"
    return .error (OperationError.ofRetry .cancelled)
  Fiber.giveUpWhen fired cancelled (op.execute id input)

/-- Leaves requests unsigned. -/
def unsigned : ExecutionId → S.Request → Change η S.Request S := fun _ request => .keep request

def describe (op : OperationExecution η S) (w : World η) : String :=
  Text.openRecord "OperationExecution"
    [("interceptors", Text.list (op.interceptors.map (·.describe))),
      ("retry_strategy", op.strategy.describe w)]

end OperationExecution

end ClientRuntime
