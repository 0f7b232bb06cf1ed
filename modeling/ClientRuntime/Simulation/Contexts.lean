import ClientRuntime.Report.Execution
import ClientRuntime.Simulation.Session

/-!
Executions that sessions start, and sessions with the context of one execution.
-/

namespace ClientRuntime.Simulation

/-- Where the span of an execution comes from. -/
inductive SpanSource where
  /-- A root span with the operation's name. -/
  | span
  | tracer
  /-- A tracer below a span of the host. -/
  | nested

/-- How executions are started. -/
structure ContextPlan where
  operation : String
  source : SpanSource
  client : Option String

namespace ContextPlan

/-- Stands for an execution's id in answers. -/
def shownId : String := "<id>"

def start {η : Type} (p : ContextPlan) (w : World η) : ExecutionId × World η :=
  let tracer : Tracer := .root (.recording 0) p.client
  match p.source with
  | .span =>
    let (span, w) := w.createRoot p.operation (.recording 0)
    w.startExecution p.operation shownId span
  | .tracer => w.traceExecution p.operation shownId tracer
  | .nested =>
    let (host, w) := tracer.createSpan "host" w
    w.traceExecution p.operation shownId (.nested host (some "n-"))

end ContextPlan

inductive ContextCommand where
  | clock (c : ClockCommand)
  | info
  | describe
  | setAttribute (key : AttributeKey) (value : AttributeValue)
  | readAttribute (key : AttributeKey)
  | suppress (stage message : String)
  | close

namespace ContextCommand

def run (i : ExecutionId) : ContextCommand → World Unit → Json × World Unit
  | .clock c, w => c.run w
  | info, w => (Report.execution w i, w)
  | describe, w => (.text (w.describeExecution i), w)
  | setAttribute key value, w => (.null, w.setExecutionAttribute i key value)
  | readAttribute key, w =>
    (Report.option Report.attributeValue ((w.execution i).attributes.get? key), w)
  | suppress stage message, w => (.null, World.suppress i stage message w)
  | close, w => (.null, w.close (w.execution i).span)

end ContextCommand

/-- A whole session: what it answers, and the world it leaves. In the end another execution is
started, which is told apart from the first. -/
def contextSession (plan : ContextPlan) (commands : List ContextCommand) (w : World Unit) :
    List (String × Json) × World Unit :=
  let (i, w) := plan.start w
  let (answers, w) := runEach (ContextCommand.run i) commands w
  let (other, w) := plan.start w
  ([("steps", .array answers), ("unique_id", .flag (i != other)),
    ("probe", Report.recording (w.trace.recording 0))], w)

end ClientRuntime.Simulation
