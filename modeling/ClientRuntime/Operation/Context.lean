import ClientRuntime.Trace.Scope

/-!
What an execution of an operation carries along: its span, its attributes, the number of the
attempt under way and the errors that were suppressed.
-/

namespace ClientRuntime.World

variable {η : Type}

/-- An execution that reports to a span. It closes the span in the end. -/
def startExecution (w : World η) (operation idText : String) (span : SpanId) :
    ExecutionId × World η :=
  (w.executions.length,
    { w with
      executions := w.executions ++ [⟨operation, idText, span, w.clock.now, .empty, 0, []⟩] })

/-- An execution whose span a tracer makes. -/
def traceExecution (w : World η) (operation idText : String) (tracer : Tracer) :
    ExecutionId × World η :=
  let (span, w) := tracer.createSpan operation w
  w.startExecution operation idText span

def execution (w : World η) (i : ExecutionId) : Execution := w.executions.getD i default

def updateExecution (w : World η) (i : ExecutionId) (f : Execution → Execution) : World η :=
  { w with executions := w.executions.modify i f }

def beginAttempt (i : ExecutionId) (n : Nat) (w : World η) : World η :=
  w.updateExecution i fun e => { e with attempt := n }

def setExecutionAttribute (w : World η) (i : ExecutionId) (key : AttributeKey)
    (v : AttributeValue) : World η :=
  w.updateExecution i fun e => { e with attributes := e.attributes.set key v }

def executionComponent : String := "OperationExecution"

/-- Keeps an error that lost to a later one, and posts it to the span. -/
def suppress (i : ExecutionId) (stage error : String) (w : World η) : World η :=
  let w :=
    w.say (w.execution i).span .warning executionComponent
      ("Suppressed error in " ++ stage ++ ": " ++ error) (some error)
  w.updateExecution i fun e => { e with suppressed := e.suppressed ++ [error] }

def describeExecution (w : World η) (i : ExecutionId) : String :=
  let e := w.execution i
  Text.record "ExecutionContext"
    [("operation_name", Text.quoted e.operation), ("execution_id", e.idText),
      ("span", (w.span e.span).describe), ("attempt", toString e.attempt),
      ("suppressed", toString e.suppressed.length)]

end ClientRuntime.World
