import ClientRuntime.Fiber.Control
import ClientRuntime.Trace.Span

/-!
Closing spans on every way out. A guard that is let go before it finishes leaves a warning on its
span, or an error if the code around it unwinds, and closes the span.
-/

namespace ClientRuntime

namespace World

variable {η : Type}

def guardComponent : String := "SpanGuard"

/-- Letting go of a guard whose scope was cancelled. -/
def dropGuard (i : SpanId) (w : World η) : World η :=
  if (w.span i).closed then w
  else (w.say i .warning guardComponent "Span scope cancelled before completion" none).close i

/-- Letting go of a guard while unwinding. -/
def unwindGuard (i : SpanId) (w : World η) : World η :=
  if (w.span i).closed then w
  else
    let (_, w) := w.setStatus i .error
    (w.say i .error guardComponent "Span scope panicked" none).close i

/-- Closes a span at the end of its scope. A failure is its status, if none was set before. -/
def finishSpan (i : SpanId) (failed : Bool) (w : World η) : World η :=
  (if failed then (w.setStatus i .error).2 else w).close i

end World

/-- Runs `body` and closes the span `i` however it ends. -/
def spanClosing {η α : Type} (i : SpanId) (failed : α → Bool) (body : Fiber (World η) α) :
    Fiber (World η) α :=
  Fiber.guarded (World.dropGuard i) (World.unwindGuard i) do
    let a ← body
    Fiber.modify (World.finishSpan i (failed a))
    return a

/-- A scope that fails with its result. -/
def spanScope {η ε α : Type} (i : SpanId) (body : Fiber (World η) (Except ε α)) :
    Fiber (World η) (Except ε α) :=
  spanClosing i (fun result => !result.isOk) body

def withChildSpan {η ε α : Type} (parent : SpanId) (id : String)
    (body : SpanId → Fiber (World η) (Except ε α)) : Fiber (World η) (Except ε α) := do
  let i ← Fiber.modifyGet fun w => w.createChild parent id
  spanScope i (body i)

/-- Makes the first span of a unit of work. -/
inductive Tracer where
  /-- Root spans for a probe, their ids after the client's name. -/
  | root (probe : Probe) (client : Option String)
  /-- Children of a span, their ids after a label. -/
  | nested (parent : SpanId) (label : Option String)

namespace Tracer

variable {η : Type}

def createSpan (t : Tracer) (id : String) (w : World η) : SpanId × World η :=
  match t with
  | root probe client =>
    w.createRoot (match client with | some client => client ++ "-" ++ id | none => id) probe
  | nested parent label => w.createChild parent (label.getD "" ++ id)

def describe (t : Tracer) (w : World η) : String :=
  match t with
  | root probe client =>
    Text.record "DefaultTracer"
      [("probe", probe.describe w.trace), ("client_name", Text.option (client.map Text.quoted))]
  | nested parent label =>
    Text.record "NestedTracer"
      [("parent", (w.span parent).describe), ("prefix", Text.option (label.map Text.quoted))]

end Tracer

def withSpan {η ε α : Type} (t : Tracer) (id : String)
    (body : SpanId → Fiber (World η) (Except ε α)) : Fiber (World η) (Except ε α) := do
  let i ← Fiber.modifyGet (t.createSpan id)
  spanScope i (body i)

end ClientRuntime
