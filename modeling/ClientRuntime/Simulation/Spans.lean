import ClientRuntime.Simulation.Session
import ClientRuntime.Trace.Scope

/-!
Sessions of span operations: spans, tracers and guards under names, and scopes that run further
operations inside.
-/

namespace ClientRuntime.Simulation

structure SpanSession where
  spans : Names SpanId
  tracers : Names Tracer
  guards : Names SpanId
  /-- Numbers of the messages that commands made. -/
  made : History Nat
  /-- Answers of the scope that ran last. -/
  answers : List Json

def SpanSession.empty : SpanSession := ⟨[], [], [], .empty, []⟩

/-- An event to be posted; without a time of its own it is an event of the present. -/
structure EventPlan where
  level : TraceLevel
  component : String
  time : Option Instant
  body : String × Option String ⊕ String × MetricValue

/-- How the body of a scope ends. -/
inductive ScopeEnd where
  | ok
  | error
  | panic
  | hang

inductive SpanOrigin where
  | child (parent : String)
  | tracer (name : String)

inductive SpanCommand where
  | clock (c : ClockCommand)
  | root (id name : String) (probe : Probe)
  | tracer (name : String) (probe : Probe) (client : Option String)
  | nested (name span : String) (label : Option String)
  | rootSpan (tracer id name : String)
  | child (parent id name : String)
  | chain (parent id name : String) (depth : Nat)
  | copy (span name : String)
  | info (span : String)
  | setStatus (span : String) (status : SpanStatus)
  | close (span : String)
  | setAttribute (span : String) (key : AttributeKey) (value : AttributeValue)
  | readAttribute (span : String) (key : AttributeKey)
  | say (span : String) (level : TraceLevel) (component text : String) (error : Option String)
  | post (span : String) (event : EventPlan)
  | postAll (span : String) (events : List EventPlan)
  | count (span component metric : String) (n : Nat)
  | timing (span component metric : String) (d : Duration)
  | guard (span name : String)
  | finish (guard : String)
  | drop (guard : String)
  | unwind (guard : String)
  | scope (origin : SpanOrigin) (id name : String) (body : List SpanCommand) (ending : ScopeEnd)
  | describeTracer (name : String)
  | renderTwice (text : String)
  | messages (slot : Nat) (component : Option String)
  | metrics (slot : Nat)

namespace SpanSession

abbrev State := World SpanSession

def nameSpan (name : String) (i : SpanId) (w : State) : State :=
  w.mapHost fun h => { h with spans := h.spans.put name i }

def withSpanNamed (w : State) (name : String) (f : SpanId → Json × State) : Json × State :=
  match w.host.spans.at? name with
  | some i => f i
  | none => (unknown, w)

/-- A message that the session keeps account of. -/
def makeMessage (w : State) (text : String) : Message × State :=
  let (m, w) := w.newMessage text
  (m, w.mapHost fun h => { h with made := h.made.push m.number })

def makeEvent (w : State) (plan : EventPlan) : TraceEvent × State :=
  let time := plan.time.getD w.clock.now
  match plan.body with
  | .inl (text, error) =>
    let (m, w) := makeMessage w text
    (⟨plan.level, plan.component, time, .message m error⟩, w)
  | .inr (metric, value) => (⟨plan.level, plan.component, time, .metric metric value⟩, w)

def makeEvents (w : State) : List EventPlan → List TraceEvent × State
  | [] => ([], w)
  | plan :: plans =>
    let (e, w) := makeEvent w plan
    let (es, w) := makeEvents w plans
    (e :: es, w)

def chainFrom (parent : SpanId) (id : String) : Nat → Nat → State → SpanId × State
  | 0, _, w => (parent, w)
  | depth + 1, k, w =>
    let (i, w) := w.createChild parent (id ++ toString k)
    chainFrom i id depth (k + 1) w

/-- Renders the messages of recorded events. -/
def renderEvents (w : State) : List TraceEvent → List String × State
  | [] => ([], w)
  | e :: es =>
    match e.body with
    | .message content _ =>
      let (text, w) := w.render content
      let (texts, w) := renderEvents w es
      (text :: texts, w)
    | .metric _ _ => renderEvents w es

def takeGuard (w : State) (name : String) (letGo : SpanId → State → State) : Json × State :=
  match w.host.guards.at? name with
  | some i => (.null, letGo i (w.mapHost fun h => { h with guards := h.guards.remove name }))
  | none => (unknown, w)

def recorded (w : State) (slot : Nat) : List TraceEvent :=
  (w.trace.recording slot).events.toList.map (·.event)

def endScope (ending : ScopeEnd) : Fiber State (Except Unit Unit) :=
  match ending with
  | .ok => return .ok ()
  | .error => return .error ()
  | .panic => .panic "scope failed"
  | .hang => Fiber.hang

/-- One poll of a scope, which is dropped if it does not finish. -/
def runScope (scope : Fiber State (Except Unit Unit)) (w : State) : Json × State :=
  match (Paused.start scope).poll w with
  | (.ready (.ok ()), w) => (.text "ok", w)
  | (.ready (.error ()), w) => (.text "err", w)
  | (.panicked text, w) => (.object [("panic", .text text)], w)
  | (.pending p, w) => (.text "cancelled", p.drop w)

def finishScope (outcome : Json × State) : Json × State :=
  let (result, w) := outcome
  (.object [("result", result), ("body", .array w.host.answers)], w)

mutual

def run : SpanCommand → State → Json × State
  | .clock c, w => c.run w
  | .root id name probe, w =>
    let (i, w) := w.createRoot id probe
    (.null, nameSpan name i w)
  | .tracer name probe client, w =>
    (.null, w.mapHost fun h => { h with tracers := h.tracers.put name (.root probe client) })
  | .nested name span label, w =>
    withSpanNamed w span fun i =>
      (.null, w.mapHost fun h => { h with tracers := h.tracers.put name (.nested i label) })
  | .rootSpan tracer id name, w =>
    match w.host.tracers.at? tracer with
    | some t =>
      let (i, w) := t.createSpan id w
      (.null, nameSpan name i w)
    | none => (unknown, w)
  | .child parent id name, w =>
    withSpanNamed w parent fun p =>
      let (i, w) := w.createChild p id
      (.null, nameSpan name i w)
  | .chain parent id name depth, w =>
    withSpanNamed w parent fun p =>
      let (i, w) := chainFrom p id depth 0 w
      (.null, nameSpan name i w)
  | .copy span name, w => withSpanNamed w span fun i => (.null, nameSpan name i w)
  | .info span, w =>
    withSpanNamed w span fun i =>
      (.object (Report.spanFields w i ++ [("debug", .text (w.span i).describe)]), w)
  | .setStatus span status, w =>
    withSpanNamed w span fun i =>
      let (changed, w) := w.setStatus i status
      (.flag changed, w)
  | .close span, w => withSpanNamed w span fun i => (.null, w.close i)
  | .setAttribute span key value, w =>
    withSpanNamed w span fun i => (.null, w.setSpanAttribute i key value)
  | .readAttribute span key, w =>
    withSpanNamed w span fun i =>
      (Report.option Report.attributeValue ((w.span i).attributes.get? key), w)
  | .say span level component text error, w =>
    withSpanNamed w span fun i =>
      let (m, w) := makeMessage w text
      (.null, w.post i (w.event level component (.message m error)))
  | .post span plan, w =>
    withSpanNamed w span fun i =>
      let (e, w) := makeEvent w plan
      (.null, w.post i e)
  | .postAll span plans, w =>
    withSpanNamed w span fun i =>
      let (es, w) := makeEvents w plans
      (.null, w.postAll i es)
  | .count span component metric n, w =>
    withSpanNamed w span fun i => (.null, w.postCount i component metric n)
  | .timing span component metric d, w =>
    withSpanNamed w span fun i => (.null, w.postTiming i component metric d)
  | .guard span name, w =>
    withSpanNamed w span fun i =>
      let old := w.host.guards.at? name
      let w := w.mapHost fun h => { h with guards := h.guards.put name i }
      (.text (w.span i).id, match old with | some j => World.dropGuard j w | none => w)
  | .finish guard, w => takeGuard w guard fun i w => w.close i
  | .drop guard, w => takeGuard w guard World.dropGuard
  | .unwind guard, w => takeGuard w guard World.unwindGuard
  | .scope origin id name body ending, w =>
    let inside (i : SpanId) : Fiber State (Except Unit Unit) := do
      Fiber.modify fun w =>
        let (answers, w) := runAll body (nameSpan name i w)
        w.mapHost fun h => { h with answers := answers }
      endScope ending
    match origin with
    | .child parent =>
      withSpanNamed w parent fun p => finishScope (runScope (withChildSpan p id inside) w)
    | .tracer tracer =>
      match w.host.tracers.at? tracer with
      | some t => finishScope (runScope (withSpan t id inside) w)
      | none => (unknown, w)
  | .describeTracer name, w =>
    match w.host.tracers.at? name with
    | some t => (.text (t.describe w), w)
    | none => (unknown, w)
  | .renderTwice text, w =>
    let (m, w) := makeMessage w text
    let (first, w) := w.render m
    let (second, w) := w.render m
    (Report.texts [m.describe, first, second], w)
  | .messages slot component, w =>
    let events := (recorded w slot).filter fun e => component.all (· = e.component)
    let (texts, w) := renderEvents w events
    (Report.texts texts, w)
  | .metrics slot, w =>
    (.array ((recorded w slot).filterMap fun e =>
      match e.body with
      | .metric name value => some (Report.metric name value)
      | .message _ _ => none), w)

def runAll : List SpanCommand → State → List Json × State
  | [], w => ([], w)
  | c :: cs, w =>
    let (answer, w) := run c w
    let (answers, w) := runAll cs w
    (answer :: answers, w)

end

/-- Lets go of the guards still held, in the order of their names. -/
def dropGuards (w : State) : State :=
  let guards := w.host.guards.sorted
  guards.foldl (fun w g => World.dropGuard g.2 w) (w.mapHost fun h => { h with guards := [] })

/-- How often each message that commands made was rendered. -/
def renderCounts (w : State) : List Nat :=
  w.host.made.toList.map fun m => w.trace.rendered.toList.count m

end SpanSession

end ClientRuntime.Simulation
