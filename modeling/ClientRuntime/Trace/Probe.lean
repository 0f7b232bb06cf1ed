import ClientRuntime.World

/-!
What probes do with span changes and events. A multi probe passes everything on to each of its
probes in turn. A logging probe renders a message only if both its own level and the log take the
event.
-/

namespace ClientRuntime

namespace TraceLevel

/-- The level of the log that events of a severity go to. -/
def logLevel : TraceLevel → LogLevel
  | fatal | error => .error
  | warning => .warn
  | info => .info
  | debug => .debug
  | trace => .trace

end TraceLevel

namespace Probe

variable {η : Type}

/-- Sends an event to the log, which takes its level. -/
def forward (s : Span) (e : TraceEvent) (w : World η) : World η :=
  let level := e.level.logLevel
  let fields := [("span", .text s.qualifiedId), ("component", LogValue.text e.component)]
  match e.body with
  | .message content error =>
    let (text, w) := w.render content
    w.emit level (fields ++ (error.map fun e => ("error", .text e)).toList) text
  | .metric name (.count n) =>
    w.emit level (fields ++ [("metric", .text name), ("count", .natural n)]) "metric"
  | .metric name (.duration d) =>
    w.emit level (fields ++ [("metric", .text name), ("elapsed_ms", .float (d.toSeconds * 1000))])
      "metric"

mutual

def created : Probe → Span → World η → World η
  | recording slot, s, w =>
    w.updateRecording slot fun r => { r with created := r.created.push s.qualifiedId }
  | silent, _, w => w
  | logging _, s, w => w.emit .trace [("span", .text s.qualifiedId)] "Span created"
  | multi probes, s, w => createdEach probes s w

def createdEach : List Probe → Span → World η → World η
  | [], _, w => w
  | p :: ps, s, w => createdEach ps s (p.created s w)

end

mutual

def post : Probe → Span → TraceEvent → World η → World η
  | recording slot, s, e, w =>
    w.updateRecording slot fun r => { r with events := r.events.push ⟨s.qualifiedId, e⟩ }
  | silent, _, _, w => w
  | logging least, s, e, w =>
    if e.level.isEnabledFor least && w.log.enabled e.level.logLevel then forward s e w else w
  | multi probes, s, e, w => postEach probes s e w

def postEach : List Probe → Span → TraceEvent → World η → World η
  | [], _, _, w => w
  | p :: ps, s, e, w => postEach ps s e (p.post s e w)

end

mutual

/-- A whole batch goes to one probe before the next sees any of it. -/
def postAll : Probe → Span → List TraceEvent → World η → World η
  | multi probes, s, es, w => postAllEach probes s es w
  | recording slot, s, es, w => es.foldl (fun w e => (recording slot).post s e w) w
  | silent, _, _, w => w
  | logging least, s, es, w => es.foldl (fun w e => (logging least).post s e w) w

def postAllEach : List Probe → Span → List TraceEvent → World η → World η
  | [], _, _, w => w
  | p :: ps, s, es, w => postAllEach ps s es (p.postAll s es w)

end

mutual

def closed : Probe → Span → World η → World η
  | recording slot, s, w =>
    w.updateRecording slot fun r => { r with closed := r.closed.push (s.qualifiedId, s.status) }
  | silent, _, w => w
  | logging _, s, w =>
    w.emit .debug [("span", .text s.qualifiedId), ("status", .text s.status.name)] "Span closed"
  | multi probes, s, w => closedEach probes s w

def closedEach : List Probe → Span → World η → World η
  | [], _, w => w
  | p :: ps, s, w => closedEach ps s (p.closed s w)

end

mutual

/-- A recording probe shows what it has recorded so far. -/
def describe (t : Trace) : Probe → String
  | recording slot =>
    Text.record "RecordingProbe"
      [("recording", Text.record "Mutex" [("data", (t.recording slot).describe)])]
  | silent => "NoOpProbe"
  | logging least => Text.record "LoggingProbe" [("min_level", least.name)]
  | multi probes => Text.record "MultiProbe" [("probes", Text.list (describeEach t probes))]

def describeEach (t : Trace) : List Probe → List String
  | [] => []
  | p :: ps => p.describe t :: describeEach t ps

end

mutual

/-- How many probes each multi probe passes on to, inner ones first. -/
def fanOuts : Probe → List Nat
  | multi probes => fanOutsEach probes ++ [probes.length]
  | _ => []

def fanOutsEach : List Probe → List Nat
  | [] => []
  | p :: ps => p.fanOuts ++ fanOutsEach ps

end

end Probe

end ClientRuntime
