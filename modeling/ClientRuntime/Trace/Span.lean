import ClientRuntime.Trace.Probe

/-!
Operations on spans. A status is set once and only away from unset; closing tells the probe the
first time and nothing afterwards; events posted after that are dropped with a warning in the log.
-/

namespace ClientRuntime.World

variable {η : Type}

def createSpan (w : World η) (id : String) (path : List String) (parent : Option SpanId)
    (probe : Probe) : SpanId × World η :=
  let s : Span := ⟨id, path ++ [id], parent, probe, .empty, .unset, false⟩
  (w.trace.spans.length,
    probe.created s { w with trace := { w.trace with spans := w.trace.spans ++ [s] } })

def createRoot (w : World η) (id : String) (probe : Probe) : SpanId × World η :=
  w.createSpan id [] none probe

/-- A child reports to its parent's probe. Ids of siblings may coincide. -/
def createChild (w : World η) (parent : SpanId) (id : String) : SpanId × World η :=
  let p := w.span parent
  w.createSpan id p.path (some parent) p.probe

/-- Also answers whether the status changed. -/
def setStatus (w : World η) (i : SpanId) (status : SpanStatus) : Bool × World η :=
  if (w.span i).status ≠ .unset ∨ status = .unset then (false, w)
  else (true, w.updateSpan i fun s => { s with status })

def setSpanAttribute (w : World η) (i : SpanId) (key : AttributeKey) (v : AttributeValue) :
    World η :=
  w.updateSpan i fun s => { s with attributes := s.attributes.set key v }

def close (w : World η) (i : SpanId) : World η :=
  if (w.span i).closed then w
  else
    let w := w.updateSpan i fun s => { s with closed := true }
    (w.span i).probe.closed (w.span i) w

def warnDropped (w : World η) (i : SpanId) (count : Nat) : World η :=
  w.emit .warn [("span", .text (w.span i).qualifiedId), ("count", .natural count)]
    "Dropping trace events posted after span close"

def post (w : World η) (i : SpanId) (e : TraceEvent) : World η :=
  let s := w.span i
  if s.closed then w.warnDropped i 1 else s.probe.post s e w

def postAll (w : World η) (i : SpanId) (es : List TraceEvent) : World η :=
  let s := w.span i
  if es.isEmpty then w
  else if s.closed then w.warnDropped i es.length
  else s.probe.postAll s es w

/-- An event of the present. -/
def event (w : World η) (level : TraceLevel) (component : String) (body : EventBody) :
    TraceEvent :=
  ⟨level, component, w.clock.now, body⟩

/-- Posts a message. -/
def say (w : World η) (i : SpanId) (level : TraceLevel) (component text : String)
    (error : Option String) : World η :=
  let (m, w) := w.newMessage text
  w.post i (w.event level component (.message m error))

def postCount (w : World η) (i : SpanId) (component name : String) (n : Nat) : World η :=
  w.post i (w.event .info component (.metric name (.count n)))

def postTiming (w : World η) (i : SpanId) (component name : String) (d : Duration) : World η :=
  w.post i (w.event .info component (.metric name (.duration d)))

end ClientRuntime.World
