import ClientRuntime.Attributes
import ClientRuntime.History
import ClientRuntime.Trace.Event

/-!
What tracing keeps: the spans created so far, what recording probes have seen, and which messages
were rendered. Spans are named by their place in the table, so every handle to a span sees the
same span.
-/

namespace ClientRuntime

/-- A sink for span changes and events. Recording probes write to a numbered recording. -/
inductive Probe where
  | recording (slot : Nat)
  | silent
  | logging (least : TraceLevel)
  | multi (probes : List Probe)

abbrev SpanId := Nat

structure Span where
  id : String
  /-- Ids from the root down to this span. -/
  path : List String
  parent : Option SpanId
  probe : Probe
  attributes : Attributes
  status : SpanStatus
  closed : Bool

instance : Inhabited Span := ⟨⟨"", [], none, .silent, .empty, .unset, true⟩⟩

namespace Span

def qualifiedId (s : Span) : String := "/".intercalate s.path

def describe (s : Span) : String :=
  Text.record "TraceSpan"
    [("id", Text.quoted s.qualifiedId), ("status", s.status.name), ("closed", Text.flag s.closed)]

end Span

structure RecordedEvent where
  span : String
  event : TraceEvent

def RecordedEvent.describe (e : RecordedEvent) : String :=
  Text.record "RecordedEvent" [("span", Text.quoted e.span), ("event", e.event.describe)]

structure Recording where
  created : History String
  events : History RecordedEvent
  closed : History (String × SpanStatus)

instance : Inhabited Recording := ⟨⟨.empty, .empty, .empty⟩⟩

namespace Recording

def describeClosed (c : String × SpanStatus) : String :=
  Text.application "" (Text.quoted c.1 ++ ", " ++ c.2.name)

def describe (r : Recording) : String :=
  Text.record "Recording"
    [("created", Text.list (r.created.toList.map Text.quoted)),
      ("events", Text.list (r.events.toList.map RecordedEvent.describe)),
      ("closed", Text.list (r.closed.toList.map describeClosed))]

end Recording

structure Trace where
  spans : List Span
  recordings : List Recording
  /-- The number of the next message. -/
  messages : Nat
  /-- Numbers of the messages rendered. -/
  rendered : History Nat

namespace Trace

def empty : Trace := ⟨[], [], 0, .empty⟩

instance : Inhabited Trace := ⟨empty⟩

/-- Room for `n` recordings. -/
def withRecordings (n : Nat) : Trace := { empty with recordings := List.replicate n default }

def recording (t : Trace) (slot : Nat) : Recording := t.recordings.getD slot default

def updateRecording (t : Trace) (slot : Nat) (f : Recording → Recording) : Trace :=
  { t with recordings := t.recordings.modify slot f }

def span (t : Trace) (i : SpanId) : Span := t.spans.getD i default

def updateSpan (t : Trace) (i : SpanId) (f : Span → Span) : Trace :=
  { t with spans := t.spans.modify i f }

end Trace

end ClientRuntime
