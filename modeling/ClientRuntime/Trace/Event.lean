import ClientRuntime.Calendar
import ClientRuntime.Text.Record

/-!
Trace events: messages and metrics posted to spans.
-/

namespace ClientRuntime

/-- Severity, most severe first. -/
inductive TraceLevel where
  | fatal
  | error
  | warning
  | info
  | debug
  | trace
  deriving DecidableEq

namespace TraceLevel

def rank : TraceLevel → Nat
  | fatal => 0
  | error => 1
  | warning => 2
  | info => 3
  | debug => 4
  | trace => 5

/-- At least as severe as `threshold`. -/
def isEnabledFor (level threshold : TraceLevel) : Bool := level.rank ≤ threshold.rank

def label : TraceLevel → String
  | fatal => "FATAL"
  | error => "ERROR"
  | warning => "WARN"
  | info => "INFO"
  | debug => "DEBUG"
  | trace => "TRACE"

def name : TraceLevel → String
  | fatal => "Fatal"
  | error => "Error"
  | warning => "Warning"
  | info => "Info"
  | debug => "Debug"
  | trace => "Trace"

end TraceLevel

/-- The final status of a span. -/
inductive SpanStatus where
  | unset
  | ok
  | error
  deriving DecidableEq

def SpanStatus.name : SpanStatus → String
  | unset => "Unset"
  | ok => "Ok"
  | error => "Error"

/-- A message that is rendered only when somebody reads it. Its number tells it from others of the
same text. -/
structure Message where
  number : Nat
  text : String
  deriving DecidableEq

def Message.describe (_ : Message) : String := "LazyMessage(..)"

inductive MetricValue where
  | count (n : Nat)
  | duration (d : Duration)
  deriving DecidableEq

def MetricValue.describe : MetricValue → String
  | count n => Text.application "Count" (toString n)
  | duration d => Text.application "Duration" d.text

inductive EventBody where
  /-- A message, with the text of the error that it is about. -/
  | message (content : Message) (error : Option String)
  | metric (name : String) (value : MetricValue)
  deriving DecidableEq

def EventBody.describe : EventBody → String
  | message content error =>
    Text.record "Message"
      [("content", content.describe), ("error", Text.option (error.map Text.quoted))]
  | metric name value =>
    Text.record "Metric" [("name", Text.quoted name), ("value", value.describe)]

structure TraceEvent where
  level : TraceLevel
  component : String
  time : Instant
  body : EventBody
  deriving DecidableEq

def TraceEvent.describe (e : TraceEvent) : String :=
  Text.record "TraceEvent"
    [("level", e.level.name), ("source_component", Text.quoted e.component),
      ("timestamp", e.time.text), ("data", e.body.describe)]

end ClientRuntime
