import ClientRuntime.Json.Basic
import ClientRuntime.World
import ClientRuntime.Text.Quoted

/-!
Reports: values of the library as JSON. A span of time or an instant is a pair of seconds and
nanoseconds; a float is the sixteen hexadecimal digits of its bits.
-/

namespace ClientRuntime.Report

def natural (n : Nat) : Json := .number (.natural n)

def integer (i : Int) : Json :=
  if i < 0 then .number (.negative i.natAbs) else natural i.toNat

def texts (ss : List String) : Json := .array (ss.map .text)

def option {α : Type} (report : α → Json) : Option α → Json
  | some a => report a
  | none => .null

def float (x : Float) : Json :=
  if x.isNaN then .text "nan"
  else
    let digits := Nat.toDigits 16 x.toBits.toNat
    .text (String.ofList (List.replicate (16 - digits.length) '0' ++ digits))

def duration (d : Duration) : Json := .array [natural d.secs, natural d.subsecNanos]

def instant (t : Instant) : Json := .array [integer t.secs, natural t.subsecNanos]

def durations (ds : List Duration) : Json := .array (ds.map duration)

def attributeValue : AttributeValue → Json
  | .text s => .text s
  | .word32 n | .word64 n => natural n
  | .int64 i => integer i
  | .flag b => .flag b
  | .texts ss => texts ss

/-- An error: its kind and its text. -/
def error (kind message : String) : Json :=
  .object [("error", .text kind), ("message", .text message)]

def settingError (e : SettingError) : Json :=
  match e with
  | .propertyConflict _ => error "PropertyConflict" e.message
  | .attributeType _ => error "AttributeType" e.message

def logLevel : LogLevel → String
  | .error => "ERROR"
  | .warn => "WARN"
  | .info => "INFO"
  | .debug => "DEBUG"
  | .trace => "TRACE"

def logValue : LogValue → Json
  | .natural n => natural n
  | .float x => float x
  | .flag b => .flag b
  | .text s => .text s

def logEntry (e : LogEntry) : Json :=
  .object [("level", .text (logLevel e.level)),
    ("fields",
      .object ((e.fields.map fun f => (f.1, logValue f.2)) ++ [("message", .text e.message)]))]

def log (l : Log) : Json := .array (l.entries.toList.map logEntry)

def metricValue : MetricValue → String × Json
  | .count n => ("count", natural n)
  | .duration d => ("duration", duration d)

def metric (name : String) (value : MetricValue) : Json :=
  .object [("name", .text name), metricValue value]

def event (e : RecordedEvent) : Json :=
  let (message, error, metric) :=
    match e.event.body with
    | .message content error => (Json.text content.text, option .text error, Json.null)
    | .metric name value => (.null, .null, metric name value)
  .object [("span", .text e.span), ("level", .text e.event.level.name),
    ("component", .text e.event.component), ("at", instant e.event.time),
    ("message", message), ("error", error), ("metric", metric)]

def recording (r : Recording) : Json :=
  .object [("created", texts r.created.toList),
    ("closed", .array (r.closed.toList.map fun c => .array [.text c.1, .text c.2.name])),
    ("events", .array (r.events.toList.map event))]

/-- A span without its diagnostic text. -/
def spanFields {η : Type} (w : World η) (i : SpanId) : List (String × Json) :=
  let s := w.span i
  [("id", .text s.id), ("qualified", .text s.qualifiedId),
    ("parent", option (fun p => .text (w.span p).id) s.parent),
    ("status", .text s.status.name), ("closed", .flag s.closed),
    ("attributes", texts s.attributes.names)]

end ClientRuntime.Report
