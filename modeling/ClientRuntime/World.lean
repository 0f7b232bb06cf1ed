import ClientRuntime.Clock
import ClientRuntime.Lens
import ClientRuntime.Log
import ClientRuntime.Random
import ClientRuntime.Trace.State

/-!
The state that fibers share: the clock, real time, the log, the trace, the executions under way,
random samples, and a host part of any type for the components and their callers.
-/

namespace ClientRuntime

/-- What an execution of an operation keeps while it runs. -/
structure Execution where
  operation : String
  /-- The id as it is shown. -/
  idText : String
  span : SpanId
  startedAt : Instant
  attributes : Attributes
  /-- The attempt under way or last made; none so far is zero. -/
  attempt : Nat
  /-- Texts of the errors that lost to later ones, oldest first. -/
  suppressed : List String

instance : Inhabited Execution := ⟨⟨"", "", 0, default, .empty, 0, []⟩⟩

/-- Executions are told apart by their place among all of them. -/
abbrev ExecutionId := Nat

structure World (η : Type) where
  clock : ManualClock
  /-- Real time. -/
  systemTime : Instant
  log : Log
  trace : Trace
  executions : List Execution
  random : Random
  host : η

namespace World

variable {η : Type}

def start (t systemTime : Instant) (host : η) : World η :=
  ⟨.startingAt t, systemTime, .silent, .empty, [], default, host⟩

/-- The clock of the world: a sleep advances it and never waits. -/
def manualClock : Clock (World η) where
  name := "ManualClock"
  now w := w.clock.now
  sleep d := Fiber.modify fun w => { w with clock := w.clock.sleep d }

def advance (w : World η) (d : Duration) : World η := { w with clock := w.clock.advance d }

def moveTo (w : World η) (t : Instant) : World η := { w with clock := w.clock.moveTo t }

/-- Lets some real time pass. -/
def elapse (w : World η) (d : Duration) : World η :=
  { w with systemTime := w.systemTime.addSaturating d }

def emit (w : World η) (level : LogLevel) (fields : List (String × LogValue)) (message : String) :
    World η :=
  { w with log := w.log.emit level fields message }

/-- The host part. -/
def hostLens : Lens (World η) η where
  get w := w.host
  set h w := { w with host := h }
  get_set _ _ := rfl
  set_get _ := rfl
  set_set _ _ _ := rfl

/-- The samples of whoever has no source of its own. -/
def randomLens : Lens (World η) Random where
  get w := w.random
  set r w := { w with random := r }
  get_set _ _ := rfl
  set_get _ := rfl
  set_set _ _ _ := rfl

def mapHost (f : η → η) (w : World η) : World η := { w with host := f w.host }

/-- A message of its own for a text. -/
def newMessage (w : World η) (text : String) : Message × World η :=
  (⟨w.trace.messages, text⟩,
    { w with trace := { w.trace with messages := w.trace.messages + 1 } })

def render (w : World η) (m : Message) : String × World η :=
  (m.text, { w with trace := { w.trace with rendered := w.trace.rendered.push m.number } })

def span (w : World η) (i : SpanId) : Span := w.trace.span i

def updateSpan (w : World η) (i : SpanId) (f : Span → Span) : World η :=
  { w with trace := w.trace.updateSpan i f }

def updateRecording (w : World η) (slot : Nat) (f : Recording → Recording) : World η :=
  { w with trace := w.trace.updateRecording slot f }

end World

/-- Real time. It does not pass while fibers are polled, so no sleep on it ends. -/
def Clock.system {η : Type} : Clock (World η) where
  name := "SystemClock"
  now w := w.systemTime
  sleep _ := Fiber.hang

end ClientRuntime
