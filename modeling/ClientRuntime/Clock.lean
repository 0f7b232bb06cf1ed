import ClientRuntime.Fiber.Basic
import ClientRuntime.History
import ClientRuntime.Instant

/-!
Clocks: a way to read the time and a way to wait. A manual clock moves only when told to, and by
the time slept on it.
-/

namespace ClientRuntime

structure Clock (σ : Type) where
  name : String
  now : σ → Instant
  sleep : Duration → Fiber σ Unit

structure ManualClock where
  now : Instant
  /-- Spans slept. -/
  sleeps : History Duration

namespace ManualClock

def startingAt (t : Instant) : ManualClock := ⟨t, .empty⟩

instance : Inhabited ManualClock := ⟨startingAt .epoch⟩

def advance (c : ManualClock) (d : Duration) : ManualClock :=
  { c with now := c.now.addSaturating d }

def sleep (c : ManualClock) (d : Duration) : ManualClock :=
  ⟨c.now.addSaturating d, c.sleeps.push d⟩

def moveTo (c : ManualClock) (t : Instant) : ManualClock := { c with now := t }

end ManualClock

namespace Clock

variable {σ : Type}

/-- A sleep hands back control once before it starts. -/
def yielding (c : Clock σ) : Clock σ :=
  { c with sleep := fun d => do Fiber.suspend; c.sleep d }

/-- Stands still; a sleep on it never ends. -/
def still (name : String) (t : Instant) : Clock σ where
  name := name
  now _ := t
  sleep _ := Fiber.hang

end Clock

end ClientRuntime
