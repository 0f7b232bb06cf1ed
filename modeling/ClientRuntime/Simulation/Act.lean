import ClientRuntime.Retry.Error
import ClientRuntime.World

/-!
Scripted behaviour: what a call does to the clock, whether it suspends, hangs or panics, and what
it comes to.
-/

namespace ClientRuntime.Simulation

structure Act where
  advance : Option Duration
  moveTo : Option Instant
  /-- Fires the cancellation of the execution under way. -/
  cancel : Bool
  yields : Nat
  hangs : Bool
  panic : Option String
  result : Option (Except ServiceError String)

namespace Act

def plain : Act := ⟨none, none, false, 0, false, none, none⟩

instance : Inhabited Act := ⟨plain⟩

variable {η : Type}

/-- Runs the act up to its result. -/
def run (a : Act) (cancel : World η → World η) :
    Fiber (World η) (Option (Except ServiceError String)) := do
  Fiber.modify fun w =>
    let w := match a.advance with | some d => w.advance d | none => w
    let w := match a.moveTo with | some t => w.moveTo t | none => w
    if a.cancel then cancel w else w
  Fiber.suspendTimes a.yields
  if a.hangs then Fiber.hang
  else
    match a.panic with
    | some text => .panic text
    | none => return a.result

end Act

/-- Call number `n` of a script, counted from zero. The last entry repeats. -/
def scriptAt (script : List Act) (n : Nat) : Act :=
  script.getD (min n (script.length - 1)) .plain

end ClientRuntime.Simulation
