import ClientRuntime.Report.Basic

/-!
Sessions: sequences of commands on a world, each of which answers with a report. Things made by one
command are kept under names for later ones.
-/

namespace ClientRuntime.Simulation

/-- Things under names, at most one under each. -/
abbrev Names (α : Type) := List (String × α)

namespace Names

variable {α : Type}

def at? (names : Names α) (name : String) : Option α := (names.find? (·.1 = name)).map (·.2)

def remove (names : Names α) (name : String) : Names α := names.filter (·.1 ≠ name)

def put (names : Names α) (name : String) (a : α) : Names α := names.remove name ++ [(name, a)]

/-- In the order of the names. -/
def sorted (names : Names α) : Names α := names.mergeSort fun a b => a.1 ≤ b.1

end Names

/-- How many sleeps of no time at all a session lets follow one another. -/
def idleLimit : Nat := 2000

/-- How many sleeps of no time at all came last. -/
def idleSleeps (c : ManualClock) : Nat :=
  (c.sleeps.newestFirst.takeWhile (· = .zero)).length

/-- Stops before one idle sleep too many, so that no session goes round in them for ever. -/
def breathe {η : Type} (d : Duration) : Fiber (World η) Unit := do
  let idle ← Fiber.gets fun w => idleSleeps w.clock
  if d = .zero ∧ idleLimit ≤ idle then Fiber.hang else return

/-- How many rounds of a call to a bucket a session follows, more than any call of it makes. -/
def callRounds : Nat := 1000000

/-- The clock that components of a session are given. -/
def sessionClock {η : Type} (yields : Bool) : Clock (World η) :=
  let clock : Clock (World η) :=
    { World.manualClock with
      name := "Clk"
      sleep := fun d => do
        breathe d
        World.manualClock.sleep d }
  if yields then clock.yielding else clock

/-- A command for the clock. -/
inductive ClockCommand where
  | advance (d : Duration)
  | moveTo (t : Instant)
  | now
  | sleeps

def ClockCommand.run {η : Type} (w : World η) : ClockCommand → Json × World η
  | advance d => (.null, w.advance d)
  | moveTo t => (.null, w.moveTo t)
  | now => (Report.instant w.clock.now, w)
  | sleeps => (Report.durations w.clock.sleeps.toList, w)

/-- The answers of a list of commands, run in order. -/
def runEach {γ ω : Type} (run : γ → ω → Json × ω) : List γ → ω → List Json × ω
  | [], w => ([], w)
  | c :: cs, w =>
    let (answer, w) := run c w
    let (answers, w) := runEach run cs w
    (answer :: answers, w)

/-- The answer to a command that names something unknown. -/
def unknown : Json := .object [("error", .text "BadInput")]

end ClientRuntime.Simulation
