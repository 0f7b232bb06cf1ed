import ClientRuntime.Duration

/-!
Points in time: nanoseconds since the epoch within the calendar's range. Adding a span saturates
at the latest instant.
-/

namespace ClientRuntime

/-- Nanoseconds from the epoch back to the start of the calendar's first year. -/
def earliestNanos : Int := -8334601228800 * 1000000000

/-- Nanoseconds from the epoch to the end of the calendar's last year. -/
def latestNanos : Int := 8210266876799 * 1000000000 + 999999999

structure Instant where
  nanos : Int
  earliest_le : earliestNanos ≤ nanos
  le_latest : nanos ≤ latestNanos
  deriving DecidableEq

namespace Instant

def ofNanos? (n : Int) : Option Instant :=
  if h : earliestNanos ≤ n ∧ n ≤ latestNanos then some ⟨n, h.1, h.2⟩ else none

def earliest : Instant := ⟨earliestNanos, by decide, by decide⟩

def latest : Instant := ⟨latestNanos, by decide, by decide⟩

def epoch : Instant := ⟨0, by decide, by decide⟩

instance : Inhabited Instant := ⟨epoch⟩

instance : LE Instant := ⟨fun s t => s.nanos ≤ t.nanos⟩

instance (s t : Instant) : Decidable (s ≤ t) := inferInstanceAs (Decidable (s.nanos ≤ t.nanos))

/-- Whole seconds since the epoch, toward the past. -/
def secs (t : Instant) : Int := t.nanos.fdiv nanosPerSecond

def subsecNanos (t : Instant) : Nat := (t.nanos.fmod nanosPerSecond).toNat

def ofSecs? (secs : Int) (subsec : Nat) : Option Instant :=
  ofNanos? (secs * nanosPerSecond + subsec)

/-- The longest difference of two instants: the most milliseconds that fit in 64 signed bits. -/
def longestDifference : Nat := ((1 <<< 63) - 1) * 1000000

/-- The difference that a span stands for; a longer span counts as the longest difference. -/
def differenceOf (d : Duration) : Nat := min d.nanos longestDifference

/-- The instant a span later, at most the latest one. -/
def addSaturating (t : Instant) (d : Duration) : Instant :=
  (ofNanos? (t.nanos + differenceOf d)).getD latest

/-- Whole microseconds from `s` to `t`, toward zero. Differences beyond 64 signed bits have none. -/
def microsSince? (t s : Instant) : Option Int :=
  let micros := (t.nanos - s.nanos).tdiv 1000
  let bound : Int := (1 <<< 63 : Nat)
  if -bound ≤ micros ∧ micros < bound then some micros else none

/-- Time from `s` to `t`, nothing when `t` comes first. -/
def since (t s : Instant) : Duration := Duration.ofNanos (t.nanos - s.nanos).toNat

end Instant

end ClientRuntime
