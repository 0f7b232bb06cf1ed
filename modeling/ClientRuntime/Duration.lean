import ClientRuntime.Scalar

/-!
Spans of time in whole nanoseconds. Seconds given as a number are rounded to the nearest
nanosecond; negative, unbounded and oversized ones are refused.
-/

namespace ClientRuntime

def nanosPerSecond : Nat := 1000000000

structure Duration where
  nanos : Nat
  /-- Whole seconds fit in 64 bits. -/
  nanos_lt : nanos < (1 <<< 64) * 1000000000
  deriving DecidableEq

namespace Duration

def ofNanos? (n : Nat) : Option Duration :=
  if h : n < (1 <<< 64) * 1000000000 then some ⟨n, h⟩ else none

def zero : Duration := ⟨0, by decide⟩

/-- The longest span. -/
def longest : Duration := ⟨(1 <<< 64) * 1000000000 - 1, by decide⟩

instance : Inhabited Duration := ⟨zero⟩

/-- Longer counts become the longest span. -/
def ofNanos (n : Nat) : Duration := (ofNanos? n).getD longest

def ofMillis (n : Nat) : Duration := ofNanos (n * 1000000)

def ofSecs (n : Nat) : Duration := ofNanos (n * nanosPerSecond)

def secs (d : Duration) : Nat := d.nanos / nanosPerSecond

def subsecNanos (d : Duration) : Nat := d.nanos % nanosPerSecond

def millis (d : Duration) : Nat := d.nanos / 1000000

/-- The span of a number of seconds, to the nearest nanosecond and a tie to the even one. -/
def ofRat? (q : Rat) : Option Duration :=
  if q < 0 then none else ofNanos? (roundHalfEven (q.num.toNat * nanosPerSecond) q.den)

section Seconds

variable {α : Type} [Scalar α]

def ofSeconds? (x : α) : Option Duration := (Scalar.value? x).bind ofRat?

/-- Whole seconds plus the fraction, each taken into the scalar type first. -/
def toSeconds (d : Duration) : α :=
  Scalar.ofNat d.secs + Scalar.ofNat d.subsecNanos / Scalar.ofNat nanosPerSecond

end Seconds

/-- Digits of `n` below `10 ^ width`, without trailing zeros. -/
def fractionDigits (n width : Nat) : String :=
  let digits := Nat.toDigits 10 n
  let padded := List.replicate (width - digits.length) '0' ++ digits
  String.ofList (padded.reverse.dropWhile (· == '0')).reverse

def unitText (n : Nat) (width : Nat) (unit : String) : String :=
  let fraction := n % tenTo width
  let decimals := if fraction = 0 then "" else "." ++ fractionDigits fraction width
  toString (n / tenTo width) ++ decimals ++ unit

/-- The largest unit in which the span is at least one, with the decimals it needs. -/
def text (d : Duration) : String :=
  if nanosPerSecond ≤ d.nanos then unitText d.nanos 9 "s"
  else if 1000000 ≤ d.nanos then unitText d.nanos 6 "ms"
  else if 1000 ≤ d.nanos then unitText d.nanos 3 "µs"
  else unitText d.nanos 0 "ns"

end Duration

end ClientRuntime
