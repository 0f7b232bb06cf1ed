import ClientRuntime.Report.Config
import ClientRuntime.Retry.Backoff

/-!
What delay providers answer for a list of attempts. Random delays are judged, not shown.
-/

namespace ClientRuntime.Simulation

/-- The words that a session draws from a seed: the odd steps of a counter, well mixed. -/
def mixedWord (seed i : Nat) : UInt64 :=
  let z := UInt64.ofNat seed + UInt64.ofNat (i + 1) * 0x9E3779B97F4A7C15
  let z := (z ^^^ (z >>> 30)) * 0xBF58476D1CE4E5B9
  let z := (z ^^^ (z >>> 27)) * 0x94D049BB133111EB
  z ^^^ (z >>> 31)

/-- The source of samples of a session. -/
def samplesFrom (seed : Nat) : Random := ⟨mixedWord seed, 0, mixedWord⟩

def delaysFor {σ : Type} (p : DelayProvider σ) : List Nat → σ → List Duration × σ
  | [], s => ([], s)
  | n :: ns, s =>
    let (d, s) := p.backoff n s
    let (ds, s) := delaysFor p ns s
    (d :: ds, s)

/-- Delays that need no samples. -/
def plainDelays (p : DelayProvider Unit) (attempts : List Nat) : Json :=
  .object [("delays", Report.durations (delaysFor p attempts ()).1), ("debug", .text p.describe)]

/-- Whether a delay lies between what full jitter leaves of the longest one and that one. -/
def inRange (c : BackoffConfig Float) (attempt : Nat) (d : Duration) : Bool :=
  let longest := c.maxDelayFor attempt
  (c.jitteredDelay longest 1).nanos ≤ d.nanos && d.nanos ≤ longest.nanos

def allEqual (ds : List Duration) : Bool :=
  match ds with
  | [] => true
  | d :: ds => ds.all (· = d)

def judgedDelays (c : BackoffConfig Float) (attempts : List Nat) (delays more : List Duration) :
    Json :=
  .object
    [("in_range", .flag ((attempts.zip delays).all fun (n, d) => inRange c n d)),
      ("positive", .flag (delays.any fun d => 0 < d.nanos)), ("varied", .flag (!allEqual more))]

/-- How often one attempt is drawn for to see whether delays vary. -/
def extraDraws : Nat := 20

def exponentialDelays (c : BackoffConfig Float) (seed : Option Nat) (attempts : List Nat)
    (described : Bool) : Json :=
  let p : DelayProvider Random := .exponential c seed.isSome .whole
  let random := samplesFrom (seed.getD 0)
  let (delays, after) := delaysFor p attempts random
  let more := (delaysFor p (List.replicate extraDraws (attempts.headD 0)) after).1
  let (delaysReport, same) :=
    if Scalar.lt 0 c.jitter then
      (judgedDelays c attempts delays more, Report.option (fun _ => Json.flag true) seed)
    else (Report.durations delays, Json.flag true)
  .object
    [("config", Report.backoffConfig c),
      ("max", Report.durations (attempts.map c.maxDelayFor)), ("delays", delaysReport),
      ("same", same), ("debug", if described then .text p.describe else .null)]

/-- Which delay provider to make. -/
inductive DelayPlan where
  | none
  | fixed (d : Duration)
  | exponential (b : BackoffBuilder)

namespace DelayPlan

/-- The provider on a source of samples in the state. -/
def provider {σ : Type} (random : Lens σ Random) : DelayPlan → DelayProvider σ
  | none => .none
  | fixed d => .fixed d
  | exponential b => .exponential b.config b.seed.isSome random

/-- The source that the provider starts with. -/
def random : DelayPlan → Random
  | exponential b => samplesFrom (b.seed.getD 0)
  | _ => samplesFrom 0

def report (p : DelayPlan) (attempts : List Nat) (described : Bool) : Json :=
  match p with
  | none => plainDelays .none attempts
  | fixed d => plainDelays (.fixed d) attempts
  | exponential b => exponentialDelays b.config b.seed attempts described

end DelayPlan

end ClientRuntime.Simulation
