import ClientRuntime.Scalar

/-!
Uniform samples. Where they come from is up to whoever passes the source in.
-/

namespace ClientRuntime

/-- A source of random words. It tells the words to come, and those of a start from any seed. -/
structure Random where
  words : Nat → UInt64
  /-- How many words were drawn. -/
  drawn : Nat
  seeded : Nat → Nat → UInt64

namespace Random

/-- A source of nothing but zeros. -/
def still : Random := ⟨fun _ => 0, 0, fun _ _ => 0⟩

instance : Inhabited Random := ⟨still⟩

/-- Starts afresh from a seed. -/
def startFrom (seed : Nat) (r : Random) : Random := { r with words := r.seeded seed, drawn := 0 }

def next (r : Random) : UInt64 × Random := (r.words r.drawn, { r with drawn := r.drawn + 1 })

/-- A sample in the unit interval, its upper end left out: 53 random bits. -/
def sample {α : Type} [Scalar α] (r : Random) : α × Random :=
  let (bits, r) := r.next
  (Scalar.ofNat (bits >>> 11).toNat / Scalar.ofNat (1 <<< 53), r)

end Random

end ClientRuntime
