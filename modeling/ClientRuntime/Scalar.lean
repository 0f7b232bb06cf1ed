/-!
Numbers that amounts and delays are computed with. Everything that runs uses `Float`; the same
definitions at `Rat` give the exact arithmetic that a float computation approximates.
-/

namespace ClientRuntime

class Scalar (α : Type) extends Add α, Sub α, Mul α, Div α where
  ofNat : Nat → α
  le : α → α → Bool
  lt : α → α → Bool
  /-- The exact value; `none` for an infinity or for no number at all. -/
  value? : α → Option Rat

namespace Scalar

variable {α : Type} [Scalar α]

def isFinite (x : α) : Bool := (value? x).isSome

/-- Whole units in an amount. -/
def floor (x : α) : Nat :=
  match value? x with
  | some q => q.floor.toNat
  | none => 0

/-- Equal as numbers are. -/
def equal (x y : α) : Bool := le x y && le y x

def minimum (x y : α) : α := if le x y then x else y

/-- Into the unit interval. What compares with nothing stays as it is. -/
def clampUnit (x : α) : α :=
  let x := if lt x (ofNat 0) then ofNat 0 else x
  if lt (ofNat 1) x then ofNat 1 else x

def powerFrom (r x : α) (n : Nat) : α :=
  let r := if n % 2 = 1 then r * x else r
  if h : n / 2 = 0 then r else powerFrom r (x * x) (n / 2)
termination_by n
decreasing_by omega

/-- Powers by repeated squaring, lowest bit of the exponent first. -/
def power (x : α) (n : Nat) : α := powerFrom (ofNat 1) x n

end Scalar

/-- The quotient `n / d` to the nearest whole number, a tie to the even one. -/
def roundHalfEven (n d : Nat) : Nat :=
  let q := n / d
  let r := n % d
  if 2 * r < d then q else if d < 2 * r then q + 1 else q + q % 2

/-- `10 ^ n`. -/
def tenTo : Nat → Nat
  | 0 => 1
  | n + 1 => 10 * tenTo n

namespace Float64

def significandBits : Nat := 52

def exponentBits : Nat := 11

/-- Sign, significand and binary exponent of a finite float: `m * 2 ^ e`. -/
def decode? (x : Float) : Option (Bool × Nat × Int) :=
  let bits := x.toBits.toNat
  let exponent := (bits >>> significandBits) % (1 <<< exponentBits)
  let fraction := bits % (1 <<< significandBits)
  if exponent = (1 <<< exponentBits) - 1 then none
  else
    let m := if exponent = 0 then fraction else fraction + (1 <<< significandBits)
    some (bits >>> 63 = 1, m, (max exponent 1 : Int) - 1075)

def value? (x : Float) : Option Rat :=
  (decode? x).map fun (negative, m, e) =>
    let magnitude := if e < 0 then mkRat m (1 <<< (-e).toNat) else mkRat (m <<< e.toNat) 1
    if negative then -magnitude else magnitude

end Float64

instance : Scalar Float where
  ofNat := Float.ofNat
  le x y := decide (x ≤ y)
  lt x y := decide (x < y)
  value? := Float64.value?

instance : Scalar Rat where
  ofNat n := (n : Rat)
  le x y := decide (x ≤ y)
  lt x y := decide (x < y)
  value? := some

end ClientRuntime
