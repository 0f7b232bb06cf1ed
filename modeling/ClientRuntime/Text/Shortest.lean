import ClientRuntime.Scalar

/-!
The text of a float: the fewest digits that read back as the same float, and of those the nearest.
-/

namespace ClientRuntime.Text

/-- The reals that round to `m * 2 ^ e`, times `2 ^ (2 - e)`: lower end, value, upper end and
whether the ends belong to it. The gap below a power of two is half as wide. -/
structure RoundingInterval where
  low : Nat
  mid : Nat
  high : Nat
  closed : Bool

def RoundingInterval.of (m : Nat) (e : Int) : RoundingInterval :=
  let narrow := m = 1 <<< Float64.significandBits ∧ -1074 < e
  ⟨4 * m - (if narrow then 1 else 2), 4 * m, 4 * m + 2, m % 2 = 0⟩

/-- A decimal `digits * 10 ^ exponent`. -/
structure Decimal where
  digits : Nat
  exponent : Int
  deriving DecidableEq

def Decimal.length (d : Decimal) : Nat := (Nat.toDigits 10 d.digits).length

/-- `n * 10 ^ k * 2 ^ (2 - e)` and `1` as naturals over one denominator. -/
def scales (e k : Int) : Nat × Nat :=
  let b := 2 - e
  (tenTo k.toNat <<< b.toNat, tenTo (-k).toNat <<< (-b).toNat)

/-- The point of the grid of multiples of `10 ^ k` that lies in the interval, the one nearest to
its value if there are two and the upper one on a tie. -/
def RoundingInterval.gridPoint? (i : RoundingInterval) (e k : Int) : Option Nat :=
  let (unit, one) := scales e k
  let below := i.mid * one / unit
  let inside (n : Nat) : Bool :=
    if i.closed then i.low * one ≤ n * unit && n * unit ≤ i.high * one
    else i.low * one < n * unit && n * unit < i.high * one
  let above := below + 1
  if inside below then
    if inside above && above * unit - i.mid * one ≤ i.mid * one - below * unit then some above
    else some below
  else if inside above then some above
  else none

/-- Search from the coarsest grid down. -/
def RoundingInterval.firstHit (i : RoundingInterval) (e : Int) : Nat → Int → Option Decimal
  | 0, _ => none
  | steps + 1, k =>
    match i.gridPoint? e k with
    | some (n + 1) => some ⟨n + 1, k⟩
    | _ => i.firstHit e steps (k - 1)

/-- Digits of `m * 2 ^ e` for a positive `m`. The search starts at a grid coarser than the value
and stops at latest on the grid of 17 digits. -/
def shortest (m : Nat) (e : Int) : Decimal :=
  let bits := (Nat.log2 m : Int) + e
  let top := bits * 30103 / 100000 + 2
  ((RoundingInterval.of m e).firstHit e 24 top).getD ⟨m, 0⟩

/-- Positional text of a decimal, with at least one digit on both sides of the point. -/
def positional (d : Decimal) : String :=
  let cs := Nat.toDigits 10 d.digits
  if 0 ≤ d.exponent then
    String.ofList (cs ++ List.replicate d.exponent.toNat '0') ++ ".0"
  else
    let places := (-d.exponent).toNat
    let padded := List.replicate (places + 1 - cs.length) '0' ++ cs
    let whole := padded.length - places
    String.ofList (padded.take whole) ++ "." ++ String.ofList (padded.drop whole)

/-- One digit before the point and the power of ten after an `e`. -/
def exponential (d : Decimal) : String :=
  match Nat.toDigits 10 d.digits with
  | [] => ""
  | c :: rest =>
    let point := if rest.isEmpty then "" else "." ++ String.ofList rest
    c.toString ++ point ++ "e" ++ toString (d.exponent + rest.length)

/-- Positional from one ten-thousandth up to below ten to the sixteenth, else exponential. -/
def decimal (d : Decimal) : String :=
  let leading := d.exponent + d.length - 1
  if -4 ≤ leading ∧ leading < 16 then positional d else exponential d

def ofFloat (x : Float) : String :=
  match Float64.decode? x with
  | none => if x != x then "NaN" else if x < 0 then "-inf" else "inf"
  | some (negative, m, e) =>
    (if negative then "-" else "") ++ (if m = 0 then "0.0" else decimal (shortest m e))

end ClientRuntime.Text
