import ClientRuntime.Scalar

/-!
JSON values. Whole numbers that fit in 64 bits are kept exactly; every other number is a float.
-/

namespace ClientRuntime

inductive JsonNumber where
  | natural (n : Nat)
  | negative (n : Nat)
  | float (x : Float)

inductive Json where
  | null
  | flag (b : Bool)
  | number (n : JsonNumber)
  | text (s : String)
  | array (items : List Json)
  | object (fields : List (String × Json))

instance : Inhabited Json := ⟨.null⟩

namespace JsonNumber

/-- The number `±significand * 10 ^ exponent` as a float; `none` beyond the largest float. Exponents
that no digit can bring back into range are cut off before the power is computed. -/
def float? (negative : Bool) (significand : Nat) (exponent : Int) : Option Float :=
  let length := (Nat.toDigits 10 significand).length
  let magnitude : Option Float :=
    if significand = 0 ∨ exponent + length < -400 then some 0
    else if 400 < exponent + length then none
    else
      let x := Float.ofScientific significand (exponent < 0) exponent.natAbs
      if x.isInf then none else some x
  magnitude.map fun x => if negative then -x else x

/-- A number as it is written. `none` when its magnitude is out of range. -/
def ofDecimal? (negative whole : Bool) (significand : Nat) (exponent : Int) : Option JsonNumber :=
  if whole && !negative && significand < 1 <<< 64 then some (.natural significand)
  else if whole && negative && 0 < significand && significand ≤ 1 <<< 63 then
    some (.negative significand)
  else (float? negative significand exponent).map .float

def toFloat : JsonNumber → Float
  | natural n => Float.ofNat n
  | negative n => -Float.ofNat n
  | float x => x

def toNat? : JsonNumber → Option Nat
  | natural n => some n
  | _ => none

def toInt? : JsonNumber → Option Int
  | natural n => some n
  | negative n => some (-n)
  | float _ => none

end JsonNumber

namespace Json

def field? (name : String) : Json → Option Json
  | object fields => (fields.find? (·.1 = name)).map (·.2)
  | _ => none

def text? : Json → Option String
  | text s => some s
  | _ => none

def flag? : Json → Option Bool
  | flag b => some b
  | _ => none

def float? : Json → Option Float
  | number n => some n.toFloat
  | _ => none

/-- A whole number of 32 bits. -/
def word32? : Json → Option Nat
  | number n => n.toNat?.filter (· < 1 <<< 32)
  | _ => none

def items? : Json → Option (List Json)
  | array items => some items
  | _ => none

end Json

end ClientRuntime
