import Mathlib
import ClientRuntime.Proofs.Scalar.Rounded

/-!
What scalars compute without rounding: the rest of an amount from which whole units are taken, and
amounts of moderate size that come in whole parts of a unit, all of the same size.
-/

namespace ClientRuntime

class UnitExact (α : Type) [Scalar α] : Prop extends OrderedScalar α where
  value_sub_ofNat : ∀ {x : α} {p : Rat} {n : Nat}, Scalar.value? x = some p → n ≤ p →
    p < 2 ^ 53 → Scalar.value? (x - Scalar.ofNat n) = some (p - n)

instance : UnitExact Rat where
  value_sub_ofNat hx _ _ := by
    obtain rfl := Option.some.inj hx
    rfl

namespace Scalar

variable {α : Type} [Scalar α]

/-- As many parts, of which `d` make a whole. -/
def part (d a : Nat) : α := ofNat a / ofNat d

end Scalar

/-- Scalars that compute with parts of a unit without rounding; a second has whole microseconds in
each of its parts. -/
class PartsExact (α : Type) [Scalar α] (d : Nat) : Prop extends RoundedScalar α where
  dvd : d ∣ 1000000
  whole : ∀ {n : Nat}, n ≤ 2 ^ 36 → (Scalar.ofNat n : α) = Scalar.part d (n * d)
  value : ∀ {a : Nat}, a ≤ 2 ^ 36 * d → Scalar.value? (Scalar.part d a : α) = some (a / d : Rat)
  add : ∀ {a b : Nat}, a + b ≤ 2 ^ 36 * d →
    (Scalar.part d a + Scalar.part d b : α) = Scalar.part d (a + b)
  sub : ∀ {a b : Nat}, b ≤ a → a ≤ 2 ^ 36 * d →
    (Scalar.part d a - Scalar.part d b : α) = Scalar.part d (a - b)
  seconds : ∀ {k : Nat}, k * (1000000 / d) ≤ 2 ^ 53 →
    (Scalar.ofNat (k * (1000000 / d)) / Scalar.ofNat 1000000 : α) = Scalar.part d k
  mul : ∀ {k n : Nat}, 0 < n → n ≤ 2 ^ 36 → k * n ≤ 2 ^ 36 * d →
    (Scalar.part d k * Scalar.ofNat n : α) = Scalar.part d (k * n)

namespace Scalar

variable {α : Type} [Scalar α] {d a b : Nat} [PartsExact α d]

theorem parts_pos (α : Type) [Scalar α] (d : Nat) [PartsExact α d] : 0 < d :=
  Nat.pos_of_dvd_of_pos (PartsExact.dvd α) (by decide)

theorem le_part (ha : a ≤ 2 ^ 36 * d) (hb : b ≤ 2 ^ 36 * d) :
    le (part d a : α) (part d b) = true ↔ a ≤ b := by
  have hd : (0 : Rat) < d := Nat.cast_pos.mpr (parts_pos α d)
  rw [OrderedScalar.le_iff (PartsExact.value ha) (PartsExact.value hb),
    div_le_div_iff_of_pos_right hd, Nat.cast_le]

theorem minimum_part (ha : a ≤ 2 ^ 36 * d) (hb : b ≤ 2 ^ 36 * d) :
    minimum (part d a : α) (part d b) = part d (min a b) := by
  unfold minimum
  by_cases hle : a ≤ b
  · rw [if_pos ((le_part ha hb).mpr hle), min_eq_left hle]
  · rw [if_neg (mt (le_part ha hb).mp hle), min_eq_right (by omega)]

end Scalar

/-- Exact numbers come in microseconds. -/
instance : PartsExact Rat 1000000 where
  dvd := dvd_rfl
  whole {n} _ := by
    change (n : Rat) = (n * 1000000 : Nat) / (1000000 : Nat)
    push_cast
    ring
  value _ := rfl
  add {a b} _ := by
    change (a : Rat) / (1000000 : Nat) + b / (1000000 : Nat) = (a + b : Nat) / (1000000 : Nat)
    push_cast
    ring
  sub {a b} hle _ := by
    change (a : Rat) / (1000000 : Nat) - b / (1000000 : Nat) = (a - b : Nat) / (1000000 : Nat)
    rw [Nat.cast_sub hle]
    ring
  seconds {k} _ := by
    rw [Nat.div_self (by decide), Nat.mul_one]
    rfl
  mul {k n} _ _ _ := by
    change (k : Rat) / (1000000 : Nat) * n = (k * n : Nat) / (1000000 : Nat)
    push_cast
    ring

end ClientRuntime
