import Mathlib
import ClientRuntime.Scalar

/-!
What scalars keep of the order of the numbers that they stand for. Sums, products and quotients may
be rounded and may even become infinite, but they are never negative where nothing negative goes in;
a difference never leaves the range from zero to what something is taken from.
-/

namespace ClientRuntime

/-- Not negative, nor what is no number; infinity is allowed. -/
def Scalar.Nonneg {α : Type} [Scalar α] (x : α) : Prop := Scalar.le (Scalar.ofNat 0) x = true

/-- Scalars that compare as the numbers do that they stand for, and that are rounded in order. -/
class OrderedScalar (α : Type) [Scalar α] : Prop where
  value_ofNat : ∀ {n : Nat}, n < 2 ^ 53 → Scalar.value? (Scalar.ofNat n : α) = some (n : Rat)
  nonneg_ofNat : ∀ n : Nat, Scalar.Nonneg (Scalar.ofNat n : α)
  le_iff : ∀ {x y : α} {p q : Rat}, Scalar.value? x = some p → Scalar.value? y = some q →
    (Scalar.le x y = true ↔ p ≤ q)
  /-- What lies below a finite number is finite. -/
  finite_of_le : ∀ {x y : α} {q : Rat}, Scalar.Nonneg x → Scalar.le x y = true →
    Scalar.value? y = some q → ∃ p, Scalar.value? x = some p
  nonneg_add : ∀ {x y : α}, Scalar.Nonneg x → Scalar.Nonneg y → Scalar.Nonneg (x + y)
  nonneg_mul : ∀ {x y : α} {q : Rat}, Scalar.Nonneg x → Scalar.value? y = some q → 0 < q →
    Scalar.Nonneg (x * y)
  nonneg_div : ∀ {x y : α} {q : Rat}, Scalar.Nonneg x → Scalar.value? y = some q → 0 < q →
    Scalar.Nonneg (x / y)
  value_sub : ∀ {x y : α} {p q : Rat}, Scalar.value? x = some p → Scalar.value? y = some q →
    0 ≤ q → q ≤ p → ∃ r, Scalar.value? (x - y) = some r ∧ 0 ≤ r ∧ r ≤ p

namespace Scalar

theorem nonneg_iff_rat {q : Rat} : Nonneg q ↔ 0 ≤ q := by
  change decide ((Nat.cast 0 : Rat) ≤ q) = true ↔ 0 ≤ q
  rw [decide_eq_true_iff, Nat.cast_zero]

variable {α : Type} [Scalar α] [OrderedScalar α] {x y : α} {p q : Rat}

theorem nonneg_iff (hx : value? x = some p) : Nonneg x ↔ 0 ≤ p := by
  have hzero : value? (ofNat 0 : α) = some 0 := OrderedScalar.value_ofNat (by decide)
  exact OrderedScalar.le_iff hzero hx

/-- The lesser of an amount and a finite bound lies between zero and the bound. -/
theorem value_minimum (hx : Nonneg x) (hy : value? y = some q) (hq : 0 ≤ q) :
    ∃ r, value? (minimum x y) = some r ∧ 0 ≤ r ∧ r ≤ q := by
  unfold minimum
  by_cases hle : le x y = true
  · obtain ⟨p, hp⟩ := OrderedScalar.finite_of_le hx hle hy
    rw [if_pos hle]
    exact ⟨p, hp, (nonneg_iff hp).mp hx, (OrderedScalar.le_iff hp hy).mp hle⟩
  · rw [if_neg hle]
    exact ⟨q, hy, hq, le_rfl⟩

end Scalar

instance : OrderedScalar Rat where
  value_ofNat _ := rfl
  nonneg_ofNat n := Scalar.nonneg_iff_rat.mpr (Nat.cast_nonneg n)
  le_iff hx hy := by
    obtain rfl := Option.some.inj hx
    obtain rfl := Option.some.inj hy
    exact decide_eq_true_iff
  finite_of_le _ _ _ := ⟨_, rfl⟩
  nonneg_add hx hy := by
    rw [Scalar.nonneg_iff_rat] at *
    exact add_nonneg hx hy
  nonneg_mul hx hy hq := by
    obtain rfl := Option.some.inj hy
    rw [Scalar.nonneg_iff_rat] at *
    exact mul_nonneg hx hq.le
  nonneg_div hx hy hq := by
    obtain rfl := Option.some.inj hy
    rw [Scalar.nonneg_iff_rat] at *
    exact div_nonneg hx hq.le
  value_sub hx hy hq hle := by
    obtain rfl := Option.some.inj hx
    obtain rfl := Option.some.inj hy
    exact ⟨_, rfl, sub_nonneg.mpr hle, sub_le_self _ hq⟩

end ClientRuntime
