import Mathlib
import ClientRuntime.Proofs.Scalar.Ordered

/-!
What scalars compute in order. A greater number does not become the lesser one by rounding, whether
both are divided by the same number, multiplied by it or added to it; infinity is the greatest.
-/

namespace ClientRuntime

class MonotoneScalar (α : Type) [Scalar α] : Prop extends OrderedScalar α where
  le_trans : ∀ {x y z : α}, Scalar.Nonneg x → Scalar.le x y = true → Scalar.le y z = true →
    Scalar.le x z = true
  ofNat_mono : ∀ {m n : Nat}, m ≤ n → Scalar.le (Scalar.ofNat m : α) (Scalar.ofNat n) = true
  div_mono : ∀ {x y z : α} {q : Rat}, Scalar.Nonneg x → Scalar.le x y = true →
    Scalar.value? z = some q → 0 < q → Scalar.le (x / z) (y / z) = true
  mul_mono : ∀ {x y z : α} {q : Rat}, Scalar.Nonneg x → Scalar.le x y = true →
    Scalar.value? z = some q → 0 < q → Scalar.le (x * z) (y * z) = true
  add_mono : ∀ {x y z : α} {p : Rat}, Scalar.value? x = some p → 0 ≤ p → Scalar.Nonneg y →
    Scalar.le y z = true → Scalar.le (x + y) (x + z) = true
  le_add_zero : ∀ {x : α} {p : Rat}, Scalar.value? x = some p → 0 ≤ p →
    Scalar.le x (x + Scalar.ofNat 0) = true

namespace Scalar

variable {α : Type} [Scalar α] [MonotoneScalar α] {x y z : α} {p : Rat}

/-- A number does not become less when something is added. -/
theorem le_add (hx : value? x = some p) (hp : 0 ≤ p) (hy : Nonneg y) : le x (x + y) = true := by
  have hzero := MonotoneScalar.le_add_zero hx hp
  have hmore : le (x + ofNat 0) (x + y) = true :=
    MonotoneScalar.add_mono hx hp (OrderedScalar.nonneg_ofNat 0) hy
  exact MonotoneScalar.le_trans ((nonneg_iff hx).mpr hp) hzero hmore

theorem minimum_mono (hx : Nonneg x) (hxy : le x y = true) (hz : le z z = true) :
    le (minimum x z) (minimum y z) = true := by
  unfold minimum
  by_cases hy : le y z = true
  · rw [if_pos hy, if_pos (MonotoneScalar.le_trans hx hxy hy)]
    exact hxy
  · rw [if_neg hy]
    split
    · assumption
    · exact hz

omit [MonotoneScalar α] in
/-- The lesser of two is no less than what is below both. -/
theorem le_minimum (hxy : le x y = true) (hxz : le x z = true) : le x (minimum y z) = true := by
  unfold minimum
  split
  · exact hxy
  · exact hxz

end Scalar

instance : MonotoneScalar Rat where
  le_trans _ hxy hyz := by
    change decide _ = true at hxy hyz
    rw [decide_eq_true_iff] at hxy hyz
    exact decide_eq_true (hxy.trans hyz)
  ofNat_mono h := decide_eq_true (Nat.cast_le.mpr h)
  div_mono _ hxy hz hq := by
    obtain rfl := Option.some.inj hz
    exact decide_eq_true (div_le_div_of_nonneg_right (of_decide_eq_true hxy) hq.le)
  mul_mono _ hxy hz hq := by
    obtain rfl := Option.some.inj hz
    exact decide_eq_true (mul_le_mul_of_nonneg_right (of_decide_eq_true hxy) hq.le)
  add_mono _ _ _ hyz := decide_eq_true (add_le_add_right (of_decide_eq_true hyz) _)
  le_add_zero _ _ := decide_eq_true (by
    change _ ≤ _ + ((0 : Nat) : Rat)
    rw [Nat.cast_zero, add_zero])

end ClientRuntime
