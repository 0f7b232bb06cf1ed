import Mathlib
import ClientRuntime.Proofs.Scalar.Ordered

/-!
What scalars keep of the size of the numbers that they stand for. A finite result comes from finite
numbers and loses less than a thousandth, unless it is tiny; a quotient is not rounded past a whole
number, and a sum of moderate size grows by at least half of what is added.
-/

namespace ClientRuntime

class RoundedScalar (α : Type) [Scalar α] : Prop extends OrderedScalar α where
  ofNat_near : ∀ {n : Nat} {r : Rat}, Scalar.value? (Scalar.ofNat n : α) = some r →
    999 * (n : Rat) ≤ 1000 * r
  mul_near : ∀ {x y : α} {q r : Rat}, Scalar.Nonneg x → Scalar.value? y = some q → 0 < q →
    Scalar.value? (x * y) = some r → ∃ p, Scalar.value? x = some p ∧
      ((2 : Rat) ^ (-1000 : Int) ≤ p * q → 999 * (p * q) ≤ 1000 * r)
  div_near : ∀ {x y : α} {q r : Rat}, Scalar.Nonneg x → Scalar.value? y = some q → 0 < q →
    Scalar.value? (x / y) = some r → ∃ p, Scalar.value? x = some p ∧
      ((2 : Rat) ^ (-1000 : Int) ≤ p / q → 999 * (p / q) ≤ 1000 * r)
  add_near : ∀ {x y : α} {p r : Rat}, Scalar.value? x = some p → 0 ≤ p → Scalar.Nonneg y →
    Scalar.value? (x + y) = some r → ∃ q, Scalar.value? y = some q ∧
      ((2 : Rat) ^ (-20 : Int) ≤ q → r < 2 ^ 32 → p + q / 2 ≤ r)
  div_le : ∀ {x y : α} {p q : Rat} {n : Nat}, Scalar.value? x = some p → 0 ≤ p →
    Scalar.value? y = some q → 0 < q → n < 2 ^ 53 → p / q ≤ n →
      ∃ r, Scalar.value? (x / y) = some r ∧ 0 ≤ r ∧ r ≤ n

instance : RoundedScalar Rat where
  ofNat_near {n r} hr := by
    obtain rfl : (n : Rat) = r := Option.some.inj hr
    have : (0 : Rat) ≤ n := Nat.cast_nonneg n
    linarith
  mul_near hx hy hq hr := by
    obtain rfl := Option.some.inj hy
    obtain rfl := Option.some.inj hr
    refine ⟨_, rfl, fun _ => ?_⟩
    have := mul_nonneg (Scalar.nonneg_iff_rat.mp hx) hq.le
    linarith
  div_near hx hy hq hr := by
    obtain rfl := Option.some.inj hy
    obtain rfl := Option.some.inj hr
    refine ⟨_, rfl, fun _ => ?_⟩
    have := div_nonneg (Scalar.nonneg_iff_rat.mp hx) hq.le
    linarith
  add_near hx _ hy hr := by
    obtain rfl := Option.some.inj hx
    obtain rfl := Option.some.inj hr
    refine ⟨_, rfl, fun _ _ => ?_⟩
    have := Scalar.nonneg_iff_rat.mp hy
    linarith
  div_le hx hp hy hq _ hle := by
    obtain rfl := Option.some.inj hx
    obtain rfl := Option.some.inj hy
    exact ⟨_, rfl, div_nonneg hp hq.le, hle⟩

end ClientRuntime
