import Mathlib
import ClientRuntime.Scalar

/-!
Powers by repeated squaring. What holds of the factors of a power and is passed on to their products
holds of the power, as long as the loop multiplies nothing that the power is not made of.
-/

namespace ClientRuntime

namespace Scalar

section Loop

variable {α : Type} [Scalar α] {P : Nat → α → Prop} {limit : Nat}

/-- The loop keeps `a + b * n`, the exponent of its result, when `r` is an `a`th power and `x` a
`b`th one; it squares `x` only if there are more bits to come. -/
theorem powerFrom_induction (hmul : ∀ {m n x y}, P m x → P n y → m + n ≤ limit → P (m + n) (x * y))
    (n : Nat) : ∀ {a b r x}, P a r → P b x → a + b * n ≤ limit →
      P (a + b * n) (powerFrom r x n) := by
  induction n using Nat.strong_induction_on with
  | _ n ih =>
    intro a b r x hr hx hlimit
    have hbits : b * n = b * (n % 2) + (b + b) * (n / 2) := by
      conv_lhs => rw [← Nat.mod_add_div n 2]
      ring
    have hlow : P (a + b * (n % 2)) (if n % 2 = 1 then r * x else r) := by
      obtain hbit | hbit := Nat.mod_two_eq_zero_or_one n
      · rw [hbit]
        exact hr
      · rw [hbit, Nat.mul_one] at hbits ⊢
        exact hmul hr hx (by omega)
    rw [powerFrom, hbits, ← Nat.add_assoc]
    split
    · next hlast =>
      rw [hlast]
      exact hlow
    · next hmore =>
      have hsquare : (b + b) * 1 ≤ (b + b) * (n / 2) :=
        Nat.mul_le_mul_left _ (Nat.one_le_iff_ne_zero.mpr hmore)
      exact ih (n / 2) (by omega) hlow (hmul hx hx (by omega)) (by omega)

/-- What products pass on holds of a power. -/
theorem power_induction {x : α} {n : Nat} (hone : P 0 (ofNat 1)) (hx : P 1 x)
    (hmul : ∀ {j k y z}, P j y → P k z → j + k ≤ n → P (j + k) (y * z)) : P n (power x n) := by
  have h := powerFrom_induction hmul n hone hx (by omega)
  rwa [Nat.zero_add, Nat.one_mul] at h

end Loop

theorem power_eq_pow (q : Rat) (n : Nat) : power q n = q ^ n := by
  have hone : (ofNat 1 : Rat) = q ^ 0 := by
    rw [pow_zero]
    exact Nat.cast_one
  have hmul {j k : Nat} {y z : Rat} (hy : y = q ^ j) (hz : z = q ^ k) : y * z = q ^ (j + k) := by
    rw [hy, hz, pow_add]
  exact power_induction (P := fun n y => y = q ^ n) hone (pow_one q).symm fun hy hz _ => hmul hy hz

end Scalar

end ClientRuntime
