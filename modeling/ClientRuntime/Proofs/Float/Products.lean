import Mathlib
import ClientRuntime.Proofs.Float.Error
import ClientRuntime.Proofs.Scalar.Power

/-!
Products and powers of floats of either sign. Nothing times a number is nothing, but times infinity
it is no number. A product has no more binary digits before the point than its factors together, so
a power is finite as long as there is room for these.
-/

namespace ClientRuntime.Float64

open Float.Model Float.Model.UnpackedFloat

variable {a b : Float.Model} {p q : Rat}

theorem number?_mul_of_zero (ha : number? a.unpack = some 0) :
    number? (a.mul b).unpack = (number? b.unpack).map fun _ => 0 := by
  obtain ⟨s, ha'⟩ := zero_of_number? ha
  have hzero (s : Sign) : number? (Float.Model.pack (.zero s)).unpack = some 0 :=
    (congrArg number? unpack_packedZero).trans rfl
  have hnone : number? (Float.Model.pack .notANumber).unpack = none := by decide
  unfold Float.Model.mul
  rw [ha']
  cases b.unpack with
  | notANumber | infinity => exact hnone
  | zero | finite => exact hzero _

theorem abs_magnitude (s : Sign) (m : Nat) (e : Int) :
    |((s.apply m : Int) : Rat) * 2 ^ e| = m * 2 ^ e := by
  have hnonneg : (0 : Rat) ≤ m * 2 ^ e := by positivity
  cases s with
  | positive => exact abs_of_nonneg hnonneg
  | negative =>
    change |((-m : Int) : Rat) * 2 ^ e| = _
    rw [Int.cast_neg, neg_mul, abs_neg]
    exact abs_of_nonneg hnonneg

/-- What is in size at most some float is rounded to a value that is not larger in size. -/
theorem RoundsTo.abs_le {s : Sign} {x : Rat} {f : UnpackedFloat} (h : RoundsTo s x f) {n : Nat}
    {d : Int} (hn : Canonical n d) (hd : d ≤ 971) (hx : x ≤ n * 2 ^ d) :
    ∃ r, number? (Float.Model.pack f).unpack = some r ∧ |r| ≤ n * 2 ^ d := by
  obtain ⟨m, e, hparts, hbounds⟩ := h
  have hle := (hbounds n d hn).1 hx
  cases hparts with
  | zero =>
    refine ⟨0, (congrArg number? unpack_packedZero).trans rfl, ?_⟩
    rw [abs_zero]
    positivity
  | finite hm hcanonical =>
    have he : e ≤ 971 := by
      by_contra hlarge
      have := hn.magnitude_lt hcanonical (by omega)
      linarith
    refine ⟨s.apply m * 2 ^ e, ?_, (abs_magnitude s m e).trans_le hle⟩
    rw [unpack_pack hcanonical he]
    rfl

/-- A product of numbers below powers of two is below the product of these, if that is finite. -/
theorem number?_mul_bounded {j k : Nat} (ha : number? a.unpack = some p) (hp : |p| ≤ 2 ^ j)
    (hb : number? b.unpack = some q) (hq : |q| ≤ 2 ^ k) (hroom : j + k ≤ 1023) :
    ∃ r, number? (a.mul b).unpack = some r ∧ |r| ≤ 2 ^ (j + k) := by
  have hbound : Canonical (2 ^ 52) ((j + k : Nat) - 52 : Int) :=
    ⟨by decide, by omega, .inl le_rfl⟩
  have hpower : ((2 ^ 52 : Nat) : Rat) * 2 ^ ((j + k : Nat) - 52 : Int) = 2 ^ (j + k) := by
    rw [zpow_sub₀ two_ne_zero, zpow_natCast, Nat.cast_pow, Nat.cast_ofNat]
    exact mul_div_cancel₀ _ (by norm_num)
  cases ha' : a.unpack with
  | notANumber | infinity =>
    rw [ha'] at ha
    cases ha
  | zero =>
    rw [number?_mul_of_zero (congrArg number? ha'), hb]
    exact ⟨0, rfl, abs_zero.trans_le (by positivity)⟩
  | finite s₁ m₁ e₁ hm₁ =>
    cases hb' : b.unpack with
    | notANumber | infinity =>
      rw [hb'] at hb
      cases hb
    | zero =>
      unfold Float.Model.mul
      rw [ha', hb']
      exact ⟨0, (congrArg number? unpack_packedZero).trans rfl, abs_zero.trans_le (by positivity)⟩
    | finite s₂ m₂ e₂ hm₂ =>
      have htarget := product_le_target hm₁ hm₂ (canonical_of_unpack ha').1
        (canonical_of_unpack hb').1
      rw [ha'] at ha
      rw [hb'] at hb
      obtain rfl := Option.some.inj ha
      obtain rfl := Option.some.inj hb
      rw [abs_magnitude] at hp hq
      have hproduct : ((m₁ * m₂ : Nat) : Rat) * 2 ^ (e₁ + e₂) ≤ 2 ^ (j + k) := by
        calc ((m₁ * m₂ : Nat) : Rat) * 2 ^ (e₁ + e₂) = m₁ * 2 ^ e₁ * (m₂ * 2 ^ e₂) := by
              rw [zpow_add₀ two_ne_zero]
              push_cast
              ring
          _ ≤ 2 ^ j * 2 ^ k := mul_le_mul hp hq (by positivity) (by positivity)
          _ = 2 ^ (j + k) := (pow_add 2 j k).symm
      have hround := (nearest_roundWithAccuracy (s₁ * s₂) htarget (locates_exact ..)).roundsTo
      unfold Float.Model.mul
      rw [ha', hb', ← hpower]
      exact hround.abs_le hbound (by omega) (hproduct.trans_eq hpower.symm)

end ClientRuntime.Float64

namespace ClientRuntime.Scalar

open Float64

/-- Nothing times a number is nothing again, and times anything else it is no number. -/
theorem value?_mul_of_zero {x : Float} (hx : value? x = some 0) (y : Float) :
    value? (x * y) = (value? y).map fun _ => 0 := by
  change Float64.value? _ = _ at hx
  change Float64.value? _ = (Float64.value? y).map _
  rw [value?_eq] at *
  rw [value?_eq]
  exact number?_mul_of_zero hx

/-- A power is finite if the format has room for all the digits that its factors may have before the
point. -/
theorem isFinite_power {x : Float} {q : Rat} {digits n : Nat} (hx : value? x = some q)
    (hq : |q| ≤ 2 ^ digits) (hroom : digits * n ≤ 1023) : isFinite (power x n) = true := by
  have hone : ∃ p, value? (ofNat 1 : Float) = some p ∧ |p| ≤ 2 ^ (digits * 0) :=
    ⟨1, OrderedScalar.value_ofNat (n := 1) (by decide), by norm_num⟩
  have hfactor : ∃ p, value? x = some p ∧ |p| ≤ 2 ^ (digits * 1) := by
    rw [Nat.mul_one]
    exact ⟨q, hx, hq⟩
  obtain ⟨r, hr, -⟩ := power_induction
    (P := fun n y => ∃ p, value? y = some p ∧ |p| ≤ 2 ^ (digits * n)) hone hfactor (by
      rintro j k y z ⟨p, hy, hp⟩ ⟨q, hz, hq⟩ hjk
      change Float64.value? _ = _ at hy hz
      change ∃ r, Float64.value? _ = _ ∧ _
      rw [value?_eq] at hy hz
      rw [value?_eq, Nat.mul_add]
      have hmore := Nat.mul_le_mul_left digits hjk
      rw [Nat.mul_add] at hmore
      exact number?_mul_bounded hy hp hz hq (hmore.trans hroom))
  unfold isFinite
  rw [hr]
  rfl

end ClientRuntime.Scalar
