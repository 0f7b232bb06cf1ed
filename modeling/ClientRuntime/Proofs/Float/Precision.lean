import Mathlib
import ClientRuntime.Proofs.Float.Monotone

/-!
How near results lie to what they are rounded from. No float is nearer, so a number up to a power of
two is moved by at most half of the unit that floats have there; and floats that are large for a
unit are multiples of it, so two of them that are less than a unit apart are the same.
-/

namespace ClientRuntime.Float64

open Float.Model Float.Model.UnpackedFloat

section Numbers

variable {x u v : Rat} {e : Int}

theorem Nearest.le_of_fits (h : Nearest x v) (hu : Fits u) (hle : x ≤ u) : v ≤ u := by
  obtain ⟨m, d, hm, -, rfl⟩ := hu
  by_contra hpassed
  have := (h m d hm).1 (not_le.mp hpassed)
  linarith

theorem Nearest.ge_of_fits (h : Nearest x v) (hu : Fits u) (hle : u ≤ x) : u ≤ v := by
  obtain ⟨m, d, hm, -, rfl⟩ := hu
  by_contra hpassed
  have := (h m d hm).2 (not_le.mp hpassed)
  linarith

/-- A float is rounded to itself. -/
theorem Nearest.eq_of_fits (h : Nearest x v) (hx : Fits x) : v = x :=
  le_antisymm (h.le_of_fits hx le_rfl) (h.ge_of_fits hx le_rfl)

theorem Nearest.near (h : Nearest x v) (hu : Fits u) : |v - x| ≤ |u - x| := by
  obtain ⟨m, d, hm, -, rfl⟩ := hu
  rcases lt_trichotomy ((m : Rat) * 2 ^ d) v with hlt | heq | hgt
  · have hmiddle := (h m d hm).1 hlt
    rw [abs_of_nonpos (by linarith : (m : Rat) * 2 ^ d - x ≤ 0), abs_le]
    constructor <;> linarith
  · rw [heq]
  · have hmiddle := (h m d hm).2 hgt
    rw [abs_of_nonneg (by linarith : 0 ≤ (m : Rat) * 2 ^ d - x), abs_le]
    constructor <;> linarith

/-- Rounding moves a number by at most half a unit. -/
theorem Nearest.error_le (h : Nearest x v) (hx : 0 ≤ x) (hle : x ≤ 2 ^ 53 * 2 ^ e)
    (hlow : -1074 ≤ e) (hhigh : e ≤ 970) : |v - x| ≤ 2 ^ e / 2 := by
  have hunit : (0 : Rat) < 2 ^ e := by positivity
  obtain ⟨y, rfl⟩ : ∃ y, x = y * 2 ^ e := ⟨x / 2 ^ e, (div_mul_cancel₀ x hunit.ne').symm⟩
  rw [mul_nonneg_iff_of_pos_right hunit] at hx
  rw [mul_le_mul_iff_left₀ hunit] at hle
  have hmost : y + 1 / 2 < (2 ^ 53 + 1 : Nat) := by
    push_cast
    linarith
  have hfloor := Nat.floor_le (by linarith : 0 ≤ y + 1 / 2)
  have hceil := Nat.lt_floor_add_one (y + 1 / 2)
  have hlt := (Nat.floor_lt (by linarith)).mpr hmost
  generalize ⌊y + 1 / 2⌋₊ = n at hfloor hceil hlt
  have hfits : Fits (n * 2 ^ e) := fits_scaled (by omega) hlow hhigh
  refine (h.near hfits).trans (abs_le.mpr ⟨?_, ?_⟩) <;> nlinarith

theorem fits_zero : Fits 0 := by exact_mod_cast fits_nat (Nat.zero_le _)

theorem fits_two_pow {k : Nat} (hk : k ≤ 970) : Fits (2 ^ k) := by
  have hfits : Fits ((1 : Nat) * 2 ^ (k : Int)) := fits_scaled (by decide) (by omega) (by omega)
  rwa [Nat.cast_one, one_mul, zpow_natCast] at hfits

/-- A float that is large for a unit is a multiple of it. -/
theorem Fits.multiple (hv : Fits v) (hlarge : 2 ^ 52 * 2 ^ e ≤ v) :
    ∃ n : Nat, v = n * 2 ^ e := by
  obtain ⟨m, d, hm, -, rfl⟩ := hv
  have he : e ≤ d := by
    by_contra hfine
    have hnext : (2 : Rat) ^ (d + 1) ≤ 2 ^ e := zpow_le_zpow_right₀ one_le_two (by omega)
    have hfull : (m : Rat) < 2 ^ 53 := by exact_mod_cast hm.lt
    have hunit : (0 : Rat) < 2 ^ d := by positivity
    rw [zpow_add_one₀ two_ne_zero] at hnext
    nlinarith
  exact ⟨_, scaled he m⟩

theorem Fits.eq_of_near (hu : Fits u) (hv : Fits v) (hularge : 2 ^ 52 * 2 ^ e ≤ u)
    (hvlarge : 2 ^ 52 * 2 ^ e ≤ v) (hnear : |u - v| < 2 ^ e) : u = v := by
  have hunit : (0 : Rat) < 2 ^ e := by positivity
  obtain ⟨m, rfl⟩ := hu.multiple hularge
  obtain ⟨n, rfl⟩ := hv.multiple hvlarge
  rw [← sub_mul, abs_mul, abs_of_pos hunit, mul_lt_iff_lt_one_left hunit] at hnear
  have hint : |(m : Int) - n| < 1 := by exact_mod_cast hnear
  rw [Int.abs_lt_one_iff, sub_eq_zero] at hint
  rw [Nat.cast_injective (R := Int) hint]

end Numbers

/-! ### Operations -/

section Operations

variable {p q u x : Rat} {f g : UnpackedFloat}

theorem Exact.fits (h : Exact q f) : Fits q := by
  cases h with
  | zero => exact fits_zero
  | finite _ hcanonical he hq => exact ⟨_, _, hcanonical, he, hq⟩

theorem Exact.nonneg (h : Exact q f) : 0 ≤ q := by
  cases h with
  | zero => exact le_rfl
  | finite _ _ _ hq =>
    rw [← hq]
    positivity

/-- A number up to some float is rounded to a float, and none is nearer. -/
theorem RoundsToNearest.exact (h : RoundsToNearest .positive x f) (hu : Fits u) (hle : x ≤ u) :
    ∃ v, Exact v f ∧ Nearest x v := by
  obtain ⟨m, e, hparts, hnearest⟩ := h
  refine ⟨m * 2 ^ e, ?_, hnearest⟩
  cases hparts with
  | zero hzero =>
    rw [hzero, Nat.cast_zero, zero_mul]
    exact .zero
  | finite hm hcanonical =>
    have hbound := hnearest.le_of_fits hu hle
    obtain ⟨n, d, hn, hd, rfl⟩ := hu
    have he : e ≤ 971 := by
      by_contra hlarge
      have := hn.magnitude_lt hcanonical (by omega)
      linarith
    exact .finite hm hcanonical he rfl

theorem roundsToNearest_self (h : Exact q f) : RoundsToNearest .positive q f := by
  cases h with
  | zero => exact ⟨0, 0, .zero rfl, by rw [Nat.cast_zero, zero_mul]; exact nearest_self 0⟩
  | finite hm hcanonical _ hq => exact ⟨_, _, .finite hm hcanonical, hq ▸ nearest_self _⟩

theorem nearest_sum (hf : Exact p f) (hg : Exact q g) :
    RoundsToNearest .positive (p + q) (UnpackedFloat.add Format.binary64 f g) := by
  cases hf with
  | zero =>
    rw [zero_add]
    cases hg with
    | zero => exact roundsToNearest_self .zero
    | finite hn h he hq => exact roundsToNearest_self (.finite hn h he hq)
  | finite hm h he hp =>
    cases hg with
    | zero =>
      rw [add_zero]
      exact roundsToNearest_self (.finite hm h he hp)
    | finite hn h' _ hq =>
      rw [← hp, ← hq]
      exact nearest_add hm hn

theorem nearest_quotient (hf : Exact p f) (hg : Exact q g) (hq : 0 < q) :
    RoundsToNearest .positive (p / q) (UnpackedFloat.div Format.binary64 f g) := by
  cases hg with
  | zero => exact absurd hq (lt_irrefl 0)
  | finite hn h' _ hvalue =>
    cases hf with
    | zero =>
      rw [zero_div]
      exact roundsToNearest_self .zero
    | finite hm h _ hp =>
      rw [← hp, ← hvalue]
      exact nearest_div hm hn

namespace IsExact

variable {a b : Float}

theorem fits (ha : IsExact q a) : Fits q := ha.unpack.fits

theorem nonneg (ha : IsExact q a) : 0 ≤ q := ha.unpack.nonneg

theorem isFinite (ha : IsExact q a) : a.isFinite = true := by
  have hmodel : a.isFinite = a.toModel.unpack.isFinite := rfl
  have hexact := ha.unpack
  rw [hmodel]
  generalize a.toModel.unpack = f at hexact
  cases hexact <;> rfl

theorem not_lt_zero (ha : IsExact q a) : Scalar.lt a (Scalar.ofNat 0) = false := by
  have hzero : (Float.ofNat 0).toModel.unpack = .zero .positive :=
    (isNat_ofNat (Nat.zero_le _)).unpack.unique .zero
  have hexact := ha.unpack
  change decide (decide (a.toModel.unpack.lt (Float.ofNat 0).toModel.unpack = true) = true) = false
  rw [decide_eq_false_iff_not, decide_eq_true_iff, hzero]
  generalize a.toModel.unpack = f at hexact
  cases hexact <;> exact Bool.false_ne_true

theorem nearest_add (ha : IsExact p a) (hb : IsExact q b) (hu : Fits u) (hle : p + q ≤ u) :
    ∃ v, IsExact v (a + b) ∧ Nearest (p + q) v := by
  obtain ⟨v, hv, hnearest⟩ := (nearest_sum ha.unpack hb.unpack).exact hu hle
  exact ⟨v, ⟨_, hv, rfl⟩, hnearest⟩

theorem nearest_div (ha : IsExact p a) (hb : IsExact q b) (hq : 0 < q) (hu : Fits u)
    (hle : p / q ≤ u) : ∃ v, IsExact v (a / b) ∧ Nearest (p / q) v := by
  obtain ⟨v, hv, hnearest⟩ := (nearest_quotient ha.unpack hb.unpack hq).exact hu hle
  exact ⟨v, ⟨_, hv, rfl⟩, hnearest⟩

end IsExact

/-- Whole numbers are rounded to the nearest float. -/
theorem isExact_ofNat_near {n : Nat} (hu : Fits u) (hle : n ≤ u) :
    ∃ v, IsExact v (Float.ofNat n) ∧ Nearest n v := by
  rcases le_total n (2 ^ 53) with hsmall | hlarge
  · exact ⟨n, isExact_ofNat hsmall, nearest_self _⟩
  · obtain ⟨v, hv, hnearest⟩ := (nearest_ofScientific hlarge).exact hu hle
    exact ⟨v, ⟨_, hv, ofNat_eq_of_le hlarge⟩, hnearest⟩

end Operations

end ClientRuntime.Float64
