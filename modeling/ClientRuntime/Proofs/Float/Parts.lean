import Mathlib
import ClientRuntime.Proofs.Float.Error

/-!
Floats compute with 64ths of a unit without rounding, as there is room for them in the format; and
a 64th of a second is a whole number of microseconds.
-/

namespace ClientRuntime.Float64

open Float.Model Float.Model.UnpackedFloat

variable {p q : Rat} {f g : UnpackedFloat} {x y : Float}

namespace Exact

theorem mul (hf : Exact p f) (hg : Exact q g) (hq : 0 < q) (hfits : Fits (p * q)) :
    Exact (p * q) (UnpackedFloat.mul Format.binary64 f g) := by
  cases hg with
  | zero => exact absurd hq (lt_irrefl 0)
  | finite hn hcanonical' _ hq' =>
    cases hf with
    | zero =>
      rw [zero_mul]
      exact .zero
    | finite hm hcanonical _ hp =>
      have hround :=
        (nearest_mul hm hn (product_le_target hm hn hcanonical hcanonical')).roundsTo
      rw [hp, hq'] at hround
      have hpos : 0 < p := hp ▸ by positivity
      exact hround.exact (mul_pos hpos hq) hfits

theorem div (hf : Exact p f) (hg : Exact q g) (hq : 0 < q) (hfits : Fits (p / q)) :
    Exact (p / q) (UnpackedFloat.div Format.binary64 f g) := by
  cases hg with
  | zero => exact absurd hq (lt_irrefl 0)
  | @finite _ n d hn _ _ hq' =>
    cases hf with
    | zero =>
      rw [zero_div]
      exact .zero
    | @finite _ m e hm _ _ hp =>
      have hround : RoundsTo .positive (m * 2 ^ e / (n * 2 ^ d)) _ := (nearest_div hm hn).roundsTo
      rw [hp, hq'] at hround
      have hpos : 0 < p := hp ▸ by positivity
      exact hround.exact (div_pos hpos hq) hfits

end Exact

namespace IsExact

theorem mul (hx : IsExact p x) (hy : IsExact q y) (hq : 0 < q) (hfits : Fits (p * q)) :
    IsExact (p * q) (x * y) :=
  ⟨_, hx.unpack.mul hy.unpack hq hfits, rfl⟩

theorem div (hx : IsExact p x) (hy : IsExact q y) (hq : 0 < q) (hfits : Fits (p / q)) :
    IsExact (p / q) (x / y) :=
  ⟨_, hx.unpack.div hy.unpack hq hfits, rfl⟩

end IsExact

theorem fits_part {a : Nat} (ha : a ≤ 2 ^ 53) : Fits (a / 64) := by
  have hfits := fits_scaled (e := -6) ha (by decide) (by decide)
  have hunit : (2 : Rat) ^ (-6 : Int) = 1 / 64 := by norm_num
  rwa [hunit, mul_one_div] at hfits

theorem isExact_part {a : Nat} (ha : a ≤ 2 ^ 53) : IsExact (a / 64) (Scalar.part 64 a) :=
  (isExact_ofNat ha).div (isExact_ofNat (n := 64) (by decide)) (by norm_num) (fits_part ha)

end ClientRuntime.Float64

namespace ClientRuntime

open Float64

instance : PartsExact Float 64 where
  dvd := by decide
  whole {n} hn := by
    have hpart := isExact_part (a := n * 64) (by omega)
    rw [Nat.cast_mul, Nat.cast_ofNat, mul_div_cancel_right₀ _ (by norm_num)] at hpart
    exact (isExact_ofNat (by omega)).unique hpart
  value ha := (isExact_part (by omega)).value
  add {a b} hsum := by
    have hfits := fits_part (a := a + b) (by omega)
    have hpart := isExact_part (a := a + b) (by omega)
    rw [Nat.cast_add, add_div] at hfits hpart
    exact ((isExact_part (by omega)).add (isExact_part (by omega)) hfits).unique hpart
  sub {a b} hle ha := by
    have hfits := fits_part (a := a - b) (by omega)
    have hpart := isExact_part (a := a - b) (by omega)
    rw [Nat.cast_sub hle, sub_div] at hfits hpart
    have horder : (b : Rat) / 64 ≤ a / 64 := by
      have : (b : Rat) ≤ a := Nat.cast_le.mpr hle
      linarith
    exact ((isExact_part (by omega)).sub (isExact_part (by omega)) horder hfits).unique hpart
  seconds {k} hk := by
    have hfits := fits_part (a := k) (by omega)
    have hpart := isExact_part (a := k) (by omega)
    have hvalue : ((k * (1000000 / 64) : Nat) : Rat) / (1000000 : Nat) = k / 64 := by
      push_cast
      ring
    rw [← hvalue] at hfits hpart
    exact ((isExact_ofNat hk).div (isExact_ofNat (n := 1000000) (by decide)) (by norm_num)
      hfits).unique hpart
  mul {k n} hpos hn hk := by
    have hle : k ≤ k * n := Nat.le_mul_of_pos_right k hpos
    have hfits := fits_part (a := k * n) (by omega)
    have hpart := isExact_part (a := k * n) (by omega)
    rw [Nat.cast_mul, mul_div_right_comm] at hfits hpart
    exact ((isExact_part (by omega)).mul (isExact_ofNat (by omega)) (Nat.cast_pos.mpr hpos)
      hfits).unique hpart

end ClientRuntime
