import Mathlib
import ClientRuntime.Proofs.Bucket.Whole
import ClientRuntime.Proofs.Float.Exact

/-!
Whole numbers of 53 bits are floats. Each has one float, and adding, subtracting and comparing such
floats is adding, subtracting and comparing the numbers.
-/

namespace ClientRuntime.Float64

open Float.Model Float.Model.UnpackedFloat

/-- The float of a whole number. -/
inductive Whole : Nat → UnpackedFloat → Prop where
  | zero : Whole 0 (.zero .positive)
  | finite {n m : Nat} {e : Int} (hm : 0 < m) (h : Canonical m e) (he : e ≤ 971)
      (hn : (m : Rat) * 2 ^ e = n) : Whole n (.finite .positive m e hm)

variable {m n : Nat} {f g : UnpackedFloat}

/-- It stands for the number exactly. -/
theorem whole_iff_exact : Whole n f ↔ Exact n f := by
  constructor
  · rintro (_ | ⟨hm, h, he, hn⟩)
    · rw [Nat.cast_zero]
      exact .zero
    · exact .finite hm h he hn
  · intro h
    generalize hq : (n : Rat) = q at h
    cases h with
    | zero =>
      obtain rfl : n = 0 := by exact_mod_cast hq
      exact .zero
    | finite hm h he hn => exact .finite hm h he (hn.trans hq.symm)

theorem pos_of_magnitude {e : Int} (hm : 0 < m) (hn : (m : Rat) * 2 ^ e = n) : 0 < n := by
  have hpos : (0 : Rat) < m * 2 ^ e := by positivity
  rw [hn] at hpos
  exact_mod_cast hpos

namespace Whole

theorem unique (hf : Whole n f) (hg : Whole n g) : f = g :=
  (whole_iff_exact.mp hf).unique (whole_iff_exact.mp hg)

theorem unpack_pack (h : Whole n f) : (Float.Model.pack f).unpack = f :=
  (whole_iff_exact.mp h).unpack_pack

theorem number?_eq (h : Whole n f) : number? f = some (n : Rat) :=
  (whole_iff_exact.mp h).number?_eq

theorem normalize {e : Int} (hm : (m : Rat) * 2 ^ e = n) (hle : n ≤ wholeBound) :
    Whole n (UnpackedFloat.normalize Format.binary64 m e .positive) :=
  whole_iff_exact.mpr (.normalize hm (fits_nat hle))

theorem add (hf : Whole m f) (hg : Whole n g) (hle : m + n ≤ wholeBound) :
    Whole (m + n) (UnpackedFloat.add Format.binary64 f g) := by
  have hfits := fits_nat hle
  rw [whole_iff_exact] at *
  rw [Nat.cast_add] at *
  exact hf.add hg hfits

theorem sub (hf : Whole m f) (hg : Whole n g) (hnm : n ≤ m) (hle : m ≤ wholeBound) :
    Whole (m - n) (UnpackedFloat.sub Format.binary64 f g) := by
  have hfits := fits_nat ((Nat.sub_le m n).trans hle)
  rw [whole_iff_exact] at *
  rw [Nat.cast_sub hnm] at *
  exact hf.sub hg (by exact_mod_cast hnm) hfits

end Whole

/-- One, as the table of powers of ten has it. -/
def one : Float := Float.ofBits 0x3FF0000000000000

theorem unpack_one : one.toModel.unpack = .finite .positive (2 ^ 52) (-52) (by decide) := rfl

theorem Whole.mul_one (h : Whole n f) (hle : n ≤ wholeBound) :
    Whole n (UnpackedFloat.mul Format.binary64 f one.toModel.unpack) := by
  rw [unpack_one]
  cases h with
  | zero => exact .zero
  | @finite _ m e hm h he hn =>
    have hroom : e + -52 ≤ target (m * 2 ^ 52) (e + -52) := by
      unfold target
      rw [log2_mul_two_pow hm]
      omega
    have hround := (nearest_roundWithAccuracy .positive hroom (locates_exact ..)).roundsTo
    have hvalue : ((m * 2 ^ 52 : Nat) : Rat) * 2 ^ (e + -52) = n := by
      have hscaled := scaled (show e + -52 ≤ e by omega) m
      rw [show (e - (e + -52)).toNat = 52 by omega, hn] at hscaled
      exact hscaled.symm
    rw [hvalue] at hround
    have hpos : (0 : Rat) < n := by exact_mod_cast pos_of_magnitude hm hn
    exact whole_iff_exact.mpr (hround.exact hpos (fits_nat hle))

theorem ofNat_eq (hn : n < 2 ^ 53) :
    (Float.ofNat n).toModel = (Float.Model.ofNat n).mul one.toModel := by
  unfold Float.ofNat
  change (Float.ofScientific n false 0).toModel = _
  unfold Float.ofScientific
  rw [dif_pos ⟨hn, by decide⟩]
  have hword : n.toUInt64.toNat = n := Nat.mod_eq_of_lt (hn.trans (by decide))
  change (Float.Model.ofUInt64 n.toUInt64).mul one.toModel = _
  unfold Float.Model.ofUInt64 UnpackedFloat.ofUInt64
  rw [hword]
  rfl

theorem ofNat_eq_of_le (hn : 2 ^ 53 ≤ n) :
    (Float.ofNat n).toModel = Float.Model.ofScientific n 0 := by
  unfold Float.ofNat
  change (Float.ofScientific n false 0).toModel = _
  unfold Float.ofScientific
  rw [dif_neg (by omega)]
  rfl

/-- A float that is a whole number. -/
def IsNat (n : Nat) (x : Float) : Prop := ∃ f, Whole n f ∧ x.toModel = Float.Model.pack f

theorem isNat_ofNat (hle : n ≤ wholeBound) : IsNat n (Float.ofNat n) := by
  by_cases hn : n < 2 ^ 53
  · have hwhole : Whole n (UnpackedFloat.ofNat Format.binary64 n) :=
      .normalize (by rw [zpow_zero, mul_one]) hle
    refine ⟨_, hwhole.mul_one hle, ?_⟩
    rw [ofNat_eq hn, Float.Model.mul, Float.Model.ofNat, hwhole.unpack_pack]
  · obtain rfl : n = 2 ^ 53 := by
      unfold wholeBound at hle
      omega
    have hwhole : Whole (2 ^ 53) (.finite .positive (2 ^ 52) 1 (by decide)) :=
      .finite _ ⟨by decide, by decide, .inl le_rfl⟩ (by decide) (by norm_num)
    exact ⟨_, hwhole, ofNat_eq_of_le le_rfl⟩

theorem isNat_iff_isExact {x : Float} : IsNat n x ↔ IsExact n x :=
  exists_congr fun _ => and_congr_left fun _ => whole_iff_exact

theorem isExact_ofNat (hle : n ≤ 2 ^ 53) : IsExact n (Float.ofNat n) :=
  isNat_iff_isExact.mp (isNat_ofNat hle)

namespace IsNat

variable {x y : Float}

/-- Only one float is a given whole number. -/
theorem unique (hx : IsNat n x) (hy : IsNat n y) : x = y :=
  (isNat_iff_isExact.mp hx).unique (isNat_iff_isExact.mp hy)

theorem unpack (hx : IsNat n x) : Whole n x.toModel.unpack :=
  whole_iff_exact.mpr (isNat_iff_isExact.mp hx).unpack

theorem value (hx : IsNat n x) : value? x = some (n : Rat) := (isNat_iff_isExact.mp hx).value

theorem add (hx : IsNat m x) (hy : IsNat n y) (hle : m + n ≤ wholeBound) : IsNat (m + n) (x + y) :=
  ⟨_, hx.unpack.add hy.unpack hle, rfl⟩

theorem sub (hx : IsNat m x) (hy : IsNat n y) (hnm : n ≤ m) (hle : m ≤ wholeBound) :
    IsNat (m - n) (x - y) :=
  ⟨_, hx.unpack.sub hy.unpack hnm hle, rfl⟩

theorem le_eq (hx : IsNat m x) (hy : IsNat n y) : Scalar.le x y = decide (m ≤ n) := by
  rw [Bool.eq_iff_iff, decide_eq_true_iff, le_iff,
    le_unpack hx.unpack.number?_eq hy.unpack.number?_eq, Nat.cast_le]

end IsNat

end ClientRuntime.Float64

namespace ClientRuntime

open Float64

instance : WholeExact Float where
  add h := ((isNat_ofNat (by omega)).add (isNat_ofNat (by omega)) h).unique (isNat_ofNat h)
  sub hnm h := ((isNat_ofNat h).sub (isNat_ofNat (by omega)) hnm h).unique (isNat_ofNat (by omega))
  le hm hn := (isNat_ofNat hm).le_eq (isNat_ofNat hn)
  value h := (isNat_ofNat h).value

end ClientRuntime
