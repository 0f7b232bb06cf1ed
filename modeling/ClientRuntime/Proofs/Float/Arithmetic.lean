import Mathlib
import ClientRuntime.Proofs.Float.Whole
import ClientRuntime.Proofs.Scalar.Exact

/-!
Floats keep to the order of the numbers that they stand for.
-/

namespace ClientRuntime.Float64

open Float.Model Float.Model.UnpackedFloat

/-! ### Signs -/

theorem nonneg_finite {m : Nat} {e : Int} (h : 0 < m) : Nonneg (.finite .positive m e h) := rfl

theorem nonneg_roundWithAccuracy (m : Nat) (e : Int) (accuracy : Accuracy) :
    Nonneg (roundWithAccuracy Format.binary64 .positive m e accuracy) := by
  unfold roundWithAccuracy
  simp only
  split
  · trivial
  · rfl

theorem nonneg_normalize {n : Int} (hn : 0 ≤ n) (e : Int) :
    Nonneg (normalize Format.binary64 n e .positive) := by
  unfold UnpackedFloat.normalize
  rcases hn.eq_or_lt with rfl | hpos
  · trivial
  · rw [Int.compare_eq_gt.mpr hpos]
    exact nonneg_roundWithAccuracy ..

theorem nonneg_add {f g : UnpackedFloat} (hf : Nonneg f) (hg : Nonneg g) :
    Nonneg (UnpackedFloat.add Format.binary64 f g) := by
  cases f with
  | notANumber => exact hf.elim
  | infinity s =>
    obtain rfl : s = .positive := hf
    cases g with
    | notANumber => exact hg.elim
    | infinity s' =>
      obtain rfl : s' = .positive := hg
      rfl
    | zero => rfl
    | finite => rfl
  | zero s =>
    cases g with
    | notANumber => exact hg.elim
    | infinity | finite => exact hg
    | zero s' => cases s <;> cases s' <;> trivial
  | finite s m e hm =>
    obtain rfl : s = .positive := hf
    cases g with
    | notANumber => exact hg.elim
    | infinity => exact hg
    | zero => rfl
    | finite s' m' e' hm' =>
      obtain rfl : s' = .positive := hg
      exact nonneg_normalize (Int.add_nonneg (Int.natCast_nonneg _) (Int.natCast_nonneg _)) _

theorem nonneg_mul {f : UnpackedFloat} (hf : Nonneg f) {m : Nat} {e : Int} (hm : 0 < m) :
    Nonneg (UnpackedFloat.mul Format.binary64 f (.finite .positive m e hm)) := by
  cases f with
  | notANumber => exact hf.elim
  | infinity s =>
    obtain rfl : s = .positive := hf
    rfl
  | zero => trivial
  | finite s =>
    obtain rfl : s = .positive := hf
    exact nonneg_roundWithAccuracy ..

theorem nonneg_div {f : UnpackedFloat} (hf : Nonneg f) {m : Nat} {e : Int} (hm : 0 < m) :
    Nonneg (UnpackedFloat.div Format.binary64 f (.finite .positive m e hm)) := by
  cases f with
  | notANumber => exact hf.elim
  | infinity s =>
    obtain rfl : s = .positive := hf
    rfl
  | zero => trivial
  | finite s =>
    obtain rfl : s = .positive := hf
    exact nonneg_roundWithAccuracy ..

/-- A positive value is that of a positive float. -/
theorem positive_of_number? {f : UnpackedFloat} {q : Rat} (hf : number? f = some q) (hq : 0 < q) :
    ∃ m e, ∃ h : 0 < m, f = .finite .positive m e h := by
  cases f with
  | notANumber | infinity => cases hf
  | zero =>
    obtain rfl : 0 = q := Option.some.inj hf
    exact (lt_irrefl _ hq).elim
  | finite s m e hm =>
    cases s with
    | positive => exact ⟨m, e, hm, rfl⟩
    | negative =>
      obtain rfl : ((-m : Int) : Rat) * 2 ^ e = q := Option.some.inj hf
      have : (0 : Rat) ≤ m * 2 ^ e := by positivity
      push_cast at hq
      linarith

theorem le_zero_iff {s : Sign} {f : UnpackedFloat} :
    (UnpackedFloat.zero s).le f = true ↔ Nonneg f := by
  cases f with
  | notANumber => exact iff_of_false Bool.false_ne_true id
  | zero => exact iff_of_true rfl trivial
  | infinity s' | finite s' =>
    cases s' with
    | positive => exact iff_of_true rfl rfl
    | negative => exact iff_of_false Bool.false_ne_true (by rintro ⟨⟩)

theorem zero_of_number? {f : UnpackedFloat} (hf : number? f = some 0) : ∃ s, f = .zero s := by
  cases f with
  | notANumber | infinity => cases hf
  | zero s => exact ⟨s, rfl⟩
  | finite s m e hm =>
    have hvalue : ((s.apply m : Int) : Rat) * 2 ^ e = 0 := Option.some.inj hf
    have hpos : (0 : Rat) < m * 2 ^ e := by positivity
    cases s <;> simp only [Sign.apply] at hvalue <;> push_cast at hvalue <;> linarith

/-! ### Differences -/

/-- Taking nothing from a value leaves the value. -/
theorem number?_sub_zero {f g : Float.Model} {p : Rat} (hf : number? f.unpack = some p)
    (hg : number? g.unpack = some 0) : number? (f.sub g).unpack = some p := by
  unfold Float.Model.sub
  obtain ⟨s', hg'⟩ := zero_of_number? hg
  rw [hg']
  cases hf' : f.unpack with
  | notANumber | infinity =>
    rw [hf'] at hf
    cases hf
  | zero s =>
    rw [hf'] at hf
    obtain rfl : 0 = p := Option.some.inj hf
    cases s <;> cases s' <;> exact (congrArg number? unpack_packedZero).trans rfl
  | finite s m e hm =>
    obtain ⟨hcanonical, he⟩ := canonical_of_unpack hf'
    rw [hf'] at hf
    change number? (Float.Model.pack (.finite s m e hm)).unpack = _
    rw [unpack_pack hcanonical he]
    exact hf

/-- A difference for which there is room is the difference of the values. -/
theorem number?_sub_exact {f g : Float.Model} {p q : Rat} (hf : number? f.unpack = some p)
    (hg : number? g.unpack = some q) (hq : 0 ≤ q) (hle : q ≤ p) (hfits : Fits (p - q)) :
    number? (f.sub g).unpack = some (p - q) := by
  rcases hq.eq_or_lt with rfl | hpos
  · rw [sub_zero]
    exact number?_sub_zero hf hg
  · obtain ⟨n, d, hn, hg'⟩ := positive_of_number? hg hpos
    obtain ⟨m, e, hm, hf'⟩ := positive_of_number? hf (hpos.trans_le hle)
    have hsub := (Exact.of_number? hf' hf).sub (Exact.of_number? hg' hg) hle hfits
    rw [Float.Model.sub, hsub.unpack_pack]
    exact hsub.number?_eq

/-- A whole number below a float of moderate size is taken from it exactly: the difference has no
finer bits than the float, and is no greater. -/
theorem fits_sub_nat {f : Float.Model} {p : Rat} {n : Nat} (hf : number? f.unpack = some p)
    (hle : n ≤ p) (hp : p < 2 ^ 53) : Fits (p - n) := by
  rcases (hle.trans' (Nat.cast_nonneg n)).eq_or_lt with rfl | hpos
  · obtain rfl : n = 0 := by exact_mod_cast le_antisymm hle (Nat.cast_nonneg n)
    rw [Nat.cast_zero, sub_zero]
    exact_mod_cast fits_nat (Nat.zero_le _)
  obtain ⟨m, e, hm, hf'⟩ := positive_of_number? hf hpos
  obtain ⟨hcanonical, he⟩ := canonical_of_unpack hf'
  rw [hf'] at hf
  obtain rfl : (m : Rat) * 2 ^ e = p := Option.some.inj hf
  have hm53 := hcanonical.lt
  have hleast := hcanonical.least
  rcases le_total 0 e with hwhole | hfraction
  · obtain ⟨k, rfl⟩ := Int.eq_ofNat_of_zero_le hwhole
    have hvalue : (m : Rat) * 2 ^ (k : Int) = (m * 2 ^ k : Nat) := by
      push_cast
      rw [zpow_natCast]
    rw [hvalue] at hle hp ⊢
    rw [← Nat.cast_sub (by exact_mod_cast hle)]
    refine fits_nat ((Nat.sub_le _ _).trans ?_)
    exact_mod_cast hp.le
  · have hunits : (n : Rat) = (n * 2 ^ (0 - e).toNat : Nat) * 2 ^ e := by
      rw [← scaled hfraction, zpow_zero, mul_one]
    rw [hunits, mul_zpow_le] at hle
    rw [hunits, ← sub_mul, ← Nat.cast_sub hle]
    exact fits_scaled (by omega) hleast (by omega)

/-- What is taken from an amount, and is not more, leaves an amount that is not more either. -/
theorem number?_sub {f g : Float.Model} {p q : Rat} (hf : number? f.unpack = some p)
    (hg : number? g.unpack = some q) (hq : 0 ≤ q) (hle : q ≤ p) :
    ∃ r, number? (f.sub g).unpack = some r ∧ 0 ≤ r ∧ r ≤ p := by
  rcases hq.eq_or_lt with rfl | hpos
  · exact ⟨p, number?_sub_zero hf hg, hle, le_rfl⟩
  · obtain ⟨n, d, hn, hg'⟩ := positive_of_number? hg hpos
    obtain ⟨m, e, hm, hf'⟩ := positive_of_number? hf (hpos.trans_le hle)
    obtain ⟨hcanonical, he⟩ := canonical_of_unpack hf'
    unfold Float.Model.sub
    rw [hf'] at hf ⊢
    rw [hg'] at hg ⊢
    obtain rfl : (m : Rat) * 2 ^ e = p := Option.some.inj hf
    obtain rfl : (n : Rat) * 2 ^ d = q := Option.some.inj hg
    have hm' := decreaseExponent_value m (min_le_left e d)
    have hn' := decreaseExponent_value n (min_le_right e d)
    simp only [UnpackedFloat.sub, Sign.apply]
    generalize (decreaseExponent m e (min e d)).1 = m' at hm' ⊢
    generalize (decreaseExponent n d (min e d)).1 = n' at hn' ⊢
    rw [← hm', ← hn', mul_zpow_le] at hle
    unfold UnpackedFloat.normalize
    obtain hlt | heq : n' < m' ∨ n' = m' := by omega
    · rw [Int.compare_eq_gt.mpr (by omega)]
      have hround := (nearest_round .positive (show 0 < m' - n' by omega) (min e d)).roundsTo
      rw [show ((m' : Int) - n').toNat = m' - n' by omega]
      have hsub : ((m' - n' : Nat) : Rat) * 2 ^ min e d ≤ m * 2 ^ e := by
        rw [← hm', mul_zpow_le]
        omega
      obtain ⟨r, hr, hr0, hrp⟩ := hround.value_le hcanonical he hsub
      exact ⟨r, hr, hr0, hrp⟩
    · rw [heq, Int.sub_self]
      refine ⟨0, ?_, le_rfl, by positivity⟩
      exact (congrArg number? unpack_packedZero).trans rfl

/-! ### Comparisons -/

theorem nonneg_ofNat (n : Nat) : Nonneg (Float.ofNat n).toModel.unpack := by
  by_cases hn : n < 2 ^ 53
  · rw [ofNat_eq hn]
    apply nonneg_pack
    rw [unpack_one]
    exact nonneg_mul (nonneg_pack (nonneg_normalize (Int.natCast_nonneg n) 0)) _
  · rw [ofNat_eq_of_le (by omega)]
    apply nonneg_pack
    have hbits : (0 : Int) ≤ 2 ^ Format.binary64.exponentBits := by positivity
    unfold UnpackedFloat.ofScientific
    rw [dif_neg (by omega), if_neg (by omega), if_neg (by omega), if_pos le_rfl]
    exact nonneg_mul (nonneg_finite _) _

theorem nonneg_iff {x : Float} : Scalar.Nonneg x ↔ Nonneg x.toModel.unpack := by
  have hzero : (Float.ofNat 0).toModel.unpack = .zero .positive := by
    rw [ofNat_eq (by decide)]
    rfl
  change Scalar.le (Float.ofNat 0) x = true ↔ _
  rw [le_iff, hzero, le_zero_iff]

/-- What is not negative and lies below a finite float is finite. -/
theorem finite_of_le {f g : UnpackedFloat} {q : Rat} (hf : Nonneg f) (hle : f.le g = true)
    (hg : number? g = some q) : ∃ p, number? f = some p := by
  cases f with
  | notANumber => exact hf.elim
  | infinity s =>
    obtain rfl : s = .positive := hf
    cases g with
    | notANumber | infinity => cases hg
    | zero | finite => cases hle
  | zero | finite => exact ⟨_, rfl⟩

end ClientRuntime.Float64

namespace ClientRuntime

open Float64

instance : OrderedScalar Float where
  value_ofNat h := WholeExact.value (Nat.le_of_lt h)
  nonneg_ofNat n := nonneg_iff.mpr (Float64.nonneg_ofNat n)
  le_iff hx hy := by
    change value? _ = _ at hx hy
    rw [value?_eq] at hx hy
    rw [Float64.le_iff]
    exact le_unpack hx hy
  finite_of_le hx hle hy := by
    change value? _ = _ at hy
    rw [value?_eq] at hy
    obtain ⟨p, hp⟩ := Float64.finite_of_le (nonneg_iff.mp hx) (Float64.le_iff.mp hle) hy
    exact ⟨p, (value?_eq _).trans hp⟩
  nonneg_add hx hy := by
    rw [nonneg_iff] at *
    exact nonneg_pack (Float64.nonneg_add hx hy)
  nonneg_mul hx hy hq := by
    change value? _ = _ at hy
    rw [value?_eq] at hy
    obtain ⟨m, e, hm, hy'⟩ := positive_of_number? hy hq
    rw [nonneg_iff] at *
    apply nonneg_pack
    rw [hy']
    exact Float64.nonneg_mul hx hm
  nonneg_div hx hy hq := by
    change value? _ = _ at hy
    rw [value?_eq] at hy
    obtain ⟨m, e, hm, hy'⟩ := positive_of_number? hy hq
    rw [nonneg_iff] at *
    apply nonneg_pack
    rw [hy']
    exact Float64.nonneg_div hx hm
  value_sub hx hy hq hle := by
    change value? _ = _ at hx hy
    rw [value?_eq] at hx hy
    obtain ⟨r, hr, hr0, hrp⟩ := number?_sub hx hy hq hle
    exact ⟨r, (value?_eq _).trans hr, hr0, hrp⟩

instance : UnitExact Float where
  value_sub_ofNat {x p n} hx hle hp := by
    have hsmall : n < 2 ^ 53 := by exact_mod_cast hle.trans_lt hp
    change value? _ = _ at hx
    rw [value?_eq] at hx
    have hn := (isNat_ofNat hsmall.le).unpack.number?_eq
    refine (value?_eq _).trans ?_
    exact number?_sub_exact hx hn (Nat.cast_nonneg n) hle (fits_sub_nat hx hle hp)

end ClientRuntime
