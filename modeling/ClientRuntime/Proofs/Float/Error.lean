import Mathlib
import ClientRuntime.Proofs.Float.Arithmetic
import ClientRuntime.Proofs.Scalar.Rounded

/-!
How much rounding loses. A quotient lies between two significands, and is rounded to a float, as
exact results are. So a result that is not tiny keeps all but a small part of itself, and a sum
below a bound grows by most of what is added.
-/

namespace ClientRuntime.Float64

open Float.Model Float.Model.UnpackedFloat

variable {m n : Nat} {e d : Int} {s : Sign} {x : Rat} {f : UnpackedFloat}

/-! ### Results of operations -/

/-- The exponent that a quotient is computed for. -/
def quotientExponent (m₁ : Nat) (e₁ : Int) (m₂ : Nat) (e₂ : Int) : Int :=
  min (e₁ - e₂) (max ((m₁.log2 + e₁) - (m₂.log2 + e₂) - 53) (-1074))

/-- The significand that is divided to get a quotient with this exponent. -/
def dividend (m₁ : Nat) (e₁ : Int) (m₂ : Nat) (e₂ : Int) : Nat :=
  m₁ * 2 ^ (e₁ - e₂ - quotientExponent m₁ e₁ m₂ e₂).toNat

section Quotient

variable {m₁ m₂ : Nat} {e₁ e₂ : Int}

theorem divCore_eq (m₁ : Nat) (e₁ : Int) (m₂ : Nat) (e₂ : Int) :
    divCore Format.binary64 m₁ e₁ m₂ e₂ =
      (dividend m₁ e₁ m₂ e₂ / m₂, quotientExponent m₁ e₁ m₂ e₂,
        accuracyOfFraction (dividend m₁ e₁ m₂ e₂ % m₂) m₂) := by
  have htarget : Format.binary64.targetExponent (totalExponent m₁ e₁ - totalExponent m₂ e₂) =
      max ((m₁.log2 + e₁) - (m₂.log2 + e₂) - 53) (-1074) := by
    have hbits : Format.binary64.mantissaBits = 53 := rfl
    have hleast : Format.binary64.minExponent = -1074 := rfl
    unfold Format.targetExponent totalExponent
    rw [hbits, hleast]
    congr 1
    omega
  unfold divCore dividend quotientExponent
  simp only [htarget, Nat.shiftLeft_eq]

theorem dividend_value (h₂ : 0 < m₂) :
    (m₁ : Rat) * 2 ^ e₁ / (m₂ * 2 ^ e₂) =
      dividend m₁ e₁ m₂ e₂ / m₂ * 2 ^ quotientExponent m₁ e₁ m₂ e₂ := by
  have hle : quotientExponent m₁ e₁ m₂ e₂ ≤ e₁ - e₂ := min_le_left _ _
  have hsplit := scaled hle m₁
  have hm₂ : (m₂ : Rat) ≠ 0 := by exact_mod_cast h₂.ne'
  unfold dividend
  rw [div_mul_eq_mul_div, ← hsplit, zpow_sub₀ two_ne_zero]
  field_simp

/-- The quotient has all the bits that there is room for. -/
theorem quotientExponent_le (h₁ : 0 < m₁) (h₂ : 0 < m₂) (e₁ e₂ : Int) :
    quotientExponent m₁ e₁ m₂ e₂ ≤
      target (dividend m₁ e₁ m₂ e₂ / m₂) (quotientExponent m₁ e₁ m₂ e₂) := by
  by_cases hleast : quotientExponent m₁ e₁ m₂ e₂ ≤ -1074
  · exact hleast.trans (le_max_right _ _)
  · have hbits : 2 ^ 52 ≤ dividend m₁ e₁ m₂ e₂ / m₂ := by
      rw [Nat.le_div_iff_mul_le h₂]
      unfold dividend
      have hexponent : 52 + (m₂.log2 + 1) ≤
          m₁.log2 + (e₁ - e₂ - quotientExponent m₁ e₁ m₂ e₂).toNat := by
        unfold quotientExponent at hleast ⊢
        omega
      calc 2 ^ 52 * m₂ ≤ 2 ^ 52 * 2 ^ (m₂.log2 + 1) :=
            Nat.mul_le_mul_left _ Nat.lt_log2_self.le
        _ ≤ 2 ^ (m₁.log2 + (e₁ - e₂ - quotientExponent m₁ e₁ m₂ e₂).toNat) := by
            rw [← Nat.pow_add]
            exact Nat.pow_le_pow_right (by decide) hexponent
        _ ≤ m₁ * 2 ^ (e₁ - e₂ - quotientExponent m₁ e₁ m₂ e₂).toNat := by
            rw [Nat.pow_add]
            exact Nat.mul_le_mul_right _ (Nat.log2_self_le h₁.ne')
    have hlog := (Nat.le_log2 (by omega)).mpr hbits
    unfold target
    omega

/-- What is left of a division tells where the quotient lies. -/
theorem locates_quotient (n : Nat) {d : Nat} (hd : 0 < d) (e : Int) :
    Locates (.ofMantissaAndAccuracy (n / d) (accuracyOfFraction (n % d) d)) e (n / d * 2 ^ e) := by
  have hden : (0 : Rat) < d := by exact_mod_cast hd
  have hrest := Nat.mod_lt n hd
  have hvalue : (n : Rat) / d = (n / d : Nat) + (n % d : Nat) / d := by
    rw [div_eq_iff hden.ne', add_mul, div_mul_cancel₀ _ hden.ne']
    exact_mod_cast (Nat.div_add_mod' n d).symm
  rw [hvalue]
  generalize n % d = rest at hrest
  generalize n / d = quotient
  refine ⟨rest / d, ?_, ?_⟩
  · unfold accuracyOfFraction
    rcases Nat.eq_zero_or_pos rest with rfl | hpos
    · simp [Offset, ExtendedMantissa.ofMantissaAndAccuracy]
    · have hlow : (0 : Rat) < rest / d := by positivity
      have hhigh : (rest : Rat) / d < 1 := by
        rw [div_lt_one hden]
        exact_mod_cast hrest
      rw [if_neg hpos.ne']
      rcases lt_trichotomy (2 * rest) d with hlt | heq | hgt
      · rw [Nat.compare_eq_lt.mpr hlt]
        refine ⟨hlow, ?_⟩
        rw [div_lt_div_iff₀ hden two_pos]
        exact_mod_cast (by omega : rest * 2 < 1 * d)
      · rw [Nat.compare_eq_eq.mpr heq]
        show (rest : Rat) / d = 1 / 2
        rw [div_eq_div_iff hden.ne' two_ne_zero]
        exact_mod_cast (by omega : rest * 2 = 1 * d)
      · rw [Nat.compare_eq_gt.mpr hgt]
        refine ⟨?_, hhigh⟩
        rw [div_lt_div_iff₀ two_pos hden]
        exact_mod_cast (by omega : 1 * d < rest * 2)
  · cases accuracyOfFraction rest d with
    | exact => rfl
    | inexact order => cases order <;> rfl

theorem nearest_div (h₁ : 0 < m₁) (h₂ : 0 < m₂) :
    RoundsToNearest .positive ((m₁ : Rat) * 2 ^ e₁ / (m₂ * 2 ^ e₂))
      (UnpackedFloat.div Format.binary64 (.finite .positive m₁ e₁ h₁)
        (.finite .positive m₂ e₂ h₂)) := by
  have hroom := quotientExponent_le h₁ h₂ e₁ e₂
  simp only [UnpackedFloat.div, divCore_eq]
  rw [dividend_value h₂]
  exact nearest_roundWithAccuracy .positive hroom (locates_quotient _ h₂ _)

end Quotient

theorem nearest_mul {m₁ m₂ : Nat} {e₁ e₂ : Int} (h₁ : 0 < m₁) (h₂ : 0 < m₂)
    (he : e₁ + e₂ ≤ target (m₁ * m₂) (e₁ + e₂)) :
    RoundsToNearest .positive ((m₁ : Rat) * 2 ^ e₁ * (m₂ * 2 ^ e₂))
      (UnpackedFloat.mul Format.binary64 (.finite .positive m₁ e₁ h₁)
        (.finite .positive m₂ e₂ h₂)) := by
  have hvalue : (m₁ : Rat) * 2 ^ e₁ * (m₂ * 2 ^ e₂) = (m₁ * m₂ : Nat) * 2 ^ (e₁ + e₂) := by
    rw [zpow_add₀ two_ne_zero]
    push_cast
    ring
  rw [hvalue]
  exact nearest_roundWithAccuracy .positive he (locates_exact ..)

/-- Two significands of floats have a product with all the bits that there is room for. -/
theorem product_le_target {m₁ m₂ : Nat} {e₁ e₂ : Int} (h₁ : 0 < m₁) (h₂ : 0 < m₂)
    (hm₁ : Canonical m₁ e₁) (hm₂ : Canonical m₂ e₂) : e₁ + e₂ ≤ target (m₁ * m₂) (e₁ + e₂) := by
  have hlog (h : 2 ^ 52 ≤ m₁ * m₂) : e₁ + e₂ ≤ target (m₁ * m₂) (e₁ + e₂) := by
    have := (Nat.le_log2 (Nat.mul_pos h₁ h₂).ne').mpr h
    unfold target
    omega
  rcases hm₁.full with hfull | rfl
  · exact hlog (hfull.trans (Nat.le_mul_of_pos_right _ h₂))
  · rcases hm₂.full with hfull | rfl
    · exact hlog (hfull.trans (Nat.le_mul_of_pos_left _ h₁))
    · unfold target
      omega

/-- A sum is taken with the finer bits of both, and then rounded. -/
theorem nearest_add {m₁ m₂ : Nat} {e₁ e₂ : Int} (h₁ : 0 < m₁) (h₂ : 0 < m₂) :
    RoundsToNearest .positive ((m₁ : Rat) * 2 ^ e₁ + m₂ * 2 ^ e₂)
      (UnpackedFloat.add Format.binary64 (.finite .positive m₁ e₁ h₁)
        (.finite .positive m₂ e₂ h₂)) := by
  have hm₁ := decreaseExponent_value m₁ (min_le_left e₁ e₂)
  have hm₂ := decreaseExponent_value m₂ (min_le_right e₁ e₂)
  simp only [UnpackedFloat.add, Sign.apply, ← Int.natCast_add]
  generalize (decreaseExponent m₁ e₁ (min e₁ e₂)).1 = n₁ at hm₁ ⊢
  generalize (decreaseExponent m₂ e₂ (min e₁ e₂)).1 = n₂ at hm₂ ⊢
  have hunit : (0 : Rat) < 2 ^ min e₁ e₂ := by positivity
  have hpos : 0 < n₁ := by
    have hvalue : (0 : Rat) < m₁ * 2 ^ e₁ := by positivity
    rw [← hm₁] at hvalue
    exact_mod_cast (mul_pos_iff_of_pos_right hunit).mp hvalue
  unfold UnpackedFloat.normalize
  rw [Int.compare_eq_gt.mpr (by omega)]
  have hround := nearest_round .positive (show 0 < n₁ + n₂ by omega) (min e₁ e₂)
  rw [Nat.cast_add, add_mul, hm₁, hm₂] at hround
  exact hround

/-! ### Losses -/

/-- Floats with too large an exponent become infinite. -/
theorem number?_pack_large {h : 0 < m} (he : 971 < e) :
    number? (Float.Model.pack (.finite .positive m e h)).unpack = none := by
  change number? (unpack Format.binary64 (UnpackedFloat.pack Format.binary64 _)) = _
  unfold UnpackedFloat.pack
  have hbias : e + Format.binary64.exponentBias + Format.binary64.mantissaBitsWithoutImplicit =
      e + 1075 := by
    change e + 1023 + 52 = _
    omega
  have hlarge : 2 ^ 11 ≤ (e + 1075).toNat + 1 := by omega
  simp only [hbias]
  rw [if_pos hlarge]
  unfold packedInfinity
  rw [unpack_packComponents]
  rfl

/-- What is at least some float is rounded to a value that is at least that float, if to any. -/
theorem RoundsTo.le_value (h : RoundsTo .positive x f) {r : Rat}
    (hr : number? (Float.Model.pack f).unpack = some r) (hn : Canonical n d) (hx : n * 2 ^ d ≤ x) :
    n * 2 ^ d ≤ r := by
  obtain ⟨m, e, hparts, hbounds⟩ := h
  have hle := (hbounds n d hn).2 hx
  cases hparts with
  | zero hzero =>
    have hnone : number? (Float.Model.pack (.zero .positive)).unpack = some 0 :=
      (congrArg number? unpack_packedZero).trans rfl
    obtain rfl := Option.some.inj (hnone.symm.trans hr)
    rwa [hzero, Nat.cast_zero, zero_mul] at hle
  | finite hm hcanonical =>
    by_cases he : e ≤ 971
    · rw [unpack_pack hcanonical he] at hr
      obtain rfl : (m : Rat) * 2 ^ e = r := Option.some.inj hr
      exact hle
    · rw [number?_pack_large (by omega)] at hr
      cases hr

/-- Below every number that is not tiny lies a float that is hardly less. -/
theorem exists_float_near (hx : (2 : Rat) ^ (-1000 : Int) ≤ x) :
    ∃ (n : Nat) (d : Int),
      Canonical n d ∧ (n : Rat) * 2 ^ d ≤ x ∧ 999 * x ≤ 1000 * (n * 2 ^ d) := by
  have hpos : 0 < x := lt_of_lt_of_le (by positivity) hx
  obtain ⟨k, hlow, hhigh⟩ := exists_mem_Ico_zpow hpos (show (1 : Rat) < 2 from one_lt_two)
  have hk : -1000 < k + 1 := (zpow_lt_zpow_iff_right₀ one_lt_two).mp (hx.trans_lt hhigh)
  have hunit : (0 : Rat) < 2 ^ (k - 52) := by positivity
  have hsplit : (2 : Rat) ^ k = 2 ^ 52 * 2 ^ (k - 52) := by
    rw [zpow_sub₀ two_ne_zero]
    field_simp
  have hnext : (2 : Rat) ^ (k + 1) = 2 ^ 53 * 2 ^ (k - 52) := by
    rw [zpow_add_one₀ two_ne_zero, hsplit]
    ring
  have hleast : (2 ^ 52 : Nat) ≤ x / 2 ^ (k - 52) := by
    rw [le_div_iff₀ hunit]
    exact_mod_cast hsplit ▸ hlow
  have hmost : x / 2 ^ (k - 52) < (2 ^ 53 : Nat) := by
    rw [div_lt_iff₀ hunit]
    exact_mod_cast hnext ▸ hhigh
  have hfloor := Nat.floor_le (div_pos hpos hunit).le
  have hceil := Nat.lt_floor_add_one (x / 2 ^ (k - 52))
  have hfull := Nat.le_floor hleast
  have hlt := (Nat.floor_lt' (by decide)).mpr hmost
  generalize ⌊x / 2 ^ (k - 52)⌋₊ = n at hfloor hceil hfull hlt
  rw [le_div_iff₀ hunit] at hfloor
  rw [div_lt_iff₀ hunit] at hceil
  refine ⟨n, k - 52, ⟨hlt, by omega, .inl hfull⟩, hfloor, ?_⟩
  have hn : (999 : Rat) * (n + 1) ≤ 1000 * n := by
    have : 999 * (n + 1) ≤ 1000 * n := by omega
    exact_mod_cast this
  nlinarith

namespace RoundsTo

variable {r p q : Rat}

/-- A result that is not tiny loses less than a thousandth. -/
theorem near (h : RoundsTo .positive x f)
    (hr : number? (Float.Model.pack f).unpack = some r) (hx : (2 : Rat) ^ (-1000 : Int) ≤ x) :
    999 * x ≤ 1000 * r := by
  obtain ⟨n, d, hcanonical, hle, hnear⟩ := exists_float_near hx
  have := h.le_value hr hcanonical hle
  linarith

/-- A sum below `2 ^ 32` grows by half of what is added, if that is not too small. -/
theorem near_add (h : RoundsTo .positive (p + q) f) (hp : 0 ≤ p)
    (hq : (2 : Rat) ^ (-20 : Int) ≤ q) (hr : number? (Float.Model.pack f).unpack = some r)
    (hbound : r < 2 ^ 32) : p + q / 2 ≤ r := by
  have hunit : (0 : Rat) < 2 ^ (-21 : Int) := by positivity
  have hhalf : 2 * (2 : Rat) ^ (-21 : Int) ≤ q := by
    refine le_trans (le_of_eq ?_) hq
    norm_num
  have hsum : p + q < 2 ^ 32 := by
    by_contra hover
    have hfloat : Canonical (2 ^ 52) (-20) := ⟨by decide, by decide, .inl le_rfl⟩
    have hvalue : ((2 ^ 52 : Nat) : Rat) * 2 ^ (-20 : Int) = 2 ^ 32 := by norm_num
    have := h.le_value hr hfloat (hvalue.trans_le (not_lt.mp hover))
    linarith
  have hfew : (p + q) / 2 ^ (-21 : Int) < (2 ^ 53 : Nat) := by
    rw [div_lt_iff₀ hunit]
    norm_num at hsum ⊢
    linarith
  have hfloor := Nat.floor_le (div_nonneg (by linarith : 0 ≤ p + q) hunit.le)
  have hceil := Nat.lt_floor_add_one ((p + q) / 2 ^ (-21 : Int))
  have hlt := (Nat.floor_lt' (by decide)).mpr hfew
  generalize ⌊(p + q) / 2 ^ (-21 : Int)⌋₊ = n at hfloor hceil hlt
  rw [le_div_iff₀ hunit] at hfloor
  rw [div_lt_iff₀ hunit] at hceil
  obtain ⟨m, e, hcanonical, -, hvalue⟩ := canonical_scaled hlt.le (by decide : -1074 ≤ (-21 : Int))
  have hle := h.le_value hr hcanonical (hvalue.trans_le hfloor)
  rw [hvalue] at hle
  linarith

end RoundsTo

/-! ### Losses of operations -/

theorem number?_pack_infinity :
    number? (Float.Model.pack (.infinity .positive)).unpack = none := by
  change number? (unpack Format.binary64 (packedInfinity Format.binary64 .positive)) = _
  unfold packedInfinity
  rw [unpack_packComponents]
  rfl

section Operations

variable {a b : Float.Model} {p q r : Rat}

theorem number?_div_near (ha : Nonneg a.unpack) (hb : number? b.unpack = some q) (hq : 0 < q)
    (hr : number? (a.div b).unpack = some r) :
    ∃ p, number? a.unpack = some p ∧
      ((2 : Rat) ^ (-1000 : Int) ≤ p / q → 999 * (p / q) ≤ 1000 * r) := by
  obtain ⟨n, d, hn, hb'⟩ := positive_of_number? hb hq
  unfold Float.Model.div at hr
  rw [hb'] at hb hr
  obtain rfl : (n : Rat) * 2 ^ d = q := Option.some.inj hb
  cases ha' : a.unpack with
  | notANumber => exact (ha' ▸ ha : Nonneg .notANumber).elim
  | infinity s =>
    rw [ha'] at ha hr
    obtain rfl : s = .positive := ha
    exact absurd (number?_pack_infinity.symm.trans hr) (by simp)
  | zero =>
    refine ⟨0, rfl, fun hsmall => ?_⟩
    rw [zero_div] at hsmall
    exact absurd hsmall (not_le.mpr (by positivity))
  | finite s m e hm =>
    rw [ha'] at ha hr
    obtain rfl : s = .positive := ha
    exact ⟨m * 2 ^ e, rfl, (nearest_div hm hn).roundsTo.near hr⟩

theorem number?_mul_near (ha : Nonneg a.unpack) (hb : number? b.unpack = some q) (hq : 0 < q)
    (hr : number? (a.mul b).unpack = some r) :
    ∃ p, number? a.unpack = some p ∧
      ((2 : Rat) ^ (-1000 : Int) ≤ p * q → 999 * (p * q) ≤ 1000 * r) := by
  obtain ⟨n, d, hn, hb'⟩ := positive_of_number? hb hq
  have hcanonical := (canonical_of_unpack hb').1
  unfold Float.Model.mul at hr
  rw [hb'] at hb hr
  obtain rfl : (n : Rat) * 2 ^ d = q := Option.some.inj hb
  cases ha' : a.unpack with
  | notANumber => exact (ha' ▸ ha : Nonneg .notANumber).elim
  | infinity s =>
    rw [ha'] at ha hr
    obtain rfl : s = .positive := ha
    exact absurd (number?_pack_infinity.symm.trans hr) (by simp)
  | zero =>
    refine ⟨0, rfl, fun hsmall => ?_⟩
    rw [zero_mul] at hsmall
    exact absurd hsmall (not_le.mpr (by positivity))
  | finite s m e hm =>
    have hroom := product_le_target hm hn (canonical_of_unpack ha').1 hcanonical
    rw [ha'] at ha hr
    obtain rfl : s = .positive := ha
    exact ⟨m * 2 ^ e, rfl, (nearest_mul hm hn hroom).roundsTo.near hr⟩

theorem number?_add_near (ha : number? a.unpack = some p) (hp : 0 ≤ p) (hb : Nonneg b.unpack)
    (hr : number? (a.add b).unpack = some r) :
    ∃ q, number? b.unpack = some q ∧
      ((2 : Rat) ^ (-20 : Int) ≤ q → r < 2 ^ 32 → p + q / 2 ≤ r) := by
  unfold Float.Model.add at hr
  cases hb' : b.unpack with
  | notANumber => exact (hb' ▸ hb : Nonneg .notANumber).elim
  | infinity s =>
    rw [hb'] at hb hr
    obtain rfl : s = .positive := hb
    cases ha' : a.unpack with
    | notANumber | infinity =>
      rw [ha'] at ha
      cases ha
    | zero | finite =>
      rw [ha'] at hr
      exact absurd (number?_pack_infinity.symm.trans hr) (by simp)
  | zero => exact ⟨0, rfl, fun hsmall => absurd hsmall (not_le.mpr (by positivity))⟩
  | finite s n d hn =>
    obtain ⟨hcanonical, hd⟩ := canonical_of_unpack hb'
    rw [hb'] at hb hr
    obtain rfl : s = .positive := hb
    refine ⟨n * 2 ^ d, rfl, fun hq hbound => ?_⟩
    rcases hp.eq_or_lt with rfl | hpos
    · obtain ⟨s', ha'⟩ := zero_of_number? ha
      rw [ha'] at hr
      have hsame : number? (Float.Model.pack (.finite .positive n d hn)).unpack = some r := hr
      rw [unpack_pack hcanonical hd] at hsame
      obtain rfl : (n : Rat) * 2 ^ d = r := Option.some.inj hsame
      have : (0 : Rat) ≤ n * 2 ^ d := by positivity
      linarith
    · obtain ⟨m, e, hm, ha'⟩ := positive_of_number? ha hpos
      rw [ha'] at ha hr
      obtain rfl : (m : Rat) * 2 ^ e = p := Option.some.inj ha
      exact (nearest_add hm hn).roundsTo.near_add hp hq hr hbound

theorem number?_div_le (ha : number? a.unpack = some p) (hp : 0 ≤ p)
    (hb : number? b.unpack = some q) (hq : 0 < q) (hn : n ≤ wholeBound) (hle : p / q ≤ n) :
    ∃ r, number? (a.div b).unpack = some r ∧ 0 ≤ r ∧ r ≤ n := by
  obtain ⟨k, d, hk, hb'⟩ := positive_of_number? hb hq
  unfold Float.Model.div
  rw [hb'] at hb ⊢
  obtain rfl : (k : Rat) * 2 ^ d = q := Option.some.inj hb
  rcases hp.eq_or_lt with rfl | hpos
  · obtain ⟨s, ha'⟩ := zero_of_number? ha
    rw [ha']
    exact ⟨0, (congrArg number? unpack_packedZero).trans rfl, le_rfl, Nat.cast_nonneg n⟩
  · obtain ⟨m, e, hm, ha'⟩ := positive_of_number? ha hpos
    rw [ha'] at ha ⊢
    obtain rfl : (m : Rat) * 2 ^ e = p := Option.some.inj ha
    obtain ⟨m', e', hcanonical, he', hvalue⟩ := fits_nat hn
    obtain ⟨r, hr, hr0, hrn⟩ :=
      (nearest_div hm hk).roundsTo.value_le hcanonical he' (hle.trans_eq hvalue.symm)
    exact ⟨r, hr, hr0, hrn.trans_eq hvalue⟩

/-- A large whole number is taken in with all its bits, and then rounded. -/
theorem nearest_ofScientific (hn : 2 ^ 53 ≤ n) :
    RoundsToNearest .positive n (UnpackedFloat.ofScientific Format.binary64 n 0) := by
  have hbits : (0 : Int) ≤ 2 ^ Format.binary64.exponentBits := by positivity
  have hwidth : Format.binary64.mantissaBits = 53 := rfl
  have hvalue : ((n * 2 ^ 53 : Nat) : Rat) * 2 ^ (-53 : Int) * ((1 : Nat) * 2 ^ (0 : Int)) = n := by
    push_cast
    rw [mul_assoc (n : Rat)]
    norm_num
  have hlog := (Nat.le_log2 (by omega)).mpr (show 2 ^ 52 ≤ n * 2 ^ 53 by omega)
  have hroom : -53 + 0 ≤ target (n * 2 ^ 53 * 1) (-53 + 0) := by
    rw [Nat.mul_one]
    unfold target
    omega
  have hround := nearest_mul (show 0 < n * 2 ^ 53 by omega) Nat.one_pos hroom
  rw [hvalue] at hround
  unfold UnpackedFloat.ofScientific
  rw [dif_neg (by omega), if_neg (by omega), if_neg (by omega), if_pos le_rfl]
  simp only [hwidth, Int.toNat_zero, Nat.pow_zero, Nat.shiftLeft_eq, Nat.cast_ofNat]
  exact hround

theorem number?_ofNat_near (n : Nat) (hr : number? (Float.ofNat n).toModel.unpack = some r) :
    999 * (n : Rat) ≤ 1000 * r := by
  by_cases hn : n < 2 ^ 53
  · have hvalue := (isNat_ofNat hn.le).unpack.number?_eq
    obtain rfl := Option.some.inj (hvalue.symm.trans hr)
    have : (0 : Rat) ≤ n := Nat.cast_nonneg n
    linarith
  · rw [ofNat_eq_of_le (by omega)] at hr
    refine (nearest_ofScientific (by omega)).roundsTo.near hr
      (le_trans ?_ (Nat.one_le_cast.mpr (by omega)))
    exact zpow_le_one_of_nonpos₀ one_le_two (by decide)

end Operations

end ClientRuntime.Float64

namespace ClientRuntime

open Float64

instance : RoundedScalar Float where
  ofNat_near {n r} hr := by
    change value? _ = _ at hr
    rw [value?_eq] at hr
    exact number?_ofNat_near n hr
  mul_near hx hy hq hr := by
    change value? _ = _ at hy hr
    rw [value?_eq] at hy hr
    obtain ⟨p, hp, hnear⟩ := number?_mul_near (nonneg_iff.mp hx) hy hq hr
    exact ⟨p, (value?_eq _).trans hp, hnear⟩
  div_near hx hy hq hr := by
    change value? _ = _ at hy hr
    rw [value?_eq] at hy hr
    obtain ⟨p, hp, hnear⟩ := number?_div_near (nonneg_iff.mp hx) hy hq hr
    exact ⟨p, (value?_eq _).trans hp, hnear⟩
  add_near hx hp hy hr := by
    change value? _ = _ at hx hr
    rw [value?_eq] at hx hr
    obtain ⟨q, hq, hnear⟩ := number?_add_near hx hp (nonneg_iff.mp hy) hr
    exact ⟨q, (value?_eq _).trans hq, hnear⟩
  div_le hx hp hy hq hn hle := by
    change value? _ = _ at hx hy
    rw [value?_eq] at hx hy
    obtain ⟨r, hr, hr0, hrn⟩ := number?_div_le hx hp hy hq (Nat.le_of_lt hn) hle
    exact ⟨r, (value?_eq _).trans hr, hr0, hrn⟩

end ClientRuntime
