import Mathlib
import ClientRuntime.Proofs.Float.Rounding

/-!
Results that are not rounded. Where the format has room for a number, the number is rounded to the
one float that stands for it; so a sum or a difference for which there is room is exact.
-/

namespace ClientRuntime.Float64

open Float.Model Float.Model.UnpackedFloat

/-- The format has room for the number. -/
def Fits (q : Rat) : Prop := ∃ (m : Nat) (e : Int), Canonical m e ∧ e ≤ 971 ∧ (m : Rat) * 2 ^ e = q

/-- The float that stands for a number that is not negative. -/
inductive Exact : Rat → UnpackedFloat → Prop where
  | zero : Exact 0 (.zero .positive)
  | finite {q : Rat} {m : Nat} {e : Int} (hm : 0 < m) (h : Canonical m e) (he : e ≤ 971)
      (hq : (m : Rat) * 2 ^ e = q) : Exact q (.finite .positive m e hm)

variable {n : Nat} {e : Int} {p q : Rat} {f g : UnpackedFloat}

/-- Multiples of a power of two by 53 bits, and by the next number, have a canonical form. -/
theorem canonical_scaled (hn : n ≤ 2 ^ 53) (he : -1074 ≤ e) :
    ∃ (m : Nat) (d : Int), Canonical m d ∧ d ≤ e + 1 ∧ (m : Rat) * 2 ^ d = n * 2 ^ e := by
  obtain rfl | hlt : n = 2 ^ 53 ∨ n < 2 ^ 53 := by omega
  · refine ⟨2 ^ 52, e + 1, ⟨by decide, by omega, .inl le_rfl⟩, le_rfl, ?_⟩
    rw [zpow_add_one₀ two_ne_zero]
    push_cast
    ring
  rcases Nat.eq_zero_or_pos n with rfl | hpos
  · exact ⟨0, -1074, ⟨by decide, le_rfl, .inr rfl⟩, by omega, by simp⟩
  -- The significand is filled up with zeros as far as the least exponent allows.
  have hlog : n.log2 ≤ 52 := Nat.le_of_lt_succ ((Nat.log2_lt hpos.ne').mpr hlt)
  obtain ⟨k, hk⟩ : ∃ k, k = min (52 - n.log2) (e + 1074).toNat := ⟨_, rfl⟩
  have hhigh : n * 2 ^ k < 2 ^ (n.log2 + 1) * 2 ^ k :=
    Nat.mul_lt_mul_of_pos_right Nat.lt_log2_self (Nat.two_pow_pos k)
  rw [← Nat.pow_add] at hhigh
  refine ⟨n * 2 ^ k, e - k, ⟨?_, by omega, ?_⟩, by omega, ?_⟩
  · exact hhigh.trans_le (Nat.pow_le_pow_right (by decide) (by omega))
  · by_cases hfull : k = 52 - n.log2
    · have hlow := Nat.mul_le_mul_right (2 ^ k) (Nat.log2_self_le hpos.ne')
      rw [← Nat.pow_add, show n.log2 + k = 52 by omega] at hlow
      exact .inl hlow
    · exact .inr (by omega)
  · have hscaled := scaled (Int.sub_le_self e (Int.natCast_nonneg k)) n
    rw [show (e - (e - k)).toNat = k by omega] at hscaled
    exact hscaled.symm

theorem fits_scaled (hn : n ≤ 2 ^ 53) (hlow : -1074 ≤ e) (hhigh : e ≤ 970) :
    Fits (n * 2 ^ e) := by
  obtain ⟨m, d, hcanonical, hd, hvalue⟩ := canonical_scaled hn hlow
  exact ⟨m, d, hcanonical, by omega, hvalue⟩

theorem fits_nat (hn : n ≤ 2 ^ 53) : Fits n := by
  have hfits := fits_scaled (e := 0) hn (by decide) (by decide)
  rwa [zpow_zero, mul_one] at hfits

/-- A positive number that fits is rounded to its float. -/
theorem RoundsTo.exact (h : RoundsTo .positive q f) (hpos : 0 < q) (hfits : Fits q) :
    Exact q f := by
  obtain ⟨m', e', hcanonical', he', hvalue⟩ := hfits
  obtain ⟨m, e, hparts, hbounds⟩ := h
  have heq : (m : Rat) * 2 ^ e = m' * 2 ^ e' :=
    le_antisymm ((hbounds m' e' hcanonical').1 hvalue.ge) ((hbounds m' e' hcanonical').2 hvalue.le)
  cases hparts with
  | zero hzero =>
    rw [← hvalue, ← heq, hzero, Nat.cast_zero, zero_mul] at hpos
    exact absurd hpos (lt_irrefl 0)
  | finite hm hcanonical =>
    obtain ⟨rfl, rfl⟩ := hcanonical.unique hcanonical' heq
    exact .finite hm hcanonical he' hvalue

namespace Exact

theorem unique (hf : Exact q f) (hg : Exact q g) : f = g := by
  have hpos {m : Nat} (e : Int) (hm : 0 < m) : (0 : Rat) < m * 2 ^ e := by positivity
  cases hf with
  | zero =>
    cases hg with
    | zero => rfl
    | finite hm _ _ hq => exact absurd hq (hpos _ hm).ne'
  | finite hm h _ hq =>
    cases hg with
    | zero => exact absurd hq (hpos _ hm).ne'
    | finite hm' h' _ hq' =>
      obtain ⟨rfl, rfl⟩ := h.unique h' (hq.trans hq'.symm)
      rfl

theorem unpack_pack (h : Exact q f) : (Float.Model.pack f).unpack = f := by
  cases h with
  | zero => exact unpack_packedZero
  | finite _ h he _ => exact Float64.unpack_pack h he

theorem number?_eq (h : Exact q f) : number? f = some q := by
  cases h with
  | zero => rfl
  | finite _ _ _ hq => exact congrArg some hq

/-- A positive finite float stands for its value. -/
theorem of_number? {a : Float.Model} {m : Nat} {e : Int} {hm : 0 < m}
    (ha : a.unpack = .finite .positive m e hm) (hq : number? a.unpack = some q) :
    Exact q a.unpack := by
  obtain ⟨hcanonical, he⟩ := canonical_of_unpack ha
  rw [ha] at hq ⊢
  exact .finite hm hcanonical he (Option.some.inj hq)

theorem normalize {m : Nat} (hm : (m : Rat) * 2 ^ e = q) (hfits : Fits q) :
    Exact q (UnpackedFloat.normalize Format.binary64 m e .positive) := by
  unfold UnpackedFloat.normalize
  rcases Nat.eq_zero_or_pos m with rfl | hpos
  · rw [Nat.cast_zero, zero_mul] at hm
    rw [← hm]
    exact .zero
  · rw [Int.compare_eq_gt.mpr (by omega)]
    have hround := (nearest_round .positive hpos e).roundsTo
    rw [hm] at hround
    exact hround.exact (hm ▸ by positivity) hfits

theorem add (hf : Exact p f) (hg : Exact q g) (hfits : Fits (p + q)) :
    Exact (p + q) (UnpackedFloat.add Format.binary64 f g) := by
  cases hf with
  | zero =>
    rw [zero_add]
    cases hg with
    | zero => exact .zero
    | finite hn h he hq => exact .finite hn h he hq
  | @finite _ a d hm h he hp =>
    cases hg with
    | zero =>
      rw [add_zero]
      exact .finite hm h he hp
    | @finite _ b d' hn h' he' hq =>
      have ha := decreaseExponent_value a (min_le_left d d')
      have hb := decreaseExponent_value b (min_le_right d d')
      simp only [UnpackedFloat.add, Sign.apply, ← Int.natCast_add]
      apply normalize _ hfits
      push_cast
      rw [add_mul, ha, hb, hp, hq]

theorem sub (hf : Exact p f) (hg : Exact q g) (hle : q ≤ p) (hfits : Fits (p - q)) :
    Exact (p - q) (UnpackedFloat.sub Format.binary64 f g) := by
  cases hg with
  | zero =>
    rw [sub_zero]
    cases hf with
    | zero => exact .zero
    | finite hm h he hp => exact .finite hm h he hp
  | @finite _ b d' hn h' he' hq =>
    cases hf with
    | zero =>
      have : (0 : Rat) < b * 2 ^ d' := by positivity
      linarith
    | @finite _ a d hm h he hp =>
      have ha := decreaseExponent_value a (min_le_left d d')
      have hb := decreaseExponent_value b (min_le_right d d')
      simp only [UnpackedFloat.sub, Sign.apply]
      generalize (decreaseExponent a d (min d d')).1 = a' at ha ⊢
      generalize (decreaseExponent b d' (min d d')).1 = b' at hb ⊢
      have hba : b' ≤ a' := by
        rw [← mul_zpow_le (e := min d d'), ha, hb, hp, hq]
        exact hle
      rw [← Int.ofNat_sub hba]
      apply normalize _ hfits
      rw [Nat.cast_sub hba, sub_mul, ha, hb, hp, hq]

end Exact

/-- A float that is a number exactly. -/
def IsExact (q : Rat) (x : Float) : Prop := ∃ f, Exact q f ∧ x.toModel = Float.Model.pack f

namespace IsExact

variable {x y : Float}

/-- Only one float is a given number. -/
theorem unique (hx : IsExact q x) (hy : IsExact q y) : x = y := by
  obtain ⟨f, hf, hxf⟩ := hx
  obtain ⟨g, hg, hyg⟩ := hy
  obtain rfl := hf.unique hg
  have hmodel : x.toModel = y.toModel := hxf.trans hyg.symm
  cases x
  cases y
  exact congrArg Float.ofModel hmodel

theorem unpack (hx : IsExact q x) : Exact q x.toModel.unpack := by
  obtain ⟨f, hf, hxf⟩ := hx
  rwa [hxf, hf.unpack_pack]

theorem value (hx : IsExact q x) : value? x = some q := by
  rw [value?_eq]
  exact hx.unpack.number?_eq

theorem add (hx : IsExact p x) (hy : IsExact q y) (hfits : Fits (p + q)) :
    IsExact (p + q) (x + y) :=
  ⟨_, hx.unpack.add hy.unpack hfits, rfl⟩

theorem sub (hx : IsExact p x) (hy : IsExact q y) (hle : q ≤ p) (hfits : Fits (p - q)) :
    IsExact (p - q) (x - y) :=
  ⟨_, hx.unpack.sub hy.unpack hle hfits, rfl⟩

end IsExact

end ClientRuntime.Float64
