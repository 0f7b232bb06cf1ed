import Mathlib
import ClientRuntime.Proofs.Float.Error
import ClientRuntime.Proofs.Scalar.Monotone

/-!
Rounding keeps the order. Of two different numbers the greater one is not rounded to the lesser
float, and equal operands have equal results; so what increases exactly does not decrease when it is
rounded.
-/

namespace ClientRuntime.Float64

open Float.Model Float.Model.UnpackedFloat

/-- No greater, where infinity is the greatest. -/
def Below (f g : UnpackedFloat) : Prop :=
  ∀ q, number? g = some q → ∃ p, number? f = some p ∧ p ≤ q

theorem Below.trans {f g h : UnpackedFloat} (hfg : Below f g) (hgh : Below g h) : Below f h := by
  intro r hr
  obtain ⟨q, hq, hqr⟩ := hgh r hr
  obtain ⟨p, hp, hpq⟩ := hfg q hq
  exact ⟨p, hp, hpq.trans hqr⟩

section Order

variable {f g : Float.Model}

theorem nonneg_of_le {f g : UnpackedFloat} (hf : Nonneg f) (hle : f.le g = true) : Nonneg g := by
  cases f with
  | notANumber => exact hf.elim
  | zero => exact le_zero_iff.mp hle
  | infinity s | finite s =>
    obtain rfl : s = .positive := hf
    cases g with
    | notANumber | zero => cases hle
    | infinity s' | finite s' =>
      cases s' with
      | positive => rfl
      | negative => cases hle

theorem le_infinity {f : UnpackedFloat} (hf : Nonneg f) : f.le (.infinity .positive) = true := by
  cases f with
  | notANumber => exact hf.elim
  | zero => rfl
  | infinity s | finite s =>
    obtain rfl : s = .positive := hf
    rfl

theorem infinity_of_number? {f : UnpackedFloat} (hf : Nonneg f) (hnone : number? f = none) :
    f = .infinity .positive := by
  cases f with
  | notANumber => exact hf.elim
  | zero | finite => cases hnone
  | infinity s =>
    obtain rfl : s = .positive := hf
    rfl

theorem below_of_le (hf : Nonneg f.unpack) (hle : f.unpack.le g.unpack = true) :
    Below f.unpack g.unpack := by
  intro q hq
  obtain ⟨p, hp⟩ := finite_of_le hf hle hq
  exact ⟨p, hp, (le_unpack hp hq).mp hle⟩

theorem le_of_below (hf : Nonneg f.unpack) (hg : Nonneg g.unpack)
    (h : Below f.unpack g.unpack) : f.unpack.le g.unpack = true := by
  rcases hq : number? g.unpack with _ | q
  · rw [infinity_of_number? hg hq]
    exact le_infinity hf
  · obtain ⟨p, hp, hpq⟩ := h q hq
    exact (le_unpack hp hq).mpr hpq

theorem unpack_le_trans {h : Float.Model} (hf : Nonneg f.unpack)
    (hfg : f.unpack.le g.unpack = true) (hgh : g.unpack.le h.unpack = true) :
    f.unpack.le h.unpack = true := by
  have hg := nonneg_of_le hf hfg
  exact le_of_below hf (nonneg_of_le hg hgh) ((below_of_le hf hfg).trans (below_of_le hg hgh))

end Order

/-! ### Rounding in order -/

/-- The value of a result that is not negative, and not packed yet: it may be too large for that. -/
inductive Holds : Rat → UnpackedFloat → Prop where
  | zero (s : Sign) : Holds 0 (.zero s)
  | finite {m : Nat} {e : Int} (hm : 0 < m) (h : Canonical m e) :
      Holds (m * 2 ^ e) (.finite .positive m e hm)

section Rounding

variable {f g : UnpackedFloat} {x y u v : Rat}

theorem Holds.canonical (h : Holds v f) :
    ∃ (m : Nat) (e : Int), Canonical m e ∧ (m : Rat) * 2 ^ e = v := by
  cases h with
  | zero => exact ⟨0, -1074, ⟨by decide, le_rfl, .inr rfl⟩, by rw [Nat.cast_zero, zero_mul]⟩
  | finite hm h => exact ⟨_, _, h, rfl⟩

theorem Holds.of_number? {a : Float.Model} (ha : Nonneg a.unpack)
    (hv : number? a.unpack = some v) : Holds v a.unpack := by
  cases hf : a.unpack with
  | notANumber | infinity =>
    rw [hf] at hv
    cases hv
  | zero s =>
    rw [hf] at hv
    obtain rfl : 0 = v := Option.some.inj hv
    exact .zero s
  | finite s m e hm =>
    have hcanonical := (canonical_of_unpack hf).1
    rw [hf] at ha hv
    obtain rfl : s = .positive := ha
    obtain rfl : (m : Rat) * 2 ^ e = v := Option.some.inj hv
    exact .finite hm hcanonical

/-- Floats that are not negative and have the same value are the same, but for the sign of zero. -/
theorem Holds.unique (hf : Holds v f) (hg : Holds u g) (heq : v = u) (hzero : v ≠ 0) : f = g := by
  cases hf with
  | zero => exact absurd rfl hzero
  | finite hm h =>
    cases hg with
    | zero => exact absurd heq hzero
    | finite hm' h' =>
      obtain ⟨rfl, rfl⟩ := h.unique h' heq
      rfl

theorem Holds.of_exact (h : Exact v f) : Holds v f := by
  cases h with
  | zero => exact .zero _
  | finite hm h _ hv =>
    rw [← hv]
    exact .finite hm h

theorem Holds.nonneg (h : Holds v f) : Nonneg f := by
  cases h <;> trivial

/-- Packing keeps the order of values, though some become infinite. -/
theorem Holds.below (hf : Holds v f) (hg : Holds u g) (hle : v ≤ u) :
    Below (Float.Model.pack f).unpack (Float.Model.pack g).unpack := by
  intro q hq
  have hzero (s : Sign) : number? (Float.Model.pack (.zero s)).unpack = some 0 :=
    (congrArg number? unpack_packedZero).trans rfl
  cases hg with
  | zero s' =>
    cases hf with
    | zero s => exact ⟨0, hzero s, (Option.some.inj ((hzero s').symm.trans hq)).le⟩
    | @finite m e hm _ =>
      have : (0 : Rat) < m * 2 ^ e := by positivity
      linarith
  | @finite m' e' hm' h' =>
    have he' : e' ≤ 971 := by
      by_contra hlarge
      rw [number?_pack_large (by omega)] at hq
      cases hq
    rw [unpack_pack h' he'] at hq
    obtain rfl : (m' : Rat) * 2 ^ e' = q := Option.some.inj hq
    cases hf with
    | zero s => exact ⟨0, hzero s, hle⟩
    | @finite m e hm h =>
      have he : e ≤ 971 := by
        by_contra hlarge
        have := h'.magnitude_lt h (by omega)
        linarith
      rw [unpack_pack h he]
      exact ⟨_, rfl, hle⟩

theorem RoundsToNearest.holds (h : RoundsToNearest .positive x f) :
    ∃ v, Holds v f ∧ Nearest x v := by
  obtain ⟨m, e, ⟨rfl⟩ | ⟨hm, hcanonical⟩, hnearest⟩ := h
  · rw [Nat.cast_zero, zero_mul] at hnearest
    exact ⟨0, .zero _, hnearest⟩
  · exact ⟨_, .finite hm hcanonical, hnearest⟩

theorem nearest_self (v : Rat) : Nearest v v := fun _ _ _ =>
  ⟨fun h => by linarith, fun h => by linarith⟩

/-- The lesser of two numbers is not rounded to the greater float. -/
theorem Nearest.le (hx : Nearest x v) (hy : Nearest y u) (hv : Holds v f) (hu : Holds u g)
    (hlt : x < y) : v ≤ u := by
  obtain ⟨m, e, hm, rfl⟩ := hv.canonical
  obtain ⟨n, d, hn, rfl⟩ := hu.canonical
  by_contra hpassed
  have hlow := (hx n d hn).1 (not_le.mp hpassed)
  have hhigh := (hy m e hm).2 (not_le.mp hpassed)
  linarith

end Rounding

/-- An operation that rounds what increases with its operand. -/
structure Increases (F : UnpackedFloat → UnpackedFloat) (φ : Rat → Rat) : Prop where
  infinity : F (.infinity .positive) = .infinity .positive
  zero : ∀ s, Holds (φ 0) (F (.zero s))
  finite : ∀ {m : Nat} {e : Int} (hm : 0 < m), Canonical m e →
    RoundsToNearest .positive (φ (m * 2 ^ e)) (F (.finite .positive m e hm))
  strict : StrictMono φ

namespace Increases

variable {F : UnpackedFloat → UnpackedFloat} {φ : Rat → Rat} {a b : Float.Model}

theorem holds (h : Increases F φ) {f : UnpackedFloat} {p : Rat} (hp : Holds p f) :
    ∃ v, Holds v (F f) ∧ Nearest (φ p) v := by
  cases hp with
  | zero s => exact ⟨φ 0, h.zero s, nearest_self _⟩
  | finite hm hcanonical => exact (h.finite hm hcanonical).holds

/-- Rounded, its results are in the order of its operands. -/
theorem below (h : Increases F φ) (ha : Nonneg a.unpack) (hle : a.unpack.le b.unpack = true) :
    Below (Float.Model.pack (F a.unpack)).unpack (Float.Model.pack (F b.unpack)).unpack := by
  have hb := nonneg_of_le ha hle
  intro r hr
  obtain ⟨q, hq⟩ : ∃ q, number? b.unpack = some q := by
    rcases hq : number? b.unpack with _ | q
    · rw [infinity_of_number? hb hq, h.infinity, number?_pack_infinity] at hr
      cases hr
    · exact ⟨q, rfl⟩
  obtain ⟨p, hp, hpq⟩ := below_of_le ha hle q hq
  have hpa := Holds.of_number? ha hp
  have hqb := Holds.of_number? hb hq
  rcases hpq.lt_or_eq with hlt | rfl
  · obtain ⟨v, hv, hvp⟩ := h.holds hpa
    obtain ⟨u, hu, huq⟩ := h.holds hqb
    exact hv.below hu (hvp.le huq hv hu (h.strict hlt)) r hr
  · by_cases hzero : p = 0
    · subst hzero
      obtain ⟨s, ha'⟩ := zero_of_number? hp
      obtain ⟨s', hb'⟩ := zero_of_number? hq
      rw [hb'] at hr
      rw [ha']
      exact (h.zero s).below (h.zero s') le_rfl r hr
    · rw [hpa.unique hqb rfl hzero]
      exact ⟨r, hr, le_rfl⟩

theorem nonneg (h : Increases F φ) (ha : Nonneg a.unpack) :
    Nonneg (Float.Model.pack (F a.unpack)).unpack := by
  apply nonneg_pack
  rcases hp : number? a.unpack with _ | p
  · rw [infinity_of_number? ha hp, h.infinity]
    rfl
  · obtain ⟨v, hv, -⟩ := h.holds (.of_number? ha hp)
    exact hv.nonneg

theorem le (h : Increases F φ) (ha : Nonneg a.unpack) (hle : a.unpack.le b.unpack = true) :
    (Float.Model.pack (F a.unpack)).unpack.le (Float.Model.pack (F b.unpack)).unpack = true :=
  le_of_below (h.nonneg ha) (h.nonneg (nonneg_of_le ha hle)) (h.below ha hle)

end Increases

/-! ### Operations -/

section Operations

variable {a : Float.Model} {n : Nat} {d : Int} {p q : Rat}

theorem increases_div (hn : 0 < n) :
    Increases (UnpackedFloat.div Format.binary64 · (.finite .positive n d hn))
      (· / (n * 2 ^ d)) where
  infinity := rfl
  zero s := by
    rw [zero_div]
    exact .zero _
  finite hm _ := nearest_div hm hn
  strict _ _ hlt := div_lt_div_of_pos_right hlt (by positivity)

theorem increases_mul (hn : 0 < n) (h : Canonical n d) :
    Increases (UnpackedFloat.mul Format.binary64 · (.finite .positive n d hn))
      (· * (n * 2 ^ d)) where
  infinity := rfl
  zero s := by
    rw [zero_mul]
    exact .zero _
  finite hm hcanonical := nearest_mul hm hn (product_le_target hm hn hcanonical h)
  strict _ _ hlt := mul_lt_mul_of_pos_right hlt (by positivity)

theorem increases_add {f : UnpackedFloat} (hf : Holds p f) :
    Increases (UnpackedFloat.add Format.binary64 f ·) (p + ·) where
  infinity := by
    cases hf <;> rfl
  zero s := by
    rw [add_zero]
    cases hf with
    | zero s' => cases s <;> cases s' <;> exact .zero _
    | finite hm h => exact .finite hm h
  finite {b d} hb hcanonical := by
    cases hf with
    | zero =>
      rw [zero_add]
      exact ⟨b, d, .finite hb hcanonical, nearest_self _⟩
    | finite hm _ => exact nearest_add hm hb
  strict _ _ hlt := by
    change p + _ < p + _
    linarith

/-- Whole numbers are taken in rounded, if there is no room for them. -/
theorem holds_ofNat (n : Nat) : ∃ f v, Holds v f ∧ Nearest n v ∧
    (Float.ofNat n).toModel.unpack = (Float.Model.pack f).unpack := by
  by_cases hn : n < 2 ^ 53
  · obtain ⟨f, hf, hmodel⟩ := isNat_ofNat hn.le
    exact ⟨f, n, .of_exact (whole_iff_exact.mp hf), nearest_self _, congrArg _ hmodel⟩
  · obtain ⟨v, hv, hnearest⟩ := (nearest_ofScientific (n := n) (by omega)).holds
    exact ⟨_, v, hv, hnearest, congrArg _ (ofNat_eq_of_le (by omega))⟩

theorem ofNat_mono {m n : Nat} (h : m ≤ n) :
    (Float.ofNat m).toModel.unpack.le (Float.ofNat n).toModel.unpack = true := by
  apply le_of_below (nonneg_ofNat m) (nonneg_ofNat n)
  rcases h.lt_or_eq with hlt | rfl
  · obtain ⟨f, v, hv, hvm, hf⟩ := holds_ofNat m
    obtain ⟨g, u, hu, hun, hg⟩ := holds_ofNat n
    rw [hf, hg]
    exact hv.below hu (hvm.le hun hv hu (Nat.cast_lt.mpr hlt))
  · exact fun q hq => ⟨q, hq, le_rfl⟩

/-- Adding the float of nothing leaves the value. -/
theorem number?_add_zero (hp : number? a.unpack = some p) (s : Sign) :
    number? (Float.Model.pack (UnpackedFloat.add Format.binary64 a.unpack (.zero s))).unpack =
      some p := by
  cases hf : a.unpack with
  | notANumber | infinity =>
    rw [hf] at hp
    cases hp
  | zero s' =>
    rw [hf] at hp
    obtain rfl : 0 = p := Option.some.inj hp
    cases s <;> cases s' <;> exact (congrArg number? unpack_packedZero).trans rfl
  | finite s' m e hm =>
    obtain ⟨hcanonical, he⟩ := canonical_of_unpack hf
    rw [hf] at hp
    change number? (Float.Model.pack (.finite s' m e hm)).unpack = _
    rw [unpack_pack hcanonical he]
    exact hp

end Operations

end ClientRuntime.Float64

namespace ClientRuntime

open Float64

instance : MonotoneScalar Float where
  le_trans hx hxy hyz := by
    rw [Float64.le_iff] at *
    exact unpack_le_trans (nonneg_iff.mp hx) hxy hyz
  ofNat_mono h := Float64.le_iff.mpr (ofNat_mono h)
  div_mono hx hxy hz hq := by
    change value? _ = _ at hz
    rw [value?_eq] at hz
    obtain ⟨n, d, hn, hz'⟩ := positive_of_number? hz hq
    rw [Float64.le_iff] at *
    have hle := (increases_div (d := d) hn).le (nonneg_iff.mp hx) hxy
    rw [← hz'] at hle
    exact hle
  mul_mono hx hxy hz hq := by
    change value? _ = _ at hz
    rw [value?_eq] at hz
    obtain ⟨n, d, hn, hz'⟩ := positive_of_number? hz hq
    rw [Float64.le_iff] at *
    have hle := (increases_mul hn (canonical_of_unpack hz').1).le (nonneg_iff.mp hx) hxy
    rw [← hz'] at hle
    exact hle
  add_mono hx hp hy hyz := by
    have hnonneg := (Scalar.nonneg_iff hx).mpr hp
    change value? _ = _ at hx
    rw [value?_eq] at hx
    rw [Float64.le_iff] at *
    exact (increases_add (.of_number? (nonneg_iff.mp hnonneg) hx)).le (nonneg_iff.mp hy) hyz
  le_add_zero {x p} hx hp := by
    have hzero : (Float.ofNat 0).toModel.unpack = .zero .positive :=
      (isNat_ofNat (Nat.zero_le _)).unpack.unique .zero
    have hsum : value? (x + Float.ofNat 0) = some p := by
      change value? _ = _ at hx
      rw [value?_eq] at hx ⊢
      change number? (x.toModel.add (Float.ofNat 0).toModel).unpack = _
      unfold Float.Model.add
      rw [hzero]
      exact number?_add_zero hx .positive
    exact (OrderedScalar.le_iff hx hsum).mpr le_rfl

end ClientRuntime
