import Mathlib
import ClientRuntime.Proofs.Float.Values

/-!
A number is rounded to a float that is nearest to it: the bits that are dropped leave behind on
which side of the middle between two significands it lies. So rounding passes no float, and numbers
that are floats are rounded to themselves.
-/

namespace ClientRuntime.Float64

open Float.Model Float.Model.UnpackedFloat

variable {m k : Nat} {e : Int}

/-! ### Dropping bits -/

theorem shift_succ (em : ExtendedMantissa) (k : Nat) :
    em >>> (k + 1) = (em >>> k).shiftRightOne := rfl

theorem mantissa_shift (em : ExtendedMantissa) (k : Nat) :
    (em >>> k).mantissa = em.mantissa / 2 ^ k := by
  induction k with
  | zero => exact (Nat.div_one _).symm
  | succ k ih =>
    rw [shift_succ, ExtendedMantissa.shiftRightOne, ih, Nat.div_div_eq_div_mul, Nat.pow_succ]

theorem le_roundedMantissa (em : ExtendedMantissa) :
    em.mantissa ≤ em.roundedMantissa ∧ em.roundedMantissa ≤ em.mantissa + 1 := by
  obtain ⟨m, r, s⟩ := em
  cases r <;> cases s <;> simp only [ExtendedMantissa.roundedMantissa, ExtendedMantissa.accuracy,
    Accuracy.roundToNearestEven] <;> omega

/-- How far a number lies beyond a significand, by the bits that are kept about that. -/
def Offset : Bool → Bool → Rat → Prop
  | false, false, δ => δ = 0
  | false, true, δ => 0 < δ ∧ δ < 1 / 2
  | true, false, δ => δ = 1 / 2
  | true, true, δ => 1 / 2 < δ ∧ δ < 1

/-- An extended significand that tells where a number lies, in units of a power of two. -/
def Locates (em : ExtendedMantissa) (e : Int) (x : Rat) : Prop :=
  ∃ δ, Offset em.roundBit em.stickyBit δ ∧ (em.mantissa + δ) * 2 ^ e = x

theorem Offset.bounds {r s : Bool} {δ : Rat} (h : Offset r s δ) : 0 ≤ δ ∧ δ < 1 := by
  cases r <;> cases s <;> simp only [Offset] at h
  · norm_num [h]
  · exact ⟨h.1.le, by linarith⟩
  · norm_num [h]
  · exact ⟨by linarith, h.2⟩

theorem locates_exact (m : Nat) (e : Int) :
    Locates (.ofMantissaAndAccuracy m .exact) e (m * 2 ^ e) :=
  ⟨0, rfl, by simp [ExtendedMantissa.ofMantissaAndAccuracy]⟩

namespace Locates

variable {em : ExtendedMantissa} {x : Rat}

/-- The last bit becomes the round bit, and the bits after it are remembered together. -/
theorem shiftRightOne (h : Locates em e x) : Locates em.shiftRightOne (e + 1) x := by
  obtain ⟨δ, hoffset, rfl⟩ := h
  obtain ⟨m, r, s⟩ := em
  have hbounds := hoffset.bounds
  have hdivision : (m : Rat) = 2 * (m / 2 : Nat) + (m % 2 : Nat) := by
    exact_mod_cast (Nat.div_add_mod m 2).symm
  refine ⟨((m % 2 : Nat) + δ) / 2, ?_, ?_⟩
  · simp only [ExtendedMantissa.shiftRightOne]
    obtain hbit | hbit := Nat.mod_two_eq_zero_or_one m <;> rw [hbit] <;>
      cases r <;> cases s <;> simp [Offset] at hoffset ⊢ <;>
      first | linarith | constructor <;> linarith
  · simp only [ExtendedMantissa.shiftRightOne]
    rw [zpow_add_one₀ two_ne_zero, hdivision]
    ring

theorem shift (h : Locates em e x) (k : Nat) : Locates (em >>> k) (e + k) x := by
  induction k with
  | zero =>
    rw [Nat.cast_zero, add_zero]
    exact h
  | succ k ih =>
    rw [shift_succ, Nat.cast_succ, ← add_assoc]
    exact ih.shiftRightOne

theorem le (h : Locates em e x) : (em.mantissa : Rat) * 2 ^ e ≤ x := by
  obtain ⟨δ, hoffset, rfl⟩ := h
  have hpos : (0 : Rat) < 2 ^ e := by positivity
  exact mul_le_mul_of_nonneg_right (le_add_of_nonneg_right hoffset.bounds.1) hpos.le

theorem lt (h : Locates em e x) : x < (em.mantissa + 1 : Nat) * 2 ^ e := by
  obtain ⟨δ, hoffset, rfl⟩ := h
  have hpos : (0 : Rat) < 2 ^ e := by positivity
  push_cast
  exact mul_lt_mul_of_pos_right (by linarith [hoffset.bounds.2]) hpos

/-- Down if the number does not lie beyond the middle, up if it does not lie before it. -/
theorem rounded (h : Locates em e x) :
    em.roundedMantissa = em.mantissa ∧ 2 * x ≤ (2 * em.mantissa + 1) * 2 ^ e ∨
      em.roundedMantissa = em.mantissa + 1 ∧ (2 * em.mantissa + 1) * 2 ^ e ≤ 2 * x := by
  obtain ⟨δ, hoffset, rfl⟩ := h
  obtain ⟨m, r, s⟩ := em
  have hpos : (0 : Rat) < 2 ^ e := by positivity
  have hdown (hle : δ ≤ 1 / 2) : 2 * ((m + δ) * 2 ^ e) ≤ (2 * m + 1) * 2 ^ e := by nlinarith
  have hup (hle : 1 / 2 ≤ δ) : (2 * m + 1) * 2 ^ e ≤ 2 * ((m + δ) * 2 ^ e) := by nlinarith
  cases r <;> cases s <;> simp only [Offset] at hoffset <;>
    simp only [ExtendedMantissa.roundedMantissa, ExtendedMantissa.accuracy,
      Accuracy.roundToNearestEven]
  · exact .inl ⟨trivial, hdown (by norm_num [hoffset])⟩
  · exact .inl ⟨trivial, hdown hoffset.2.le⟩
  · obtain heven | hodd := Nat.mod_two_eq_zero_or_one m
    · exact .inl ⟨by omega, hdown hoffset.le⟩
    · exact .inr ⟨by omega, hup hoffset.ge⟩
  · exact .inr ⟨trivial, hup hoffset.1.le⟩

end Locates

/-! ### Order -/

theorem two_zpow_split {e e' : Int} (h : e ≤ e') :
    (2 : Rat) ^ e' = 2 ^ (e' - e).toNat * 2 ^ e := by
  rw [← zpow_natCast, ← zpow_add₀ two_ne_zero]
  congr 1
  omega

/-- A number in units of a smaller power of two. -/
theorem scaled {e e' : Int} (h : e ≤ e') (n : Nat) :
    (n : Rat) * 2 ^ e' = (n * 2 ^ (e' - e).toNat : Nat) * 2 ^ e := by
  rw [two_zpow_split h]
  push_cast
  ring

theorem decreaseExponent_value (m : Nat) {e d : Int} (h : d ≤ e) :
    ((decreaseExponent m e d).1 : Rat) * 2 ^ d = m * 2 ^ e := by
  simp only [decreaseExponent, Nat.shiftLeft_eq]
  rw [scaled h]

theorem mul_zpow_le {a b : Nat} {e : Int} : (a : Rat) * 2 ^ e ≤ b * 2 ^ e ↔ a ≤ b := by
  have hpos : (0 : Rat) < 2 ^ e := by positivity
  rw [mul_le_mul_iff_left₀ hpos, Nat.cast_le]

/-- The least exponent that leaves room for the significand. -/
def target (m : Nat) (e : Int) : Int := max (m.log2 + e - 52) (-1074)

theorem targetExponent_eq (m : Nat) (e : Int) :
    Format.binary64.targetExponent (totalExponent m e) = target m e := by
  have hbits : Format.binary64.mantissaBits = 53 := rfl
  have hleast : Format.binary64.minExponent = -1074 := rfl
  unfold Format.targetExponent totalExponent target
  rw [hbits, hleast]
  omega

theorem div_lt (m : Nat) (e : Int) : m / 2 ^ (target m e - e).toNat < 2 ^ 53 := by
  have hlog : m < 2 ^ (m.log2 + 1) := Nat.lt_log2_self
  have hbits : m.log2 + 1 ≤ 53 + (target m e - e).toNat := by
    unfold target
    omega
  apply Nat.div_lt_of_lt_mul
  rw [← Nat.pow_add, Nat.add_comm]
  exact hlog.trans_le (Nat.pow_le_pow_right (by decide) hbits)

/-- Above the least exponent the significand is full. -/
theorem le_div (hm : 0 < m) (he : e ≤ target m e) (hleast : target m e ≠ -1074) :
    2 ^ 52 ≤ m / 2 ^ (target m e - e).toNat := by
  have hlog : 2 ^ m.log2 ≤ m := Nat.log2_self_le hm.ne'
  have hbits : m.log2 = 52 + (target m e - e).toNat := by
    unfold target at *
    omega
  rw [Nat.le_div_iff_mul_le (Nat.two_pow_pos _), ← Nat.pow_add, ← hbits]
  exact hlog

/-- A canonical form with a smaller exponent stands for less. -/
theorem magnitude_lt_of_lt_target (hm : 0 < m) (he : e ≤ target m e) {m' : Nat} {e' : Int}
    (h : Canonical m' e') (hlt : e' < target m e) :
    (m' : Rat) * 2 ^ e' < (m / 2 ^ (target m e - e).toNat : Nat) * 2 ^ target m e := by
  have hleast := h.least
  have hfull : Canonical (2 ^ 52) (target m e) := ⟨by decide, by omega, .inl le_rfl⟩
  have hq := le_div hm he (by omega)
  exact (h.magnitude_lt hfull hlt).trans_le (mul_zpow_le.mpr hq)

/-- Only for the least exponent is there room above an empty significand. -/
theorem pos_or_least (he : e ≤ target m e) : 0 < m ∨ target m e = -1074 := by
  rcases Nat.eq_zero_or_pos m with rfl | hm
  · refine .inr ?_
    unfold target at he ⊢
    rw [Nat.log2_zero] at he ⊢
    omega
  · exact .inl hm

/-- There is no canonical form between a significand of the target exponent and the next one. -/
theorem canonical_outside (he : e ≤ target m e) {n : Nat} {d : Int} (h : Canonical n d) :
    (n : Rat) * 2 ^ d ≤ (m / 2 ^ (target m e - e).toNat : Nat) * 2 ^ target m e ∨
      ((m / 2 ^ (target m e - e).toNat + 1 : Nat) : Rat) * 2 ^ target m e ≤ n * 2 ^ d := by
  by_cases hroom : target m e ≤ d
  · rw [scaled hroom, mul_zpow_le, mul_zpow_le]
    omega
  · have hleast := h.least
    have hm := (pos_or_least he).resolve_right (by omega)
    exact .inl (magnitude_lt_of_lt_target hm he h (by omega)).le

/-- No float is nearer to the number. -/
def Nearest (x v : Rat) : Prop :=
  ∀ (n : Nat) (d : Int), Canonical n d →
    (n * 2 ^ d < v → n * 2 ^ d + v ≤ 2 * x) ∧ (v < n * 2 ^ d → 2 * x ≤ v + n * 2 ^ d)

/-- Rounding to a significand of the target exponent rounds to the nearest float. -/
theorem nearest_rounded (he : e ≤ target m e) {em : ExtendedMantissa} {x : Rat}
    (hem : em.mantissa = m / 2 ^ (target m e - e).toNat)
    (h : Locates em (target m e) x) :
    Nearest x (em.roundedMantissa * 2 ^ target m e) := by
  intro n d hn
  have houtside := canonical_outside he hn
  rw [← hem] at houtside
  have hle := h.le
  have hlt := h.lt
  push_cast at houtside hlt
  obtain ⟨hrounded, hmiddle⟩ | ⟨hrounded, hmiddle⟩ := h.rounded <;> rw [hrounded] <;> push_cast
  · constructor
    · intro hbelow
      linarith
    · intro habove
      obtain hfloor | hnext := houtside
      · linarith
      · linarith
  · constructor
    · intro hbelow
      obtain hfloor | hnext := houtside
      · linarith
      · linarith
    · intro habove
      linarith

/-! ### Rounding -/

/-- The float with this significand and exponent, or zero. -/
inductive Parts (s : Sign) (m : Nat) (e : Int) : UnpackedFloat → Prop where
  | zero : m = 0 → Parts s m e (.zero s)
  | finite (h : 0 < m) : Canonical m e → Parts s m e (.finite s m e h)

theorem target_le {r : Nat} {e : Int} (hr : r < 2 ^ 53) (he : -1074 ≤ e) : target r e ≤ e := by
  have hlog : r.log2 ≤ 52 := by
    by_cases hzero : r = 0
    · simp [hzero]
    · have := (Nat.log2_lt hzero).mpr hr
      omega
  unfold target
  omega

theorem target_carry {e : Int} (he : -1074 ≤ e) : target (2 ^ 53) e = e + 1 := by
  unfold target
  rw [Nat.log2_two_pow]
  omega

/-- After rounding there is at most one carry to shift out, and that loses nothing. -/
theorem parts_shifted (s : Sign) {r : Nat} {e : Int} (hr : r ≤ 2 ^ 53) (he : -1074 ≤ e)
    (hfull : 2 ^ 52 ≤ r ∨ e = -1074) :
    ∃ (m : Nat) (e' : Int), (m : Rat) * 2 ^ e' = r * 2 ^ e ∧
      Parts s m e' (if h : r / 2 ^ (target r e - e).toNat = 0 then .zero s
        else .finite s (r / 2 ^ (target r e - e).toNat) (e + (target r e - e).toNat)
          (Nat.pos_of_ne_zero h)) := by
  obtain hlt | rfl : r < 2 ^ 53 ∨ r = 2 ^ 53 := by omega
  · have hnone : (target r e - e).toNat = 0 := by
      have := target_le hlt he
      omega
    refine ⟨r, e, rfl, ?_⟩
    simp only [hnone, Nat.pow_zero, Nat.div_one, Int.ofNat_zero, Int.add_zero]
    split
    · exact .zero ‹_›
    · exact .finite _ ⟨hlt, he, hfull⟩
  · have hone : (target (2 ^ 53) e - e).toNat = 1 := by
      rw [target_carry he]
      omega
    refine ⟨2 ^ 52, e + 1, ?_, ?_⟩
    · rw [zpow_add₀ two_ne_zero]
      norm_num
      ring
    · simp only [hone]
      exact .finite (by decide) ⟨by decide, by omega, .inl le_rfl⟩

/-- What a number is rounded to: a float of that sign, and no float lies in between. -/
def RoundsTo (s : Sign) (x : Rat) (f : UnpackedFloat) : Prop :=
  ∃ (m : Nat) (e : Int), Parts s m e f ∧ ∀ (n : Nat) (d : Int), Canonical n d →
    (x ≤ n * 2 ^ d → (m : Rat) * 2 ^ e ≤ n * 2 ^ d) ∧
    ((n : Rat) * 2 ^ d ≤ x → (n : Rat) * 2 ^ d ≤ m * 2 ^ e)

/-- A number is rounded to a float of that sign, and none is nearer. -/
def RoundsToNearest (s : Sign) (x : Rat) (f : UnpackedFloat) : Prop :=
  ∃ (m : Nat) (e : Int), Parts s m e f ∧ Nearest x (m * 2 ^ e)

theorem RoundsToNearest.roundsTo {s : Sign} {x : Rat} {f : UnpackedFloat}
    (h : RoundsToNearest s x f) : RoundsTo s x f := by
  obtain ⟨m, e, hparts, hnearest⟩ := h
  refine ⟨m, e, hparts, fun n d hn => ⟨fun hx => ?_, fun hx => ?_⟩⟩
  · by_contra hpassed
    have := (hnearest n d hn).1 (not_le.mp hpassed)
    linarith
  · by_contra hpassed
    have := (hnearest n d hn).2 (not_le.mp hpassed)
    linarith

theorem shiftToTargetExponent_accurate (m : Nat) (e : Int) (accuracy : Accuracy) :
    shiftToTargetExponent Format.binary64 m e accuracy =
      ((ExtendedMantissa.ofMantissaAndAccuracy m accuracy) >>> (target m e - e).toNat,
        e + (target m e - e).toNat) := by
  unfold shiftToTargetExponent shiftToExponent
  rw [targetExponent_eq]

/-- A number is rounded to the nearest float if a significand with enough bits tells where it
lies. -/
theorem nearest_roundWithAccuracy (s : Sign) {accuracy : Accuracy} {x : Rat}
    (he : e ≤ target m e) (h : Locates (.ofMantissaAndAccuracy m accuracy) e x) :
    RoundsToNearest s x (roundWithAccuracy Format.binary64 s m e accuracy) := by
  have hmantissa : (ExtendedMantissa.ofMantissaAndAccuracy m accuracy).mantissa = m := by
    cases accuracy with
    | exact => rfl
    | inexact order => cases order <;> rfl
  have hshift : e + (target m e - e).toNat = target m e := by omega
  have hlocates := h.shift (target m e - e).toNat
  have hem := mantissa_shift (.ofMantissaAndAccuracy m accuracy) (target m e - e).toNat
  rw [hshift] at hlocates
  rw [hmantissa] at hem
  have hnearest := nearest_rounded he hem hlocates
  have hrounded := le_roundedMantissa
    ((ExtendedMantissa.ofMantissaAndAccuracy m accuracy) >>> (target m e - e).toNat)
  rw [hem] at hrounded
  have hbits := div_lt m e
  have hfull : 2 ^ 52 ≤ ((ExtendedMantissa.ofMantissaAndAccuracy m accuracy) >>>
      (target m e - e).toNat).roundedMantissa ∨ target m e = -1074 := by
    by_cases hleast : target m e = -1074
    · exact .inr hleast
    · exact .inl ((le_div ((pos_or_least he).resolve_right hleast) he hleast).trans hrounded.1)
  obtain ⟨m', e', hvalue, hparts⟩ := parts_shifted s (by omega) (le_max_right _ _) hfull
  refine ⟨m', e', ?_, hvalue ▸ hnearest⟩
  unfold roundWithAccuracy
  rw [shiftToTargetExponent_accurate, hshift]
  simp only [shiftToTargetExponent_accurate, mantissa_shift]
  exact hparts

theorem log2_mul_two_pow (hm : 0 < m) (j : Nat) : (m * 2 ^ j).log2 = m.log2 + j := by
  rw [Nat.log2_eq_iff (by positivity), Nat.add_right_comm, Nat.pow_add, Nat.pow_add]
  constructor
  · exact Nat.mul_le_mul_right _ (Nat.log2_self_le hm.ne')
  · exact Nat.mul_lt_mul_of_pos_right Nat.lt_log2_self (Nat.two_pow_pos j)

theorem nearest_round (s : Sign) (hm : 0 < m) (e : Int) :
    RoundsToNearest s (m * 2 ^ e) (UnpackedFloat.round Format.binary64 s m e) := by
  unfold UnpackedFloat.round decreaseExponent
  rw [targetExponent_eq]
  simp only [Nat.shiftLeft_eq]
  generalize hj : (e - target m e).toNat = j
  have hvalue : (m : Rat) * 2 ^ e = (m * 2 ^ j : Nat) * 2 ^ (e - j) := by
    have hsplit := scaled (Int.sub_le_self e (Int.natCast_nonneg j)) m
    rwa [show (e - (e - j)).toNat = j by omega] at hsplit
  have hlog := log2_mul_two_pow hm j
  rw [hvalue]
  apply nearest_roundWithAccuracy s _ (locates_exact ..)
  unfold target at *
  rw [hlog]
  omega

theorem RoundsTo.nonneg {x : Rat} {f : UnpackedFloat} (h : RoundsTo .positive x f) : Nonneg f := by
  obtain ⟨m, e, ⟨⟩ | ⟨_, _⟩, -⟩ := h
  · trivial
  · rfl

/-- What is at most some float is rounded to a value, which is at most that float. -/
theorem RoundsTo.value_le {x : Rat} {f : UnpackedFloat} (h : RoundsTo .positive x f) {n : Nat}
    {d : Int} (hn : Canonical n d) (hd : d ≤ 971) (hx : x ≤ n * 2 ^ d) :
    ∃ r, number? (Float.Model.pack f).unpack = some r ∧ 0 ≤ r ∧ r ≤ n * 2 ^ d := by
  obtain ⟨m, e, hparts, hbounds⟩ := h
  have hle := (hbounds n d hn).1 hx
  cases hparts with
  | zero hzero =>
    exact ⟨0, (congrArg number? unpack_packedZero).trans rfl, le_rfl, by positivity⟩
  | finite hm hcanonical =>
    have he : e ≤ 971 := by
      by_contra hlarge
      have := hn.magnitude_lt hcanonical (by omega)
      linarith
    refine ⟨m * 2 ^ e, ?_, by positivity, hle⟩
    rw [unpack_pack hcanonical he]
    rfl

end ClientRuntime.Float64
