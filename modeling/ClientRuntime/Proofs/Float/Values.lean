import Mathlib
import ClientRuntime.Scalar

/-!
What floats stand for. A finite float is a significand times a power of two, in one of the forms
that the format has room for; it keeps its parts when it is packed into bits and unpacked again, and
floats compare as the rational numbers do that they stand for.
-/

namespace ClientRuntime.Float64

open Float.Model Float.Model.UnpackedFloat

/-- The significand fills its bits, or the exponent is the least one. -/
structure Canonical (m : Nat) (e : Int) : Prop where
  lt : m < 2 ^ 53
  least : -1074 ≤ e
  full : 2 ^ 52 ≤ m ∨ e = -1074

/-- The exact value; infinities and what is no number have none. -/
def number? : UnpackedFloat → Option Rat
  | .zero _ => some 0
  | .finite s m e _ => some (s.apply m * 2 ^ e)
  | _ => none

/-- Zero of either sign counts. -/
def Nonneg : UnpackedFloat → Prop
  | .infinity s => s = .positive
  | .notANumber => False
  | .zero _ => True
  | .finite s _ _ _ => s = .positive

/-! ### Packing -/

/-- The float that has these fields. -/
def ofFields (s : Sign) (exponent : BitVec 11) (mantissa : BitVec 52) : UnpackedFloat :=
  if exponent = -1#11 then if mantissa = 0#52 then .infinity s else .notANumber
  else if exponent = 0#11 then
    if h : mantissa = 0#52 then .zero s
    else
      .finite s mantissa.toNat (-1074)
        (Nat.pos_of_ne_zero fun h' => h (BitVec.eq_of_toNat_eq h'))
  else .finite s (2 ^ 52 + mantissa.toNat) (exponent.toNat - 1075) (by omega)

section Packing

variable {s : Sign} {m : Nat} {e : Int} {exponent : BitVec 11} {mantissa : BitVec 52}

theorem toNat_append_one (v : BitVec 52) : (1#1 ++ v).toNat = 2 ^ 52 + v.toNat := by
  rw [BitVec.toNat_append, ← Nat.shiftLeft_add_eq_or_of_lt v.isLt]
  rfl

theorem unpack_eq_ofFields (b : BitVec 64) :
    unpack Format.binary64 b = ofFields (Sign.ofBitVec (@unpackSign Format.binary64 b))
      (@unpackExponent Format.binary64 b) (@unpackMantissa Format.binary64 b) := by
  unfold UnpackedFloat.unpack ofFields
  simp only [toNat_append_one]
  split
  · rfl
  · split
    · rename_i hzero
      rw [hzero]
      rfl
    · rfl

theorem unpack_packComponents (s : Sign) (exponent : BitVec 11) (mantissa : BitVec 52) :
    unpack Format.binary64 (packComponents Format.binary64 s exponent mantissa) =
      ofFields s exponent mantissa := by
  rw [unpack_eq_ofFields, unpackSign_packComponents, unpackExponent_packComponents,
    unpackMantissa_packComponents, Sign.ofBitVec_toBitVec]

theorem ofNat_ne_neg_one {n : Nat} (h : n + 1 < 2 ^ 11) : BitVec.ofNat 11 n ≠ -1#11 := by
  intro heq
  have hn := congrArg BitVec.toNat heq
  rw [BitVec.toNat_ofNat, Nat.mod_eq_of_lt (by omega)] at hn
  have hmax : (-1#11).toNat = 2 ^ 11 - 1 := rfl
  omega

/-- Fields other than those of infinities and of what is no number make a finite float. -/
theorem nonneg_ofFields (h : exponent ≠ -1#11) : Nonneg (ofFields .positive exponent mantissa) := by
  unfold ofFields
  rw [if_neg h]
  split
  · split <;> trivial
  · rfl

/-- Packing a float, in canonical form or not, keeps it from becoming negative. -/
theorem nonneg_pack {f : UnpackedFloat} (h : Nonneg f) : Nonneg (Float.Model.pack f).unpack := by
  change Nonneg (unpack Format.binary64 (UnpackedFloat.pack Format.binary64 f))
  have hinfinity :
      Nonneg (unpack Format.binary64 (packedInfinity Format.binary64 .positive)) := by
    unfold packedInfinity
    rw [unpack_packComponents]
    rfl
  cases f with
  | notANumber => exact h.elim
  | infinity s =>
    obtain rfl : s = .positive := h
    exact hinfinity
  | zero s => exact (congrArg Nonneg unpack_packedZero).mpr trivial
  | finite s m e hm =>
    obtain rfl : s = .positive := h
    unfold UnpackedFloat.pack
    simp only
    split
    · exact hinfinity
    · split
      · rw [unpack_packComponents]
        exact nonneg_ofFields (ofNat_ne_neg_one (by omega))
      · rw [unpack_packComponents]
        exact nonneg_ofFields (by decide)

theorem canonical_of_ofFields {s' : Sign} {h : 0 < m}
    (hf : ofFields s' exponent mantissa = .finite s m e h) :
    Canonical m e ∧ e ≤ 971 := by
  have hbits := mantissa.isLt
  have hfield := exponent.isLt
  unfold ofFields at hf
  split at hf
  · split at hf <;> cases hf
  · rename_i hfinite
    have hlarge : exponent.toNat ≠ 2047 := fun h => hfinite (BitVec.eq_of_toNat_eq h)
    split at hf
    · split at hf
      · cases hf
      · cases hf
        exact ⟨⟨by omega, by decide, .inr rfl⟩, by decide⟩
    · rename_i hzero
      have hsmall : exponent.toNat ≠ 0 := fun h => hzero (BitVec.eq_of_toNat_eq h)
      cases hf
      exact ⟨⟨by omega, by omega, .inl (by omega)⟩, by omega⟩

theorem canonical_of_unpack {f : Float.Model} {h : 0 < m} (hf : f.unpack = .finite s m e h) :
    Canonical m e ∧ e ≤ 971 := by
  unfold Float.Model.unpack at hf
  rw [unpack_eq_ofFields] at hf
  exact canonical_of_ofFields hf

theorem log2_eq (hm : m < 2 ^ 53) (hfull : 2 ^ 52 ≤ m) : m.log2 = 52 :=
  (Nat.log2_eq_iff (by omega)).mpr ⟨hfull, hm⟩

theorem log2_lt (hm : m < 2 ^ 52) : m.log2 < 52 := by
  by_cases hzero : m = 0
  · simp [hzero]
  · exact (Nat.log2_lt hzero).mpr hm

/-- A float in canonical form keeps its parts. -/
theorem unpack_pack {h : 0 < m} (hm : Canonical m e) (he : e ≤ 971) :
    (Float.Model.pack (.finite s m e h)).unpack = .finite s m e h := by
  have hlt := hm.lt
  have hleast := hm.least
  change unpack Format.binary64 (UnpackedFloat.pack Format.binary64 _) = _
  unfold UnpackedFloat.pack
  have hbias : e + Format.binary64.exponentBias + Format.binary64.mantissaBitsWithoutImplicit =
      e + 1075 := by
    change e + 1023 + 52 = _
    omega
  have hroom : ¬ 2 ^ 11 ≤ (e + 1075).toNat + 1 := by omega
  simp only [hbias]
  rw [if_neg hroom]
  by_cases hfull : 2 ^ 52 ≤ m
  · have hlog : m.log2 + 1 = Format.binary64.mantissaBits := by
      rw [log2_eq hlt hfull]
      rfl
    have hfield : (BitVec.ofNat 11 (e + 1075).toNat).toNat = (e + 1075).toNat := by
      rw [BitVec.toNat_ofNat, Nat.mod_eq_of_lt (by omega)]
    have hzero : BitVec.ofNat 11 (e + 1075).toNat ≠ 0#11 := by
      intro heq
      have := congrArg BitVec.toNat heq
      rw [hfield] at this
      change _ = 0 at this
      omega
    have hmantissa : 2 ^ 52 + (BitVec.ofNat 52 m).toNat = m := by
      rw [BitVec.toNat_ofNat]
      omega
    rw [if_pos hlog, unpack_packComponents]
    unfold ofFields
    rw [if_neg (ofNat_ne_neg_one (by omega)), if_neg hzero]
    congr 1
    rw [hfield]
    omega
  · have hlog : m.log2 + 1 ≠ Format.binary64.mantissaBits := by
      have := log2_lt (Nat.lt_of_not_le hfull)
      change m.log2 + 1 ≠ 53
      omega
    have hmantissa : (BitVec.ofNat 52 m).toNat = m := by
      rw [BitVec.toNat_ofNat, Nat.mod_eq_of_lt (by omega)]
    have hsome : BitVec.ofNat 52 m ≠ 0#52 := by
      intro heq
      have := congrArg BitVec.toNat heq
      rw [hmantissa] at this
      change m = 0 at this
      omega
    have hexponent : e = -1074 := hm.full.resolve_left hfull
    rw [if_neg hlog, unpack_packComponents]
    unfold ofFields
    rw [if_neg (by decide), if_pos rfl, dif_neg hsome]
    congr 1
    exact hexponent.symm

end Packing

/-! ### Exact values -/

/-- A significand times a power of two, whatever the sign of the exponent. -/
theorem magnitude_eq (m : Nat) (e : Int) :
    (if e < 0 then mkRat m (1 <<< (-e).toNat) else mkRat (m <<< e.toNat) 1) =
      (m : Rat) * 2 ^ e := by
  split
  · have he : e = -((-e).toNat : Int) := by omega
    rw [Rat.mkRat_eq_div, Nat.one_shiftLeft]
    conv_rhs => rw [he, zpow_neg, zpow_natCast, ← div_eq_mul_inv]
    norm_num
  · have he : e = (e.toNat : Int) := by omega
    rw [Rat.mkRat_eq_div, Nat.shiftLeft_eq]
    conv_rhs => rw [he, zpow_natCast]
    norm_num

theorem number?_ofFields (s : Sign) (exponent : BitVec 11) (mantissa : BitVec 52) :
    number? (ofFields s exponent mantissa) =
      if exponent.toNat = 2047 then none
      else
        let m := if exponent.toNat = 0 then mantissa.toNat else mantissa.toNat + 2 ^ 52
        some ((s.apply m : Rat) * 2 ^ ((max exponent.toNat 1 : Int) - 1075)) := by
  unfold ofFields
  by_cases hlarge : exponent = -1#11
  · have hfield : exponent.toNat = 2047 := congrArg BitVec.toNat hlarge
    rw [if_pos hlarge, if_pos hfield]
    split <;> rfl
  · have hfield : exponent.toNat ≠ 2047 := fun h => hlarge (BitVec.eq_of_toNat_eq h)
    rw [if_neg hlarge, if_neg hfield]
    by_cases hzero : exponent = 0#11
    · have hnone : exponent.toNat = 0 := congrArg BitVec.toNat hzero
      rw [if_pos hzero]
      simp only [hnone, if_true]
      split
      · rename_i hmantissa
        rw [hmantissa]
        cases s <;> simp [number?, Sign.apply]
      · rfl
    · have hsome : exponent.toNat ≠ 0 := fun h => hzero (BitVec.eq_of_toNat_eq h)
      rw [if_neg hzero]
      simp only [hsome, if_false, number?, Option.some.injEq]
      rw [Nat.add_comm, max_eq_left (by omega)]

theorem toNat_unpackExponent (b : BitVec 64) :
    (@unpackExponent Format.binary64 b).toNat = (b.toNat >>> 52) % 2 ^ 11 := by
  rw [unpackExponent_def]
  exact BitVec.extractLsb'_toNat ..

theorem toNat_unpackMantissa (b : BitVec 64) :
    (@unpackMantissa Format.binary64 b).toNat = b.toNat % 2 ^ 52 := by
  rw [unpackMantissa_def]
  exact BitVec.extractLsb'_toNat ..

theorem ofBitVec_unpackSign (b : BitVec 64) :
    Sign.ofBitVec (@unpackSign Format.binary64 b) =
      if b.toNat >>> 63 = 1 then .negative else .positive := by
  have hb := b.isLt
  have hsign : (@unpackSign Format.binary64 b).toNat = b.toNat >>> 63 := by
    rw [unpackSign_def]
    refine (BitVec.extractLsb'_toNat ..).trans (Nat.mod_eq_of_lt ?_)
    change b.toNat >>> 63 < 2 ^ 1
    omega
  unfold Sign.ofBitVec
  by_cases hnegative : b.toNat >>> 63 = 1
  · rw [if_pos hnegative, if_neg]
    intro hzero
    rw [hzero] at hsign
    change 0 = _ at hsign
    omega
  · rw [if_neg hnegative, if_pos]
    apply BitVec.eq_of_toNat_eq
    rw [hsign]
    change _ = 0
    omega

/-- The bits of a float have the exact value of its parts. -/
theorem value?_eq (x : Float) : value? x = number? x.toModel.unpack := by
  unfold Float.Model.unpack
  rw [unpack_eq_ofFields, number?_ofFields, toNat_unpackExponent, toNat_unpackMantissa,
    ofBitVec_unpackSign]
  have hbits : x.toModel.toBits.toBitVec.toNat = x.toBits.toNat := rfl
  have hfields : 1 <<< exponentBits = 2 ^ 11 := rfl
  have hmantissa : 1 <<< significandBits = 2 ^ 52 := rfl
  have hlast : 2 ^ 11 - 1 = 2047 := rfl
  rw [hbits]
  unfold value? decode?
  simp only [hfields, hmantissa, hlast]
  unfold significandBits
  split
  · rfl
  · simp only [Option.map_some, magnitude_eq, decide_eq_true_eq]
    by_cases hnegative : x.toBits.toNat >>> 63 = 1
    · rw [if_pos hnegative, if_pos hnegative]
      simp only [Sign.apply, Int.cast_neg, Int.cast_natCast, neg_mul]
    · rw [if_neg hnegative, if_neg hnegative]
      simp only [Sign.apply, Int.cast_natCast]

/-! ### Order -/

section Order

variable {m m' : Nat} {e e' : Int}

/-- Of two canonical forms the one with the greater exponent stands for more. -/
theorem Canonical.magnitude_lt (h : Canonical m e) (h' : Canonical m' e') (he : e < e') :
    (m : Rat) * 2 ^ e < m' * 2 ^ e' := by
  have hleast := h.least
  have hfull : 2 ^ 52 ≤ m' := h'.full.resolve_right (by omega)
  have hshift : (2 : Rat) ^ e' = 2 ^ e * 2 ^ (e' - e).toNat := by
    rw [← zpow_natCast, ← zpow_add₀ two_ne_zero]
    congr 1
    omega
  have hnat : m < m' * 2 ^ (e' - e).toNat := by
    have hlt := h.lt
    have htwo : 2 ^ 1 ≤ 2 ^ (e' - e).toNat := Nat.pow_le_pow_right (by decide) (by omega)
    calc m < 2 ^ 53 := hlt
      _ = 2 ^ 52 * 2 ^ 1 := by decide
      _ ≤ m' * 2 ^ (e' - e).toNat := Nat.mul_le_mul hfull htwo
  have hrat : (m : Rat) < m' * 2 ^ (e' - e).toNat := by exact_mod_cast hnat
  have hpos : (0 : Rat) < 2 ^ e := by positivity
  rw [hshift]
  nlinarith

/-- A number has one canonical form. -/
theorem Canonical.unique (h : Canonical m e) (h' : Canonical m' e')
    (heq : (m : Rat) * 2 ^ e = m' * 2 ^ e') : m = m' ∧ e = e' := by
  rcases lt_trichotomy e e' with he | rfl | he
  · exact absurd heq (h.magnitude_lt h' he).ne
  · have hpos : (0 : Rat) < 2 ^ e := by positivity
    exact ⟨Nat.cast_injective (mul_right_cancel₀ hpos.ne' heq), rfl⟩
  · exact absurd heq (h'.magnitude_lt h he).ne'

theorem isLE_compare (h : Canonical m e) (h' : Canonical m' e') :
    ((compare e e').then (compare m m')).isLE = true ↔ (m : Rat) * 2 ^ e ≤ m' * 2 ^ e' := by
  rcases lt_trichotomy e e' with he | rfl | he
  · have hlt := h.magnitude_lt h' he
    rw [Int.compare_eq_lt.mpr he]
    exact iff_of_true rfl hlt.le
  · have hpos : (0 : Rat) < 2 ^ e := by positivity
    rw [Int.compare_eq_eq.mpr rfl, mul_le_mul_iff_left₀ hpos, Nat.cast_le]
    exact Nat.isLE_compare
  · have hlt := h'.magnitude_lt h he
    rw [Int.compare_eq_gt.mpr he]
    exact iff_of_false Bool.false_ne_true hlt.not_ge

theorem isLE_compare_swap (h : Canonical m e) (h' : Canonical m' e') :
    ((compare e e').then (compare m m')).swap.isLE = true ↔
      (m' : Rat) * 2 ^ e' ≤ m * 2 ^ e := by
  rw [← isLE_compare h' h, Ordering.swap_then, Int.compare_swap, Nat.compare_swap]

/-- Finite floats compare as their values do. -/
theorem le_unpack {f g : Float.Model} {p q : Rat} (hf : number? f.unpack = some p)
    (hg : number? g.unpack = some q) : f.unpack.le g.unpack = true ↔ p ≤ q := by
  have hpos {m : Nat} (e : Int) (hm : 0 < m) : (0 : Rat) < m * 2 ^ e := by positivity
  unfold UnpackedFloat.le
  cases hf' : f.unpack with
  | notANumber | infinity =>
    rw [hf'] at hf
    cases hf
  | zero s =>
    rw [hf'] at hf
    obtain rfl : 0 = p := Option.some.inj hf
    cases hg' : g.unpack with
    | notANumber | infinity =>
      rw [hg'] at hg
      cases hg
    | zero s' =>
      rw [hg'] at hg
      obtain rfl : 0 = q := Option.some.inj hg
      exact iff_of_true rfl le_rfl
    | finite s' m' e' hm' =>
      rw [hg'] at hg
      have := hpos e' hm'
      cases s' with
      | positive =>
        obtain rfl : (m' : Rat) * 2 ^ e' = q := Option.some.inj hg
        exact iff_of_true rfl this.le
      | negative =>
        obtain rfl : ((-m' : Int) : Rat) * 2 ^ e' = q := Option.some.inj hg
        push_cast
        exact iff_of_false Bool.false_ne_true (by linarith)
  | finite s m e hm =>
    rw [hf'] at hf
    have := hpos e hm
    have hcanonical := (canonical_of_unpack hf').1
    cases hg' : g.unpack with
    | notANumber | infinity =>
      rw [hg'] at hg
      cases hg
    | zero s' =>
      rw [hg'] at hg
      obtain rfl : 0 = q := Option.some.inj hg
      cases s with
      | positive =>
        obtain rfl : (m : Rat) * 2 ^ e = p := Option.some.inj hf
        exact iff_of_false Bool.false_ne_true (by linarith)
      | negative =>
        obtain rfl : ((-m : Int) : Rat) * 2 ^ e = p := Option.some.inj hf
        push_cast
        exact iff_of_true rfl (by linarith)
    | finite s' m' e' hm' =>
      rw [hg'] at hg
      have := hpos e' hm'
      have hcanonical' := (canonical_of_unpack hg').1
      obtain rfl : ((s.apply m : Int) : Rat) * 2 ^ e = p := Option.some.inj hf
      obtain rfl : ((s'.apply m' : Int) : Rat) * 2 ^ e' = q := Option.some.inj hg
      cases s <;> cases s' <;> simp only [Sign.apply] <;> push_cast
      · rw [neg_mul, neg_mul, neg_le_neg_iff]
        exact isLE_compare_swap hcanonical hcanonical'
      · exact iff_of_true rfl (by linarith)
      · exact iff_of_false Bool.false_ne_true (by linarith)
      · exact isLE_compare hcanonical hcanonical'

theorem le_iff {x y : Float} :
    Scalar.le x y = true ↔ x.toModel.unpack.le y.toModel.unpack = true := by
  change decide (x.le y = true) = true ↔ _
  rw [decide_eq_true_iff]
  change decide (x.toModel.unpack.le y.toModel.unpack = true) = true ↔ _
  rw [decide_eq_true_iff]

end Order

end ClientRuntime.Float64
