import Mathlib
import ClientRuntime.Proofs.Duration.Rounding
import ClientRuntime.Proofs.Float.Precision

/-!
Spans of time as floats. Seconds below `2 ^ 23` are precise enough to make the span again; larger
ones may make another one, but that has the same seconds. Only what rounds to `2 ^ 64` seconds is no
span.
-/

namespace ClientRuntime.Duration

open Float64

variable {d e : Duration} {w f v u x : Rat}

theorem secs_lt (d : Duration) : d.secs < 2 ^ 64 := by
  have hnanos := d.nanos_lt
  rw [Nat.one_shiftLeft] at hnanos
  exact Nat.div_lt_of_lt_mul (by unfold nanosPerSecond; omega)

theorem subsecNanos_lt (d : Duration) : d.subsecNanos < 1000000000 := Nat.mod_lt _ (by decide)

theorem nanos_eq (d : Duration) : (d.nanos : Rat) = d.nanos / nanosPerSecond * nanosPerSecond :=
  (div_mul_cancel₀ _ nanosPerSecond_ne_zero).symm

/-- What the parts of a span are rounded to: its whole seconds, the fraction, and their sum. -/
structure Rounds (d : Duration) (w f v : Rat) : Prop where
  whole : IsExact w (Float.ofNat d.secs)
  whole_near : Nearest d.secs w
  fraction : IsExact f (Float.ofNat d.subsecNanos / Float.ofNat nanosPerSecond)
  fraction_near : Nearest (d.subsecNanos / nanosPerSecond) f
  total : IsExact v d.toSeconds
  total_near : Nearest (w + f) v

theorem fraction_le (d : Duration) : (d.subsecNanos / nanosPerSecond : Rat) ≤ 1 := by
  have hlt : (d.subsecNanos : Rat) ≤ nanosPerSecond := by exact_mod_cast d.subsecNanos_lt.le
  exact div_le_one_of_le₀ hlt (Nat.cast_nonneg _)

theorem exists_rounds (d : Duration) : ∃ w f v, d.Rounds w f v := by
  have hone : Fits 1 := fits_two_pow (k := 0) (by decide)
  have hroom : Fits (2 ^ 64) := fits_two_pow (by decide)
  have hsecs : (d.secs : Rat) ≤ 2 ^ 64 := by exact_mod_cast d.secs_lt.le
  have hnanos := isExact_ofNat (n := d.subsecNanos) (d.subsecNanos_lt.le.trans (by decide))
  have hunit := isExact_ofNat (n := nanosPerSecond) (by decide)
  obtain ⟨w, hw, hwnear⟩ := isExact_ofNat_near hroom hsecs
  obtain ⟨f, hf, hfnear⟩ := hnanos.nearest_div hunit (Nat.cast_pos.mpr (by decide)) hone
    d.fraction_le
  have hwle := hwnear.le_of_fits hroom hsecs
  have hfle := hfnear.le_of_fits hone d.fraction_le
  obtain ⟨v, hv, hvnear⟩ := hw.nearest_add hf (fits_two_pow (k := 65) (by decide)) (by linarith)
  exact ⟨w, f, v, hw, hwnear, hf, hfnear, hv, hvnear⟩

namespace Rounds

theorem ofSeconds?_eq (h : d.Rounds w f v) : ofSeconds? (d.toSeconds : Float) = ofRat? v := by
  unfold ofSeconds?
  change (Float64.value? _).bind _ = _
  rw [h.total.value, Option.bind_some]

/-- Whole seconds of 53 bits are not rounded. -/
theorem whole_eq (h : d.Rounds w f v) (hsecs : d.secs ≤ 2 ^ 53) : w = d.secs :=
  h.whole_near.eq_of_fits (fits_nat hsecs)

/-- The parts of a span before they are added, if its whole seconds are not rounded, are within a
sixteenth of a femtosecond of it. -/
theorem parts_near (h : d.Rounds w f v) (hsecs : d.secs ≤ 2 ^ 53) :
    |w + f - d.nanos / nanosPerSecond| ≤ 2 ^ (-54 : Int) := by
  have hfraction := h.fraction_near.error_le (e := -53) (by positivity)
    (d.fraction_le.trans_eq (by norm_num)) (by decide) (by decide)
  have hparts : (d.secs + d.subsecNanos / nanosPerSecond : Rat) = d.nanos / nanosPerSecond :=
    d.toSeconds_eq
  rw [h.whole_eq hsecs, ← hparts, add_sub_add_left_eq_sub]
  refine hfraction.trans_eq ?_
  norm_num

theorem fraction_nonneg (h : d.Rounds w f v) : 0 ≤ f := h.fraction.nonneg

end Rounds

/-- Seconds below `2 ^ 23` make the span again that they are of. -/
theorem Rounds.small (h : d.Rounds w f v) (hv : v < 2 ^ 23) : ofRat? v = some d := by
  have hfits : Fits (2 ^ 23) := fits_two_pow (by decide)
  have hsum : w + f ≤ 2 ^ 23 := by
    by_contra hpassed
    have := h.total_near.ge_of_fits hfits (not_le.mp hpassed).le
    linarith
  have hsecs : d.secs ≤ 2 ^ 53 := by
    by_contra hpassed
    have hlarge : (2 : Rat) ^ 53 ≤ d.secs := by exact_mod_cast (not_le.mp hpassed).le
    have := h.whole_near.ge_of_fits (fits_two_pow (by decide)) hlarge
    have := h.fraction_nonneg
    linarith
  have hparts := abs_le.mp (h.parts_near hsecs)
  have hround := abs_le.mp (h.total_near.error_le (e := -30)
    (add_nonneg h.whole.nonneg h.fraction_nonneg) (hsum.trans_eq (by norm_num)) (by decide)
    (by decide))
  refine ofRat?_of_near h.total.nonneg (abs_lt.mpr ?_)
  rw [nanos_eq]
  generalize (d.nanos : Rat) / nanosPerSecond = s at *
  norm_num [nanosPerSecond] at hparts hround ⊢
  constructor <;> linarith

/-- Seconds from `2 ^ 23` on are far enough from each other to be found again. -/
theorem Rounds.middle (h : d.Rounds w f v) (hu : Fits u) (hlow : 2 ^ 23 ≤ u) (hhigh : u < 2 ^ 52)
    (hd : ofRat? u = some d) : v = u := by
  have hspan := abs_le.mp (ofRat?_near ((by positivity : (0 : Rat) ≤ 2 ^ 23).trans hlow) hd)
  have hleast : 2 ^ 23 ≤ d.secs := by
    have hrat : (2 ^ 23 * 1000000000 : Rat) < d.nanos + 1 := by
      norm_num [nanosPerSecond] at hspan
      linarith
    have hnat : 2 ^ 23 * nanosPerSecond < d.nanos + 1 := by exact_mod_cast hrat
    exact (Nat.le_div_iff_mul_le (by decide)).mpr (by omega)
  have hmost : d.secs ≤ 2 ^ 53 := by
    have hrat : (d.nanos : Rat) ≤ 1000000000 * 2 ^ 53 := by
      norm_num [nanosPerSecond] at hspan
      linarith
    exact Nat.div_le_of_le_mul (by exact_mod_cast hrat)
  have hvlow : 2 ^ 23 ≤ v := by
    have hwhole : (2 : Rat) ^ 23 ≤ w := by
      rw [h.whole_eq hmost]
      exact_mod_cast hleast
    exact h.total_near.ge_of_fits (fits_two_pow (by decide))
      (le_add_of_le_of_nonneg hwhole h.fraction_nonneg)
  have hsum := abs_le.mp (h.parts_near hmost)
  have hround := h.total_near.near hu
  rw [nanos_eq] at hspan
  generalize (d.nanos : Rat) / nanosPerSecond = s at *
  have hfar : |u - (w + f)| < 2 ^ (-30 : Int) := by
    norm_num [nanosPerSecond] at hspan hsum
    rw [abs_lt]
    constructor <;> norm_num <;> linarith
  have hboth := abs_lt.mp (hround.trans_lt hfar)
  have hfar := abs_lt.mp hfar
  refine (h.total.fits).eq_of_near hu (e := -29) ?_ ?_ (abs_lt.mpr ?_)
  · norm_num at hvlow ⊢
    exact hvlow
  · norm_num at hlow ⊢
    exact hlow
  · norm_num at hboth hfar ⊢
    constructor <;> linarith

/-- From `2 ^ 52` on seconds are whole numbers. -/
theorem large (hu : Fits u) (hlow : 2 ^ 52 ≤ u) (hhigh : u < 2 ^ 64) :
    ∃ d, ofRat? u = some d ∧ ∀ w f v, d.Rounds w f v → v = u := by
  obtain ⟨n, hn⟩ := hu.multiple (e := 0) (by rwa [zpow_zero, mul_one])
  rw [zpow_zero, mul_one] at hn
  subst hn
  have hn : n < 2 ^ 64 := by exact_mod_cast hhigh
  obtain ⟨d, hd, hnanos⟩ := exists_ofRat?_nat hn
  have hsecs : d.secs = n := by
    rw [secs, hnanos, Nat.mul_div_cancel n (by decide)]
  have hrest : d.subsecNanos = 0 := by
    rw [subsecNanos, hnanos, Nat.mul_mod_left]
  refine ⟨d, hd, fun w f v h => ?_⟩
  have hwhole := h.whole_near
  have hfraction := h.fraction_near
  have htotal := h.total_near
  rw [hsecs] at hwhole
  rw [hrest, Nat.cast_zero, zero_div] at hfraction
  rw [hwhole.eq_of_fits hu, hfraction.eq_of_fits fits_zero, add_zero] at htotal
  exact htotal.eq_of_fits hu

/-- Only from the middle between the last float below `2 ^ 64` and that number on are numbers
rounded up to it. -/
theorem lt_of_nearest (h : Nearest x v) (hv : Fits v) (hx : x < 2 ^ 64 - 1024) :
    v ≤ 2 ^ 64 - 2048 := by
  have hlast : Fits (2 ^ 64 - 2048) := by
    have hfits : Fits ((2 ^ 53 - 1 : Nat) * 2 ^ (11 : Int)) :=
      fits_scaled (by decide) (by decide) (by decide)
    norm_num at hfits ⊢
    exact hfits
  by_contra! hpassed
  obtain ⟨n, rfl⟩ := hv.multiple (e := 11) (by norm_num at hpassed ⊢; linarith)
  have hn : 2 ^ 53 ≤ n := by
    have hrat : (2 ^ 53 : Rat) < n + 1 := by
      norm_num at hpassed
      linarith
    have hnat : 2 ^ 53 < n + 1 := by exact_mod_cast hrat
    omega
  have hfar : (2 : Rat) ^ 64 ≤ n * 2 ^ (11 : Int) := by
    have hrat : (2 ^ 53 : Rat) ≤ n := by exact_mod_cast hn
    norm_num
    linarith
  have hnear := h.near hlast
  rcases le_total x (2 ^ 64 - 2048) with hbelow | habove
  · have := h.le_of_fits hlast hbelow
    linarith
  · rw [abs_of_nonpos (sub_nonpos.mpr habove)] at hnear
    have := (le_abs_self _).trans hnear
    linarith

theorem Rounds.total_lt (h : d.Rounds w f v) (hd : d.secs < 2 ^ 64 - 1024) : v < 2 ^ 64 := by
  have hsecs : (d.secs : Rat) < 2 ^ 64 - 1024 := by
    have hnat : d.secs + 1024 < 2 ^ 64 := by omega
    have hrat : (d.secs : Rat) + 1024 < 2 ^ 64 := by exact_mod_cast hnat
    linarith
  have hwhole := lt_of_nearest h.whole_near h.whole.fits hsecs
  have hfraction := h.fraction_near.le_of_fits (fits_two_pow (k := 0) (by decide)) d.fraction_le
  rw [pow_zero] at hfraction
  have htotal := lt_of_nearest h.total_near h.total.fits (by linarith)
  linarith

theorem Rounds.le_total (h : d.Rounds w f v) (hd : 2 ^ 64 - 1024 ≤ d.secs) : 2 ^ 64 ≤ v := by
  have hlast : Scalar.value? (Scalar.ofNat (2 ^ 64 - 1024) : Float) = some (2 ^ 64) := by
    decide +kernel
  have hwhole : (2 : Rat) ^ 64 ≤ w :=
    (OrderedScalar.le_iff hlast h.whole.value).mp (MonotoneScalar.ofNat_mono hd)
  exact h.total_near.ge_of_fits (fits_two_pow (by decide))
    (le_add_of_le_of_nonneg hwhole h.fraction_nonneg)

/-- Seconds make a span that has the same seconds, if they are not rounded up to `2 ^ 64`. -/
theorem ofSeconds?_toSeconds (hd : d.secs < 2 ^ 64 - 1024) :
    ∃ e, ofSeconds? (d.toSeconds : Float) = some e ∧ (e.toSeconds : Float) = d.toSeconds := by
  obtain ⟨w, f, v, h⟩ := d.exists_rounds
  rw [h.ofSeconds?_eq]
  rcases lt_or_ge v (2 ^ 23) with hsmall | hmore
  · exact ⟨d, h.small hsmall, rfl⟩
  rcases lt_or_ge v (2 ^ 52) with hmiddle | hlarge
  · obtain ⟨e, he, -⟩ := ofRat?_le (n := 2 ^ 52) h.total.nonneg (by exact_mod_cast hmiddle.le)
      (by decide)
    obtain ⟨w', f', v', h'⟩ := e.exists_rounds
    obtain rfl := h'.middle h.total.fits hmore hmiddle he
    exact ⟨e, he, h'.total.unique h.total⟩
  · obtain ⟨e, he, hsame⟩ := large h.total.fits hlarge (h.total_lt hd)
    obtain ⟨w', f', v', h'⟩ := e.exists_rounds
    obtain rfl := hsame w' f' v' h'
    exact ⟨e, he, h'.total.unique h.total⟩

theorem ofSeconds?_toSeconds_eq_none (hd : 2 ^ 64 - 1024 ≤ d.secs) :
    ofSeconds? (d.toSeconds : Float) = none := by
  obtain ⟨w, f, v, h⟩ := d.exists_rounds
  rw [h.ofSeconds?_eq]
  exact ofRat?_large (h.le_total hd)

end ClientRuntime.Duration
