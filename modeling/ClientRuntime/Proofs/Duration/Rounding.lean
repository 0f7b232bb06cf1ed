import Mathlib
import ClientRuntime.Duration

/-!
Spans of time from exact seconds. A number of seconds is rounded by at most half a nanosecond, more
seconds make no shorter span, and the seconds of a span make that span again.
-/

namespace ClientRuntime

section RoundHalfEven

variable {n d n' d' k : Nat}

/-- Rounding moves a quotient by at most one half. -/
theorem roundHalfEven_near (n : Nat) (hd : 0 < d) :
    2 * n ≤ (2 * roundHalfEven n d + 1) * d ∧ 2 * roundHalfEven n d * d ≤ 2 * n + d := by
  have hdivision : n / d * d + n % d = n := Nat.div_add_mod' n d
  have hrest := Nat.mod_lt n hd
  unfold roundHalfEven
  dsimp only
  generalize n / d = q at *
  generalize n % d = r at *
  split
  · constructor <;> nlinarith
  split
  · constructor <;> nlinarith
  · obtain hbit | hbit := Nat.mod_two_eq_zero_or_one q <;> rw [hbit] <;> constructor <;> nlinarith

/-- A tie goes to the even one. -/
theorem roundHalfEven_tie (hd : 0 < d) (h : 2 * n = (2 * k + 1) * d) :
    roundHalfEven n d = k + k % 2 := by
  have hquotient : n / d = k := Nat.div_eq_of_lt_le (by nlinarith) (by nlinarith)
  have hrest : 2 * (n % d) = d := by
    have hdivision := Nat.div_add_mod' n d
    rw [hquotient] at hdivision
    nlinarith
  unfold roundHalfEven
  dsimp only
  rw [if_neg (by omega), if_neg (by omega), hquotient]

theorem roundHalfEven_mono (hd : 0 < d) (hd' : 0 < d') (h : n * d' ≤ n' * d) :
    roundHalfEven n d ≤ roundHalfEven n' d' := by
  by_contra! hlt
  obtain ⟨-, hlow⟩ := roundHalfEven_near n hd
  obtain ⟨hhigh, -⟩ := roundHalfEven_near n' hd'
  -- Only two ties between the same numbers could be rounded apart, and they go the same way.
  generalize hk : roundHalfEven n' d' = k at *
  have hstep : (2 * k + 1) * d ≤ 2 * n := by nlinarith
  have htie : 2 * n = (2 * k + 1) * d := by nlinarith
  have htie' : 2 * n' = (2 * k + 1) * d' := by nlinarith
  rw [roundHalfEven_tie hd htie] at hlt
  rw [roundHalfEven_tie hd' htie'] at hk
  omega

theorem roundHalfEven_mul (k : Nat) (hd : 0 < d) : roundHalfEven (k * d) d = k := by
  unfold roundHalfEven
  dsimp only
  rw [Nat.mul_mod_left, if_pos (by omega), Nat.mul_div_cancel _ hd]

end RoundHalfEven

namespace Duration

variable {q q' : Rat} {d : Duration} {n : Nat}

theorem nanosPerSecond_ne_zero : (nanosPerSecond : Rat) ≠ 0 := by
  unfold nanosPerSecond
  norm_num

theorem ofNanos?_eq_some : ofNanos? n = some d ↔ n = d.nanos := by
  unfold ofNanos?
  split
  · next h =>
    constructor
    · rintro ⟨⟩
      rfl
    · rintro rfl
      rfl
  · next h => exact iff_of_false nofun fun hn => h (hn ▸ d.nanos_lt)

theorem ext_nanos {e : Duration} (h : d.nanos = e.nanos) : d = e := by
  cases d
  cases e
  cases h
  rfl

/-- The whole number of nanoseconds that is nearest to a number of seconds. -/
def nearestNanos (q : Rat) : Nat := roundHalfEven (q.num.toNat * nanosPerSecond) q.den

theorem ofRat?_eq (hq : 0 ≤ q) : ofRat? q = ofNanos? (nearestNanos q) := by
  unfold ofRat?
  rw [if_neg hq.not_gt]
  rfl

/-- Rounding moves a number of seconds by at most half a nanosecond. -/
theorem nearestNanos_near (hq : 0 ≤ q) :
    |(nearestNanos q : Rat) - q * nanosPerSecond| ≤ 1 / 2 := by
  obtain ⟨hlow, hhigh⟩ := roundHalfEven_near (q.num.toNat * nanosPerSecond) q.pos
  change 2 * _ ≤ (2 * nearestNanos q + 1) * _ at hlow
  change 2 * nearestNanos q * _ ≤ _ at hhigh
  have hden : (0 : Rat) < q.den := by exact_mod_cast q.pos
  have hnum : (q.num.toNat : Rat) = q * q.den := by
    rw [Rat.mul_den_eq_num, ← Int.cast_natCast, Int.toNat_of_nonneg (Rat.num_nonneg.mpr hq)]
  have hlow' : 2 * (q * q.den * nanosPerSecond) ≤ (2 * nearestNanos q + 1) * (q.den : Rat) := by
    rw [← hnum]
    exact_mod_cast hlow
  have hhigh' : 2 * nearestNanos q * (q.den : Rat) ≤ 2 * (q * q.den * nanosPerSecond) + q.den := by
    rw [← hnum]
    exact_mod_cast hhigh
  rw [abs_le]
  constructor <;> nlinarith

/-- Whole nanoseconds are not rounded. -/
theorem ofRat?_div (n : Nat) : ofRat? (n / nanosPerSecond) = ofNanos? n := by
  have hq : (0 : Rat) ≤ n / nanosPerSecond := by positivity
  rw [ofRat?_eq hq, nearestNanos]
  generalize hvalue : (n / nanosPerSecond : Rat) = q at *
  have hnum : ((q.num.toNat : Int) : Rat) = q * q.den := by
    rw [Int.toNat_of_nonneg (Rat.num_nonneg.mpr hq), Rat.mul_den_eq_num]
  have hwhole : q.num.toNat * nanosPerSecond = n * q.den := by
    rw [div_eq_iff nanosPerSecond_ne_zero] at hvalue
    have : (q.num.toNat : Rat) * nanosPerSecond = n * q.den := by
      rw [hvalue, ← Int.cast_natCast q.num.toNat, hnum]
      ring
    exact_mod_cast this
  rw [hwhole, roundHalfEven_mul n q.pos]

/-- Whole seconds are not rounded either, and are a span if they fit in 64 bits. -/
theorem ofRat?_nat (n : Nat) : ofRat? n = ofNanos? (n * nanosPerSecond) := by
  rw [← ofRat?_div, Nat.cast_mul, mul_div_cancel_right₀ _ nanosPerSecond_ne_zero]

theorem exists_ofRat?_nat (hn : n < 2 ^ 64) :
    ∃ d, ofRat? n = some d ∧ d.nanos = n * nanosPerSecond := by
  have hroom : n * nanosPerSecond < (1 <<< 64) * 1000000000 := by
    unfold nanosPerSecond
    rw [Nat.one_shiftLeft]
    omega
  refine ⟨⟨_, hroom⟩, ?_, rfl⟩
  rw [ofRat?_nat, ofNanos?_eq_some]

theorem toSeconds_eq (d : Duration) : (d.toSeconds : Rat) = d.nanos / nanosPerSecond := by
  have hnanos : (d.nanos : Rat) = d.secs * nanosPerSecond + d.subsecNanos := by
    exact_mod_cast (Nat.div_add_mod' d.nanos nanosPerSecond).symm
  change (d.secs : Rat) + d.subsecNanos / nanosPerSecond = _
  rw [hnanos]
  unfold nanosPerSecond
  push_cast
  ring

theorem toSeconds_nonneg (d : Duration) : (0 : Rat) ≤ d.toSeconds := by
  rw [toSeconds_eq]
  positivity

/-- The seconds of a span make that span again. -/
theorem ofRat?_toSeconds (d : Duration) : ofRat? d.toSeconds = some d := by
  rw [toSeconds_eq, ofRat?_div, ofNanos?_eq_some]

/-- Fewer seconds make no longer span. -/
theorem ofRat?_mono {e : Duration} (hq : 0 ≤ q) (hle : q ≤ q') (he : ofRat? q' = some e) :
    ∃ d, ofRat? q = some d ∧ d.nanos ≤ e.nanos := by
  have hq' := hq.trans hle
  rw [ofRat?_eq hq', ofNanos?_eq_some] at he
  have hcross : q.num.toNat * nanosPerSecond * q'.den ≤ q'.num.toNat * nanosPerSecond * q.den := by
    have hnum := (Rat.le_iff q q').mp hle
    rw [← Int.toNat_of_nonneg (Rat.num_nonneg.mpr hq),
      ← Int.toNat_of_nonneg (Rat.num_nonneg.mpr hq')] at hnum
    have hnat : q.num.toNat * q'.den ≤ q'.num.toNat * q.den := by exact_mod_cast hnum
    calc q.num.toNat * nanosPerSecond * q'.den = q.num.toNat * q'.den * nanosPerSecond := by ring
      _ ≤ q'.num.toNat * q.den * nanosPerSecond := Nat.mul_le_mul_right _ hnat
      _ = q'.num.toNat * nanosPerSecond * q.den := by ring
  have hrounded : nearestNanos q ≤ nearestNanos q' := roundHalfEven_mono q.pos q'.pos hcross
  rw [he] at hrounded
  refine ⟨⟨_, hrounded.trans_lt e.nanos_lt⟩, ?_, hrounded⟩
  rw [ofRat?_eq hq, ofNanos?_eq_some]

theorem ofRat?_near (hq : 0 ≤ q) (h : ofRat? q = some d) :
    |(d.nanos : Rat) - q * nanosPerSecond| ≤ 1 / 2 := by
  rw [ofRat?_eq hq, ofNanos?_eq_some] at h
  rw [← h]
  exact nearestNanos_near hq

/-- A span that is less than half a nanosecond away is the one that the seconds make. -/
theorem ofRat?_of_near (hq : 0 ≤ q) (hnear : |(d.nanos : Rat) - q * nanosPerSecond| < 1 / 2) :
    ofRat? q = some d := by
  have hround := abs_le.mp (nearestNanos_near hq)
  rw [abs_lt] at hnear
  have hless : (nearestNanos q : Rat) < d.nanos + 1 := by linarith
  have hmore : (d.nanos : Rat) < nearestNanos q + 1 := by linarith
  have hless' : nearestNanos q < d.nanos + 1 := by exact_mod_cast hless
  have hmore' : d.nanos < nearestNanos q + 1 := by exact_mod_cast hmore
  rw [ofRat?_eq hq, ofNanos?_eq_some]
  omega

/-- Seconds up to a whole number make a span that is no longer. -/
theorem ofRat?_le (hq : 0 ≤ q) (hle : q ≤ n) (hn : n < 2 ^ 64) :
    ∃ d, ofRat? q = some d ∧ d.nanos ≤ n * 1000000000 := by
  obtain ⟨e, he, hnanos⟩ := exists_ofRat?_nat hn
  obtain ⟨d, hd, hshorter⟩ := ofRat?_mono hq hle he
  exact ⟨d, hd, hshorter.trans_eq hnanos⟩

/-- No span has as many seconds as 64 bits count. -/
theorem ofRat?_large (h : 2 ^ 64 ≤ q) : ofRat? q = none := by
  cases he : ofRat? q with
  | none => rfl
  | some e =>
    obtain ⟨d, hd, -⟩ := ofRat?_mono (q := (2 ^ 64 : Nat)) (by positivity) (by exact_mod_cast h) he
    rw [ofRat?_nat, ofNanos?_eq_some] at hd
    exact absurd d.nanos_lt (hd ▸ by decide)

end Duration

end ClientRuntime
