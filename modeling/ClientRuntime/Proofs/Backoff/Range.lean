import Mathlib
import ClientRuntime.Retry.Backoff
import ClientRuntime.Proofs.Duration.Rounding
import ClientRuntime.Proofs.Scalar.Power

/-!
The range of delays in exact arithmetic. Whatever the signs and sizes of the factor and the jitter,
a delay is never longer than the bound of its configuration, and no sample takes more off it than
the jitter allows. Delays that grow come to the bound at most once, and then they stay there.
-/

namespace ClientRuntime

namespace Scalar

theorem minimum_rat (p q : Rat) : minimum p q = min p q := by
  change (if decide (p ≤ q) = true then p else q) = min p q
  rw [min_def]
  simp only [decide_eq_true_eq]

theorem clampUnit_rat (q : Rat) : clampUnit q = max 0 (min q 1) := by
  have hzero : (ofNat 0 : Rat) = 0 := Nat.cast_zero
  have hone : (ofNat 1 : Rat) = 1 := Nat.cast_one
  have hlt (p q : Rat) : lt p q = decide (p < q) := rfl
  unfold clampUnit
  rw [hzero, hone]
  simp only [hlt, decide_eq_true_eq]
  rcases lt_or_ge q 0 with hneg | hnonneg
  · rw [if_pos hneg, if_neg (by norm_num), min_eq_left (by linarith), max_eq_left hneg.le]
  rw [if_neg hnonneg.not_gt]
  split
  · next hmore => rw [min_eq_right hmore.le, max_eq_right zero_le_one]
  · next hless => rw [min_eq_left (not_lt.mp hless), max_eq_right hnonneg]

end Scalar

theorem Random.sample_range (random : Random) :
    (0 : Rat) ≤ random.sample.1 ∧ random.sample.1 < (1 : Rat) := by
  have hbits : (random.next.1 >>> 11).toNat < 2 ^ 53 := by
    rw [UInt64.toNat_shiftRight, Nat.shiftRight_eq_div_pow]
    have := random.next.1.toNat_lt
    change _ / 2 ^ 11 < _
    omega
  have hvalue : (random.sample.1 : Rat) = (random.next.1 >>> 11).toNat / (2 ^ 53 : Nat) := rfl
  rw [hvalue]
  constructor
  · positivity
  · rw [div_lt_one (by positivity)]
    exact_mod_cast hbits

namespace BackoffConfig

section Sampled

variable {α : Type} [Scalar α]

/-- The delay after an attempt for a sample that may be drawn. -/
def delayWith (c : BackoffConfig α) (attempt : Nat) (sample : α) : Duration :=
  if c.isJittered then c.jitteredDelay (c.maxDelayFor attempt) sample else c.maxDelayFor attempt

theorem delay_eq (c : BackoffConfig α) (attempt : Nat) (random : Random) :
    (c.delay attempt random).1 = c.delayWith attempt random.sample.1 := by
  unfold delay delayWith
  dsimp only
  split <;> rfl

end Sampled

variable {c : BackoffConfig Rat} {attempt later : Nat} {sample : Rat}

/-- The seconds of a delay before they are rounded: what has grown, from nothing to the bound. -/
def seconds (c : BackoffConfig Rat) (attempt : Nat) : Rat :=
  max 0 (min (c.initialDelay.toSeconds * c.scaleFactor ^ min (attempt - 1) largestExponent)
    c.maxBackoff.toSeconds)

theorem seconds_le (c : BackoffConfig Rat) (attempt : Nat) :
    c.seconds attempt ≤ c.maxBackoff.toSeconds :=
  max_le c.maxBackoff.toSeconds_nonneg (min_le_right _ _)

theorem maxDelayFor_eq (c : BackoffConfig Rat) (attempt : Nat) :
    c.maxDelayFor attempt = (Duration.ofRat? (c.seconds attempt)).getD c.maxBackoff := by
  have hclamp (q : Rat) :
      (if Scalar.lt q (Scalar.ofNat 0) = true then Scalar.ofNat 0 else q) = max 0 q := by
    change (if decide (q < (0 : Nat)) = true then ((0 : Nat) : Rat) else q) = _
    rw [Nat.cast_zero]
    simp only [decide_eq_true_eq]
    split
    · next hneg => rw [max_eq_left hneg.le]
    · next hnonneg => rw [max_eq_right (not_lt.mp hnonneg)]
  unfold maxDelayFor seconds
  dsimp only
  rw [hclamp, Scalar.power_eq_pow, Scalar.minimum_rat]
  rfl

/-- Delays before jitter are computed without a failure, and never go past the bound. -/
theorem maxDelayFor_spec (c : BackoffConfig Rat) (attempt : Nat) :
    Duration.ofRat? (c.seconds attempt) = some (c.maxDelayFor attempt) ∧
      (c.maxDelayFor attempt).nanos ≤ c.maxBackoff.nanos := by
  obtain ⟨d, hd, hle⟩ := Duration.ofRat?_mono (le_max_left 0 _) (c.seconds_le attempt)
    c.maxBackoff.ofRat?_toSeconds
  have hdelay := c.maxDelayFor_eq attempt
  change Duration.ofRat? (c.seconds attempt) = some d at hd
  rw [hd, Option.getD_some] at hdelay
  rw [hdelay]
  exact ⟨hd, hle⟩

theorem seconds_mono (hfactor : 1 ≤ c.scaleFactor) (hlater : attempt ≤ later) :
    c.seconds attempt ≤ c.seconds later := by
  have hpower := pow_le_pow_right₀ hfactor
    (show min (attempt - 1) largestExponent ≤ min (later - 1) largestExponent by omega)
  have hgrown := mul_le_mul_of_nonneg_left hpower c.initialDelay.toSeconds_nonneg
  exact max_le_max_left 0 (min_le_min_right _ hgrown)

theorem maxDelayFor_mono (hfactor : 1 ≤ c.scaleFactor) (hlater : attempt ≤ later) :
    (c.maxDelayFor attempt).nanos ≤ (c.maxDelayFor later).nanos := by
  obtain ⟨d, hd, hle⟩ := Duration.ofRat?_mono (le_max_left 0 _) (seconds_mono hfactor hlater)
    (c.maxDelayFor_spec later).1
  obtain rfl := Option.some.inj ((c.maxDelayFor_spec attempt).1.symm.trans hd)
  exact hle

/-- The part of a delay that may be taken off. -/
def share (c : BackoffConfig Rat) : Rat := max 0 (min c.jitter 1)

theorem share_range (c : BackoffConfig Rat) : 0 ≤ c.share ∧ c.share ≤ 1 :=
  ⟨le_max_left _ _, max_le zero_le_one (min_le_right _ _)⟩

theorem factor_eq (c : BackoffConfig Rat) (hsample : 0 ≤ sample) (hlt : sample < 1) :
    Scalar.clampUnit (Scalar.ofNat 1 - Scalar.clampUnit c.jitter * sample) =
      1 - c.share * sample := by
  obtain ⟨hnonneg, hle⟩ := c.share_range
  have htaken : c.share * sample ≤ 1 := mul_le_one₀ hle hsample hlt.le
  have hkept : 0 ≤ c.share * sample := mul_nonneg hnonneg hsample
  change Scalar.clampUnit (((1 : Nat) : Rat) - Scalar.clampUnit c.jitter * sample) = _
  rw [Scalar.clampUnit_rat, Scalar.clampUnit_rat, Nat.cast_one]
  change max 0 (min (1 - c.share * sample) 1) = _
  rw [min_eq_left (by linarith), max_eq_right (by linarith)]

theorem isJittered_iff (c : BackoffConfig Rat) : c.isJittered = true ↔ c.share ≠ 0 := by
  have hequal (p q : Rat) : Scalar.equal p q = true ↔ p = q := by
    change (decide (p ≤ q) && decide (q ≤ p)) = true ↔ p = q
    rw [Bool.and_eq_true, decide_eq_true_eq, decide_eq_true_eq, le_antisymm_iff]
  unfold isJittered
  rw [Scalar.clampUnit_rat, Bool.not_eq_true', ← Bool.not_eq_true, hequal]
  exact not_congr (by rw [show (Scalar.ofNat 0 : Rat) = 0 from Nat.cast_zero]; rfl)

/-- A delay is the time of which a sample takes its part off, whether or not one is drawn. -/
theorem delayWith_spec (c : BackoffConfig Rat) (attempt : Nat) (hsample : 0 ≤ sample)
    (hlt : sample < 1) :
    Duration.ofRat? ((c.maxDelayFor attempt).toSeconds * (1 - c.share * sample)) =
        some (c.delayWith attempt sample) ∧
      (c.delayWith attempt sample).nanos ≤ (c.maxDelayFor attempt).nanos := by
  obtain ⟨hnonneg, hle⟩ := c.share_range
  generalize hd : c.maxDelayFor attempt = d
  have htaken : c.share * sample ≤ 1 := mul_le_one₀ hle hsample hlt.le
  have hkept : 0 ≤ c.share * sample := mul_nonneg hnonneg hsample
  have hseconds := d.toSeconds_nonneg
  obtain ⟨e, he, hshorter⟩ := Duration.ofRat?_mono
    (mul_nonneg hseconds (sub_nonneg.mpr htaken))
    (mul_le_of_le_one_right hseconds (by linarith : 1 - c.share * sample ≤ 1)) d.ofRat?_toSeconds
  have hdelay : c.delayWith attempt sample = e := by
    unfold delayWith
    rw [hd]
    split
    · unfold jitteredDelay
      dsimp only
      rw [c.factor_eq hsample hlt]
      change (Duration.ofRat? (d.toSeconds * (1 - c.share * sample))).getD d = e
      rw [he, Option.getD_some]
    · next hjitter =>
      have hshare : c.share = 0 := of_not_not (mt c.isJittered_iff.mpr hjitter)
      rw [hshare, zero_mul, sub_zero, mul_one, d.ofRat?_toSeconds] at he
      exact Option.some.inj he
  rw [hdelay]
  exact ⟨he, hshorter⟩

/-- Of a delay after an attempt at least the part is left that the jitter spares, and no more than
all of it. -/
def Leaves (c : BackoffConfig Rat) (attempt : Nat) (d : Duration) : Prop :=
  ∃ least, Duration.ofRat? ((1 - max 0 (min c.jitter 1)) * (c.maxDelayFor attempt).toSeconds) =
    some least ∧ least.nanos ≤ d.nanos ∧ d.nanos ≤ (c.maxDelayFor attempt).nanos

theorem leaves_delayWith (c : BackoffConfig Rat) (attempt : Nat) (hsample : 0 ≤ sample)
    (hlt : sample < 1) : c.Leaves attempt (c.delayWith attempt sample) := by
  obtain ⟨hspec, hle⟩ := c.delayWith_spec attempt hsample hlt
  obtain ⟨hnonneg, hshare⟩ := c.share_range
  have hseconds := (c.maxDelayFor attempt).toSeconds_nonneg
  have htaken : c.share * sample ≤ c.share := mul_le_of_le_one_right hnonneg hlt.le
  have hmore : (1 - c.share) * (c.maxDelayFor attempt).toSeconds ≤
      (c.maxDelayFor attempt).toSeconds * (1 - c.share * sample) := by
    rw [mul_comm]
    exact mul_le_mul_of_nonneg_left (by linarith) hseconds
  obtain ⟨least, hleast, hshorter⟩ :=
    Duration.ofRat?_mono (mul_nonneg (sub_nonneg.mpr hshare) hseconds) hmore hspec
  exact ⟨least, hleast, hshorter, hle⟩

/-- Delays stay in their range: the bound limits them, the jitter takes no more than its part off,
and when they do not shrink they grow up to the bound and stay there. -/
theorem delays_in_range (c : BackoffConfig Rat) (attempt : Nat) :
    (c.maxDelayFor attempt).nanos ≤ c.maxBackoff.nanos ∧
      (∀ sample : Rat, 0 ≤ sample → sample < 1 →
        c.Leaves attempt (c.delayWith attempt sample)) ∧
      (∀ random, c.Leaves attempt (c.delay attempt random).1) ∧
      (1 ≤ c.scaleFactor → ∀ later, attempt ≤ later →
        (c.maxDelayFor attempt).nanos ≤ (c.maxDelayFor later).nanos ∧
          (c.maxDelayFor attempt = c.maxBackoff → c.maxDelayFor later = c.maxBackoff)) := by
  refine ⟨(c.maxDelayFor_spec attempt).2, fun _ => c.leaves_delayWith attempt, ?_, ?_⟩
  · intro random
    rw [c.delay_eq]
    obtain ⟨hnonneg, hlt⟩ := random.sample_range
    exact c.leaves_delayWith attempt hnonneg hlt
  · intro hfactor later hlater
    have hgrows := maxDelayFor_mono hfactor hlater
    refine ⟨hgrows, fun hbound => ?_⟩
    rw [hbound] at hgrows
    exact Duration.ext_nanos ((c.maxDelayFor_spec later).2.antisymm hgrows)

/-- A second, half as much again for each attempt up to two, and up to a quarter of it at random. -/
def halfAgain : BackoffConfig Rat := ⟨.ofSecs 1, 3 / 2, .ofSecs 2, 1 / 4⟩

theorem delays_in_range_halfAgain :
    (halfAgain.maxDelayFor 2).nanos = 1500000000 ∧
      (halfAgain.delayWith 2 (1 / 2)).nanos = 1312500000 ∧
      halfAgain.Leaves 2 (halfAgain.delayWith 2 (1 / 2)) ∧
      halfAgain.maxDelayFor 3 = halfAgain.maxBackoff ∧
      halfAgain.maxDelayFor 5 = halfAgain.maxBackoff := by
  have hfactor : 1 ≤ halfAgain.scaleFactor := by cbv
  have hbound : halfAgain.maxDelayFor 3 = halfAgain.maxBackoff := by cbv
  obtain ⟨-, hsampled, -, -⟩ := delays_in_range halfAgain 2
  obtain ⟨-, -, -, hlater⟩ := delays_in_range halfAgain 3
  exact ⟨by cbv, by cbv, hsampled (1 / 2) (by norm_num) (by norm_num), hbound,
    (hlater hfactor 5 (by decide)).2 hbound⟩

end BackoffConfig

end ClientRuntime
