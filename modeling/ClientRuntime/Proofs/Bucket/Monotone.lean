import Mathlib
import ClientRuntime.Proofs.Bucket.Granting
import ClientRuntime.Proofs.Float.Monotone

/-!
A refill at a later time leaves no less. Before the time of the last refill there is nothing to
credit; but when the clock falls so far back that the microseconds do not fit in 64 signed bits, the
longest time counts as elapsed: the bucket is filled, and the time of its last refill moves back.
-/

namespace ClientRuntime

theorem longestElapsed_eq : longestElapsed = 2 ^ 63 - 1 := by decide

namespace Instant

/-- So long before `s` that the microseconds in between have no number. -/
def FarBefore (t s : Instant) : Prop := t.nanos < s.nanos ∧ t.microsSince? s = none

/-- What counts as elapsed at `t` since `s`. -/
def elapsedSince (t s : Instant) : Int := (t.microsSince? s).getD longestElapsed

theorem elapsedSince_le (t s : Instant) : t.elapsedSince s ≤ longestElapsed := by
  unfold elapsedSince microsSince? longestElapsed
  dsimp only
  split
  · rw [Option.getD_some]
    omega
  · exact le_rfl

/-- Microseconds have no number if there are too many of them, in either direction. -/
theorem microsSince?_eq_none {t s : Instant} :
    t.microsSince? s = none ↔ (t.nanos - s.nanos).tdiv 1000 < -2 ^ 63 ∨
      2 ^ 63 ≤ (t.nanos - s.nanos).tdiv 1000 := by
  have hbound : ((1 <<< 63 : Nat) : Int) = 2 ^ 63 := by decide
  unfold microsSince?
  dsimp only
  rw [hbound]
  split
  · simp only [reduceCtorEq, false_iff]
    omega
  · simp only [true_iff]
    omega

theorem elapsedSince_of_some {t s : Instant} {micros : Int} (h : t.microsSince? s = some micros) :
    t.elapsedSince s = (t.nanos - s.nanos).tdiv 1000 := by
  rw [elapsedSince, h, Option.getD_some]
  unfold microsSince? at h
  dsimp only at h
  split at h
  · exact (Option.some.inj h).symm
  · cases h

/-- Time that goes on counts, and what is too much to be counted counts as the longest time. -/
theorem elapsedSince_mono {t₁ t₂ s : Instant} (hle : t₁.nanos ≤ t₂.nanos)
    (hnear : ¬ t₁.FarBefore s) : t₁.elapsedSince s ≤ t₂.elapsedSince s := by
  have hmono : (t₁.nanos - s.nanos).tdiv 1000 ≤ (t₂.nanos - s.nanos).tdiv 1000 :=
    Int.tdiv_le_tdiv (by decide) (by omega)
  rcases h₂ : t₂.microsSince? s with _ | micros₂
  · have hlongest : t₂.elapsedSince s = longestElapsed := by rw [elapsedSince, h₂, Option.getD_none]
    rw [hlongest]
    exact elapsedSince_le t₁ s
  rcases h₁ : t₁.microsSince? s with _ | micros₁
  · -- The earlier time is too late for a number, and then the later one is, too.
    have hlate : 0 ≤ t₁.nanos - s.nanos := by
      by_contra hearly
      exact hnear ⟨by omega, h₁⟩
    have hcount := Int.tdiv_nonneg hlate (show 0 ≤ (1000 : Int) by decide)
    have hmany := (microsSince?_eq_none.mp h₁).resolve_left (by omega)
    rw [microsSince?_eq_none.mpr (.inr (hmany.trans hmono))] at h₂
    cases h₂
  · rw [elapsedSince_of_some h₁, elapsedSince_of_some h₂]
    exact hmono

/-- Before that time nothing has elapsed, if the microseconds have a number. -/
theorem elapsedSince_nonpos {t s : Instant} (hlt : t.nanos < s.nanos) (hnear : ¬ t.FarBefore s) :
    t.elapsedSince s ≤ 0 := by
  have hmono := elapsedSince_mono hlt.le hnear
  rw [elapsedSince, elapsedSince, microsSince?_self] at hmono
  exact hmono

end Instant

namespace BucketState

variable {α : Type} [Scalar α] {c : BucketConfig} {s : BucketState α} {t t₁ t₂ : Instant}

theorem refill_of_nonpos (hrate : c.refillRate ≠ 0) (h : t.elapsedSince s.lastRefill ≤ 0) :
    s.refill c t = s := by
  unfold refill
  rw [if_neg hrate]
  exact if_pos h

theorem refill_of_pos (hrate : c.refillRate ≠ 0) (h : 0 < t.elapsedSince s.lastRefill) :
    s.refill c t =
      { s.add c (unitsFor c (t.elapsedSince s.lastRefill).toNat) with lastRefill := t } := by
  unfold refill
  rw [if_neg hrate]
  exact if_neg h.not_ge

/-- So far back the bucket is filled, as if the longest time had passed, and the time of its last
refill moves back. -/
theorem refill_of_farBefore [RoundedScalar α] (hc : c.Sized) (hrate : c.refillRate ≠ 0)
    (hs : s.Bounded c) (hfar : t.FarBefore s.lastRefill) :
    s.refill c t = { s with available := Scalar.ofNat c.capacity, lastRefill := t } := by
  have helapsed : t.elapsedSince s.lastRefill = longestElapsed := by
    rw [Instant.elapsedSince, hfar.2, Option.getD_none]
  have hcapacity := hc.capacity
  have hrated := Nat.le_mul_of_pos_right longestElapsed.toNat (Nat.pos_of_ne_zero hrate)
  have hlongest := longestElapsed_eq
  have hfull : (s.add c (unitsFor c longestElapsed.toNat)).available = Scalar.ofNat c.capacity :=
    add_long hc hrate hs (by omega)
  rw [refill_of_pos hrate (by rw [helapsed]; decide), helapsed, ← hfull]
  rfl

variable [MonotoneScalar α]

theorem unitsFor_mono (hc : c.Sized) (hrate : c.refillRate ≠ 0) {m n : Nat} (hle : m ≤ n) :
    Scalar.le (unitsFor c m : α) (unitsFor c n) = true := by
  have hmillion : Scalar.value? (Scalar.ofNat 1000000 : α) = some ((1000000 : Nat) : Rat) :=
    OrderedScalar.value_ofNat (by decide)
  have hper : Scalar.value? (Scalar.ofNat c.refillRate : α) = some (c.refillRate : Rat) :=
    OrderedScalar.value_ofNat (hc.rate.trans (by decide))
  have hmicros := OrderedScalar.nonneg_ofNat (α := α) m
  apply MonotoneScalar.mul_mono (OrderedScalar.nonneg_div hmicros hmillion (by norm_num)) _ hper
  · exact_mod_cast Nat.pos_of_ne_zero hrate
  · exact MonotoneScalar.div_mono hmicros (MonotoneScalar.ofNat_mono hle) hmillion (by norm_num)

/-- Refills at two times, of which the later one finds more elapsed, leave amounts in that order. -/
theorem refill_le_refill (hc : c.Sized) (hrate : c.refillRate ≠ 0) (hs : s.Bounded c)
    (hle : t₁.elapsedSince s.lastRefill ≤ t₂.elapsedSince s.lastRefill) :
    Scalar.le (s.refill c t₁).available (s.refill c t₂).available = true := by
  have hfull := hc.value_ofNat (α := α) le_rfl
  have hnonneg := hs.nonneg
  obtain ⟨q, hq, hpos, hcapacity⟩ := hs
  rcases le_or_gt (t₂.elapsedSince s.lastRefill) 0 with h₂ | h₂
  · rw [refill_of_nonpos hrate h₂, refill_of_nonpos hrate (hle.trans h₂)]
    exact (OrderedScalar.le_iff hq hq).mpr le_rfl
  · rw [refill_of_pos hrate h₂]
    rcases le_or_gt (t₁.elapsedSince s.lastRefill) 0 with h₁ | h₁
    · rw [refill_of_nonpos hrate h₁]
      exact Scalar.le_minimum (Scalar.le_add hq hpos (nonneg_unitsFor hc hrate _))
        ((OrderedScalar.le_iff hq hfull).mpr hcapacity)
    · rw [refill_of_pos hrate h₁]
      have hunits := nonneg_unitsFor (α := α) hc hrate (t₁.elapsedSince s.lastRefill).toNat
      have hsum := MonotoneScalar.add_mono hq hpos hunits
        (unitsFor_mono hc hrate (Int.toNat_le_toNat hle))
      exact Scalar.minimum_mono (OrderedScalar.nonneg_add hnonneg hunits) hsum
        (MonotoneScalar.ofNat_mono le_rfl)

omit [MonotoneScalar α] in
theorem Bounded.units_le_units [OrderedScalar α] {s' : BucketState α} (hs : s.Bounded c)
    (hs' : s'.Bounded c) (hle : Scalar.le s.available s'.available = true) :
    s.units ≤ s'.units := by
  obtain ⟨q, hq, hpos, -⟩ := hs
  obtain ⟨q', hq', hpos', -⟩ := hs'
  have hunits := (le_units hq hpos).mp le_rfl
  exact (le_units hq' hpos').mpr (hunits.trans ((OrderedScalar.le_iff hq hq').mp hle))

/-- A refill at a later time leaves no less, and one before the time of the last refill changes
nothing, unless it lies so far back that the time in between has no number. -/
theorem refill_monotone (hc : c.Sized) (hrate : c.refillRate ≠ 0) (hs : s.Bounded c)
    (hle : t₁.nanos ≤ t₂.nanos) (hnear : ¬ t₁.FarBefore s.lastRefill) :
    Scalar.le (s.refill c t₁).available (s.refill c t₂).available = true ∧
      (s.refill c t₁).units ≤ (s.refill c t₂).units ∧
        (t₁.nanos < s.lastRefill.nanos → s.refill c t₁ = s) := by
  have hamounts := refill_le_refill hc hrate hs (Instant.elapsedSince_mono hle hnear)
  refine ⟨hamounts, (hs.refill hc t₁).units_le_units (hs.refill hc t₂) hamounts, fun hlt => ?_⟩
  exact refill_of_nonpos hrate (Instant.elapsedSince_nonpos hlt hnear)

/-- Room for three units, one of which is refilled in a second. -/
def perSecond : BucketConfig := ⟨3, 1, 2, 5, 1, 1, true⟩

/-- One unit at the end of the first second. -/
def oneLeft : BucketState Float := ⟨Scalar.ofNat 1, Instant.epoch.addSaturating (.ofSecs 1), 0⟩

/-- Before that second nothing changes, and at the end of the next one there is no less. -/
theorem refill_monotone_around_second :
    oneLeft.refill perSecond .epoch = oneLeft ∧
      (oneLeft.refill perSecond .epoch).units ≤
        (oneLeft.refill perSecond (Instant.epoch.addSaturating (.ofSecs 2))).units := by
  have hsized : perSecond.Sized := ⟨by decide, by decide⟩
  have hbounded : oneLeft.Bounded perSecond :=
    ⟨1, OrderedScalar.value_ofNat (n := 1) (by decide), by decide, by decide⟩
  have hnear : ¬ Instant.epoch.FarBefore oneLeft.lastRefill := by
    rintro ⟨-, hnone⟩
    exact absurd hnone (by decide)
  have hle : Instant.epoch.nanos ≤ (Instant.epoch.addSaturating (.ofSecs 2)).nanos := by decide
  obtain ⟨-, hunits, hbefore⟩ := refill_monotone hsized (by decide) hbounded hle hnear
  exact ⟨hbefore (by decide), hunits⟩

/-- Nothing is left at the latest time that there is. -/
def drained : BucketState Float := ⟨Scalar.ofNat 0, .latest, 0⟩

/-- The clock falls back as far as it can, and the bucket is full. -/
theorem refill_drained_full :
    drained.Bounded perSecond ∧ Instant.earliest.nanos ≤ Instant.latest.nanos ∧
      (drained.refill perSecond .latest).units = 0 ∧
      (drained.refill perSecond .earliest).units = 3 ∧
      (drained.refill perSecond .earliest).lastRefill = .earliest := by
  refine ⟨⟨0, OrderedScalar.value_ofNat (n := 0) (by decide), le_rfl, by decide⟩, ?_⟩
  decide +kernel

end BucketState

end ClientRuntime
