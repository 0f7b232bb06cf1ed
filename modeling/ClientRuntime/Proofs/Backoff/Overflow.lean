import Mathlib
import ClientRuntime.Proofs.Backoff.Range
import ClientRuntime.Proofs.Duration.Seconds
import ClientRuntime.Proofs.Float.Products

/-!
Delays that start from nothing. Nothing times the factor is nothing, however often the factor is
taken; only when its power is no finite float any more is there no product to compare, and the bound
is what is left.
-/

namespace ClientRuntime.BackoffConfig

open Scalar

variable {c : BackoffConfig Float} {attempt : Nat}

/-- How often the initial delay is taken after an attempt. -/
def growth (c : BackoffConfig Float) (attempt : Nat) : Float :=
  power c.scaleFactor (min (attempt - 1) largestExponent)

theorem value?_zero_toSeconds : value? (Duration.zero.toSeconds : Float) = some 0 := by
  decide +kernel

theorem ofSeconds?_of_zero {x : Float} (hx : value? x = some 0) :
    Duration.ofSeconds? x = some .zero := by
  have hzero : Duration.ofRat? 0 = some .zero := by decide +kernel
  unfold Duration.ofSeconds?
  rw [hx, Option.bind_some, hzero]

/-- As long as the growth is a number there is nothing to wait for. -/
theorem maxDelayFor_of_finite (hnone : c.initialDelay = .zero)
    (hfinite : isFinite (c.growth attempt) = true) : c.maxDelayFor attempt = .zero := by
  obtain ⟨r, hr⟩ := Option.isSome_iff_exists.mp hfinite
  have hgrown : value? ((Duration.zero.toSeconds : Float) * c.growth attempt) = some 0 := by
    rw [value?_mul_of_zero value?_zero_toSeconds, hr, Option.map_some]
  have hproduct : isFinite ((Duration.zero.toSeconds : Float) * c.growth attempt) = true := by
    unfold isFinite
    rw [hgrown, Option.isSome_some]
  obtain ⟨w, f, v, hbound⟩ := c.maxBackoff.exists_rounds
  have hle := (OrderedScalar.le_iff hgrown hbound.total.value).mpr hbound.total.nonneg
  have hzero : value? (ofNat 0 : Float) = some 0 := OrderedScalar.value_ofNat (n := 0) (by decide)
  unfold maxDelayFor
  dsimp only
  rw [hnone, ← growth, if_pos hproduct, minimum, if_pos hle]
  split
  · rw [ofSeconds?_of_zero hzero, Option.getD_some]
  · rw [ofSeconds?_of_zero hgrown, Option.getD_some]

/-- Once it is none, the bound alone is left. -/
theorem maxDelayFor_of_infinite (hnone : c.initialDelay = .zero)
    (hinfinite : isFinite (c.growth attempt) = false) :
    c.maxDelayFor attempt =
      (Duration.ofSeconds? (c.maxBackoff.toSeconds : Float)).getD c.maxBackoff := by
  have hproduct : isFinite ((Duration.zero.toSeconds : Float) * c.growth attempt) = false := by
    unfold isFinite at *
    rw [value?_mul_of_zero value?_zero_toSeconds, Option.isSome_map, hinfinite]
  obtain ⟨w, f, v, hbound⟩ := c.maxBackoff.exists_rounds
  unfold maxDelayFor
  dsimp only
  rw [hnone, ← growth, hproduct, if_neg Bool.false_ne_true, hbound.total.not_lt_zero,
    if_neg Bool.false_ne_true]

/-- Jitter takes nothing off nothing, whatever is drawn. -/
theorem jitteredDelay_zero (c : BackoffConfig Float) (sample : Float) :
    c.jitteredDelay .zero sample = .zero := by
  unfold jitteredDelay
  dsimp only
  generalize clampUnit (_ : Float) = factor
  cases hfactor : value? factor with
  | none =>
    unfold Duration.ofSeconds?
    rw [value?_mul_of_zero value?_zero_toSeconds, hfactor, Option.map_none, Option.bind_none,
      Option.getD_none]
  | some q =>
    have hproduct : value? ((Duration.zero.toSeconds : Float) * factor) = some 0 := by
      rw [value?_mul_of_zero value?_zero_toSeconds, hfactor, Option.map_some]
    rw [ofSeconds?_of_zero hproduct, Option.getD_some]

theorem delayWith_of_finite (hnone : c.initialDelay = .zero)
    (hfinite : isFinite (c.growth attempt) = true) (sample : Float) :
    c.delayWith attempt sample = .zero := by
  unfold delayWith
  rw [maxDelayFor_of_finite hnone hfinite, jitteredDelay_zero, ite_self]

/-- A factor of so many binary digits before the point grows no further than floats reach. -/
theorem growth_finite {q : Rat} {digits : Nat} (hq : value? c.scaleFactor = some q)
    (hsize : |q| ≤ 2 ^ digits) (hroom : digits * (attempt - 1) ≤ 1023) :
    isFinite (c.growth attempt) = true :=
  isFinite_power hq hsize ((Nat.mul_le_mul_left digits (min_le_left _ _)).trans hroom)

/-- Without an initial delay nothing is waited for as long as the growth is finite, which it is at
least for as many attempts as leave room for the digits of the factor; after that it is the bound
that is waited for. -/
theorem no_initial_delay (hnone : c.initialDelay = .zero) (attempt : Nat) :
    (isFinite (c.growth attempt) = true → c.maxDelayFor attempt = .zero ∧
      (∀ sample, c.delayWith attempt sample = .zero) ∧
        ∀ random, (c.delay attempt random).1 = .zero) ∧
      (isFinite (c.growth attempt) = false → c.maxDelayFor attempt =
        (Duration.ofSeconds? (c.maxBackoff.toSeconds : Float)).getD c.maxBackoff) ∧
      ∀ (q : Rat) (digits : Nat), value? c.scaleFactor = some q → |q| ≤ 2 ^ digits →
        digits * (attempt - 1) ≤ 1023 → isFinite (c.growth attempt) = true := by
  refine ⟨fun hfinite => ⟨maxDelayFor_of_finite hnone hfinite, delayWith_of_finite hnone hfinite,
    fun random => ?_⟩, maxDelayFor_of_infinite hnone, fun _ _ => growth_finite⟩
  rw [c.delay_eq, delayWith_of_finite hnone hfinite]

/-- Twice nothing for each attempt, up to twenty seconds. -/
def idle : BackoffConfig Float := ⟨.zero, Float.ofNat 2, .ofSecs 20, Float.ofNat 0⟩

theorem no_initial_delay_idle :
    idle.maxDelayFor 1024 = .zero ∧ (∀ sample, idle.delayWith 1024 sample = .zero) ∧
      idle.maxDelayFor 1025 = idle.maxBackoff := by
  have hnone : idle.initialDelay = .zero := rfl
  have hfactor : value? idle.scaleFactor = some 2 := OrderedScalar.value_ofNat (n := 2) (by decide)
  obtain ⟨hfinite, -, hroom⟩ := no_initial_delay hnone 1024
  obtain ⟨-, hinfinite, -⟩ := no_initial_delay hnone 1025
  have hdelays := hfinite (hroom 2 1 hfactor (by norm_num) (by decide))
  have hbound := hinfinite (by decide +kernel)
  exact ⟨hdelays.1, hdelays.2.1, hbound.trans (by decide +kernel)⟩

/-- After as many attempts the bound is waited for, though there is no delay to begin with. -/
theorem waits_without_initial_delay :
    idle.initialDelay = .zero ∧ isFinite idle.scaleFactor = true ∧
      idle.maxDelayFor 1025 ≠ .zero ∧ ∀ random, (idle.delay 1025 random).1 ≠ .zero := by
  have hwaits : idle.maxDelayFor 1025 ≠ .zero := by decide +kernel
  have hjitter : idle.isJittered = false := by decide +kernel
  refine ⟨rfl, by decide +kernel, hwaits, fun random => ?_⟩
  rw [delay_eq, delayWith, hjitter]
  exact hwaits

end ClientRuntime.BackoffConfig
