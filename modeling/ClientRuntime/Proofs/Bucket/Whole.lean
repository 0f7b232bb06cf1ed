import Mathlib.Data.Rat.Floor
import ClientRuntime.Retry.Bucket.Basic

/-!
Accounts of whole units. Where nothing is refilled every amount is a whole number, and scalars
that are exact on whole numbers count it exactly.
-/

namespace ClientRuntime

/-- Whole numbers up to here are exact in floats of 53 significant bits. -/
def wholeBound : Nat := 2 ^ 53

/-- Scalars in which whole numbers up to the bound are exact, and so are their sums, differences
and comparisons. -/
class WholeExact (α : Type) [Scalar α] : Prop where
  add : ∀ {m n : Nat}, m + n ≤ wholeBound →
    (Scalar.ofNat m + Scalar.ofNat n : α) = Scalar.ofNat (m + n)
  sub : ∀ {m n : Nat}, n ≤ m → m ≤ wholeBound →
    (Scalar.ofNat m - Scalar.ofNat n : α) = Scalar.ofNat (m - n)
  le : ∀ {m n : Nat}, m ≤ wholeBound → n ≤ wholeBound →
    Scalar.le (Scalar.ofNat m : α) (Scalar.ofNat n) = decide (m ≤ n)
  value : ∀ {n : Nat}, n ≤ wholeBound → Scalar.value? (Scalar.ofNat n : α) = some (n : Rat)

instance : WholeExact Rat where
  add _ := (Nat.cast_add ..).symm
  sub h _ := (Nat.cast_sub h).symm
  le _ _ := decide_eq_decide.mpr Nat.cast_le
  value _ := rfl

section Scalar

variable {α : Type} [Scalar α] [WholeExact α] {m n : Nat}

theorem Scalar.floor_ofNat (h : n ≤ wholeBound) : Scalar.floor (Scalar.ofNat n : α) = n := by
  have hfloor : (n : Rat).floor = (n : Int) := rfl
  simp only [Scalar.floor, WholeExact.value h, hfloor, Int.toNat_natCast]

theorem Scalar.minimum_ofNat (hm : m ≤ wholeBound) (hn : n ≤ wholeBound) :
    Scalar.minimum (Scalar.ofNat m : α) (Scalar.ofNat n) = Scalar.ofNat (min m n) := by
  unfold Scalar.minimum
  rw [WholeExact.le hm hn]
  by_cases h : m ≤ n
  · simp [h]
  · simp [h, Nat.min_eq_right (Nat.le_of_not_le h)]

end Scalar

namespace BucketState

variable {α : Type} [Scalar α] {s : BucketState α} {n : Nat}

/-- The account holds `n` units. -/
def Holds (n : Nat) (s : BucketState α) : Prop := s.available = Scalar.ofNat n

theorem holds_full (c : BucketConfig) (now : Instant) :
    (full c now : BucketState α).Holds c.capacity := rfl

/-- Without refilling, looking at the time adds nothing. -/
theorem Holds.refill (h : s.Holds n) {c : BucketConfig} (hrate : c.refillRate = 0)
    (now : Instant) : (s.refill c now).Holds n := by
  unfold BucketState.refill
  rw [if_pos hrate]
  exact h

variable [WholeExact α]

theorem Holds.units (h : s.Holds n) (hn : n ≤ wholeBound) : s.units = n := by
  unfold BucketState.units
  rw [h, Scalar.floor_ofNat hn]

/-- A cost is granted if the account holds it, and then it is gone. -/
theorem Holds.take (h : s.Holds n) {c : BucketConfig} (hrate : c.refillRate = 0) (now : Instant)
    {cost : Nat} (hn : n ≤ wholeBound) (hcost : cost ≤ wholeBound) :
    match s.take c now cost with
    | (.ok (), s') => cost ≤ n ∧ s'.Holds (n - cost)
    | (.error missing, s') => n < cost ∧ s'.Holds n ∧ missing = ⟨n, .longest⟩ := by
  have hs := h.refill hrate now
  have hle : Scalar.le (Scalar.ofNat cost : α) (s.refill c now).available = decide (cost ≤ n) := by
    rw [hs, WholeExact.le hcost hn]
  unfold BucketState.take
  by_cases hc : cost ≤ n
  · simp only [hle, hc, decide_true, if_true, true_and]
    change _ - _ = _
    rw [hs, WholeExact.sub hc hn]
  · simp only [hle, hc, decide_false, Bool.false_eq_true, if_false]
    refine ⟨by omega, hs, ?_⟩
    rw [hs.units hn]
    simp [waitFor, hrate]

/-- A success gives back its cost and the increment, as far as there is room. -/
theorem Holds.giveBack (h : s.Holds n) {c : BucketConfig} {cost : Nat} (hn : n ≤ c.capacity)
    (hsum : c.capacity + (cost + c.successIncrement) ≤ wholeBound) :
    (s.giveBack c cost).Holds (n + min (cost + c.successIncrement) (c.capacity - n)) := by
  have hback : (Scalar.ofNat cost + Scalar.ofNat c.successIncrement : α) =
      Scalar.ofNat (cost + c.successIncrement) := WholeExact.add (by omega)
  have hroom : min (n + (cost + c.successIncrement)) c.capacity =
      n + min (cost + c.successIncrement) (c.capacity - n) := by omega
  change Scalar.minimum _ _ = _
  rw [h, hback, WholeExact.add (by omega), Scalar.minimum_ofNat (by omega) (by omega), hroom]

end BucketState

end ClientRuntime
