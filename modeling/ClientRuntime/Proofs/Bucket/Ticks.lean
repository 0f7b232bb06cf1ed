import Mathlib
import ClientRuntime.Proofs.Bucket.Monotone
import ClientRuntime.Proofs.Instant
import ClientRuntime.Proofs.Scalar.Exact

/-!
Crediting time bit by bit. Where the clock is only read after whole ticks, whose microseconds and
units are numbers without rounding, a refill in between loses nothing: the next one credits the
rest. Giving units back before a refill or after it makes no difference either, as the capacity cuts
off the same.
-/

namespace ClientRuntime

/-- Whole ticks go by from `s` to `t`, of which there are `d` in a second. -/
def Instant.TicksTo (d : Nat) (s t : Instant) : Prop :=
  ∃ k : Nat, t.nanos = s.nanos + (1000 * (k * (1000000 / d)) : Nat)

namespace Instant

variable {d : Nat} {s t u : Instant}

theorem TicksTo.refl (d : Nat) (t : Instant) : t.TicksTo d t := ⟨0, by simp⟩

theorem TicksTo.trans (h : s.TicksTo d t) (h' : t.TicksTo d u) : s.TicksTo d u := by
  obtain ⟨k, hk⟩ := h
  obtain ⟨j, hj⟩ := h'
  refine ⟨k + j, ?_⟩
  rw [hj, hk, Nat.add_mul, Nat.mul_add]
  push_cast
  ring

theorem ticksTo_iff :
    s.TicksTo d t ↔
      s.nanos ≤ t.nanos ∧ ((1000 * (1000000 / d) : Nat) : Int) ∣ t.nanos - s.nanos := by
  constructor
  · rintro ⟨k, hk⟩
    refine ⟨by omega, k, ?_⟩
    rw [hk]
    push_cast
    ring
  · rintro ⟨hle, hdvd⟩
    obtain ⟨n, hn⟩ := Int.eq_ofNat_of_zero_le (sub_nonneg.mpr hle)
    rw [hn] at hdvd
    obtain ⟨k, rfl⟩ := Int.natCast_dvd_natCast.mp hdvd
    refine ⟨k, ?_⟩
    rw [Nat.mul_comm k, ← Nat.mul_assoc]
    omega

instance (d : Nat) (s t : Instant) : Decidable (s.TicksTo d t) := decidable_of_iff' _ ticksTo_iff

/-- Whole microseconds are counted, up to the longest time. -/
theorem elapsedSince_eq {n : Nat} (h : t.nanos = s.nanos + n) :
    t.elapsedSince s = min ((n / 1000 : Nat) : Int) longestElapsed := by
  have hlongest := longestElapsed_eq
  have hcount : (t.nanos - s.nanos).tdiv 1000 = (n / 1000 : Nat) := by
    rw [h, add_sub_cancel_left]
    rfl
  rcases hsome : t.microsSince? s with _ | micros
  · have hmany := microsSince?_eq_none.mp hsome
    rw [elapsedSince, hsome, Option.getD_none]
    omega
  · have hfew := mt microsSince?_eq_none.mpr (by rw [hsome]; exact Option.some_ne_none micros)
    rw [elapsedSince_of_some hsome, hcount]
    omega

theorem elapsedSince_micros {micros : Nat} (h : t.nanos = s.nanos + (1000 * micros : Nat)) :
    (t.elapsedSince s).toNat = min micros longestElapsed.toNat := by
  rw [elapsedSince_eq h, Nat.mul_div_cancel_left micros (by decide)]
  omega

theorem elapsedSince_exact {n : Nat} (h : t.nanos = s.nanos + n) (hn : n < 1000 * 2 ^ 63) :
    t.elapsedSince s = (n / 1000 : Nat) := by
  have hlongest := longestElapsed_eq
  rw [elapsedSince_eq h]
  omega

end Instant

namespace BucketState

variable {α : Type} [Scalar α] {c : BucketConfig} {s s' : BucketState α} {t u : Instant} {d : Nat}

/-- Whole parts of units, up to the capacity, and whole ticks since the last refill. -/
structure Parted (c : BucketConfig) (d : Nat) (t : Instant) (s : BucketState α) : Prop where
  amount : ∃ a ≤ c.capacity * d, s.available = Scalar.part d a
  ticks : s.lastRefill.TicksTo d t

theorem capacity_parts_le (hc : c.Sized) : c.capacity * d ≤ 2 ^ 32 * d :=
  Nat.mul_le_mul_right d hc.capacity.le

variable [PartsExact α d]

/-- The units of a moderate number of ticks. -/
theorem unitsFor_ticks (hc : c.Sized) (hrate : c.refillRate ≠ 0) {k : Nat}
    (hfew : k * (1000000 / d) ≤ 2 ^ 53) (hroom : k * c.refillRate ≤ 2 ^ 36 * d) :
    (unitsFor c (k * (1000000 / d)) : α) = Scalar.part d (k * c.refillRate) := by
  unfold unitsFor
  rw [PartsExact.seconds hfew]
  exact PartsExact.mul (Nat.pos_of_ne_zero hrate) (hc.rate.le.trans (by decide)) hroom

/-- So many ticks that their number, or that of their units, may be rounded, are more than it takes
to fill the bucket. -/
theorem many_ticks (hc : c.Sized) (hrate : c.refillRate ≠ 0) (hdvd : d ∣ 1000000) {k : Nat}
    (hmany : 2 ^ 53 < k * (1000000 / d) ∨ 2 ^ 35 * d < k * c.refillRate) :
    c.capacity * d ≤ k * c.refillRate ∧
      2000000000 * c.capacity <
        997 * (min (k * (1000000 / d)) longestElapsed.toNat * c.refillRate) := by
  have hcapacity := hc.capacity
  have hparts := capacity_parts_le (d := d) hc
  have hlongest := longestElapsed_eq
  have hrated := Nat.pos_of_ne_zero hrate
  obtain ⟨q, hq⟩ := hdvd
  have hd : 0 < d := Nat.pos_of_mul_pos_right (show 0 < d * q by omega)
  rw [show 1000000 / d = q by rw [hq, Nat.mul_div_cancel_left q hd]] at hmany ⊢
  by_cases hlong : 2 ^ 53 < k * q
  · have hticks : 2 ^ 53 * d < k * 1000000 := by
      rw [hq, Nat.mul_left_comm, Nat.mul_comm _ d]
      exact Nat.mul_lt_mul_of_pos_left hlong hd
    have hk := Nat.le_mul_of_pos_right k hrated
    have hmin := Nat.le_mul_of_pos_right (min (k * q) longestElapsed.toNat) hrated
    omega
  · have hunits := hmany.resolve_left hlong
    have hpos : 0 < q := Nat.pos_of_ne_zero fun h => by simp [h] at hq
    have hscaled := Nat.mul_lt_mul_of_pos_right hunits hpos
    rw [Nat.mul_assoc, ← hq] at hscaled
    rw [min_eq_left (by omega), Nat.mul_right_comm]
    omega

/-- A refill after whole ticks adds what they earn, up to the capacity. -/
theorem add_ticks (hc : c.Sized) (hrate : c.refillRate ≠ 0) {a k : Nat}
    (ha : a ≤ c.capacity * d) (hs : s.available = Scalar.part d a) :
    (s.add c (unitsFor c (min (k * (1000000 / d)) longestElapsed.toNat))).available =
      Scalar.part d (min (a + k * c.refillRate) (c.capacity * d)) := by
  have hcapacity := hc.capacity
  have hparts := capacity_parts_le (d := d) hc
  have hwhole : (Scalar.ofNat c.capacity : α) = Scalar.part d (c.capacity * d) :=
    PartsExact.whole (by omega)
  have hlongest := longestElapsed_eq
  by_cases hmany : 2 ^ 53 < k * (1000000 / d) ∨ 2 ^ 35 * d < k * c.refillRate
  · obtain ⟨hfull, hlong⟩ := many_ticks hc hrate (PartsExact.dvd α) hmany
    have hbounded : s.Bounded c := by
      have hd : (0 : Rat) < d := Nat.cast_pos.mpr (Scalar.parts_pos α d)
      refine ⟨a / d, by rw [hs, PartsExact.value (by omega)], by positivity, ?_⟩
      rw [div_le_iff₀ hd]
      exact_mod_cast ha
    rw [add_long hc hrate hbounded hlong, hwhole, min_eq_right (by omega)]
  · rw [not_or, not_lt, not_lt] at hmany
    rw [min_eq_left (by omega)]
    unfold add
    dsimp only
    rw [hs, hwhole, unitsFor_ticks hc hrate hmany.1 (by omega), PartsExact.add (by omega),
      Scalar.minimum_part (by omega) (by omega)]

theorem refill_ticks (hc : c.Sized) (hrate : c.refillRate ≠ 0) {a k : Nat}
    (ha : a ≤ c.capacity * d) (hs : s.available = Scalar.part d a)
    (ht : t.nanos = s.lastRefill.nanos + (1000 * (k * (1000000 / d)) : Nat)) :
    s.refill c t =
      ⟨Scalar.part d (min (a + k * c.refillRate) (c.capacity * d)), t, s.returns⟩ := by
  have hcount := Instant.elapsedSince_micros ht
  have hmicros := Nat.div_pos (Nat.le_of_dvd (by decide) (PartsExact.dvd α)) (Scalar.parts_pos α d)
  have hlongest := longestElapsed_eq
  rcases Nat.eq_zero_or_pos k with rfl | hk
  · have hlast : t = s.lastRefill := Instant.ext_nanos (by simpa using ht)
    rw [refill_of_nonpos hrate (by omega), Nat.zero_mul, Nat.add_zero, min_eq_left ha, hlast, ← hs]
  · have hsome := Nat.mul_pos hk hmicros
    rw [refill_of_pos hrate (by omega), hcount, ← add_ticks hc hrate ha hs]
    rfl

namespace Parted

theorem full (hc : c.Sized) (t : Instant) : (full c t : BucketState α).Parted c d t where
  amount := ⟨c.capacity * d, le_rfl, PartsExact.whole (hc.capacity.le.trans (by decide))⟩
  ticks := .refl d t

omit [PartsExact α d] in
theorem later (h : s.Parted c d t) (hu : t.TicksTo d u) : s.Parted c d u :=
  ⟨h.amount, h.ticks.trans hu⟩

theorem refill (hc : c.Sized) (hrate : c.refillRate ≠ 0) (h : s.Parted c d t) :
    (s.refill c t).Parted c d t := by
  obtain ⟨⟨a, ha, hs⟩, k, ht⟩ := h
  rw [refill_ticks hc hrate ha hs ht]
  exact ⟨⟨_, min_le_right _ _, rfl⟩, .refl d t⟩

/-- Time that is credited in two steps is credited as in one. -/
theorem refill_refill (hc : c.Sized) (hrate : c.refillRate ≠ 0) (h : s.Parted c d t)
    (hu : t.TicksTo d u) : (s.refill c t).refill c u = s.refill c u := by
  obtain ⟨⟨a, ha, hs⟩, k, ht⟩ := h
  obtain ⟨j, hj⟩ := hu
  have hall : u.nanos = s.lastRefill.nanos + (1000 * ((k + j) * (1000000 / d)) : Nat) := by
    rw [hj, ht]
    push_cast
    ring
  rw [refill_ticks hc hrate ha hs ht, refill_ticks hc hrate (min_le_right _ _) rfl hj,
    refill_ticks hc hrate ha hs hall, Nat.add_mul]
  congr 2
  omega

/-- What is given back comes in whole parts, too. -/
theorem available_giveBack (hc : c.Sized) (hincrement : c.successIncrement < 2 ^ 32) {a cost : Nat}
    (hcost : cost ≤ c.capacity) (ha : a ≤ c.capacity * d) (hs : s.available = Scalar.part d a) :
    (s.giveBack c cost).available =
      Scalar.part d (min (a + (cost + c.successIncrement) * d) (c.capacity * d)) := by
  have hcapacity := hc.capacity
  have hparts := capacity_parts_le (d := d) hc
  have hrefund : (cost + c.successIncrement) * d ≤ 2 ^ 33 * d :=
    Nat.mul_le_mul_right d (by omega)
  have hsum : (Scalar.ofNat cost + Scalar.ofNat c.successIncrement : α) =
      Scalar.part d ((cost + c.successIncrement) * d) := by
    rw [Nat.add_mul] at hrefund ⊢
    rw [PartsExact.whole (d := d) (by omega), PartsExact.whole (d := d) (by omega),
      PartsExact.add (by omega)]
  unfold giveBack notify credit add
  dsimp only
  rw [hsum, hs, PartsExact.add (by omega), PartsExact.whole (d := d) (by omega),
    Scalar.minimum_part (by omega) (by omega)]

theorem giveBack (hc : c.Sized) (hincrement : c.successIncrement < 2 ^ 32) {cost : Nat}
    (hcost : cost ≤ c.capacity) (h : s.Parted c d t) : (s.giveBack c cost).Parted c d t := by
  obtain ⟨⟨a, ha, hs⟩, hticks⟩ := h
  exact ⟨⟨_, min_le_right _ _, available_giveBack hc hincrement hcost ha hs⟩, hticks⟩

/-- It does not matter whether units are given back before a refill or after it. -/
theorem refill_giveBack (hc : c.Sized) (hincrement : c.successIncrement < 2 ^ 32)
    (hrate : c.refillRate ≠ 0) {cost : Nat} (hcost : cost ≤ c.capacity) (h : s.Parted c d t) :
    (s.giveBack c cost).refill c t = (s.refill c t).giveBack c cost := by
  obtain ⟨⟨a, ha, hs⟩, k, ht⟩ := h
  have hrefilled := refill_ticks hc hrate ha hs ht
  have hbefore := available_giveBack hc hincrement hcost ha hs
  have hafter := available_giveBack (s := s.refill c t) hc hincrement hcost (min_le_right _ _)
    (congrArg BucketState.available hrefilled)
  have hparts : ((s.refill c t).giveBack c cost) = ⟨((s.refill c t).giveBack c cost).available,
      (s.refill c t).lastRefill, (s.refill c t).returns + 1⟩ := rfl
  rw [hparts, hafter, hrefilled, refill_ticks hc hrate (min_le_right _ _) hbefore ht]
  change BucketState.mk _ t (s.returns + 1) = BucketState.mk _ t (s.returns + 1)
  congr 2
  omega

theorem take (hc : c.Sized) (hrate : c.refillRate ≠ 0) {cost : Nat} (hcost : cost ≤ c.capacity)
    (h : s.Parted c d t) : (s.take c t cost).2.Parted c d t := by
  have hrefilled := h.refill hc hrate
  rcases htake : (s.take c t cost).1 with missing | ⟨⟩
  · rw [(take_error htake).2.1]
    exact hrefilled
  · obtain ⟨hthere, hstate⟩ := take_ok htake
    obtain ⟨⟨a, ha, hs⟩, hticks⟩ := hrefilled
    have hcapacity := hc.capacity
    have hparts := capacity_parts_le (d := d) hc
    have hneeded : cost * d ≤ c.capacity * d := Nat.mul_le_mul_right d hcost
    have hwhole : (Scalar.ofNat cost : α) = Scalar.part d (cost * d) :=
      PartsExact.whole (by omega)
    rw [hwhole, hs, Scalar.le_part (by omega) (by omega)] at hthere
    rw [hstate]
    refine ⟨⟨a - cost * d, by omega, ?_⟩, hticks⟩
    dsimp only
    rw [hwhole, hs, PartsExact.sub hthere (by omega)]

end Parted

/-- Two accounts that are the same once they are refilled at that time. -/
structure Same (c : BucketConfig) (d : Nat) (t : Instant) (s s' : BucketState α) : Prop where
  refill : s.refill c t = s'.refill c t
  left : c.refillRate ≠ 0 → s.Parted c d t
  right : c.refillRate ≠ 0 → s'.Parted c d t

namespace Same

omit [PartsExact α d] in
theorem symm (h : Same c d t s s') : Same c d t s' s := ⟨h.refill.symm, h.right, h.left⟩

omit [PartsExact α d] in
theorem returns (h : Same c d t s s') : s.returns = s'.returns := by
  have hreturns := congrArg BucketState.returns h.refill
  rwa [returns_refill, returns_refill] at hreturns

omit [PartsExact α d] in
theorem take_eq (h : Same c d t s s') (cost : Nat) : s.take c t cost = s'.take c t cost := by
  unfold BucketState.take
  rw [h.refill]

theorem later (hc : c.Sized) (h : Same c d t s s') (hu : c.refillRate ≠ 0 → t.TicksTo d u) :
    Same c d u s s' := by
  by_cases hrate : c.refillRate = 0
  · have hrefill := h.refill
    rw [refill_of_rate_zero hrate, refill_of_rate_zero hrate] at hrefill
    refine ⟨?_, fun hne => absurd hrate hne, fun hne => absurd hrate hne⟩
    rw [refill_of_rate_zero hrate, refill_of_rate_zero hrate]
    obtain ⟨available, _, returns⟩ := s
    obtain ⟨available', _, returns'⟩ := s'
    simp only [BucketState.mk.injEq, true_and] at hrefill ⊢
    exact hrefill
  · refine ⟨?_, fun _ => (h.left hrate).later (hu hrate), fun _ => (h.right hrate).later (hu hrate)⟩
    rw [← (h.left hrate).refill_refill hc hrate (hu hrate), h.refill,
      (h.right hrate).refill_refill hc hrate (hu hrate)]

/-- Whoever looks only refills. -/
theorem refill_right (hc : c.Sized) (h : Same c d t s s') : Same c d t s (s'.refill c t) where
  refill := by rw [BucketState.refill_refill, h.refill]
  left := h.left
  right hrate := (h.right hrate).refill hc hrate

theorem take (hc : c.Sized) {cost : Nat} (hcost : cost ≤ c.capacity) (h : Same c d t s s') :
    Same c d t (s.take c t cost).2 (s'.take c t cost).2 where
  refill := by rw [h.take_eq]
  left hrate := (h.left hrate).take hc hrate hcost
  right hrate := (h.right hrate).take hc hrate hcost

theorem giveBack (hc : c.Sized) (hincrement : c.successIncrement < 2 ^ 32) {cost : Nat}
    (hcost : cost ≤ c.capacity) (h : Same c d t s s') :
    Same c d t (s.giveBack c cost) (s'.giveBack c cost) where
  refill := by
    have hcommutes {s : BucketState α} (hs : c.refillRate ≠ 0 → s.Parted c d t) :
        (s.giveBack c cost).refill c t = (s.refill c t).giveBack c cost := by
      by_cases hrate : c.refillRate = 0
      · rw [refill_of_rate_zero hrate, refill_of_rate_zero hrate]
        rfl
      · exact (hs hrate).refill_giveBack hc hincrement hrate hcost
    rw [hcommutes h.left, hcommutes h.right, h.refill]
  left hrate := (h.left hrate).giveBack hc hincrement hcost
  right hrate := (h.right hrate).giveBack hc hincrement hcost

end Same

/-! ### Between ticks -/

section Exact

variable {s : BucketState Rat} {n m : Nat}

/-- Exact units of a number of microseconds. -/
def earned (c : BucketConfig) (micros : Nat) : Rat := micros * c.refillRate / 1000000

theorem earned_add (c : BucketConfig) (m n : Nat) : earned c (m + n) = earned c m + earned c n := by
  unfold earned
  push_cast
  ring

theorem earned_nonneg (c : BucketConfig) (n : Nat) : 0 ≤ earned c n := by
  unfold earned
  positivity

theorem earned_mono (c : BucketConfig) (h : m ≤ n) : earned c m ≤ earned c n := by
  have hle : (m : Rat) ≤ n := Nat.cast_le.mpr h
  unfold earned
  gcongr

/-- A refill in exact arithmetic. The time of the last refill moves on only if a microsecond has
passed. -/
theorem refill_exact (hrate : c.refillRate ≠ 0) (hs : s.available ≤ c.capacity)
    (ht : t.nanos = s.lastRefill.nanos + n) (hn : n < 1000 * 2 ^ 63) :
    (s.refill c t).available = min (s.available + earned c (n / 1000)) c.capacity ∧
      (s.refill c t).lastRefill = if n / 1000 = 0 then s.lastRefill else t := by
  have hmicros := Instant.elapsedSince_exact ht hn
  by_cases hnone : n / 1000 = 0
  · rw [refill_of_nonpos hrate (by omega), if_pos hnone, hnone]
    refine ⟨?_, rfl⟩
    unfold earned
    rw [Nat.cast_zero, zero_mul, zero_div, add_zero, min_eq_left hs]
  · rw [refill_of_pos hrate (by omega), if_neg hnone, hmicros]
    have hunits : (unitsFor c (n / 1000) : Rat) = earned c (n / 1000) := div_mul_eq_mul_div ..
    refine ⟨?_, rfl⟩
    change Scalar.minimum (s.available + unitsFor c (n / 1000)) ((c.capacity : Nat) : Rat) = _
    rw [hunits, Scalar.minimum, min_def]
    congr 1
    exact decide_eq_true_eq

/-- In exact arithmetic one look in between gains nothing, and loses less than a microsecond. -/
theorem refill_refill_exact (hrate : c.refillRate ≠ 0) (hs : s.available ≤ c.capacity)
    (ht : t.nanos = s.lastRefill.nanos + n) (hu : u.nanos = t.nanos + m)
    (hfit : n + m < 1000 * 2 ^ 63) :
    ((s.refill c t).refill c u).available ≤ (s.refill c u).available ∧
      (s.refill c u).available ≤ ((s.refill c t).refill c u).available + earned c 1 := by
  have hall : u.nanos = s.lastRefill.nanos + (n + m : Nat) := by omega
  obtain ⟨hwhole, -⟩ := refill_exact hrate hs hall hfit
  obtain ⟨hfirst, hlast⟩ := refill_exact hrate hs ht (by omega)
  by_cases hnone : n / 1000 = 0
  · have hmicros := Instant.elapsedSince_exact ht (by omega)
    have hsame : s.refill c t = s := refill_of_nonpos hrate (by omega)
    rw [hsame]
    exact ⟨le_rfl, le_add_of_nonneg_right (earned_nonneg c 1)⟩
  · rw [if_neg hnone] at hlast
    have hcapped : (s.refill c t).available ≤ c.capacity := hfirst ▸ min_le_right _ _
    obtain ⟨hsecond, -⟩ :=
      refill_exact (s := s.refill c t) hrate hcapped (hlast.symm ▸ hu) (by omega)
    rw [hwhole, hsecond, hfirst]
    have hlow : earned c (n / 1000) + earned c (m / 1000) ≤ earned c ((n + m) / 1000) := by
      rw [← earned_add]
      exact earned_mono c (by omega)
    have hhigh : earned c ((n + m) / 1000) ≤
        earned c (n / 1000) + earned c (m / 1000) + earned c 1 := by
      rw [← earned_add, ← earned_add]
      exact earned_mono c (by omega)
    have hrest := earned_nonneg c (m / 1000)
    have hone := earned_nonneg c 1
    constructor <;> simp only [min_def] <;> split_ifs <;> linarith

/-- Refills at one time after the other. -/
def refillAll (c : BucketConfig) (ts : List Instant) (s : BucketState Rat) : BucketState Rat :=
  ts.foldl (fun s t => s.refill c t) s

/-- Any number of looks gain nothing together, and each loses less than a microsecond. -/
theorem refillAll_exact (hrate : c.refillRate ≠ 0) (hs : s.available ≤ c.capacity)
    {ts : List Instant} (hts : ts.Pairwise (·.nanos ≤ ·.nanos))
    (hstart : ∀ t ∈ ts, s.lastRefill.nanos ≤ t.nanos) (hend : ∀ t ∈ ts, t.nanos ≤ u.nanos)
    (hfit : u.nanos - s.lastRefill.nanos < 1000 * 2 ^ 63) :
    ((s.refillAll c ts).refill c u).available ≤ (s.refill c u).available ∧
      (s.refill c u).available ≤
        ((s.refillAll c ts).refill c u).available + ts.length * earned c 1 := by
  induction ts generalizing s with
  | nil => simp [refillAll]
  | cons t ts ih =>
    rw [List.pairwise_cons] at hts
    rw [List.forall_mem_cons] at hstart hend
    have ht : t.nanos = s.lastRefill.nanos + (t.nanos - s.lastRefill.nanos).toNat := by omega
    have hu : u.nanos = t.nanos + (u.nanos - t.nanos).toNat := by omega
    obtain ⟨hgain, hloss⟩ := refill_refill_exact hrate hs ht hu (by omega)
    have hcapped : (s.refill c t).available ≤ c.capacity :=
      (refill_exact hrate hs ht (by omega)).1 ▸ min_le_right _ _
    -- Wherever the last refill is now, it lies between the old one and this look.
    have hlast : s.lastRefill.nanos ≤ (s.refill c t).lastRefill.nanos ∧
        (s.refill c t).lastRefill.nanos ≤ t.nanos := by
      rcases refill_lastRefill c t s with hkept | hmoved
      · rw [hkept]
        exact ⟨le_rfl, hstart.1⟩
      · rw [hmoved]
        exact ⟨hstart.1, le_rfl⟩
    obtain ⟨hgains, hlosses⟩ := ih hcapped hts.2 (fun v hv => hlast.2.trans (hts.1 v hv)) hend.2
      (by omega)
    change ((refillAll c ts (s.refill c t)).refill c u).available ≤ _ ∧
      _ ≤ ((refillAll c ts (s.refill c t)).refill c u).available + _
    refine ⟨hgains.trans hgain, ?_⟩
    rw [List.length_cons]
    push_cast
    linarith

end Exact

end BucketState

end ClientRuntime
