import Mathlib
import ClientRuntime.Proofs.Bucket.Bounded
import ClientRuntime.Proofs.Duration.Rounding
import ClientRuntime.Proofs.Instant
import ClientRuntime.Proofs.Scalar.Rounded

/-!
What waiting earns. A caller that is refused waits for the time that refilling what it lacks takes,
and that time is bounded by its cost. Whenever a microsecond has passed since the last refill, the
next try finds more, in proportion to the time; rounding takes less than half of it.
-/

namespace ClientRuntime

namespace Instant

theorem microsSince?_self (t : Instant) : t.microsSince? t = some 0 := by
  simp [microsSince?]

/-- No whole microsecond has passed from `s` to `t`, if the time does not run far backwards. -/
def JustAfter (t s : Instant) : Prop := ∃ micros ≤ 0, t.microsSince? s = some micros

theorem JustAfter.lt {t s : Instant} (h : t.JustAfter s) : t.nanos < s.nanos + 1000 := by
  obtain ⟨micros, hnone, hmicros⟩ := h
  unfold microsSince? at hmicros
  dsimp only at hmicros
  split at hmicros
  · obtain rfl := Option.some.inj hmicros
    by_contra hlate
    rw [Int.tdiv_eq_ediv_of_nonneg (by omega)] at hnone
    omega
  · cases hmicros

/-- Time may go on while it takes less than a microsecond. -/
theorem JustAfter.later {t t' s : Instant} (h : t.JustAfter s) (hle : t.nanos ≤ t'.nanos)
    (hlt : t'.nanos < s.nanos + 1000) : t'.JustAfter s := by
  obtain ⟨micros, -, hmicros⟩ := h
  unfold microsSince? at hmicros
  dsimp only at hmicros
  split at hmicros
  · rename_i hbounds
    have hmono : (t.nanos - s.nanos).tdiv 1000 ≤ (t'.nanos - s.nanos).tdiv 1000 :=
      Int.tdiv_le_tdiv (by decide) (by omega)
    have hnone : (t'.nanos - s.nanos).tdiv 1000 ≤ (999 : Int).tdiv 1000 :=
      Int.tdiv_le_tdiv (by decide) (by omega)
    refine ⟨_, hnone, ?_⟩
    unfold microsSince?
    dsimp only
    rw [if_pos ⟨hbounds.1.trans hmono, hnone.trans_lt (by decide)⟩]
  · cases hmicros

/-- Whole microseconds that have passed, rounded down. -/
theorem microsSince?_eq {t s : Instant} (hle : s.nanos ≤ t.nanos)
    (hfit : t.nanos - s.nanos < 1000 * 2 ^ 63) :
    t.microsSince? s = some ((t.nanos - s.nanos) / 1000) := by
  have hbound : ((1 <<< 63 : Nat) : Int) = 2 ^ 63 := by decide
  unfold microsSince?
  dsimp only
  rw [hbound, Int.tdiv_eq_ediv_of_nonneg (by omega), if_pos (by omega)]

end Instant

namespace BucketState

variable {α : Type} [Scalar α] {c : BucketConfig} {s : BucketState α} {now : Instant} {cost : Nat}

/-- After a refill there is nothing to credit at that time, whatever was taken out since. -/
theorem refill_of_refilled {s' : BucketState α}
    (h : s'.lastRefill = (s.refill c now).lastRefill) : s'.refill c now = s' := by
  by_cases hrate : c.refillRate = 0
  · simp only [refill, hrate, if_true] at h ⊢
    rw [← h]
  · by_cases hstill : (now.microsSince? s.lastRefill).getD longestElapsed ≤ 0
    · simp only [refill, hrate, hstill, if_false, if_true] at h ⊢
      rw [h, if_pos hstill]
    · simp only [refill, hrate, hstill, if_false] at h ⊢
      rw [h, Instant.microsSince?_self, Option.getD_some, if_pos le_rfl]

/-- A second refill at the same time does nothing. -/
theorem refill_refill (c : BucketConfig) (now : Instant) (s : BucketState α) :
    (s.refill c now).refill c now = s.refill c now :=
  refill_of_refilled rfl

/-- Who is refused is refused again at the same time. -/
theorem take_again {missing : Shortfall} (h : (s.take c now cost).1 = .error missing) :
    (s.take c now cost).2.take c now cost = (.error missing, (s.take c now cost).2) := by
  have hstate := (take_error h).2.1
  have herror : s.take c now cost = (.error missing, s.refill c now) := Prod.ext h hstate
  rw [hstate, ← herror]
  unfold take
  dsimp only
  rw [refill_refill]

section Rounding

variable [RoundedScalar α]

/-- The wait for no more than a cost is a time that will come, at most a second for each unit. -/
theorem waitFor_le (hc : c.Sized) (hrate : c.refillRate ≠ 0) (hcost : cost ≤ c.capacity)
    {missing : α} {q : Rat} (hq : Scalar.value? missing = some q) (hpos : 0 ≤ q) (hle : q ≤ cost) :
    (waitFor c missing).nanos ≤ cost * 1000000000 := by
  have hcapacity := hc.capacity
  have hper : Scalar.value? (Scalar.ofNat c.refillRate : α) = some (c.refillRate : Rat) :=
    OrderedScalar.value_ofNat (hc.rate.trans (by decide))
  have hone : (1 : Rat) ≤ c.refillRate := by exact_mod_cast Nat.pos_of_ne_zero hrate
  have hquotient : q / c.refillRate ≤ cost := (div_le_self hpos hone).trans hle
  obtain ⟨r, hr, hr0, hrn⟩ := RoundedScalar.div_le hq hpos hper (by linarith) (by omega) hquotient
  obtain ⟨d, hd, hdn⟩ := Duration.ofRat?_le hr0 hrn (by omega)
  unfold waitFor Duration.ofSeconds?
  rw [if_neg hrate, hr]
  change (((Duration.ofRat? r).getD .longest)).nanos ≤ _
  rw [hd]
  exact hdn

/-- The units of a number of microseconds, if they are finite, are nearly what they should be. -/
theorem unitsFor_near (hc : c.Sized) (hrate : c.refillRate ≠ 0) {micros : Nat} (hm : 0 < micros)
    {u : Rat} (hu : Scalar.value? (unitsFor c micros : α) = some u) :
    997 * (micros * c.refillRate : Rat) ≤ 1000 * 1000000 * u := by
  have hone : (1 : Rat) ≤ c.refillRate := by exact_mod_cast Nat.pos_of_ne_zero hrate
  have hmicros : (1 : Rat) ≤ micros := by exact_mod_cast hm
  have hmillion : Scalar.value? (Scalar.ofNat 1000000 : α) = some ((1000000 : Nat) : Rat) :=
    OrderedScalar.value_ofNat (by decide)
  have hper : Scalar.value? (Scalar.ofNat c.refillRate : α) = some (c.refillRate : Rat) :=
    OrderedScalar.value_ofNat (hc.rate.trans (by decide))
  have htiny : (2 : Rat) ^ (-1000 : Int) ≤ 1 / 1000000000 := by
    have hless : (2 : Rat) ^ (-1000 : Int) ≤ 2 ^ (-30 : Int) :=
      zpow_le_zpow_right₀ one_le_two (by decide)
    exact hless.trans (by norm_num)
  have hseconds := OrderedScalar.nonneg_div (OrderedScalar.nonneg_ofNat (α := α) micros) hmillion
    (by norm_num)
  obtain ⟨p, hp, hmul⟩ := RoundedScalar.mul_near hseconds hper (by linarith) hu
  obtain ⟨n, hn, hdiv⟩ :=
    RoundedScalar.div_near (OrderedScalar.nonneg_ofNat micros) hmillion (by norm_num) hp
  have hstart := RoundedScalar.ofNat_near hn
  rw [Nat.cast_ofNat] at hdiv
  have hfirst : 999 * (n / 1000000) ≤ 1000 * p := hdiv (by linarith)
  have hgrown : p ≤ p * c.refillRate := le_mul_of_one_le_right (by linarith) hone
  have hsecond : 999 * (p * c.refillRate) ≤ 1000 * u := hmul (by linarith)
  have hscaled := mul_le_mul_of_nonneg_right
    (show 998001 * (micros : Rat) ≤ 1000000000000 * p by linarith) (zero_le_one.trans hone)
  linarith

/-- What a failed try leaves: an amount below the cost, and no microsecond to credit. -/
structure Short (cost : Nat) (s : BucketState α) (now : Instant) (q : Rat) : Prop where
  value : Scalar.value? s.available = some q
  nonneg : 0 ≤ q
  lt : q < cost
  justAfter : now.JustAfter s.lastRefill

omit [RoundedScalar α] in
theorem refill_of_justAfter (hrate : c.refillRate ≠ 0) (h : now.JustAfter s.lastRefill) :
    s.refill c now = s := by
  obtain ⟨micros, hnone, hmicros⟩ := h
  unfold refill
  rw [if_neg hrate, hmicros]
  exact if_pos hnone

omit [RoundedScalar α] in
/-- After a refill nothing more is credited until a microsecond has passed. -/
theorem refill_justAfter (hrate : c.refillRate ≠ 0) (s : BucketState α) (now : Instant) :
    now.JustAfter (s.refill c now).lastRefill := by
  unfold refill
  rw [if_neg hrate]
  dsimp only
  split
  · rename_i hnone
    rcases hmicros : now.microsSince? s.lastRefill with _ | micros
    · rw [hmicros] at hnone
      exact absurd hnone (by decide)
    · rw [hmicros] at hnone
      exact ⟨micros, hnone, hmicros⟩
  · exact ⟨0, le_rfl, now.microsSince?_self⟩

omit [RoundedScalar α] in
/-- A refill credits the time up to now, or no time at all. -/
theorem refill_lastRefill (c : BucketConfig) (now : Instant) (s : BucketState α) :
    (s.refill c now).lastRefill = s.lastRefill ∨ (s.refill c now).lastRefill = now := by
  unfold refill
  split
  · exact .inr rfl
  · dsimp only
    split
    · exact .inl rfl
    · exact .inr rfl

/-- Whoever is refused finds less than the cost. -/
theorem Bounded.short_of_error (hc : c.Sized) (hrate : c.refillRate ≠ 0) (hcost : cost ≤ c.capacity)
    (hs : s.Bounded c) {missing : Shortfall} (h : (s.take c now cost).1 = .error missing) :
    ∃ q, (s.take c now cost).2.Short cost now q := by
  obtain ⟨hless, hstate, -⟩ := take_error h
  obtain ⟨q, hq, hpos, -⟩ := hs.refill hc now
  rw [OrderedScalar.le_iff (hc.value_ofNat hcost) hq, not_le] at hless
  rw [hstate]
  exact ⟨q, hq, hpos, hless, refill_justAfter hrate s now⟩

/-- The wait of a refused caller is a time that will come. -/
theorem Short.wait_le (hc : c.Sized) (hrate : c.refillRate ≠ 0) (hcost : cost ≤ c.capacity)
    {q : Rat} (hs : s.Short cost now q) :
    (waitFor c (Scalar.ofNat cost - s.available)).nanos ≤ cost * 1000000000 := by
  obtain ⟨r, hr, hr0, hrc⟩ :=
    OrderedScalar.value_sub (hc.value_ofNat hcost) hs.value hs.nonneg hs.lt.le
  exact waitFor_le hc hrate hcost hr hr0 hrc

/-- A try before a microsecond has passed is like the one before. -/
theorem Short.still (hc : c.Sized) (hrate : c.refillRate ≠ 0) (hcost : cost ≤ c.capacity)
    {q : Rat} (hs : s.Short cost now q) {later : Instant} (hle : now.nanos ≤ later.nanos)
    (hlt : later.nanos < s.lastRefill.nanos + 1000) :
    (∃ missing, s.take c later cost = (.error missing, s)) ∧ s.Short cost later q := by
  have hjust := hs.justAfter.later hle hlt
  refine ⟨?_, hs.value, hs.nonneg, hs.lt, hjust⟩
  unfold take
  dsimp only
  rw [refill_of_justAfter hrate hjust, if_neg]
  · exact ⟨_, rfl⟩
  · rw [OrderedScalar.le_iff (hc.value_ofNat hcost) hs.value]
    exact hs.lt.not_ge

/-- A sum that the capacity does not cut off has grown by at least half of the units. -/
theorem sum_near (hc : c.Sized) (hrate : c.refillRate ≠ 0) {q : Rat}
    (hq : Scalar.value? s.available = some q) (hpos : 0 ≤ q) {micros : Nat} (hm : 0 < micros)
    (hbound : Scalar.le (s.available + unitsFor c micros) (Scalar.ofNat c.capacity) = true) :
    ∃ r, Scalar.value? (s.available + unitsFor c micros) = some r ∧ r ≤ c.capacity ∧
      997 * (micros * c.refillRate : Rat) ≤ 2000000000 * (r - q) := by
  have hfull := hc.value_ofNat (α := α) le_rfl
  have hunits := nonneg_unitsFor (α := α) hc hrate micros
  have hnonneg := OrderedScalar.nonneg_add ((Scalar.nonneg_iff hq).mpr hpos) hunits
  obtain ⟨r, hr⟩ := OrderedScalar.finite_of_le hnonneg hbound hfull
  have hle := (OrderedScalar.le_iff hr hfull).mp hbound
  have hcapacity : (c.capacity : Rat) < 2 ^ 32 := by exact_mod_cast hc.capacity
  obtain ⟨u, hu, hgrows⟩ := RoundedScalar.add_near hq hpos hunits hr
  have hnear := unitsFor_near hc hrate hm hu
  have hone : (1 : Rat) ≤ micros * c.refillRate := by
    exact_mod_cast Nat.mul_pos hm (Nat.pos_of_ne_zero hrate)
  have hhalf : q + u / 2 ≤ r := by
    refine hgrows ?_ (by linarith)
    norm_num
    linarith
  exact ⟨r, hr, hle, by linarith⟩

/-- A refill that leaves less than the cost has added at least half of the units. -/
theorem add_near (hc : c.Sized) (hrate : c.refillRate ≠ 0) (hcost : cost ≤ c.capacity) {q : Rat}
    (hq : Scalar.value? s.available = some q) (hpos : 0 ≤ q) {micros : Nat} (hm : 0 < micros)
    (hless : ¬ Scalar.le (Scalar.ofNat cost : α) (s.add c (unitsFor c micros)).available = true) :
    ∃ q', Scalar.value? (s.add c (unitsFor c micros)).available = some q' ∧ q' < cost ∧
      997 * (micros : Rat) ≤ 2000000000 * (q' - q) := by
  have hneeded := hc.value_ofNat (α := α) hcost
  have hfull := hc.value_ofNat (α := α) le_rfl
  have hbound : Scalar.le (s.available + unitsFor c micros) (Scalar.ofNat c.capacity) = true := by
    by_contra hover
    have hcapped : (s.add c (unitsFor c micros)).available = Scalar.ofNat c.capacity := if_neg hover
    rw [hcapped, OrderedScalar.le_iff hneeded hfull] at hless
    exact hless (by exact_mod_cast hcost)
  have hsum : (s.add c (unitsFor c micros)).available = s.available + unitsFor c micros :=
    if_pos hbound
  rw [hsum] at hless ⊢
  obtain ⟨r, hr, -, hgrown⟩ := sum_near hc hrate hq hpos hm hbound
  rw [OrderedScalar.le_iff hneeded hr, not_le] at hless
  have hmicros : (micros : Rat) ≤ micros * c.refillRate :=
    le_mul_of_one_le_right (Nat.cast_nonneg _) (by exact_mod_cast Nat.pos_of_ne_zero hrate)
  exact ⟨r, hr, hless, by linarith⟩

/-- Time that is long enough fills the bucket, whatever it held. -/
theorem add_long (hc : c.Sized) (hrate : c.refillRate ≠ 0) (hs : s.Bounded c) {micros : Nat}
    (hlong : 2000000000 * c.capacity < 997 * (micros * c.refillRate)) :
    (s.add c (unitsFor c micros)).available = Scalar.ofNat c.capacity := by
  obtain ⟨q, hq, hpos, -⟩ := hs
  apply if_neg
  intro hbound
  have hsome : 0 < micros := by
    by_contra hnone
    obtain rfl : micros = 0 := by omega
    omega
  obtain ⟨r, -, hle, hgrown⟩ := sum_near hc hrate hq hpos hsome hbound
  have : 2000000000 * (c.capacity : Rat) < 997 * (micros * c.refillRate) := by exact_mod_cast hlong
  linarith

/-- Once a microsecond has passed, who is refused finds more than before, in proportion to the
time. -/
theorem Short.grows (hc : c.Sized) (hrate : c.refillRate ≠ 0) (hcost : cost ≤ c.capacity)
    {q : Rat} (hs : s.Short cost now q) {later : Instant}
    (hpassed : s.lastRefill.nanos + 1000 ≤ later.nanos)
    (hfit : later.nanos - s.lastRefill.nanos < 1000 * 2 ^ 63) {missing : Shortfall}
    (h : (s.take c later cost).1 = .error missing) :
    ∃ q', (s.take c later cost).2.Short cost later q' ∧
      (s.take c later cost).2.lastRefill = later ∧
        997 * ((later.nanos : Rat) - s.lastRefill.nanos - 999) ≤ 2000000000000 * (q' - q) ∧
          997 ≤ 2000000000 * (q' - q) := by
  obtain ⟨hless, hstate, -⟩ := take_error h
  have hmicros := Instant.microsSince?_eq (by omega) hfit
  generalize hdiv : (later.nanos - s.lastRefill.nanos) / 1000 = micros at hmicros
  have hpos : 0 < micros := by omega
  have hrefill : s.refill c later =
      { s.add c (unitsFor c micros.toNat) with lastRefill := later } := by
    unfold refill
    rw [if_neg hrate, hmicros]
    exact if_neg hpos.not_ge
  rw [hstate, hrefill]
  rw [hrefill] at hless
  obtain ⟨q', hq', hlt, hgrown⟩ := add_near hc hrate hcost hs.value hs.nonneg (by omega) hless
  have htime : (later.nanos : Rat) - s.lastRefill.nanos - 999 ≤ 1000 * (micros.toNat : Nat) := by
    have hint : later.nanos - s.lastRefill.nanos - 999 ≤ 1000 * (micros.toNat : Nat) := by omega
    exact_mod_cast hint
  have hone : (1 : Rat) ≤ (micros.toNat : Nat) := by
    have hnat : 1 ≤ micros.toNat := by omega
    exact_mod_cast hnat
  have hnonneg : 0 ≤ q' := by
    have := hs.nonneg
    linarith
  refine ⟨q', ⟨hq', hnonneg, hlt, 0, le_rfl, later.microsSince?_self⟩, rfl, ?_, ?_⟩ <;> linarith

end Rounding

end BucketState

end ClientRuntime
