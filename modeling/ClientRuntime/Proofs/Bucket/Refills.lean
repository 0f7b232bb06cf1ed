import Mathlib
import ClientRuntime.Proofs.Bucket.Accrual
import ClientRuntime.Proofs.Fiber.Charges

/-!
What time earns a bucket. Whatever is available beyond the full account of the beginning, and was
not given back, was refilled. In exact arithmetic all that is ever refilled is at most what the rate
makes of the time from the beginning to the highest reading of the clock, which may run forwards or
backwards: no stretch of time is credited twice.
-/

namespace ClientRuntime

namespace Instant

/-- Whole microseconds are no more than the time itself. -/
theorem microsSince?_le {t s : Instant} {micros : Int} (h : t.microsSince? s = some micros)
    (hpos : 0 < micros) : micros * 1000 ≤ t.nanos - s.nanos := by
  unfold microsSince? at h
  dsimp only at h
  split at h
  · obtain rfl := Option.some.inj h
    have hforward : 0 ≤ t.nanos - s.nanos := by
      by_contra hback
      have hneg := Int.tdiv_nonneg (b := 1000) (neg_nonneg.mpr (not_le.mp hback).le) (by decide)
      rw [Int.neg_tdiv] at hneg
      omega
    rw [Int.tdiv_eq_ediv_of_nonneg hforward]
    omega
  · cases h

theorem exists_highest {ts : List Instant} {t : Instant} (ht : t ∈ ts) :
    ∃ highest ∈ ts, ∀ t ∈ ts, t ≤ highest := by
  obtain ⟨highest, hmem, hle⟩ :=
    ts.toFinset.exists_max_image (·.nanos) ⟨t, List.mem_toFinset.mpr ht⟩
  exact ⟨highest, List.mem_toFinset.mp hmem, fun t ht => hle t (List.mem_toFinset.mpr ht)⟩

/-- Seconds from one instant to another, less than none if the other comes first. -/
def secondsSince (t s : Instant) : Rat := (t.nanos - s.nanos) / 1000000000

theorem secondsSince_mono {t t' : Instant} (h : t ≤ t') (s : Instant) :
    t.secondsSince s ≤ t'.secondsSince s := by
  have hle : (t.nanos : Rat) ≤ t'.nanos := by exact_mod_cast h
  unfold secondsSince
  gcongr

end Instant

namespace BucketState

/-- A refill adds no more than the rate makes of the time by which it moves the last refill on. -/
theorem refill_available_le (c : BucketConfig) (now : Instant) (s : BucketState Rat)
    (hfit : (s.refill c now).lastRefill ≠ s.lastRefill → (now.microsSince? s.lastRefill).isSome) :
    (s.refill c now).available ≤
      s.available + c.refillRate * (s.refill c now).lastRefill.secondsSince s.lastRefill := by
  unfold refill at hfit ⊢
  by_cases hrate : c.refillRate = 0
  · simp [hrate]
  · simp only [hrate, if_false] at hfit ⊢
    split at hfit
    · rename_i hstill
      rw [if_pos hstill]
      simp [Instant.secondsSince]
    · rename_i helapsed
      rw [if_neg helapsed]
      have hmoved : now ≠ s.lastRefill := by
        rintro rfl
        simp [Instant.microsSince?_self] at helapsed
      obtain ⟨micros, hmicros⟩ := Option.isSome_iff_exists.mp (hfit hmoved)
      simp only [hmicros, Option.getD_some, not_le] at helapsed ⊢
      have hunits : (unitsFor c micros.toNat : Rat) ≤
          c.refillRate * now.secondsSince s.lastRefill := by
        have hle : (micros : Rat) * 1000 ≤ now.nanos - s.lastRefill.nanos := by
          exact_mod_cast Instant.microsSince?_le hmicros helapsed
        have hnat : ((micros.toNat : Nat) : Rat) = (micros : Rat) := by
          exact_mod_cast Int.toNat_of_nonneg helapsed.le
        have hseconds : (micros : Rat) / 1000000 ≤ now.secondsSince s.lastRefill := by
          unfold Instant.secondsSince
          linarith
        change ((micros.toNat : Nat) : Rat) / ((1000000 : Nat) : Rat) * _ ≤ _
        rw [hnat, mul_comm]
        exact mul_le_mul_of_nonneg_left (by exact_mod_cast hseconds) (Nat.cast_nonneg _)
      have hcapped : (s.add c (unitsFor c micros.toNat)).available ≤
          s.available + unitsFor c micros.toNat := by
        change Scalar.minimum _ _ ≤ _
        unfold Scalar.minimum
        split
        · exact le_rfl
        · rename_i hover
          exact (not_le.mp (by simpa [Scalar.le] using hover)).le
      exact hcapped.trans (by simpa using hunits)

end BucketState

namespace StandardBucket

variable {η : Type} (b : StandardBucket η Rat)

/-- The steps of a bucket, each of which may read the clock. -/
def steps (s : Traffic η) : Traffic.Move η → List (World η × World η)
  | .poll i =>
    match s.visits[i]? with
    | some (.asking p) => p.steps s.world
    | _ => []
  | .look => [(s.world, (b.available s.world).2)]
  | _ => []

/-- The time of the last refill is another. -/
def Credits (e : World η × World η) : Prop :=
  (b.account.get e.2).lastRefill ≠ (b.account.get e.1).lastRefill

instance : DecidablePred b.Credits := fun _ => inferInstanceAs (Decidable (_ ≠ _))

/-- The readings of the clock that a move is credited time for. -/
def readings (s : Traffic η) (m : Traffic.Move η) : List Instant :=
  ((b.steps s m).filter (b.Credits ·)).map fun e => b.clock.now e.1

/-- The readings of all moves, in their order. -/
def readingsOf : List (Traffic.Move η) → Traffic η → List Instant
  | [], _ => []
  | m :: moves, s => b.readings s m ++ readingsOf moves (b.serve s m)

/-- The beginning and every reading that counts. -/
def times (moves : List (Traffic.Move η)) (w : World η) : List Instant :=
  b.clock.now w :: b.readingsOf moves (b.opened w)

/-- What is available in exact arithmetic, together with what was granted out of it. -/
def provided (s : Traffic η) : Rat := (b.account.get s.world).available + s.granted

/-- What a move adds, unless it gives back what was granted. -/
def refilled (s : Traffic η) (m : Traffic.Move η) : Rat :=
  match m with
  | .release .. => 0
  | _ => b.provided (b.serve s m) - b.provided s

def refilledBy : List (Traffic.Move η) → Traffic η → Rat
  | [], _ => 0
  | m :: moves, s => b.refilled s m + refilledBy moves (b.serve s m)

/-- The account is left alone for nothing, or it is refilled and then the price is taken out. -/
def Charges (w : World η) (price : Nat) (w' : World η) : Prop :=
  (b.account.get w' = b.account.get w ∧ price = 0) ∨
    let s := (b.account.get w).refill b.config (b.clock.now w)
    (b.account.get w').lastRefill = s.lastRefill ∧
      (b.account.get w').available + price = s.available

/-- A token is paid for by its cost, a refusal by nothing. -/
def Paid : Except RetryError (RetryToken η) → Nat → Prop
  | .ok t, paid => paid = t.cost ∧ t.ledger = some b.ledger
  | .error _, paid => paid = 0

/-- Calls pay for what they are answered, and tokens are the bucket's. -/
def Billed : Visit η → Prop
  | .asking p => p.Pays b.account.get b.Charges b.Paid
  | .holding t => t.ledger = some b.ledger
  | .over => True

/-- Neither the log nor sleeping touches the account. -/
structure Apart : Prop where
  logs : ∀ (w : World η) level fields message,
    b.account.get (w.emit level fields message) = b.account.get w
  sleeps : ∀ d, (b.clock.sleep d).Leaves b.account.get

/-- From some world on, with something paid since, no more was refilled than the rate makes of the
time by which the last refill moved on; and the last refill is at one of the times. -/
structure Earns (times : List Instant) (w₀ : World η) (paid : Nat) (w : World η) : Prop where
  listed : (b.account.get w).lastRefill ∈ times
  le : (b.account.get w).available + paid ≤ (b.account.get w₀).available +
    b.config.refillRate * (b.account.get w).lastRefill.secondsSince (b.account.get w₀).lastRefill

variable {b} {w w' : World η} {times : List Instant}

theorem Charges.of_same (h : b.account.get w' = b.account.get w) : b.Charges w 0 w' :=
  .inl ⟨h, rfl⟩

theorem charges_take (w : World η) (cost : Nat) :
    match b.take cost w with
    | (.ok (), w') => b.Charges w cost w'
    | (.error _, w') => b.Charges w 0 w' := by
  unfold StandardBucket.take BucketState.take
  dsimp only
  split
  · rename_i heq
    split at heq
    · obtain ⟨-, rfl⟩ := heq
      refine .inr ?_
      rw [b.account.get_set]
      exact ⟨rfl, sub_add_cancel _ _⟩
    · cases heq
  · rename_i heq
    split at heq
    · cases heq
    · obtain ⟨-, rfl⟩ := heq
      refine .inr ?_
      rw [b.account.get_set]
      exact ⟨rfl, by simp⟩

/-- A release leaves the last refill where it is. -/
theorem lastRefill_release (hb : b.Apart) {t : RetryToken η} (ht : t.ledger = some b.ledger)
    (outcome : TokenOutcome) (w : World η) :
    (b.account.get (t.release outcome w)).lastRefill = (b.account.get w).lastRefill := by
  simp only [RetryToken.release, ht, ledger, poll_giving]
  split
  · rw [b.account.get_modify]
    rfl
  · rw [hb.logs]

/-- A token that is let go leaves the account alone. -/
theorem account_drop (hb : b.Apart) {t : RetryToken η} (ht : t.ledger = some b.ledger)
    (w : World η) : b.account.get (t.drop w) = b.account.get w := by
  have hfailed : TokenOutcome.retryableFailure ≠ .success := by decide
  simp only [RetryToken.drop, ht, ledger, hfailed, if_false]
  rw [hb.logs, hb.logs]

theorem charges_available (w : World η) : b.Charges w 0 (b.available w).2 := by
  refine .inr ?_
  unfold StandardBucket.available
  rw [b.account.get_set]
  exact ⟨rfl, by simp⟩

theorem pays_wait (hb : b.Apart) (seen : Nat) (time : Duration) (w : World η) :
    (b.wait seen time).Pays b.account.get b.Charges Fiber.Free 0 w := by
  unfold wait
  split
  · exact .waitUntil _
  · exact .giveUpWhen (fun _ _ => .of_same) (.of_leaves (fun _ _ => .of_same) (hb.sleeps time))

theorem pays_round (hb : b.Apart) (n cost : Nat) (w : World η) :
    (b.round n cost).Pays b.account.get b.Charges
      (fun o paid => o.elim (paid = 0) fun answer => b.Paid answer paid) 0 w := by
  have hcharge := charges_take (b := b) w cost
  unfold round
  apply Fiber.Pays.gets_bind
  rcases htake : b.take cost w with ⟨missing | ⟨⟩, w₁⟩ <;> rw [htake] at hcharge
  · apply Fiber.Pays.modifyGet_bind 0 (by rwa [htake])
    rw [htake]
    unfold settle
    dsimp only
    split
    · exact .modify_bind (.of_same (hb.logs ..)) (.pure rfl)
    · apply Fiber.Pays.modify_bind (.of_same (hb.logs ..))
      exact (pays_wait hb _ missing.wait _).bind fun _ paid _ hnone => .pure hnone
  · apply Fiber.Pays.modifyGet_bind cost (by rwa [htake])
    rw [htake]
    exact .pure ⟨Nat.zero_add cost, rfl⟩

theorem pays_acquire (hb : b.Apart) (n : Nat) (cause : Option RetryCause) (w : World η) :
    (b.acquire n cause).Pays b.account.get b.Charges b.Paid 0 w := by
  unfold acquire
  dsimp only
  split
  · exact .modifyGet_bind 0 (charges_available w) (.pure rfl)
  · exact .rounds (pays_round hb n _) _ w

/-- A step of the bucket at which no reading counts beyond the times. -/
theorem Charges.earns {w₀ : World η} {paid price : Nat} (h : b.Charges w price w')
    (hw : b.Earns times w₀ paid w) (hnow : b.Credits (w, w') → b.clock.now w ∈ times)
    (hfit : ∀ t ∈ times, ∀ t' ∈ times, (t.microsSince? t').isSome) :
    b.Earns times w₀ (paid + price) w' := by
  obtain ⟨hsame, rfl⟩ | ⟨hlast, havailable⟩ := h
  · rw [Nat.add_zero]
    exact ⟨hsame ▸ hw.listed, hsame ▸ hw.le⟩
  · have hmove := BucketState.refill_lastRefill b.config (b.clock.now w) (b.account.get w)
    have hadded := BucketState.refill_available_le b.config (b.clock.now w) (b.account.get w)
      fun hne => hfit _ (hnow (by unfold Credits; rwa [hlast])) _ hw.listed
    have hle := hw.le
    rw [← hlast] at hmove hadded
    refine ⟨?_, ?_⟩
    · by_cases hcredit : b.Credits (w, w')
      · rw [hmove.resolve_left hcredit]
        exact hnow hcredit
      · rw [show (b.account.get w').lastRefill = _ from not_not.mp hcredit]
        exact hw.listed
    · unfold Instant.secondsSince at hle hadded ⊢
      push_cast
      linarith

/-- Calls pay for what they are answered, and the last refill is at one of the times. -/
structure Timed (b : StandardBucket η Rat) (times : List Instant) (s : Traffic η) : Prop where
  billed : ∀ v ∈ s.visits, b.Billed v
  listed : (b.account.get s.world).lastRefill ∈ times

namespace Timed

variable {s : Traffic η}

theorem opened (b : StandardBucket η Rat) (w : World η) (h : b.clock.now w ∈ times) :
    b.Timed times (b.opened w) where
  billed _ hv := by cases hv
  listed := by
    unfold StandardBucket.opened openAccount
    rw [b.account.get_set]
    exact h

theorem start (h : b.Timed times s) : b.Earns times s.world 0 s.world :=
  ⟨h.listed, by simp [Instant.secondsSince]⟩

/-- A poll adds what it is credited time for, and its answer is paid out of it. -/
theorem answer (h : b.Timed times s) (i : Nat)
    {p : Paused (World η) (Except RetryError (RetryToken η))}
    (hp : p.Pays b.account.get b.Charges b.Paid)
    (hnow : ∀ e ∈ p.steps s.world, b.Credits e → b.clock.now e.1 ∈ times)
    (hfit : ∀ t ∈ times, ∀ t' ∈ times, (t.microsSince? t').isSome) :
    let s' := answer i s (p.poll s.world)
    b.Timed times s' ∧ b.provided s' ≤ b.provided s + b.config.refillRate *
      (b.account.get s'.world).lastRefill.secondsSince (b.account.get s.world).lastRefill := by
  have hsettled := hp.poll (Q := b.Earns times s.world) h.start
    fun e he paid price hcharge hearns => hcharge.earns hearns (hnow e he) hfit
  rcases hpoll : p.poll s.world with ⟨(e | t) | text | q, w⟩ <;> rw [hpoll] at hsettled
  · obtain ⟨_, rfl, hearns⟩ := hsettled
    refine ⟨⟨forall_mem_set h.billed i trivial, hearns.listed⟩, ?_⟩
    have hle := hearns.le
    simp only [StandardBucket.answer, provided]
    linarith
  · obtain ⟨_, ⟨rfl, hledger⟩, hearns⟩ := hsettled
    refine ⟨⟨forall_mem_set h.billed i hledger, hearns.listed⟩, ?_⟩
    have hle := hearns.le
    simp only [StandardBucket.answer, provided]
    push_cast
    linarith
  · refine ⟨⟨forall_mem_set h.billed i trivial, hsettled.listed⟩, ?_⟩
    have hle := hsettled.le
    simp only [StandardBucket.answer, provided]
    linarith
  · obtain ⟨hq, hearns⟩ := hsettled
    refine ⟨⟨forall_mem_set h.billed i hq, hearns.listed⟩, ?_⟩
    have hle := hearns.le
    simp only [StandardBucket.answer, provided]
    linarith

/-- One move. Releases and others leave the last refill where it is. -/
theorem serve (hb : b.Apart) (h : b.Timed times s) {m : Traffic.Move η} (hm : b.Minds m)
    (hreadings : ∀ t ∈ b.readings s m, t ∈ times)
    (hfit : ∀ t ∈ times, ∀ t' ∈ times, (t.microsSince? t').isSome) :
    b.Timed times (b.serve s m) ∧ b.refilled s m ≤ b.config.refillRate *
      (b.account.get (b.serve s m).world).lastRefill.secondsSince
        (b.account.get s.world).lastRefill := by
  have hnow (e : World η × World η) (he : e ∈ b.steps s m) (hcredits : b.Credits e) :
      b.clock.now e.1 ∈ times :=
    hreadings _ (List.mem_map_of_mem (List.mem_filter.mpr ⟨he, by simpa using hcredits⟩))
  have hidle : b.provided s - b.provided s ≤ b.config.refillRate *
      (b.account.get s.world).lastRefill.secondsSince (b.account.get s.world).lastRefill := by
    simp [Instant.secondsSince]
  cases m with
  | ask n cause =>
    refine ⟨⟨fun v hv => ?_, h.listed⟩, hidle⟩
    rcases List.mem_append.mp hv with hv | hv
    · exact h.billed v hv
    · rw [List.mem_singleton.mp hv]
      exact Paused.Pays.start (pays_acquire hb n cause)
  | poll i =>
    simp only [StandardBucket.serve, refilled, steps] at hnow ⊢
    rcases hi : s.visits[i]? with _ | p | t | _
    · exact ⟨h, hidle⟩
    · rw [hi] at hnow
      have hanswer := h.answer i (h.billed _ (List.mem_of_getElem? hi)) hnow hfit
      exact ⟨hanswer.1, sub_le_iff_le_add'.mpr hanswer.2⟩
    · exact ⟨h, hidle⟩
    · exact ⟨h, hidle⟩
  | release i outcome =>
    simp only [StandardBucket.serve, refilled]
    rcases hi : s.visits[i]? with _ | p | t | _
    · exact ⟨h, by simp [Instant.secondsSince]⟩
    · exact ⟨h, by simp [Instant.secondsSince]⟩
    · have ht : t.ledger = some b.ledger := h.billed _ (List.mem_of_getElem? hi)
      have hlast := lastRefill_release hb ht outcome s.world
      refine ⟨⟨forall_mem_set h.billed i trivial, hlast ▸ h.listed⟩, ?_⟩
      simp [hlast, Instant.secondsSince]
    · exact ⟨h, by simp [Instant.secondsSince]⟩
  | letGo i =>
    simp only [StandardBucket.serve, refilled]
    rcases hi : s.visits[i]? with _ | p | t | _
    · exact ⟨h, hidle⟩
    · have hp : p.Pays b.account.get b.Charges b.Paid := h.billed _ (List.mem_of_getElem? hi)
      have hsame : b.account.get (p.drop s.world) = b.account.get s.world := (hp s.world).1
      refine ⟨⟨forall_mem_set h.billed i trivial, hsame ▸ h.listed⟩, ?_⟩
      simp [provided, hsame, Instant.secondsSince]
    · have ht : t.ledger = some b.ledger := h.billed _ (List.mem_of_getElem? hi)
      have hsame := account_drop hb ht s.world
      refine ⟨⟨forall_mem_set h.billed i trivial, hsame ▸ h.listed⟩, ?_⟩
      simp [provided, hsame, Instant.secondsSince]
    · exact ⟨h, hidle⟩
  | look =>
    have hearns := (charges_available s.world).earns h.start
      (hnow (s.world, (b.available s.world).2) (List.mem_singleton_self _)) hfit
    have hle := hearns.le
    refine ⟨⟨h.billed, hearns.listed⟩, ?_⟩
    simp only [StandardBucket.serve, refilled, provided]
    push_cast at hle
    linarith
  | others f =>
    have hsame : b.account.get (f s.world) = b.account.get s.world := hm s.world
    refine ⟨⟨h.billed, hsame ▸ h.listed⟩, ?_⟩
    simp [StandardBucket.serve, refilled, provided, hsame, Instant.secondsSince]

/-- Any number of moves, of which the times are the sum. -/
theorem serveAll (hb : b.Apart) (h : b.Timed times s) {moves : List (Traffic.Move η)}
    (hm : ∀ m ∈ moves, b.Minds m) (hreadings : ∀ t ∈ b.readingsOf moves s, t ∈ times)
    (hfit : ∀ t ∈ times, ∀ t' ∈ times, (t.microsSince? t').isSome) :
    b.Timed times (b.serveAll moves s) ∧ b.refilledBy moves s ≤ b.config.refillRate *
      (b.account.get (b.serveAll moves s).world).lastRefill.secondsSince
        (b.account.get s.world).lastRefill := by
  induction moves generalizing s with
  | nil => exact ⟨h, by simp [refilledBy, StandardBucket.serveAll, Instant.secondsSince]⟩
  | cons m moves ih =>
    rw [List.forall_mem_cons] at hm
    rw [readingsOf, List.forall_mem_append] at hreadings
    obtain ⟨hserved, hfirst⟩ := h.serve hb hm.1 hreadings.1 hfit
    obtain ⟨hdone, hrest⟩ := ih hserved hm.2 hreadings.2
    refine ⟨hdone, ?_⟩
    change b.refilled s m + b.refilledBy moves (b.serve s m) ≤ b.config.refillRate *
      (b.account.get (b.serveAll moves (b.serve s m)).world).lastRefill.secondsSince _
    unfold Instant.secondsSince at hfirst hrest ⊢
    linarith

end Timed

/-- All that is ever refilled is at most what the rate makes of the time from the beginning to the
highest reading of the clock, in whatever order the clock runs through its readings. -/
theorem refilled_le_elapsed (b : StandardBucket η Rat) (hb : b.Apart) (w : World η)
    (moves : List (Traffic.Move η)) (hm : ∀ m ∈ moves, b.Minds m)
    (hfit : ∀ t ∈ b.times moves w, ∀ t' ∈ b.times moves w, (t.microsSince? t').isSome) :
    ∃ highest ∈ b.times moves w, (∀ t ∈ b.times moves w, t ≤ highest) ∧
      b.refilledBy moves (b.opened w) ≤
        b.config.refillRate * highest.secondsSince (b.clock.now w) := by
  have hstart : b.Timed (b.times moves w) (b.opened w) := .opened b w List.mem_cons_self
  obtain ⟨hdone, hle⟩ := hstart.serveAll hb hm (fun t ht => List.mem_cons_of_mem _ ht) hfit
  have hopened : (b.account.get (b.opened w).world).lastRefill = b.clock.now w := by
    unfold StandardBucket.opened openAccount
    rw [b.account.get_set]
    rfl
  obtain ⟨highest, hmem, hhighest⟩ := Instant.exists_highest hdone.listed
  refine ⟨highest, hmem, hhighest, hle.trans ?_⟩
  rw [hopened]
  exact mul_le_mul_of_nonneg_left (Instant.secondsSince_mono (hhighest _ hdone.listed) _)
    (Nat.cast_nonneg _)

/-- A hundred units, of which an attempt takes sixty, and five units a second. -/
def refillingBucket : StandardBucket (BucketState Rat) Rat :=
  ⟨⟨100, 60, 5, 5, 2, 5, false⟩, World.manualClock, World.hostLens, 99⟩

/-- An attempt fails. Then the clock runs over the same three seconds again and again. -/
def turningTraffic : List (Traffic.Move (BucketState Rat)) :=
  [.ask 1 none, .poll 0, .release 0 .retryableFailure, .others (World.advance · (.ofSecs 3)), .look,
    .others (World.moveTo · .epoch), .look, .others (World.advance · (.ofSecs 3)), .look,
    .others (World.moveTo · .epoch), .others (World.advance · (.ofSecs 4)), .look]

/-- Four seconds earn twenty units, and the three that passed before earn nothing more. -/
theorem refilled_le_elapsed_turning :
    let w : World (BucketState Rat) := .start .epoch .epoch (.full refillingBucket.config .epoch)
    refillingBucket.refilledBy turningTraffic (refillingBucket.opened w) = 20 ∧
      ∃ highest ∈ refillingBucket.times turningTraffic w,
        (∀ t ∈ refillingBucket.times turningTraffic w, t ≤ highest) ∧
          refillingBucket.refilledBy turningTraffic (refillingBucket.opened w) ≤
            5 * highest.secondsSince .epoch := by
  have hb : refillingBucket.Apart := ⟨fun _ _ _ _ => rfl, fun _ => ⟨fun _ => rfl, trivial⟩⟩
  refine ⟨by cbv, ?_⟩
  exact refillingBucket.refilled_le_elapsed hb
    (.start .epoch .epoch (.full refillingBucket.config .epoch)) turningTraffic
    (by simp [turningTraffic, Minds, refillingBucket, World.hostLens, World.advance, World.moveTo])
    (by decide +kernel)

end StandardBucket

end ClientRuntime
