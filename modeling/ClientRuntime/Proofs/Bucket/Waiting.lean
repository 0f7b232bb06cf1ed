import Mathlib
import ClientRuntime.Proofs.Bucket.Accrual
import ClientRuntime.Proofs.Float.Error

/-!
A caller that waits alone on a clock that a sleep moves on by the time slept. It is served after
some rounds, unless what it lacks becomes so little that the time to refill it is rounded to
nothing: then the clock stands still, and it goes round for good.
-/

namespace ClientRuntime

theorem Duration.eq_zero {d : Duration} (h : d.nanos = 0) : d = .zero := by
  cases d
  cases h
  rfl

namespace BucketState

variable {α : Type} [Scalar α]

/-- A caller that tries from now on and sleeps for as long as it is told is served. -/
inductive Served (c : BucketConfig) (cost : Nat) : BucketState α → Instant → Prop where
  | now {s : BucketState α} {t : Instant} (h : (s.take c t cost).1 = .ok ()) : Served c cost s t
  | later {s : BucketState α} {t : Instant} {missing : Shortfall}
      (h : (s.take c t cost).1 = .error missing) (hwait : missing.wait ≠ .longest)
      (hnext : Served c cost (s.take c t cost).2 (t.addSaturating missing.wait)) : Served c cost s t

/-- A caller that tries from now on and sleeps for as long as it is told comes to be told to sleep
for no time at all. -/
inductive Idles (c : BucketConfig) (cost : Nat) : BucketState α → Instant → Prop where
  | now {s : BucketState α} {t : Instant} {missing : Shortfall}
      (h : (s.take c t cost).1 = .error missing) (hwait : missing.wait = .zero) : Idles c cost s t
  | later {s : BucketState α} {t : Instant} {missing : Shortfall}
      (h : (s.take c t cost).1 = .error missing) (hwait : missing.wait ≠ .longest)
      (hnext : Idles c cost (s.take c t cost).2 (t.addSaturating missing.wait)) : Idles c cost s t

/-- How long a caller is told to sleep, if it is refused. -/
def told (c : BucketConfig) (now : Instant) (cost : Nat) (s : BucketState α) : Option Duration :=
  match (s.take c now cost).1 with
  | .ok () => none
  | .error missing => some missing.wait

theorem error_of_told {c : BucketConfig} {now : Instant} {cost : Nat} {s : BucketState α}
    {d : Duration} (h : s.told c now cost = some d) :
    ∃ missing, (s.take c now cost).1 = .error missing ∧ missing.wait = d := by
  unfold told at h
  split at h
  · cases h
  · exact ⟨_, ‹_›, Option.some.inj h⟩

/-- There is time left to earn what is missing from the capacity, and to wait for it once more. -/
def TimeLeft (c : BucketConfig) (s : BucketState α) (q : Rat) : Prop :=
  s.lastRefill.nanos + 5000000000 * (c.capacity - q) + 1000000000 * c.capacity + 1000 ≤ latestNanos

variable [RoundedScalar α] {c : BucketConfig} {s : BucketState α} {cost : Nat} {now : Instant}
  {q : Rat}

omit [RoundedScalar α] in
theorem settles_of_error {missing : Shortfall} (h : (s.take c now cost).1 = .error missing)
    (hwait : missing.wait ≠ .longest)
    (hnext : missing.wait = .zero ∨
      Served c cost (s.take c now cost).2 (now.addSaturating missing.wait) ∨
        Idles c cost (s.take c now cost).2 (now.addSaturating missing.wait)) :
    Served c cost s now ∨ Idles c cost s now := by
  rcases hnext with hzero | hserved | hidles
  · exact .inr (.now h hzero)
  · exact .inl (.later h hwait hserved)
  · exact .inr (.later h hwait hidles)

omit [Scalar α] [RoundedScalar α] in
/-- Earning takes the time that it may take. -/
theorem TimeLeft.grows {s' : BucketState α} {q' : Rat} (h : s.TimeLeft c q)
    (htime : 997 * ((s'.lastRefill.nanos : Rat) - s.lastRefill.nanos - 999) ≤
      2000000000000 * (q' - q)) (hmore : 997 ≤ 2000000000 * (q' - q)) : s'.TimeLeft c q' := by
  unfold TimeLeft at h ⊢
  linarith

theorem wait_ne_longest (hc : c.Sized) (hrate : c.refillRate ≠ 0) (hcost : cost ≤ c.capacity)
    (hs : s.Short cost now q) : waitFor c (Scalar.ofNat cost - s.available) ≠ .longest := by
  have hle := hs.wait_le hc hrate hcost
  have hcapacity := hc.capacity
  intro hlongest
  rw [hlongest] at hle
  change (1 <<< 64) * 1000000000 - 1 ≤ _ at hle
  rw [Nat.one_shiftLeft] at hle
  omega

/-- A sleep of the time that a refused caller waits moves the clock on by that time. -/
theorem Short.nanos_after (hc : c.Sized) (hrate : c.refillRate ≠ 0) (hcost : cost ≤ c.capacity)
    (hs : s.Short cost now q) (hleft : s.TimeLeft c q) :
    (now.addSaturating (waitFor c (Scalar.ofNat cost - s.available))).nanos =
      now.nanos + (waitFor c (Scalar.ofNat cost - s.available)).nanos := by
  have hle := hs.wait_le hc hrate hcost
  have hcapacity := hc.capacity
  have hrecent := hs.justAfter.lt
  have hq : q ≤ c.capacity := hs.lt.le.trans (by exact_mod_cast hcost)
  have hroom : s.lastRefill.nanos + 1000000000 * (c.capacity : Int) + 1000 ≤ latestNanos := by
    unfold TimeLeft at hleft
    have : (s.lastRefill.nanos : Rat) + 1000000000 * c.capacity + 1000 ≤ latestNanos := by linarith
    exact_mod_cast this
  apply Instant.nanos_addSaturating_of_le
  omega

/-- The sleeps of a refused caller come to an end, or one of them is for no time. Each either stays
within the microsecond after the last refill, or earns units: the induction is on the units that are
missing, and for the same units on the nanoseconds that are left of the microsecond. -/
theorem Short.settles (hc : c.Sized) (hrate : c.refillRate ≠ 0) (hcost : cost ≤ c.capacity)
    {units nanos : Nat} (hs : s.Short cost now q) (hleft : s.TimeLeft c q)
    (hunits : (cost - q) * 2 ^ 21 ≤ units)
    (hnanos : s.lastRefill.nanos + 1000 - now.nanos ≤ nanos) :
    let wait := waitFor c (Scalar.ofNat cost - s.available)
    wait = .zero ∨ Served c cost s (now.addSaturating wait) ∨
      Idles c cost s (now.addSaturating wait) := by
  induction units generalizing s now q nanos with
  | zero =>
    have := hs.lt
    norm_num at hunits
    linarith
  | succ units ihunits =>
    induction nanos generalizing now with
    | zero =>
      have := hs.justAfter.lt
      omega
    | succ nanos ihnanos =>
      have hafter := hs.nanos_after hc hrate hcost hleft
      have hlongest := wait_ne_longest hc hrate hcost hs
      have hshort := hs.wait_le hc hrate hcost
      have hrecent := hs.justAfter.lt
      have hcapacity := hc.capacity
      dsimp only
      by_cases hzero : waitFor c (Scalar.ofNat cost - s.available) = .zero
      · exact .inl hzero
      · have hpos : 0 < (waitFor c (Scalar.ofNat cost - s.available)).nanos :=
          Nat.pos_of_ne_zero fun hnone => hzero (Duration.eq_zero hnone)
        refine .inr ?_
        generalize now.addSaturating (waitFor c (Scalar.ofNat cost - s.available)) = later at hafter
        by_cases hpassed : s.lastRefill.nanos + 1000 ≤ later.nanos
        · rcases htake : (s.take c later cost).1 with missing | ⟨⟩
          · obtain ⟨q', hs', hlast, htime, hmore⟩ :=
              hs.grows hc hrate hcost hpassed (by omega) htake
            obtain ⟨-, hstate, hwait⟩ := take_error htake
            rw [← hstate] at hwait
            apply settles_of_error htake (hwait ▸ wait_ne_longest hc hrate hcost hs')
            rw [hwait]
            apply ihunits hs' (hleft.grows (by rwa [hlast]) hmore)
            · push_cast at hunits
              linarith
            · exact Int.self_le_toNat _
          · exact .inl (.now htake)
        · obtain ⟨⟨missing, htake⟩, hs'⟩ := hs.still hc hrate hcost (by omega) (not_le.mp hpassed)
          have herror : (s.take c later cost).1 = .error missing := congrArg Prod.fst htake
          have hstate : (s.take c later cost).2 = s := congrArg Prod.snd htake
          have hwait := (take_error herror).2.2
          rw [← (take_error herror).2.1, hstate] at hwait
          apply settles_of_error herror (hwait ▸ hlongest)
          rw [hwait, hstate]
          exact ihnanos hs' (by omega)

/-- From any state within its bounds, with enough time left, a caller is served after some tries or
comes to be told to sleep for no time at all. -/
theorem Bounded.settles (hc : c.Sized) (hrate : c.refillRate ≠ 0) (hcost : cost ≤ c.capacity)
    (hs : s.Bounded c)
    (hleft : max s.lastRefill.nanos now.nanos + 6000000000 * (c.capacity + 1) ≤ latestNanos) :
    Served c cost s now ∨ Idles c cost s now := by
  rcases htake : (s.take c now cost).1 with missing | ⟨⟩
  · obtain ⟨q, hshort⟩ := hs.short_of_error hc hrate hcost htake
    obtain ⟨-, hstate, hwait⟩ := take_error htake
    rw [← hstate] at hwait
    have hlast : (s.take c now cost).2.lastRefill.nanos ≤ max s.lastRefill.nanos now.nanos := by
      rw [hstate]
      rcases refill_lastRefill c now s with h | h <;> rw [h]
      · exact le_max_left _ _
      · exact le_max_right _ _
    have htime : (s.take c now cost).2.TimeLeft c q := by
      have hpos := hshort.nonneg
      have hbound : ((s.take c now cost).2.lastRefill.nanos : Rat) +
          6000000000 * (c.capacity + 1) ≤ latestNanos := by
        exact_mod_cast (by omega : (s.take c now cost).2.lastRefill.nanos +
          6000000000 * ((c.capacity : Int) + 1) ≤ latestNanos)
      unfold TimeLeft
      linarith
    apply settles_of_error htake (hwait ▸ wait_ne_longest hc hrate hcost hshort)
    rw [hwait]
    exact hshort.settles hc hrate hcost htime (Nat.le_ceil _) (Int.self_le_toNat _)
  · exact .inl (.now htake)

end BucketState

/-- A fiber that ends at once is not given up. -/
theorem Fiber.poll_giveUpLater {σ β : Type} {fired : σ → Bool} {instead m : Fiber σ β} {s s' : σ}
    {a : β} (h : m.poll s = (.ready a, s')) :
    (giveUpLater fired instead m).poll s = (.ready a, s') := by
  induction m generalizing s with
  | done | panic => exact h
  | read next ih => exact ih s h
  | update f next ih => exact ih h
  | block => cases h

namespace StandardBucket

variable {η α : Type} [Scalar α] (b : StandardBucket η α)

/-- A sleep ends at once and moves the clock on by the time slept. Neither it nor the log touches
the account, and neither the log nor the account touches the clock. -/
structure Punctual : Prop where
  sleeps : ∀ (d : Duration) (w : World η), ∃ w', (b.clock.sleep d).poll w = (.ready (), w') ∧
    b.clock.now w' = (b.clock.now w).addSaturating d ∧ b.account.get w' = b.account.get w
  logs : ∀ (w : World η) level fields message,
    b.account.get (w.emit level fields message) = b.account.get w ∧
      b.clock.now (w.emit level fields message) = b.clock.now w
  books : ∀ (s : BucketState α) (w : World η), b.clock.now (b.account.set s w) = b.clock.now w

/-- The bucket, with as many rounds of its calls followed. -/
def following (rounds : Nat) : StandardBucket η α := { b with rounds }

/-- A call that nobody disturbs gets its token at the end of some rounds. It does so in a single
poll, however many more rounds are followed. -/
def Grants (n : Nat) (cause : Option RetryCause) (w : World η) : Prop :=
  let cost := b.config.costFor n cause
  ∃ k w₁ w₂, (b.round n cost).Fruitless k w w₁ ∧
    (b.round n cost).poll w₁ = (.ready (some (.ok ⟨n, cost, some b.ledger⟩)), w₂) ∧
    ∀ rounds, k ≤ rounds → ((b.following rounds).acquire n cause).poll w =
      (.ready (.ok ⟨n, cost, some b.ledger⟩), w₂)

/-- After some rounds a call that nobody disturbs is told to sleep for no time at all, and so it is
in each round after that. However many rounds are followed, it is not answered. -/
def Spins (n : Nat) (cause : Option RetryCause) (w : World η) : Prop :=
  let cost := b.config.costFor n cause
  (∃ k w₁, (b.round n cost).Fruitless k w w₁ ∧ ∀ j, ∃ w₂ missing,
    (b.round n cost).Fruitless j w₁ w₂ ∧ (b.take cost w₂).1 = .error missing ∧
      missing.wait = .zero) ∧
  ∀ rounds answer w', ((b.following rounds).acquire n cause).poll w ≠ (.ready answer, w')

variable {b} {w : World η} {n cost : Nat} {cause : Option RetryCause}

/-- What a call does in a round has nothing to do with how many are followed. -/
theorem acquire_following (hcost : b.config.costFor n cause ≤ b.config.capacity) (rounds : Nat) :
    (b.following rounds).acquire n cause =
      (b.round n (b.config.costFor n cause)).rounds (rounds + 1) :=
  acquire_of_le (b := b.following rounds) hcost

omit [Scalar α] in
/-- A wait for a time that comes is a sleep, if nothing is given back meanwhile. -/
theorem poll_wait (hb : b.Punctual) {time : Duration} (htime : time ≠ .longest) {seen : Nat}
    (hquiet : b.returnsSince seen w = false) :
    ∃ w', (b.wait seen time).poll w = (.ready (), w') ∧
      b.clock.now w' = (b.clock.now w).addSaturating time ∧ b.account.get w' = b.account.get w := by
  obtain ⟨w', hsleep, hnow, haccount⟩ := hb.sleeps time w
  refine ⟨w', ?_, hnow, haccount⟩
  unfold wait Fiber.giveUpWhen
  rw [if_neg htime]
  simp only [Fiber.poll, hquiet, Bool.false_eq_true, if_false]
  exact Fiber.poll_giveUpLater hsleep

/-- A refused call sleeps, and its round has no answer. -/
theorem poll_round_slept (hb : b.Punctual) (hwaits : b.config.circuitBreaker = false)
    {missing : Shortfall} (h : (b.take cost w).1 = .error missing)
    (hwait : missing.wait ≠ .longest) (n : Nat) :
    ∃ w', (b.round n cost).poll w = (.ready none, w') ∧
      b.clock.now w' = (b.clock.now w).addSaturating missing.wait ∧
      b.account.get w' = ((b.account.get w).take b.config (b.clock.now w) cost).2 := by
  have hlogs (w : World η) (level : LogLevel) (fields : List (String × LogValue))
      (message : String) := (hb.logs w level fields message).1
  have hnow : b.clock.now (noteWait n cost missing (b.take cost w).2) = b.clock.now w :=
    (hb.logs ..).2.trans (hb.books _ _)
  have haccount : b.account.get (noteWait n cost missing (b.take cost w).2) =
      ((b.account.get w).take b.config (b.clock.now w) cost).2 :=
    (hlogs ..).trans (get_take cost w)
  obtain ⟨w', hslept, hlater, hsame⟩ :=
    poll_wait hb hwait (returnsSince_noteWait hlogs n cost missing w)
  refine ⟨w', ?_, hlater.trans (by rw [hnow]), hsame.trans haccount⟩
  rw [poll_round_waiting hwaits h, Fiber.poll_bind, hslept]
  rfl

/-- The sleeps of a call are those that its account tells. -/
theorem fruitless_of_served (hb : b.Punctual) (hwaits : b.config.circuitBreaker = false)
    {s : BucketState α} {t : Instant} (h : s.Served b.config cost t) (n : Nat)
    (hs : b.account.get w = s) (ht : b.clock.now w = t) :
    ∃ k w₁, (b.round n cost).Fruitless k w w₁ ∧ (b.take cost w₁).1 = .ok () := by
  induction h generalizing w with
  | @now s t htake =>
    refine ⟨0, w, .none w, ?_⟩
    rw [take, hs, ht]
    exact htake
  | @later s t missing htake hwait hnext ih =>
    have herror : (b.take cost w).1 = .error missing := by
      rw [take, hs, ht]
      exact htake
    obtain ⟨w', hround, hnow, haccount⟩ := poll_round_slept hb hwaits herror hwait n
    obtain ⟨k, w₁, hrounds, hok⟩ := ih (w := w') (by rw [haccount, hs, ht]) (by rw [hnow, ht])
    exact ⟨k + 1, w₁, .more hround hrounds, hok⟩

theorem grants_of_served (hb : b.Punctual) (hwaits : b.config.circuitBreaker = false)
    (hcost : b.config.costFor n cause ≤ b.config.capacity)
    (h : (b.account.get w).Served b.config (b.config.costFor n cause) (b.clock.now w)) :
    b.Grants n cause w := by
  obtain ⟨k, w₁, hrounds, hok⟩ := fruitless_of_served hb hwaits h n rfl rfl
  have hround := poll_round_granted hok n
  refine ⟨k, w₁, _, hrounds, hround, fun rounds hle => ?_⟩
  obtain ⟨rest, rfl⟩ := Nat.exists_eq_add_of_le' hle
  rw [acquire_following hcost, Nat.add_right_comm, hrounds.poll_rounds]
  exact Fiber.poll_rounds_of_some hround rest

theorem fruitless_of_idles (hb : b.Punctual) (hwaits : b.config.circuitBreaker = false)
    {s : BucketState α} {t : Instant} (h : s.Idles b.config cost t) (n : Nat)
    (hs : b.account.get w = s) (ht : b.clock.now w = t) :
    ∃ k w₁ missing, (b.round n cost).Fruitless k w w₁ ∧ (b.take cost w₁).1 = .error missing ∧
      missing.wait = .zero := by
  induction h generalizing w with
  | @now s t missing htake hzero =>
    refine ⟨0, w, missing, .none w, ?_, hzero⟩
    rw [take, hs, ht]
    exact htake
  | @later s t missing htake hwait hnext ih =>
    have herror : (b.take cost w).1 = .error missing := by
      rw [take, hs, ht]
      exact htake
    obtain ⟨w', hround, hnow, haccount⟩ := poll_round_slept hb hwaits herror hwait n
    obtain ⟨k, w₁, least, hrounds, hleast⟩ :=
      ih (w := w') (by rw [haccount, hs, ht]) (by rw [hnow, ht])
    exact ⟨k + 1, w₁, least, .more hround hrounds, hleast⟩

/-- A sleep of no time leads back to the same refusal. -/
theorem fruitless_of_zero (hb : b.Punctual) (hwaits : b.config.circuitBreaker = false)
    {missing : Shortfall} (h : (b.take cost w).1 = .error missing) (hzero : missing.wait = .zero)
    (n j : Nat) :
    ∃ w₂, (b.round n cost).Fruitless j w w₂ ∧ (b.take cost w₂).1 = .error missing := by
  have hlongest : missing.wait ≠ .longest := by
    rw [hzero]
    decide
  induction j generalizing w with
  | zero => exact ⟨w, .none w, h⟩
  | succ j ih =>
    obtain ⟨w₁, hround, hnow, haccount⟩ := poll_round_slept hb hwaits h hlongest n
    have hagain : (b.take cost w₁).1 = .error missing := by
      rw [hzero, Instant.addSaturating_zero] at hnow
      rw [take, hnow, haccount]
      exact congrArg Prod.fst (BucketState.take_again h)
    obtain ⟨w₂, hrounds, herror⟩ := ih hagain
    exact ⟨w₂, .more hround hrounds, herror⟩

theorem spins_of_idles (hb : b.Punctual) (hwaits : b.config.circuitBreaker = false)
    (hcost : b.config.costFor n cause ≤ b.config.capacity)
    (h : (b.account.get w).Idles b.config (b.config.costFor n cause) (b.clock.now w)) :
    b.Spins n cause w := by
  obtain ⟨k, w₁, missing, hfirst, herror, hzero⟩ := fruitless_of_idles hb hwaits h n rfl rfl
  have hon := fruitless_of_zero hb hwaits herror hzero n
  refine ⟨⟨k, w₁, hfirst, fun j => ?_⟩, fun rounds => ?_⟩
  · obtain ⟨w₂, hrounds, hagain⟩ := hon j
    exact ⟨w₂, missing, hrounds, hagain, hzero⟩
  · obtain ⟨w₂, hrounds, -⟩ := hon (rounds + 1)
    obtain ⟨w₃, hall⟩ := (hfirst.trans hrounds).left
    rw [acquire_following hcost]
    exact hall.not_answered

/-- A call for no more than the capacity that nobody disturbs, on a bucket that refills and waits,
with a clock that sleeps move on and that is far from its end, gets its token after some rounds,
unless what it lacks becomes so little that it is told to sleep for no time at all: then it goes
round for good. -/
theorem lone_acquire_granted_or_spins [RoundedScalar α] (b : StandardBucket η α) (hb : b.Regular)
    (hclock : b.Punctual) (hwaits : b.config.circuitBreaker = false)
    (hrate : b.config.refillRate ≠ 0) (w : World η) (moves : List (Traffic.Move η))
    (hm : ∀ m ∈ moves, b.Minds m) (n : Nat) (cause : Option RetryCause)
    (hcost : b.config.costFor n cause ≤ b.config.capacity) :
    let w' := (b.serveAll moves (b.opened w)).world
    max (b.account.get w').lastRefill.nanos (b.clock.now w').nanos +
        6000000000 * (b.config.capacity + 1) ≤ latestNanos →
      b.Grants n cause w' ∨ b.Spins n cause w' := by
  intro w' hleft
  have hwithin : b.Within w' := ((Contained.opened hb w).serveAll hb hm).within
  rcases hwithin.settles hb.sized hrate hcost hleft with hserved | hidles
  · exact .inl (grants_of_served hclock hwaits hcost hserved)
  · exact .inr (spins_of_idles hclock hwaits hcost hidles)

/-- Three units, of which a retry takes all, on a clock that sleeps move on. -/
def loneBucket (rate : Nat) : StandardBucket (BucketState Float) Float :=
  ⟨⟨3, 1, 3, 5, 1, rate, false⟩, World.manualClock, World.hostLens, 99⟩

theorem loneBucket_punctual (rate : Nat) : (loneBucket rate).Punctual where
  sleeps _ _ := ⟨_, rfl, rfl, rfl⟩
  logs _ _ _ _ := ⟨rfl, rfl⟩
  books _ _ := rfl

/-- After another retry has taken all units. -/
def emptied (rate : Nat) : World (BucketState Float) :=
  ((loneBucket rate).serveAll [.ask 2 (some .serverError), .poll 0]
    ((loneBucket rate).opened (.start .epoch .epoch (.full (loneBucket rate).config .epoch)))).world

/-- At one unit a second a retry gets the three units that it waits for. -/
theorem lone_acquire_granted :
    max ((loneBucket 1).account.get (emptied 1)).lastRefill.nanos
          ((loneBucket 1).clock.now (emptied 1)).nanos +
        6000000000 * ((loneBucket 1).config.capacity + 1) ≤ latestNanos ∧
      (loneBucket 1).Grants 2 (some .serverError) (emptied 1) := by
  have hleft : max ((loneBucket 1).account.get (emptied 1)).lastRefill.nanos
        ((loneBucket 1).clock.now (emptied 1)).nanos +
      6000000000 * ((loneBucket 1).config.capacity + 1) ≤ latestNanos := by decide +kernel
  have hb : (loneBucket 1).Regular :=
    ⟨⟨by decide, by decide⟩, fun _ _ _ _ => rfl, fun _ => ⟨fun _ => rfl, trivial⟩⟩
  have hanswered : ∃ answer w', (((loneBucket 1).following 1).acquire 2 (some .serverError)).poll
      (emptied 1) = (.ready answer, w') := by
    have hready : (match ((((loneBucket 1).following 1).acquire 2 (some .serverError)).poll
        (emptied 1)).1 with
      | .ready _ => true
      | _ => false) = true := by decide +kernel
    generalize (((loneBucket 1).following 1).acquire 2 (some .serverError)).poll (emptied 1) =
      outcome at hready ⊢
    rcases outcome with ⟨answer | _ | _, w'⟩
    · exact ⟨answer, w', rfl⟩
    · cases hready
    · cases hready
  refine ⟨hleft, ?_⟩
  rcases (loneBucket 1).lone_acquire_granted_or_spins hb (loneBucket_punctual 1) rfl (by decide) _ _
    (by simp [Minds]) 2 (some .serverError) (by decide) hleft with hgranted | hspins
  · exact hgranted
  · obtain ⟨answer, w', hready⟩ := hanswered
    exact absurd hready (hspins.2 1 answer w')

/-- At 999999 units a second three microseconds earn hardly less than the three units, and the rest
would take less than half a nanosecond: a retry goes round for good. -/
theorem lone_acquire_never_answered :
    (loneBucket 999999).Punctual ∧ (loneBucket 999999).config.circuitBreaker = false ∧
      (loneBucket 999999).config.refillRate = 999999 ∧
      (loneBucket 999999).config.costFor 2 (some .serverError) = 3 ∧
      3 ≤ (loneBucket 999999).config.capacity ∧
      max ((loneBucket 999999).account.get (emptied 999999)).lastRefill.nanos
          ((loneBucket 999999).clock.now (emptied 999999)).nanos +
        6000000000 * ((loneBucket 999999).config.capacity + 1) ≤ latestNanos ∧
      (loneBucket 999999).Spins 2 (some .serverError) (emptied 999999) := by
  have hclock := loneBucket_punctual 999999
  refine ⟨hclock, rfl, rfl, rfl, by decide, by decide +kernel, ?_⟩
  have hidles : ((loneBucket 999999).account.get (emptied 999999)).Idles (loneBucket 999999).config
      3 .epoch := by
    obtain ⟨missing, herror, hwait⟩ := BucketState.error_of_told (show
      ((loneBucket 999999).account.get (emptied 999999)).told (loneBucket 999999).config .epoch 3 =
        some ⟨3000, by decide⟩ by decide +kernel)
    obtain ⟨least, hleast, hzero⟩ := BucketState.error_of_told (show
      (((loneBucket 999999).account.get (emptied 999999)).take (loneBucket 999999).config .epoch
        3).2.told (loneBucket 999999).config (Instant.epoch.addSaturating ⟨3000, by decide⟩) 3 =
          some .zero by decide +kernel)
    rw [← hwait] at hleast
    exact .later herror (hwait ▸ by decide) (.now hleast hzero)
  have hnow : (loneBucket 999999).clock.now (emptied 999999) = .epoch := by decide +kernel
  exact spins_of_idles hclock rfl (by decide) (hnow ▸ hidles)

end StandardBucket

end ClientRuntime
