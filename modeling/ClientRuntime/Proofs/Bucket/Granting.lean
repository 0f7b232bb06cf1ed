import Mathlib
import ClientRuntime.Proofs.Bucket.Accrual

/-!
What a bucket says that it holds and what it grants. A look floors the amount after a refill of its
own, a call compares and subtracts a fraction after another refill. They agree at every reading of
the clock: whoever asks gets at once what a look would show, and a look then shows so much less.
-/

namespace ClientRuntime

namespace BucketState

variable {α : Type} [Scalar α] {c : BucketConfig} {s : BucketState α} {cost : Nat} {now : Instant}

/-- Whole units are as many as the amount allows. -/
theorem le_units {q : Rat} (hq : Scalar.value? s.available = some q) (hpos : 0 ≤ q) {n : Nat} :
    n ≤ s.units ↔ n ≤ q := by
  unfold units Scalar.floor
  rw [hq]
  change n ≤ ⌊q⌋.toNat ↔ _
  rw [Int.le_toNat (Int.floor_nonneg.mpr hpos), Int.le_floor, Int.cast_natCast]

/-- Taking whole units out takes them from the whole units. -/
theorem units_of_sub {s' : BucketState α} {q : Rat} {n : Nat}
    (hq : Scalar.value? s.available = some q) (hq' : Scalar.value? s'.available = some (q - n))
    (hle : n ≤ q) : s'.units + n = s.units := by
  have hfloor : (n : Int) ≤ ⌊q⌋ := Int.le_floor.mpr (by exact_mod_cast hle)
  unfold units Scalar.floor
  rw [hq, hq']
  change ⌊q - n⌋.toNat + n = ⌊q⌋.toNat
  rw [Int.floor_sub_natCast]
  omega

/-- A call that is refused is told what a look would show. -/
theorem available_of_take_error {missing : Shortfall}
    (h : (s.take c now cost).1 = .error missing) : missing.available = (s.refill c now).units := by
  unfold BucketState.take at h
  dsimp only at h
  split at h
  · cases h
  · obtain rfl := Except.error.inj h
    rfl

/-- A call gets its cost if a look at that time shows it. -/
theorem Bounded.take_ok_iff [OrderedScalar α] (hc : c.Sized) (h : s.Bounded c)
    (hcost : cost ≤ c.capacity) :
    (s.take c now cost).1 = .ok () ↔ cost ≤ (s.refill c now).units := by
  obtain ⟨q, hq, hpos, -⟩ := h.refill hc now
  rw [le_units hq hpos, ← OrderedScalar.le_iff (hc.value_ofNat hcost) hq]
  unfold BucketState.take
  dsimp only
  split
  · exact iff_of_true rfl ‹_›
  · exact iff_of_false (by simp) ‹_›

/-- Where it is granted, a look at that time shows so much less. -/
theorem Bounded.units_take [UnitExact α] (hc : c.Sized) (h : s.Bounded c)
    (hcost : cost ≤ c.capacity) (hok : (s.take c now cost).1 = .ok ()) :
    ((s.take c now cost).2.refill c now).units + cost = (s.refill c now).units := by
  obtain ⟨q, hq, hpos, hle⟩ := h.refill hc now
  obtain ⟨hthere, hstate⟩ := take_ok hok
  have hcover := (OrderedScalar.le_iff (hc.value_ofNat hcost) hq).mp hthere
  have hmoderate : q < 2 ^ 53 := by
    have hcapacity : (c.capacity : Rat) < 2 ^ 53 := by
      exact_mod_cast hc.capacity.trans (by decide : 2 ^ 32 < 2 ^ 53)
    exact hle.trans_lt hcapacity
  have hrest : Scalar.value? (s.take c now cost).2.available = some (q - cost) := by
    rw [hstate]
    exact UnitExact.value_sub_ofNat hq hcover hmoderate
  rw [refill_of_refilled (s := s) (by rw [hstate])]
  exact units_of_sub hq hrest hcover

end BucketState

namespace StandardBucket

variable {η α : Type} [Scalar α] (b : StandardBucket η α)

/-- The clock reads the same whatever is kept in the account or written to the log. -/
structure ClockApart : Prop where
  books : ∀ (s : BucketState α) (w : World η), b.clock.now (b.account.set s w) = b.clock.now w
  logs : ∀ (w : World η) level fields message,
    b.clock.now (w.emit level fields message) = b.clock.now w

/-- The bucket on a clock with another way to sleep. -/
def sleepingBy (sleep : Duration → Fiber (World η) Unit) : StandardBucket η α :=
  { b with clock := { b.clock with sleep } }

/-- The first poll of a call answers, whatever a sleep would do: there is none. -/
def AnswersAtOnce (n : Nat) (cause : Option RetryCause) (w : World η)
    (answer : Except RetryError (RetryToken η)) (w' : World η) : Prop :=
  ∀ sleep, (Paused.start ((b.sleepingBy sleep).acquire n cause)).poll w = (.ready answer, w')

variable {b} {w w' : World η} {n cost : Nat} {cause : Option RetryCause}

/-- What a look shows depends on the account and the reading of the clock. -/
theorem available_of_same {s : BucketState α} (hget : b.account.get w' = s)
    (hnow : b.clock.now w' = b.clock.now w) :
    (b.available w').1 = (s.refill b.config (b.clock.now w)).units := by
  unfold available
  rw [hget, hnow]

/-- A look changes nothing that another one would show. -/
theorem available_available (hclock : b.ClockApart) (w : World η) :
    (b.available (b.available w).2).1 = (b.available w).1 := by
  rw [available_of_same (get_available w) (hclock.books _ w), BucketState.refill_refill]
  rfl

/-- Where a sleep never ends, a call that is not granted at once in a bucket that waits is not
answered by its first poll. -/
theorem poll_acquire_waiting (hb : b.Regular) (hwaits : b.config.circuitBreaker = false)
    (hsleep : ∀ d, b.clock.sleep d = Fiber.hang)
    (hcost : b.config.costFor n cause ≤ b.config.capacity) {missing : Shortfall}
    (herror : (b.take (b.config.costFor n cause) w).1 = .error missing) :
    ∃ p w', (Paused.start (b.acquire n cause)).poll w = (.pending p, w') := by
  have hround : ∃ wake cleanup next w',
      (b.round n (b.config.costFor n cause)).poll w = (.pending wake cleanup next, w') := by
    by_cases hlongest : missing.wait = .longest
    · exact ⟨_, _, _, _, poll_round_suspended hb.logs hwaits herror hlongest n⟩
    · have hquiet := returnsSince_noteWait hb.logs n (b.config.costFor n cause) missing w
      rw [poll_round_waiting hwaits herror, Fiber.poll_bind, wait, if_neg hlongest, hsleep]
      simp only [Fiber.giveUpWhen, Fiber.poll, hquiet, Bool.false_eq_true, if_false]
      exact ⟨_, _, _, _, rfl⟩
  obtain ⟨wake, cleanup, next, w', hround⟩ := hround
  rw [acquire_of_le hcost]
  exact ⟨_, _, Paused.poll_start_of_pending (Fiber.poll_rounds_of_pending hround _)⟩

theorem answersAtOnce_ok (hcost : b.config.costFor n cause ≤ b.config.capacity)
    (hok : (b.take (b.config.costFor n cause) w).1 = .ok ()) :
    b.AnswersAtOnce n cause w (.ok ⟨n, b.config.costFor n cause, some b.ledger⟩)
      (b.take (b.config.costFor n cause) w).2 := by
  intro sleep
  exact poll_acquire_granted (b := b.sleepingBy sleep) hcost hok

theorem answersAtOnce_error (hcost : b.config.costFor n cause ≤ b.config.capacity)
    (hbreaker : b.config.circuitBreaker = true) {missing : Shortfall}
    (herror : (b.take (b.config.costFor n cause) w).1 = .error missing) :
    b.AnswersAtOnce n cause w
      (.error (.capacityExceeded (b.config.costFor n cause) missing.available))
      (noteRefusal n (b.config.costFor n cause) missing.available
        (b.take (b.config.costFor n cause) w).2) := by
  intro sleep
  exact poll_acquire_refused (b := b.sleepingBy sleep) hcost hbreaker herror

theorem answersAtOnce_exceeding (hcost : b.config.capacity < b.config.costFor n cause)
    (w : World η) :
    b.AnswersAtOnce n cause w
      (.error (.capacityExceeded (b.config.costFor n cause) (b.available w).1))
      (b.available w).2 :=
  fun sleep => poll_exceeding (b := b.sleepingBy sleep) hcost w

theorem AnswersAtOnce.unique {answer answer' : Except RetryError (RetryToken η)} {w'' : World η}
    (h : b.AnswersAtOnce n cause w answer w') (h' : b.AnswersAtOnce n cause w answer' w'') :
    answer = answer' ∧ w' = w'' := by
  have heq := (h fun _ => Fiber.hang).symm.trans (h' fun _ => Fiber.hang)
  simpa using heq

/-- Who finds less than its cost is not granted it at once. -/
theorem not_granted_of_error (hb : b.Regular)
    (hcost : b.config.costFor n cause ≤ b.config.capacity) {missing : Shortfall}
    (herror : (b.take (b.config.costFor n cause) w).1 = .error missing) (t : RetryToken η) :
    ¬ b.AnswersAtOnce n cause w (.ok t) w' := by
  intro h
  by_cases hbreaker : b.config.circuitBreaker = true
  · cases (h.unique (answersAtOnce_error hcost hbreaker herror)).1
  · have hhung : (b.sleepingBy fun _ => Fiber.hang).Regular :=
      ⟨hb.sized, hb.logs, fun _ => ⟨fun _ => rfl, trivial⟩⟩
    have hwaits : (b.sleepingBy fun _ => Fiber.hang).config.circuitBreaker = false := by
      simpa [sleepingBy] using hbreaker
    obtain ⟨p, v, hpending⟩ :=
      poll_acquire_waiting (n := n) hhung hwaits (fun _ => rfl) hcost herror
    cases (h fun _ => Fiber.hang).symm.trans hpending

variable [UnitExact α]

/-- At any reading of the clock a call for what there is room for is granted at once if a look then
shows its cost, and it lowers what a look shows by just that. -/
theorem Within.granted_iff (hb : b.Regular) (h : b.Within w)
    (hcost : b.config.costFor n cause ≤ b.config.capacity) :
    (∃ t w', b.AnswersAtOnce n cause w (.ok t) w') ↔
      b.config.costFor n cause ≤ (b.available w).1 := by
  have hiff : (b.take (b.config.costFor n cause) w).1 = .ok () ↔ _ :=
    BucketState.Bounded.take_ok_iff hb.sized h hcost
  refine Iff.trans ?_ hiff
  constructor
  · rintro ⟨t, w', hgranted⟩
    rcases htake : (b.take (b.config.costFor n cause) w).1 with missing | ⟨⟩
    · exact absurd hgranted (not_granted_of_error hb hcost htake t)
    · rfl
  · intro hok
    exact ⟨_, _, answersAtOnce_ok hcost hok⟩

theorem Within.granted_lowers (hb : b.Regular) (hclock : b.ClockApart) (h : b.Within w)
    (hcost : b.config.costFor n cause ≤ b.config.capacity) {t : RetryToken η}
    (hgranted : b.AnswersAtOnce n cause w (.ok t) w') :
    t = ⟨n, b.config.costFor n cause, some b.ledger⟩ ∧
      (b.available w').1 + b.config.costFor n cause = (b.available w).1 := by
  rcases htake : (b.take (b.config.costFor n cause) w).1 with missing | ⟨⟩
  · exact absurd hgranted (not_granted_of_error hb hcost htake t)
  · obtain ⟨hanswer, rfl⟩ := hgranted.unique (answersAtOnce_ok hcost htake)
    refine ⟨Except.ok.inj hanswer, ?_⟩
    rw [available_of_same (get_take _ w) (hclock.books _ w)]
    exact BucketState.Bounded.units_take hb.sized h hcost htake

/-- A breaker refuses what a look does not show. It says what a look shows, and leaves that. -/
theorem Within.refused_unchanged (hb : b.Regular) (hclock : b.ClockApart) (h : b.Within w)
    (hcost : b.config.costFor n cause ≤ b.config.capacity)
    (hbreaker : b.config.circuitBreaker = true)
    (hless : (b.available w).1 < b.config.costFor n cause) :
    ∃ w', b.AnswersAtOnce n cause w
        (.error (.capacityExceeded (b.config.costFor n cause) (b.available w).1)) w' ∧
      (b.available w').1 = (b.available w).1 := by
  have hiff : (b.take (b.config.costFor n cause) w).1 = .ok () ↔ _ :=
    BucketState.Bounded.take_ok_iff hb.sized h hcost
  rcases htake : (b.take (b.config.costFor n cause) w).1 with missing | ⟨⟩
  · have htold : missing.available = (b.available w).1 :=
      BucketState.available_of_take_error htake
    have hrefused := answersAtOnce_error hcost hbreaker htake
    rw [htold] at hrefused
    refine ⟨_, hrefused, ?_⟩
    have hget : b.account.get (noteRefusal n (b.config.costFor n cause) (b.available w).1
        (b.take (b.config.costFor n cause) w).2) =
          (b.account.get w).refill b.config (b.clock.now w) := by
      rw [noteRefusal, hb.logs, get_take]
      exact (BucketState.take_error htake).2.1
    have hnow : b.clock.now (noteRefusal n (b.config.costFor n cause) (b.available w).1
        (b.take (b.config.costFor n cause) w).2) = b.clock.now w :=
      (hclock.logs ..).trans (hclock.books _ w)
    rw [available_of_same hget hnow, BucketState.refill_refill]
    rfl
  · exact absurd (hiff.mp htake) hless.not_ge

/-- Granting agrees with looking. Whatever callers have done and wherever the clock stands, a call
for what there is room for is granted at once if a look would show its cost. It then lowers what a
look shows by the cost; a breaker that refuses it says what a look would show, and leaves that. A
call for more than there is room for is refused at once in any state, and changes no more than a
look does. -/
theorem acquire_agrees_with_available (b : StandardBucket η α) (hb : b.Regular)
    (hclock : b.ClockApart) (w : World η) (moves : List (Traffic.Move η))
    (hm : ∀ m ∈ moves, b.Minds m) (n : Nat) (cause : Option RetryCause) :
    let v := (b.serveAll moves (b.opened w)).world
    let cost := b.config.costFor n cause
    (cost ≤ b.config.capacity →
      ((∃ t v', b.AnswersAtOnce n cause v (.ok t) v') ↔ cost ≤ (b.available v).1) ∧
      (∀ t v', b.AnswersAtOnce n cause v (.ok t) v' →
        t.cost = cost ∧ (b.available v').1 + cost = (b.available v).1) ∧
      (b.config.circuitBreaker = true → (b.available v).1 < cost →
        ∃ v', b.AnswersAtOnce n cause v
            (.error (.capacityExceeded cost (b.available v).1)) v' ∧
          (b.available v').1 = (b.available v).1)) ∧
    (b.config.capacity < cost → ∀ u,
      b.AnswersAtOnce n cause u (.error (.capacityExceeded cost (b.available u).1))
          (b.available u).2 ∧
        (b.available (b.available u).2).1 = (b.available u).1) := by
  intro v cost
  have hwithin : b.Within v := ((Contained.opened hb w).serveAll hb hm).within
  refine ⟨fun hcost => ⟨hwithin.granted_iff hb hcost, ?_, ?_⟩, fun hcost u => ?_⟩
  · intro t v' hgranted
    obtain ⟨rfl, hlowered⟩ := hwithin.granted_lowers hb hclock hcost hgranted
    exact ⟨rfl, hlowered⟩
  · intro hbreaker hless
    exact hwithin.refused_unchanged hb hclock hcost hbreaker hless
  · exact ⟨answersAtOnce_exceeding hcost u, available_available hclock u⟩

/-- Three units, of which a retry takes two and one after a timeout would take five. -/
def breakingBucket : StandardBucket (BucketState Float) Float :=
  ⟨⟨3, 1, 2, 5, 1, 1, true⟩, World.manualClock, World.hostLens, 99⟩

/-- An attempt takes a unit, and half a second passes. -/
def halfRefilled : List (Traffic.Move (BucketState Float)) :=
  [.ask 1 none, .poll 0, .others (World.advance · (.ofMillis 500))]

/-- Of two and a half units a retry gets two. Another one is refused, and so is one after a
timeout, which there is never room for. -/
theorem acquire_agrees_with_available_half_refilled :
    let opened := breakingBucket.opened (.start .epoch .epoch (.full breakingBucket.config .epoch))
    let v := (breakingBucket.serveAll halfRefilled opened).world
    let v' := (breakingBucket.serveAll
      (halfRefilled ++ [.ask 2 (some .serverError), .poll 1]) opened).world
    (∃ t u, breakingBucket.AnswersAtOnce 2 (some .serverError) v (.ok t) u ∧
      (breakingBucket.available u).1 + 2 = 2) ∧
    (∃ u, breakingBucket.AnswersAtOnce 2 (some .serverError) v'
      (.error (.capacityExceeded 2 0)) u ∧ (breakingBucket.available u).1 = 0) ∧
    breakingBucket.AnswersAtOnce 2 (some .transient) v (.error (.capacityExceeded 5 2))
      (breakingBucket.available v).2 := by
  intro opened v v'
  have hb : breakingBucket.Regular :=
    ⟨⟨by decide, by decide⟩, fun _ _ _ _ => rfl, fun _ => ⟨fun _ => rfl, trivial⟩⟩
  have hclock : breakingBucket.ClockApart := ⟨fun _ _ => rfl, fun _ _ _ _ => rfl⟩
  have hv : (breakingBucket.available v).1 = 2 := by decide +kernel
  have hv' : (breakingBucket.available v').1 = 0 := by decide +kernel
  have agrees := breakingBucket.acquire_agrees_with_available hb hclock
    (.start .epoch .epoch (.full breakingBucket.config .epoch)) halfRefilled
    (by simp [halfRefilled, Minds, breakingBucket, World.hostLens, World.advance])
  have agrees' := breakingBucket.acquire_agrees_with_available hb hclock
    (.start .epoch .epoch (.full breakingBucket.config .epoch))
    (halfRefilled ++ [.ask 2 (some .serverError), .poll 1])
    (by simp [halfRefilled, Minds, breakingBucket, World.hostLens, World.advance])
    2 (some .serverError)
  obtain ⟨hgranted, hlowers, -⟩ := (agrees 2 (some .serverError)).1 (by decide)
  obtain ⟨t, u, hat⟩ := hgranted.mpr (show 2 ≤ (breakingBucket.available v).1 by rw [hv])
  refine ⟨⟨t, u, hat, (hlowers t u hat).2.trans hv⟩, ?_, ?_⟩
  · obtain ⟨u, hrefused, hleft⟩ := (agrees'.1 (by decide)).2.2 rfl (by
      show (breakingBucket.available v').1 < 2
      rw [hv']
      decide)
    rw [hv'] at hrefused hleft
    exact ⟨u, hrefused, hleft⟩
  · have hrefused := ((agrees 2 (some .transient)).2 (by decide) v).1
    rw [hv] at hrefused
    exact hrefused

end StandardBucket

end ClientRuntime
