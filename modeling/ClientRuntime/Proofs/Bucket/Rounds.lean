import ClientRuntime.Proofs.Fiber.Polls
import ClientRuntime.Retry.Bucket.Acquire

/-!
One round of a call to a bucket. It looks how often units were given back, tries to take its cost,
and is answered, refused, or left waiting for what was found missing. A call goes round until it has
an answer, so what its polls come to is told round by round.
-/

namespace ClientRuntime

namespace BucketState

variable {α : Type} [Scalar α] {c : BucketConfig} {s : BucketState α} {now : Instant} {cost : Nat}

theorem returns_refill (c : BucketConfig) (now : Instant) (s : BucketState α) :
    (s.refill c now).returns = s.returns := by
  unfold refill
  split
  · rfl
  · dsimp only
    split <;> rfl

/-- A try gives nothing back. -/
theorem returns_take (c : BucketConfig) (now : Instant) (cost : Nat) (s : BucketState α) :
    (s.take c now cost).2.returns = s.returns := by
  unfold take
  dsimp only
  split <;> exact returns_refill c now s

theorem refill_of_rate_zero (hrate : c.refillRate = 0) (s : BucketState α) (now : Instant) :
    s.refill c now = { s with lastRefill := now } := if_pos hrate

theorem refill_available (hrate : c.refillRate = 0) (now : Instant) :
    (s.refill c now).available = s.available := by
  rw [refill_of_rate_zero hrate]

/-- Who is granted its cost takes it out of a refilled account. -/
theorem take_ok (h : (s.take c now cost).1 = .ok ()) :
    Scalar.le (Scalar.ofNat cost : α) (s.refill c now).available = true ∧
      (s.take c now cost).2 = { s.refill c now with
        available := (s.refill c now).available - Scalar.ofNat cost } := by
  unfold take at h ⊢
  dsimp only at h ⊢
  split at h
  · rename_i hthere
    rw [if_pos hthere]
    exact ⟨hthere, rfl⟩
  · cases h

/-- A refused caller finds a refilled account, waits for what it lacks, and takes nothing. -/
theorem take_error {missing : Shortfall} (h : (s.take c now cost).1 = .error missing) :
    ¬ Scalar.le (Scalar.ofNat cost : α) (s.refill c now).available = true ∧
      (s.take c now cost).2 = s.refill c now ∧
      missing.wait = waitFor c (Scalar.ofNat cost - (s.refill c now).available) := by
  unfold take at h ⊢
  dsimp only at h ⊢
  split at h
  · cases h
  · rename_i hthere
    rw [if_neg hthere]
    obtain rfl := Except.error.inj h
    exact ⟨hthere, rfl, rfl⟩

/-- Without refilling there is no use in waiting for any time. -/
theorem wait_of_take_error (hrate : c.refillRate = 0) {missing : Shortfall}
    (h : (s.take c now cost).1 = .error missing) : missing.wait = .longest := by
  rw [(take_error h).2.2, waitFor, if_pos hrate]

end BucketState

namespace StandardBucket

variable {η α : Type} [Scalar α] {b : StandardBucket η α} {w : World η} {n cost : Nat}
  {cause : Option RetryCause}

theorem get_take (cost : Nat) (w : World η) :
    b.account.get (b.take cost w).2 =
      ((b.account.get w).take b.config (b.clock.now w) cost).2 := b.account.get_set ..

theorem get_available (w : World η) :
    b.account.get (b.available w).2 = (b.account.get w).refill b.config (b.clock.now w) :=
  b.account.get_set ..

/-- What a call that is refused at once writes to the log. -/
def noteRefusal (n cost available : Nat) (w : World η) : World η :=
  w.emit .debug
    [("attempt", .natural n), ("cost", .natural cost), ("available", .natural available)]
    "Retry capacity exhausted"

/-- What a call that is going to wait writes to the log. -/
def noteWait (n cost : Nat) (missing : Shortfall) (w : World η) : World η :=
  w.emit .trace
    [("attempt", .natural n), ("cost", .natural cost), ("available", .natural missing.available),
      ("wait_ms", .natural (missing.wait.millis % (1 <<< 64)))]
    "Waiting for retry capacity"

/-- A call for what there is room for goes round. -/
theorem acquire_of_le (hcost : b.config.costFor n cause ≤ b.config.capacity) :
    b.acquire n cause = Fiber.rounds (b.round n (b.config.costFor n cause)) (b.rounds + 1) :=
  if_neg (Nat.not_lt.mpr hcost)

theorem poll_exceeding (hcost : b.config.capacity < b.config.costFor n cause) (w : World η) :
    (Paused.start (b.acquire n cause)).poll w =
      (.ready (.error (.capacityExceeded (b.config.costFor n cause) (b.available w).1)),
        (b.available w).2) := by
  unfold acquire
  simp only [hcost, if_true]
  rfl

/-- A poll of a round takes its cost and goes on with what it makes of that. -/
theorem poll_round (n cost : Nat) (w : World η) :
    (b.round n cost).poll w =
      (b.settle n cost (b.account.get w).returns (b.take cost w).1).poll (b.take cost w).2 := rfl

theorem poll_round_granted (h : (b.take cost w).1 = .ok ()) (n : Nat) :
    (b.round n cost).poll w =
      (.ready (some (.ok ⟨n, cost, some b.ledger⟩)), (b.take cost w).2) := by
  rw [poll_round, h]
  rfl

theorem poll_round_refused (hbreaker : b.config.circuitBreaker = true) {missing : Shortfall}
    (h : (b.take cost w).1 = .error missing) (n : Nat) :
    (b.round n cost).poll w =
      (.ready (some (.error (.capacityExceeded cost missing.available))),
        noteRefusal n cost missing.available (b.take cost w).2) := by
  rw [poll_round, h]
  unfold settle
  simp only [hbreaker, if_true]
  rfl

/-- In a bucket that waits a round ends with a wait. -/
theorem poll_round_waiting (hwaits : b.config.circuitBreaker = false) {missing : Shortfall}
    (h : (b.take cost w).1 = .error missing) (n : Nat) :
    (b.round n cost).poll w =
      (do b.wait (b.account.get w).returns missing.wait; return none :
        Fiber (World η) (Option (Except RetryError (RetryToken η)))).poll
          (noteWait n cost missing (b.take cost w).2) := by
  rw [poll_round, h]
  unfold settle
  simp only [hwaits, Bool.false_eq_true, if_false]
  rfl

/-- A call with an answer in its first round has it at once. -/
theorem poll_acquire_of_ready (hcost : b.config.costFor n cause ≤ b.config.capacity)
    {answer : Except RetryError (RetryToken η)} {w' : World η}
    (h : (b.round n (b.config.costFor n cause)).poll w = (.ready (some answer), w')) :
    (Paused.start (b.acquire n cause)).poll w = (.ready answer, w') := by
  rw [acquire_of_le hcost]
  exact Paused.poll_start_of_ready (Fiber.poll_rounds_of_some h _)

theorem poll_acquire_granted (hcost : b.config.costFor n cause ≤ b.config.capacity)
    (h : (b.take (b.config.costFor n cause) w).1 = .ok ()) :
    (Paused.start (b.acquire n cause)).poll w =
      (.ready (.ok ⟨n, b.config.costFor n cause, some b.ledger⟩),
        (b.take (b.config.costFor n cause) w).2) :=
  poll_acquire_of_ready hcost (poll_round_granted h n)

theorem poll_acquire_refused (hcost : b.config.costFor n cause ≤ b.config.capacity)
    (hbreaker : b.config.circuitBreaker = true) {missing : Shortfall}
    (h : (b.take (b.config.costFor n cause) w).1 = .error missing) :
    (Paused.start (b.acquire n cause)).poll w =
      (.ready (.error (.capacityExceeded (b.config.costFor n cause) missing.available)),
        noteRefusal n (b.config.costFor n cause) missing.available
          (b.take (b.config.costFor n cause) w).2) :=
  poll_acquire_of_ready hcost (poll_round_refused hbreaker h n)

variable (hlogs : ∀ (w : World η) level fields message,
  b.account.get (w.emit level fields message) = b.account.get w)

include hlogs

/-- Nothing comes back between the try and the wait of a round. -/
theorem returnsSince_noteWait (n cost : Nat) (missing : Shortfall) (w : World η) :
    b.returnsSince (b.account.get w).returns (noteWait n cost missing (b.take cost w).2) =
      false := by
  unfold returnsSince noteWait
  rw [hlogs, get_take, BucketState.returns_take]
  simp

/-- A round that waits for a return and for nothing else suspends until there is one since its
first look. -/
theorem poll_round_suspended (hwaits : b.config.circuitBreaker = false) {missing : Shortfall}
    (h : (b.take cost w).1 = .error missing) (hlongest : missing.wait = .longest) (n : Nat) :
    (b.round n cost).poll w =
      (.pending (b.returnsSince (b.account.get w).returns) id (return none),
        noteWait n cost missing (b.take cost w).2) := by
  have hquiet := returnsSince_noteWait hlogs n cost missing w
  rw [poll_round_waiting hwaits h, Fiber.poll_bind, wait, if_pos hlongest,
    Fiber.poll_waitUntil hquiet]
  rfl

end StandardBucket

end ClientRuntime
