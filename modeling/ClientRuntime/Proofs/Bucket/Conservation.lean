import Mathlib
import ClientRuntime.Proofs.Bucket.Rounds
import ClientRuntime.Proofs.Bucket.Whole
import ClientRuntime.Proofs.Fiber.Crowd

/-!
Callers that share a bucket. Each asks for a token, may wait for it, and then releases it or lets
it go; others may look how much is available. What the bucket grants and what it is credited are
counted beside it. Without refilling the bucket holds at any time what the two counts say.
-/

namespace ClientRuntime

/-- How far a caller of a bucket has come. -/
inductive Visit (η : Type) where
  | asking (p : Paused (World η) (Except RetryError (RetryToken η)))
  | holding (t : RetryToken η)
  | over

/-- A bucket's callers, with the costs of the tokens granted so far, the units credited for them,
and what the successes among them would be credited if there was always room. -/
structure Traffic (η : Type) where
  world : World η
  visits : List (Visit η)
  granted : Nat
  credited : Nat
  earned : Nat

/-- Callers are named by their place in the order of their first calls. -/
inductive Traffic.Move (η : Type) where
  | ask (n : Nat) (cause : Option RetryCause)
  | poll (i : Nat)
  | release (i : Nat) (outcome : TokenOutcome)
  /-- Lets go of a token, or of a call for one that is still waiting. -/
  | letGo (i : Nat)
  | look
  | others (f : World η → World η)

namespace StandardBucket

variable {η α : Type} [Scalar α] (b : StandardBucket η α)

/-- What a token of some cost is credited if there is room. -/
def refund (cost : Nat) : TokenOutcome → Nat
  | .success => cost + b.config.successIncrement
  | _ => 0

/-- What there is room for now. -/
def room (w : World η) : Nat := b.config.capacity - (b.available w).1

def answer (i : Nat) (s : Traffic η) :
    Paused.Outcome (World η) (Except RetryError (RetryToken η)) × World η → Traffic η
  | (.ready (.ok t), w) =>
    { s with world := w, visits := s.visits.set i (.holding t), granted := s.granted + t.cost }
  | (.ready (.error _), w) => { s with world := w, visits := s.visits.set i .over }
  | (.panicked _, w) => { s with world := w, visits := s.visits.set i .over }
  | (.pending p, w) => { s with world := w, visits := s.visits.set i (.asking p) }

/-- One move. What a caller cannot do where it stands does nothing. -/
def serve (s : Traffic η) : Traffic.Move η → Traffic η
  | .ask n cause => { s with visits := s.visits ++ [.asking (.start (b.acquire n cause))] }
  | .poll i =>
    match s.visits[i]? with
    | some (.asking p) => answer i s (p.poll s.world)
    | _ => s
  | .release i outcome =>
    match s.visits[i]? with
    | some (.holding t) =>
      { s with
        world := t.release outcome s.world
        visits := s.visits.set i .over
        credited := s.credited + min (b.refund t.cost outcome) (b.room s.world)
        earned := s.earned + b.refund t.cost outcome }
    | _ => s
  | .letGo i =>
    match s.visits[i]? with
    | some (.asking p) => { s with world := p.drop s.world, visits := s.visits.set i .over }
    | some (.holding t) => { s with world := t.drop s.world, visits := s.visits.set i .over }
    | _ => s
  | .look => { s with world := (b.available s.world).2 }
  | .others f => { s with world := f s.world }

def serveAll (moves : List (Traffic.Move η)) (s : Traffic η) : Traffic η := moves.foldl b.serve s

/-- A new bucket, before anybody asks. -/
def opened (w : World η) : Traffic η := ⟨b.openAccount w, [], 0, 0, 0⟩

/-- Nothing is refilled, amounts have 32 bits, and the log is kept apart from the account. -/
structure Fixed : Prop where
  rate : b.config.refillRate = 0
  capacity : b.config.capacity < 2 ^ 32
  increment : b.config.successIncrement < 2 ^ 32
  logs : ∀ (w : World η) level fields message,
    b.account.get (w.emit level fields message) = b.account.get w

/-- Others leave the account alone. -/
def Minds : Traffic.Move η → Prop
  | .others f => ∀ w, b.account.get (f w) = b.account.get w
  | _ => True

/-- The account in the world holds `n` units, of which there is room for. -/
structure Balance (n : Nat) (w : World η) : Prop where
  holds : (b.account.get w).Holds n
  le : n ≤ b.config.capacity

/-- The calls for a token that may be waiting. -/
inductive Asking : Paused (World η) (Except RetryError (RetryToken η)) → Prop where
  | start (n : Nat) (cause : Option RetryCause) : Asking (.start (b.acquire n cause))
  | waiting (n cost rounds seen : Nat) (h : cost ≤ b.config.capacity) :
      Asking ⟨b.returnsSince seen, id, (b.round n cost).rounds rounds⟩
  | hanging : Asking ⟨fun _ => false, id, .panic ""⟩

structure Issued (t : RetryToken η) : Prop where
  ledger : t.ledger = some b.ledger
  cost : t.cost ≤ b.config.capacity

/-- Calls wait as they should, and tokens that are held were issued by the bucket. -/
def Known : Visit η → Prop
  | .asking p => b.Asking p
  | .holding t => b.Issued t
  | .over => True

theorem known_over : b.Known .over := trivial

/-- What a poll of a call may come to in a world with `n` units. -/
def Answered (n : Nat) :
    Paused.Outcome (World η) (Except RetryError (RetryToken η)) × World η → Prop
  | (.ready (.ok t), w) => b.Issued t ∧ t.cost ≤ n ∧ b.Balance (n - t.cost) w
  | (.ready (.error _), w) => b.Balance n w
  | (.panicked _, _) => False
  | (.pending p, w) => b.Asking p ∧ b.Balance n w

/-- What was granted and credited accounts for what is left. -/
structure Conserved (s : Traffic η) : Prop where
  known : ∀ v ∈ s.visits, b.Known v
  balance : ∃ n, b.Balance n s.world ∧ n + s.granted = b.config.capacity + s.credited
  earned : s.credited ≤ s.earned

variable {b} {n : Nat} {w w' : World η}

/-- What each move keeps holds however many moves there are. -/
theorem serveAll_of_serve {P : Traffic η → Prop}
    (hP : ∀ s m, P s → b.Minds m → P (b.serve s m)) {s : Traffic η} (h : P s)
    {moves : List (Traffic.Move η)} (hm : ∀ m ∈ moves, b.Minds m) : P (b.serveAll moves s) := by
  induction moves generalizing s with
  | nil => exact h
  | cons m moves ih =>
    rw [List.forall_mem_cons] at hm
    exact ih (hP s m h hm.1) hm.2

omit [Scalar α] in
theorem Fixed.whole (hb : b.Fixed) (h : n ≤ b.config.capacity) : n ≤ wholeBound := by
  have := hb.capacity
  unfold wholeBound
  omega

theorem Balance.of_same (h : b.Balance n w) (hw : b.account.get w' = b.account.get w) :
    b.Balance n w' :=
  ⟨hw ▸ h.holds, h.le⟩

theorem Balance.emit (h : b.Balance n w) (hb : b.Fixed) (level : LogLevel)
    (fields : List (String × LogValue)) (message : String) :
    b.Balance n (w.emit level fields message) :=
  h.of_same (hb.logs ..)

/-- Giving up a call changes nothing. -/
theorem Asking.drop_eq {p : Paused (World η) (Except RetryError (RetryToken η))}
    (hp : b.Asking p) (w : World η) : p.drop w = w := by
  cases hp <;> rfl

theorem Balance.unrefunded (h : b.Balance n w) (hb : b.Fixed) (cost : Nat) {outcome : TokenOutcome}
    (hs : outcome ≠ .success) : b.Balance n (b.ledger cost outcome w) := by
  simp only [ledger, hs, if_false]
  exact h.emit hb _ _ _

/-- A token that is let go is credited nothing. -/
theorem Balance.drop (h : b.Balance n w) (hb : b.Fixed) {t : RetryToken η} (ht : b.Issued t) :
    b.Balance n (t.drop w) := by
  rw [RetryToken.drop, ht.ledger]
  exact (h.emit hb _ _ _).unrefunded hb _ (by decide)

theorem Conserved.opened (b : StandardBucket η α) (w : World η) : b.Conserved (b.opened w) where
  known _ h := by cases h
  balance := by
    refine ⟨b.config.capacity, ⟨?_, le_rfl⟩, rfl⟩
    unfold StandardBucket.opened openAccount
    rw [b.account.get_set]
    exact BucketState.holds_full ..
  earned := le_rfl

variable [WholeExact α]

theorem Balance.available (h : b.Balance n w) (hb : b.Fixed) :
    (b.available w).1 = n ∧ b.Balance n (b.available w).2 := by
  have hs := h.holds.refill hb.rate (b.clock.now w)
  refine ⟨hs.units (hb.whole h.le), ?_, h.le⟩
  unfold StandardBucket.available
  rwa [b.account.get_set]

theorem Balance.take (h : b.Balance n w) (hb : b.Fixed) {cost : Nat}
    (hcost : cost ≤ b.config.capacity) :
    match b.take cost w with
    | (.ok (), w') => cost ≤ n ∧ b.Balance (n - cost) w'
    | (.error missing, w') => b.Balance n w' ∧ missing.wait = .longest := by
  have hs := h.holds.take hb.rate (b.clock.now w) (hb.whole h.le) (hb.whole hcost)
  unfold StandardBucket.take
  rcases ht : (b.account.get w).take b.config (b.clock.now w) cost with ⟨missing | ⟨⟩, s⟩
  · rw [ht] at hs
    obtain ⟨-, hs, rfl⟩ := hs
    exact ⟨⟨by rwa [b.account.get_set], h.le⟩, rfl⟩
  · rw [ht] at hs
    obtain ⟨hle, hs⟩ := hs
    have := h.le
    exact ⟨hle, by rwa [b.account.get_set], by omega⟩

/-- Every round is answered or suspends, so a poll of a call is a poll of one round of it. -/
theorem answered_rounds (hb : b.Fixed) (k : Nat) {cost : Nat}
    (hcost : cost ≤ b.config.capacity) (rounds : Nat) (h : b.Balance n w) :
    b.Answered n ((Paused.start ((b.round k cost).rounds rounds)).poll w) := by
  cases rounds with
  | zero => exact ⟨.hanging, h⟩
  | succ rounds =>
    have ht := h.take hb hcost
    rcases htake : b.take cost w with ⟨missing | ⟨⟩, w₁⟩ <;> rw [htake] at ht
    · obtain ⟨h₁, hwait⟩ := ht
      have herror : (b.take cost w).1 = .error missing := congrArg Prod.fst htake
      cases hbreaker : b.config.circuitBreaker with
      | true =>
        rw [Paused.poll_start_of_ready
          (Fiber.poll_rounds_of_some (poll_round_refused hbreaker herror k) rounds), htake]
        exact h₁.emit hb _ _ _
      | false =>
        rw [Paused.poll_start_of_pending (Fiber.poll_rounds_of_pending
          (poll_round_suspended hb.logs hbreaker herror hwait k) rounds), htake]
        exact ⟨.waiting k cost rounds _ hcost, h₁.emit hb _ _ _⟩
    · have hok : (b.take cost w).1 = .ok () := congrArg Prod.fst htake
      rw [Paused.poll_start_of_ready
        (Fiber.poll_rounds_of_some (poll_round_granted hok k) rounds), htake]
      exact ⟨⟨rfl, hcost⟩, ht⟩

theorem answered_acquire (hb : b.Fixed) (k : Nat) (cause : Option RetryCause)
    (h : b.Balance n w) : b.Answered n ((Paused.start (b.acquire k cause)).poll w) := by
  unfold acquire
  by_cases hcost : b.config.capacity < b.config.costFor k cause
  · simp only [hcost, if_true]
    exact (h.available hb).2
  · simp only [hcost, if_false]
    exact answered_rounds hb k (by omega) _ h

/-- What a call is answered does not depend on how long it has waited. -/
theorem Asking.answered {p : Paused (World η) (Except RetryError (RetryToken η))}
    (hp : b.Asking p) (hb : b.Fixed) (h : b.Balance n w) : b.Answered n (p.poll w) := by
  rw [Paused.poll_eq]
  cases hp with
  | start k cause => exact answered_acquire hb k cause h
  | waiting k cost rounds seen hcost =>
    by_cases hw : b.returnsSince seen w = true
    · simp only [hw, if_true]
      exact answered_rounds hb k hcost rounds h
    · simp only [hw, Bool.false_eq_true, if_false]
      exact ⟨.waiting k cost rounds seen hcost, h⟩
  | hanging => exact ⟨.hanging, h⟩

/-- A release credits what there is room for, and only a success is credited anything. -/
theorem Balance.release (h : b.Balance n w) (hb : b.Fixed) {t : RetryToken η} (ht : b.Issued t)
    (outcome : TokenOutcome) :
    b.Balance (n + min (b.refund t.cost outcome) (b.room w)) (t.release outcome w) := by
  have hroom : b.room w = b.config.capacity - n := by rw [room, (h.available hb).1]
  have hle := h.le
  rw [RetryToken.release, ht.ledger, hroom]
  by_cases hs : outcome = .success
  · subst hs
    have hsum : b.config.capacity + (t.cost + b.config.successIncrement) ≤ wholeBound := by
      have := hb.capacity
      have := hb.increment
      have := ht.cost
      unfold wholeBound
      omega
    refine ⟨?_, by omega⟩
    simp only [ledger, poll_giving, if_true]
    rw [b.account.get_modify]
    exact h.holds.giveBack h.le hsum
  · have hnone : b.refund t.cost outcome = 0 := by cases outcome <;> first | rfl | contradiction
    rw [hnone, Nat.zero_min, Nat.add_zero]
    exact h.unrefunded hb _ hs

namespace Conserved

variable {s : Traffic η}

theorem answer (h : b.Conserved s) (hb : b.Fixed) (i : Nat)
    {p : Paused (World η) (Except RetryError (RetryToken η))} (hp : b.Asking p) :
    b.Conserved (answer i s (p.poll s.world)) := by
  obtain ⟨n, hn, htotal⟩ := h.balance
  have hanswer := hp.answered hb hn
  rcases hpoll : p.poll s.world with ⟨(e | t) | text | q, w⟩ <;> rw [hpoll] at hanswer
  · exact ⟨forall_mem_set h.known i b.known_over, ⟨n, hanswer, htotal⟩, h.earned⟩
  · obtain ⟨ht, hcost, hn⟩ := hanswer
    refine ⟨forall_mem_set h.known i ht, ⟨n - t.cost, hn, ?_⟩, h.earned⟩
    simp only [StandardBucket.answer]
    omega
  · exact hanswer.elim
  · obtain ⟨hq, hn⟩ := hanswer
    exact ⟨forall_mem_set h.known i hq, ⟨n, hn, htotal⟩, h.earned⟩

theorem serve (h : b.Conserved s) (hb : b.Fixed) {m : Traffic.Move η} (hm : b.Minds m) :
    b.Conserved (b.serve s m) := by
  obtain ⟨n, hn, htotal⟩ := h.balance
  cases m with
  | ask k cause =>
    refine ⟨fun v hv => ?_, ⟨n, hn, htotal⟩, h.earned⟩
    rcases List.mem_append.mp hv with hv | hv
    · exact h.known v hv
    · rw [List.mem_singleton.mp hv]
      exact .start k cause
  | poll i =>
    simp only [StandardBucket.serve]
    rcases hi : s.visits[i]? with _ | p | t | _
    · exact h
    · exact h.answer hb i (h.known _ (List.mem_of_getElem? hi))
    · exact h
    · exact h
  | release i outcome =>
    simp only [StandardBucket.serve]
    rcases hi : s.visits[i]? with _ | p | t | _
    · exact h
    · exact h
    · have ht : b.Issued t := h.known _ (List.mem_of_getElem? hi)
      refine ⟨forall_mem_set h.known i b.known_over, ⟨_, hn.release hb ht outcome, ?_⟩, ?_⟩
      · simp only
        omega
      · have := h.earned
        simp only
        omega
    · exact h
  | letGo i =>
    simp only [StandardBucket.serve]
    rcases hi : s.visits[i]? with _ | p | t | _
    · exact h
    · have hp : b.Asking p := h.known _ (List.mem_of_getElem? hi)
      exact ⟨forall_mem_set h.known i b.known_over,
        ⟨n, hn.of_same (congrArg _ (hp.drop_eq _)), htotal⟩, h.earned⟩
    · have ht : b.Issued t := h.known _ (List.mem_of_getElem? hi)
      exact ⟨forall_mem_set h.known i b.known_over, ⟨n, hn.drop hb ht, htotal⟩, h.earned⟩
    · exact h
  | look => exact ⟨h.known, ⟨n, (hn.available hb).2, htotal⟩, h.earned⟩
  | others f => exact ⟨h.known, ⟨n, hn.of_same (hm _), htotal⟩, h.earned⟩

theorem serveAll (h : b.Conserved s) (hb : b.Fixed) {moves : List (Traffic.Move η)}
    (hm : ∀ m ∈ moves, b.Minds m) : b.Conserved (b.serveAll moves s) :=
  serveAll_of_serve (fun _ _ h hm => h.serve hb hm) h hm

end Conserved

/-- Whatever the callers do and in whatever order, what is available is the capacity less what was
granted and more what was credited. So no more is ever granted than the capacity and what
successes earned. -/
theorem available_conserved (b : StandardBucket η α) (hb : b.Fixed) (w : World η)
    (moves : List (Traffic.Move η)) (hm : ∀ m ∈ moves, b.Minds m) :
    let s := b.serveAll moves (b.opened w)
    (b.available s.world).1 + s.granted = b.config.capacity + s.credited ∧
      s.granted ≤ b.config.capacity + s.earned := by
  have h := (Conserved.opened b w).serveAll hb hm
  obtain ⟨n, hn, htotal⟩ := h.balance
  have hearned := h.earned
  refine ⟨?_, by omega⟩
  rw [(hn.available hb).1]
  exact htotal

/-- Ten units, of which a first attempt takes three and a retry five; a success gives back two more
than it cost. -/
def smallBucket : StandardBucket (BucketState Rat) Rat :=
  ⟨⟨10, 3, 5, 5, 2, 0, false⟩, World.manualClock, World.hostLens, 99⟩

/-- The third caller has to wait until the first succeeds. The second lets go of its token. -/
def smallTraffic : List (Traffic.Move (BucketState Rat)) :=
  [.ask 1 none, .poll 0, .ask 2 (some .transient), .poll 1, .ask 2 (some .transient), .poll 2,
    .release 0 .success, .poll 2, .letGo 1, .look]

theorem available_conserved_waiting :
    let s := smallBucket.serveAll smallTraffic
      (smallBucket.opened (.start .epoch .epoch (.full smallBucket.config .epoch)))
    s.granted = 13 ∧ s.credited = 5 ∧ (smallBucket.available s.world).1 + s.granted = 15 := by
  have h := (smallBucket.available_conserved ⟨rfl, by decide, by decide, fun _ _ _ _ => rfl⟩
    (.start .epoch .epoch (.full smallBucket.config .epoch)) smallTraffic
    (by simp [smallTraffic, Minds])).1
  have hcredited : (smallBucket.serveAll smallTraffic
      (smallBucket.opened (.start .epoch .epoch (.full smallBucket.config .epoch)))).credited =
        5 := by
    cbv
  refine ⟨by cbv, hcredited, ?_⟩
  rw [h, hcredited]
  rfl

end StandardBucket

end ClientRuntime
