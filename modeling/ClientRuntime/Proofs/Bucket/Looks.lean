import Mathlib
import ClientRuntime.Proofs.Bucket.Ticks
import ClientRuntime.Proofs.Cache.Sweeping
import ClientRuntime.Proofs.Fiber.While
import ClientRuntime.Proofs.Float.Parts

/-!
Looking at a bucket. Two runs make the same moves, but in one of them there are looks and refused
calls in between. If the clock is only read at whole ticks, both are answered the same: what a look
credits is not credited again, and the amounts are the same at the next refill.
-/

namespace ClientRuntime

open ClientRuntime.Fiber
open ReadThroughCache (clockPart)

namespace Traffic

variable {η τ : Type}

/-- What a move changes in the world, step by step, if the clock may be turned in between. -/
def changes (s : Traffic η) : Move η → List (World η × World η)
  | .poll i =>
    match s.visits[i]? with
    | some (.asking p) => p.steps s.world
    | _ => []
  | .letGo i =>
    match s.visits[i]? with
    | some (.asking p) => [(s.world, p.drop s.world)]
    | _ => []
  | .others f => [(s.world, f s.world)]
  | _ => []

/-- What others do is done beside the bucket. -/
def Move.Outside (outside : Lens (World η) τ) : Move η → Prop
  | .others f => ∃ g, f = outside.modify g
  | _ => True

end Traffic

namespace StandardBucket

variable {η τ α : Type} [Scalar α] (b : StandardBucket η α)

/-- A part of the world that the clock of the bucket keeps to, and that is apart from the account
and the log. -/
structure Beside (outside : Lens (World η) τ) (now : τ → Instant) : Prop where
  clock : ∀ w, b.clock.now w = now (outside.get w)
  sleeps : ∀ time, ∃ m : Fiber τ Unit, b.clock.sleep time = m.along outside
  outside_account : ∀ s w, outside.get (b.account.set s w) = outside.get w
  outside_emit : ∀ (w : World η) level fields message,
    outside.get (w.emit level fields message) = outside.get w
  account_outside : ∀ t w, b.account.get (outside.set t w) = b.account.get w
  account_emit : ∀ (w : World η) level fields message,
    b.account.get (w.emit level fields message) = b.account.get w

/-- The clock runs on by whole ticks. Where nothing is refilled it may run as it likes. -/
def Onward (d : Nat) (w w' : World η) : Prop :=
  b.config.refillRate ≠ 0 → (b.clock.now w).TicksTo d (b.clock.now w')

instance (d : Nat) (w w' : World η) : Decidable (b.Onward d w w') :=
  inferInstanceAs (Decidable (_ → _))

/-- Two worlds in which the bucket answers the same: the accounts are the same once they are
refilled, and so is what is beside them. -/
structure Indistinct (outside : Lens (World η) τ) (d : Nat) (w w' : World η) : Prop where
  beside : outside.get w = outside.get w'
  now : b.clock.now w = b.clock.now w'
  account : BucketState.Same b.config d (b.clock.now w) (b.account.get w) (b.account.get w')

/-- What the bucket answers to a move, if it answers. -/
inductive Reply (η : Type) where
  | call (answer : Except RetryError (RetryToken η))
  | panicked (text : String)
  | units (n : Nat)

def reply (s : Traffic η) : Traffic.Move η → Option (Reply η)
  | .poll i =>
    match s.visits[i]? with
    | some (.asking p) =>
      match (p.poll s.world).1 with
      | .ready answer => some (.call answer)
      | .panicked text => some (.panicked text)
      | .pending _ => none
    | _ => none
  | .look => some (.units (b.available s.world).1)
  | _ => none

def replies : List (Traffic.Move η) → Traffic η → List (Option (Reply η))
  | [], _ => []
  | m :: moves, s => b.reply s m :: replies moves (b.serve s m)

/-- What may be slipped in between two moves. -/
inductive Aside where
  | look
  | ask (n : Nat) (cause : Option RetryCause)

/-- A look, or a call if it is refused at once; else the call is not made. -/
def aside (w : World η) : Aside → World η
  | .look => (b.available w).2
  | .ask n cause =>
    match (Paused.start (b.acquire n cause)).poll w with
    | (.ready (.error _), w') => w'
    | _ => w

/-- The replies to the moves, before each of which something may be slipped in. -/
def repliesAmid : List (List Aside × Traffic.Move η) → Traffic η → List (Option (Reply η))
  | [], _ => []
  | (asides, m) :: steps, s =>
    let s := { s with world := asides.foldl b.aside s.world }
    b.reply s m :: repliesAmid steps (b.serve s m)

def changesOf : List (Traffic.Move η) → Traffic η → List (World η × World η)
  | [], _ => []
  | m :: moves, s => s.changes m ++ changesOf moves (b.serve s m)

/-- Calls that wait alike, or the same token of the bucket. -/
inductive VisitAlike (outside : Lens (World η) τ) (d : Nat) : Visit η → Visit η → Prop where
  | asking {p p' : Paused (World η) (Except RetryError (RetryToken η))} :
      p.AlikeWhile (b.Onward d) (b.Indistinct outside d) b.Honest p' →
      VisitAlike outside d (.asking p) (.asking p')
  | holding {t : RetryToken η} : b.Issued t → VisitAlike outside d (.holding t) (.holding t)
  | gone : VisitAlike outside d .over .over

/-- Two runs that the bucket answers alike. -/
structure Unnoticed (outside : Lens (World η) τ) (d : Nat) (s s' : Traffic η) : Prop where
  world : b.Indistinct outside d s.world s'.world
  visits : List.Forall₂ (b.VisitAlike outside d) s.visits s'.visits

variable {b} {outside : Lens (World η) τ} {now : τ → Instant} {d : Nat} {w w' : World η}
  {cost : Nat}

namespace Beside

theorem outside_take (hbeside : b.Beside outside now) (cost : Nat) (w : World η) :
    outside.get (b.take cost w).2 = outside.get w := hbeside.outside_account ..

theorem outside_available (hbeside : b.Beside outside now) (w : World η) :
    outside.get (b.available w).2 = outside.get w := hbeside.outside_account ..

end Beside

/-- A bucket that waits refuses nothing that there is room for. -/
theorem grants_round (hwaits : b.config.circuitBreaker = false) (n cost : Nat) :
    (b.round n cost).Maintains (fun _ => True) fun o => ∀ answer ∈ o, ∃ t, answer = .ok t := by
  unfold round
  apply Fiber.Maintains.gets_bind
  intro seen
  apply Fiber.Maintains.modifyGet_bind fun _ h => h
  intro taken
  cases taken with
  | ok =>
    apply Fiber.Maintains.pure
    rintro _ ⟨⟩
    exact ⟨_, rfl⟩
  | error missing =>
    unfold settle
    simp only [hwaits, Bool.false_eq_true, if_false]
    apply Fiber.Maintains.modify_bind fun _ h => h
    exact (Fiber.Maintains.of_true (b.wait seen missing.wait)).bind fun _ _ => .pure (by simp)

namespace Indistinct

theorem of_same (hbeside : b.Beside outside now) (h : b.Indistinct outside d w w') {v v' : World η}
    (hv : outside.get v = outside.get w) (hv' : outside.get v' = outside.get w')
    (haccount : BucketState.Same b.config d (b.clock.now w) (b.account.get v) (b.account.get v')) :
    b.Indistinct outside d v v' where
  beside := by rw [hv, hv', h.beside]
  now := by rw [hbeside.clock, hbeside.clock, hv, hv', h.beside]
  account := by
    rwa [hbeside.clock v, hv, ← hbeside.clock w]

theorem emit (hbeside : b.Beside outside now) (h : b.Indistinct outside d w w') (level : LogLevel)
    (fields : List (String × LogValue)) (message : String) :
    b.Indistinct outside d (w.emit level fields message) (w'.emit level fields message) :=
  h.of_same hbeside (hbeside.outside_emit ..) (hbeside.outside_emit ..) (by
    rw [hbeside.account_emit, hbeside.account_emit]
    exact h.account)

theorem returnsSince_eq (h : b.Indistinct outside d w w') (seen : Nat) :
    b.returnsSince seen w = b.returnsSince seen w' := by
  unfold returnsSince
  rw [h.account.returns]

theorem take_eq (h : b.Indistinct outside d w w') (cost : Nat) :
    (b.take cost w).1 = (b.take cost w').1 := by
  unfold StandardBucket.take
  dsimp only
  rw [← h.now, h.account.take_eq]

theorem available_eq (h : b.Indistinct outside d w w') :
    (b.available w).1 = (b.available w').1 := by
  unfold available
  dsimp only
  rw [← h.now, h.account.refill]

variable [PartsExact α d]

theorem set_outside (hbeside : b.Beside outside now) (hc : b.config.Sized)
    (h : b.Indistinct outside d w w') (t : τ) (honward : b.Onward d w (outside.set t w)) :
    b.Indistinct outside d (outside.set t w) (outside.set t w') where
  beside := by rw [outside.get_set, outside.get_set]
  now := by rw [hbeside.clock, hbeside.clock, outside.get_set, outside.get_set]
  account := by
    rw [hbeside.account_outside, hbeside.account_outside]
    exact h.account.later hc honward

theorem take (hbeside : b.Beside outside now) (hc : b.config.Sized)
    (hcost : cost ≤ b.config.capacity) (h : b.Indistinct outside d w w') :
    b.Indistinct outside d (b.take cost w).2 (b.take cost w').2 := by
  apply h.of_same hbeside (hbeside.outside_take ..) (hbeside.outside_take ..)
  rw [get_take, get_take, ← h.now]
  exact h.account.take hc hcost

/-- A look in one of the two worlds. -/
theorem available_right (hbeside : b.Beside outside now) (hc : b.config.Sized)
    (h : b.Indistinct outside d w w') : b.Indistinct outside d w (b.available w').2 := by
  apply h.of_same hbeside rfl (hbeside.outside_available ..)
  rw [get_available, ← h.now]
  exact h.account.refill_right hc

theorem available (hbeside : b.Beside outside now) (hc : b.config.Sized)
    (h : b.Indistinct outside d w w') :
    b.Indistinct outside d (b.available w).2 (b.available w').2 := by
  apply h.of_same hbeside (hbeside.outside_available ..) (hbeside.outside_available ..)
  rw [get_available, get_available, ← h.now]
  exact ((h.account.refill_right hc).symm.refill_right hc).symm

/-- A call in one of the two worlds that is refused at once. -/
theorem refused_right (hbeside : b.Beside outside now) (hc : b.config.Sized)
    (h : b.Indistinct outside d w w') {n : Nat} {cause : Option RetryCause} {e : RetryError}
    {v : World η} (hrefused : (Paused.start (b.acquire n cause)).poll w' = (.ready (.error e), v)) :
    b.Indistinct outside d w v := by
  by_cases hcost : b.config.capacity < b.config.costFor n cause
  · rw [poll_exceeding hcost] at hrefused
    obtain rfl := congrArg Prod.snd hrefused
    exact h.available_right hbeside hc
  rw [not_lt] at hcost
  by_cases hbreaker : b.config.circuitBreaker = true
  · rcases htake : (b.take (b.config.costFor n cause) w').1 with missing | ⟨⟩
    · rw [poll_acquire_refused hcost hbreaker htake] at hrefused
      obtain rfl := congrArg Prod.snd hrefused
      apply h.of_same hbeside rfl
      · exact (hbeside.outside_emit ..).trans (hbeside.outside_take ..)
      · have hrefilled := (BucketState.take_error htake).2.1
        rw [noteRefusal, hbeside.account_emit, get_take, hrefilled, ← h.now]
        exact h.account.refill_right hc
    · rw [poll_acquire_granted hcost htake] at hrefused
      cases hrefused
  · have hgrants := (grants_round (by simpa using hbreaker) n
      (b.config.costFor n cause)).rounds (b.rounds + 1)
    rw [acquire_of_le hcost] at hrefused
    have hanswer := (hgrants.poll (s := w') trivial).1
    rw [hrefused] at hanswer
    obtain ⟨t, ht⟩ := hanswer
    cases ht

theorem ledger (hbeside : b.Beside outside now) (hc : b.config.Sized)
    (hincrement : b.config.successIncrement < 2 ^ 32) (hcost : cost ≤ b.config.capacity)
    (h : b.Indistinct outside d w w') (outcome : TokenOutcome) :
    b.Indistinct outside d (b.ledger cost outcome w) (b.ledger cost outcome w') := by
  simp only [StandardBucket.ledger, poll_giving]
  split
  · apply h.of_same hbeside (hbeside.outside_account ..) (hbeside.outside_account ..)
    rw [b.account.get_set, b.account.get_set]
    exact h.account.giveBack hc hincrement hcost
  · exact h.emit hbeside ..

theorem release (hbeside : b.Beside outside now) (hc : b.config.Sized)
    (hincrement : b.config.successIncrement < 2 ^ 32) (h : b.Indistinct outside d w w')
    {t : RetryToken η} (ht : b.Issued t) (outcome : TokenOutcome) :
    b.Indistinct outside d (t.release outcome w) (t.release outcome w') := by
  unfold RetryToken.release
  rw [ht.ledger]
  exact h.ledger hbeside hc hincrement ht.cost outcome

theorem drop (hbeside : b.Beside outside now) (hc : b.config.Sized)
    (hincrement : b.config.successIncrement < 2 ^ 32) (h : b.Indistinct outside d w w')
    {t : RetryToken η} (ht : b.Issued t) :
    b.Indistinct outside d (t.drop w) (t.drop w') := by
  unfold RetryToken.drop
  rw [ht.ledger]
  exact (h.emit hbeside ..).ledger hbeside hc hincrement ht.cost _

end Indistinct

section Calls

variable [PartsExact α d]

theorem blind_wait (hbeside : b.Beside outside now) (hc : b.config.Sized) (seen : Nat)
    (time : Duration) :
    (b.wait seen time).BlindWhile (b.Onward d) (b.Indistinct outside d) fun _ => True := by
  have hreturns (u u' : World η) (hu : b.Indistinct outside d u u') :=
    hu.returnsSince_eq seen
  obtain ⟨m, hm⟩ := hbeside.sleeps time
  unfold wait
  split
  · exact .waitUntil hreturns
  · apply Fiber.BlindWhile.giveUpWhen hreturns (.pure trivial)
    rw [hm]
    exact .along (fun u u' hu => hu.beside) (fun t u u' hu => hu.set_outside hbeside hc t) m

theorem blind_round (hbeside : b.Beside outside now) (hc : b.config.Sized) (n : Nat)
    (hcost : cost ≤ b.config.capacity) :
    (b.round n cost).BlindWhile (b.Onward d) (b.Indistinct outside d)
      fun o => ∀ answer ∈ o, b.Honest answer := by
  have hlog (level : LogLevel) (fields : List (String × LogValue)) (message : String) :
      (Fiber.modify fun w : World η => w.emit level fields message).BlindWhile (b.Onward d)
        (b.Indistinct outside d) fun _ => True :=
    .modify fun u u' hu => hu.emit hbeside level fields message
  unfold round
  apply Fiber.BlindWhile.bind (P := fun _ => True)
  · exact .gets (fun u u' hu => hu.account.returns) fun _ => trivial
  intro seen _
  apply Fiber.BlindWhile.bind (P := fun _ => True)
  · exact .modifyGet (fun u u' hu => hu.take_eq cost) (fun u u' hu => hu.take hbeside hc hcost)
      fun _ => trivial
  intro taken _
  cases taken with
  | ok =>
    apply Fiber.BlindWhile.pure
    rintro _ ⟨⟩ t ⟨⟩
    exact ⟨rfl, hcost⟩
  | error missing =>
    unfold settle
    dsimp only
    split
    · apply Fiber.BlindWhile.bind (hlog _ _ _)
      intro _ _
      apply Fiber.BlindWhile.pure
      rintro _ ⟨⟩ t ⟨⟩
    · apply Fiber.BlindWhile.bind (hlog _ _ _)
      intro _ _
      exact (blind_wait hbeside hc seen missing.wait).bind fun _ _ => .pure (by simp)

theorem blind_acquire (hbeside : b.Beside outside now) (hc : b.config.Sized) (n : Nat)
    (cause : Option RetryCause) :
    (b.acquire n cause).BlindWhile (b.Onward d) (b.Indistinct outside d) b.Honest := by
  unfold acquire
  dsimp only
  split
  · apply Fiber.BlindWhile.bind (P := fun _ => True)
    · exact .modifyGet (fun u u' hu => hu.available_eq) (fun u u' hu => hu.available hbeside hc)
        fun _ => trivial
    intro _ _
    apply Fiber.BlindWhile.pure
    rintro t ⟨⟩
  · exact (blind_round hbeside hc n (by omega)).rounds _

end Calls

namespace Unnoticed

variable {s s' : Traffic η}

/-- What is slipped in makes no difference to the next move. -/
theorem aside [PartsExact α d] (hbeside : b.Beside outside now) (hc : b.config.Sized)
    (h : b.Unnoticed outside d s s') (e : Aside) :
    b.Unnoticed outside d s { s' with world := b.aside s'.world e } := by
  refine ⟨?_, h.visits⟩
  cases e with
  | look => exact h.world.available_right hbeside hc
  | ask n cause =>
    unfold StandardBucket.aside
    dsimp only
    split
    · rename_i hrefused
      exact h.world.refused_right hbeside hc hrefused
    · exact h.world

theorem asides [PartsExact α d] (hbeside : b.Beside outside now) (hc : b.config.Sized)
    (h : b.Unnoticed outside d s s') (es : List Aside) :
    b.Unnoticed outside d s { s' with world := es.foldl b.aside s'.world } := by
  induction es generalizing s' with
  | nil => exact h
  | cons e es ih => exact ih (h.aside hbeside hc e)

/-- Calls that are polled side by side come to the same. -/
theorem answer (h : b.Unnoticed outside d s s') (i : Nat)
    {p p' : Paused (World η) (Except RetryError (RetryToken η))}
    (hp : p.AlikeWhile (b.Onward d) (b.Indistinct outside d) b.Honest p')
    (honward : ∀ e ∈ p.steps s.world, b.Onward d e.1 e.2) :
    b.Unnoticed outside d (answer i s (p.poll s.world)) (answer i s' (p'.poll s'.world)) := by
  have hpolled := hp.poll h.world honward
  generalize p.poll s.world = r at hpolled ⊢
  generalize p'.poll s'.world = r' at hpolled ⊢
  cases hpolled with
  | @ready a _ _ hw ha =>
    cases a with
    | error e => exact ⟨hw, forall₂_set h.visits i .gone⟩
    | ok t => exact ⟨hw, forall₂_set h.visits i (.holding (ha t rfl))⟩
  | panicked hw => exact ⟨hw, forall₂_set h.visits i .gone⟩
  | pending hw hp => exact ⟨hw, forall₂_set h.visits i (.asking hp)⟩

theorem reply (h : b.Unnoticed outside d s s') {m : Traffic.Move η}
    (honward : ∀ e ∈ s.changes m, b.Onward d e.1 e.2) : b.reply s m = b.reply s' m := by
  cases m with
  | poll i =>
    simp only [StandardBucket.reply, Traffic.changes] at honward ⊢
    obtain ⟨hi, hi'⟩ | ⟨v, v', hi, hi', hv⟩ := forall₂_place h.visits i
    · rw [hi, hi']
    · rw [hi] at honward
      rw [hi, hi']
      cases hv with
      | asking hp =>
        have hpolled := hp.poll h.world honward
        dsimp only
        generalize Paused.poll _ s.world = r at hpolled ⊢
        generalize Paused.poll _ s'.world = r' at hpolled ⊢
        cases hpolled <;> rfl
      | holding => rfl
      | gone => rfl
  | look =>
    simp only [StandardBucket.reply]
    rw [h.world.available_eq]
  | ask | release | letGo | others => rfl

theorem serve [PartsExact α d] (hbeside : b.Beside outside now) (hc : b.config.Sized)
    (hincrement : b.config.successIncrement < 2 ^ 32) (h : b.Unnoticed outside d s s')
    {m : Traffic.Move η} (hm : m.Outside outside)
    (honward : ∀ e ∈ s.changes m, b.Onward d e.1 e.2) :
    b.Unnoticed outside d (b.serve s m) (b.serve s' m) := by
  cases m with
  | ask n cause =>
    exact ⟨h.world, List.rel_append h.visits
      (.cons (.asking (.start (blind_acquire hbeside hc n cause))) .nil)⟩
  | poll i =>
    simp only [StandardBucket.serve, Traffic.changes] at honward ⊢
    obtain ⟨hi, hi'⟩ | ⟨v, v', hi, hi', hv⟩ := forall₂_place h.visits i
    · simp only [hi, hi']
      exact h
    · rw [hi] at honward
      simp only [hi, hi']
      cases hv with
      | asking hp => exact h.answer i hp honward
      | holding => exact h
      | gone => exact h
  | release i outcome =>
    simp only [StandardBucket.serve]
    obtain ⟨hi, hi'⟩ | ⟨v, v', hi, hi', hv⟩ := forall₂_place h.visits i
    · simp only [hi, hi']
      exact h
    · simp only [hi, hi']
      cases hv with
      | asking => exact h
      | holding ht =>
        exact ⟨h.world.release hbeside hc hincrement ht outcome, forall₂_set h.visits i .gone⟩
      | gone => exact h
  | letGo i =>
    simp only [StandardBucket.serve, Traffic.changes] at honward ⊢
    obtain ⟨hi, hi'⟩ | ⟨v, v', hi, hi', hv⟩ := forall₂_place h.visits i
    · simp only [hi, hi']
      exact h
    · rw [hi] at honward
      simp only [hi, hi']
      cases hv with
      | asking hp =>
        have hdropped := hp.cleanup _ _ h.world (honward _ (List.mem_singleton_self _))
        exact ⟨hdropped, forall₂_set h.visits i .gone⟩
      | holding ht =>
        exact ⟨h.world.drop hbeside hc hincrement ht, forall₂_set h.visits i .gone⟩
      | gone => exact h
  | look => exact ⟨h.world.available hbeside hc, h.visits⟩
  | others f =>
    obtain ⟨g, rfl⟩ := hm
    have hturned := honward _ (List.mem_singleton_self _)
    refine ⟨?_, h.visits⟩
    simp only [StandardBucket.serve, Lens.modify] at hturned ⊢
    rw [← h.world.beside]
    exact h.world.set_outside hbeside hc _ hturned

/-- However many are slipped in, and wherever. -/
theorem replies [PartsExact α d] (hbeside : b.Beside outside now) (hc : b.config.Sized)
    (hincrement : b.config.successIncrement < 2 ^ 32) (h : b.Unnoticed outside d s s')
    {steps : List (List Aside × Traffic.Move η)} (hm : ∀ e ∈ steps, e.2.Outside outside)
    (honward : ∀ e ∈ b.changesOf (steps.map Prod.snd) s, b.Onward d e.1 e.2) :
    b.repliesAmid steps s' = b.replies (steps.map Prod.snd) s := by
  induction steps generalizing s s' with
  | nil => rfl
  | cons step steps ih =>
    obtain ⟨asides, m⟩ := step
    rw [List.forall_mem_cons] at hm
    rw [List.map_cons, changesOf, List.forall_mem_append] at honward
    have hbefore := h.asides hbeside hc asides
    have hafter := hbefore.serve hbeside hc hincrement hm.1 honward.1
    simp only [repliesAmid, List.map_cons, StandardBucket.replies]
    rw [ih hafter hm.2 honward.2, hbefore.reply honward.1]

end Unnoticed

theorem Unnoticed.opened [PartsExact α d] (hbeside : b.Beside outside now) (hc : b.config.Sized)
    (w : World η) : b.Unnoticed outside d (b.opened w) (b.opened w) := by
  have hnow : b.clock.now (b.openAccount w) = b.clock.now w := by
    rw [hbeside.clock, hbeside.clock]
    exact congrArg now (hbeside.outside_account ..)
  have hparted : (b.account.get (b.openAccount w)).Parted b.config d
      (b.clock.now (b.openAccount w)) := by
    rw [hnow, openAccount, b.account.get_set]
    exact .full hc _
  exact ⟨⟨rfl, rfl, rfl, fun _ => hparted, fun _ => hparted⟩, .nil⟩

/-- Looking at a bucket does not change it. Callers ask, wait, release and let go, and others turn
the clock on; before any move somebody may look or be refused any number of times. If the clock runs
by whole ticks, all calls and looks of the run itself are answered the same without that. -/
theorem looks_change_no_reply (b : StandardBucket η α) (d : Nat) [PartsExact α d]
    (hc : b.config.Sized) (hincrement : b.config.successIncrement < 2 ^ 32)
    {outside : Lens (World η) τ} {now : τ → Instant} (hbeside : b.Beside outside now) (w : World η)
    (steps : List (List Aside × Traffic.Move η)) (hm : ∀ e ∈ steps, e.2.Outside outside)
    (honward : ∀ e ∈ b.changesOf (steps.map Prod.snd) (b.opened w), b.Onward d e.1 e.2) :
    b.repliesAmid steps (b.opened w) = b.replies (steps.map Prod.snd) (b.opened w) :=
  (Unnoticed.opened hbeside hc w).replies hbeside hc hincrement hm honward

/-- The numbers that looks have shown. -/
def shown (replies : List (Option (Reply η))) : List Nat :=
  replies.filterMap fun
    | some (.units n) => some n
    | _ => none

/-- Two units a second. A call that finds too little waits. -/
def waitingBucket : StandardBucket (BucketState Float) Float :=
  ⟨⟨3, 1, 3, 5, 1, 2, false⟩, World.manualClock, World.hostLens, 99⟩

/-- A retry takes all units. The next call waits for half a unit until the end of the first half of
a second. There is no room for what a retry after a timeout costs. -/
def lookedAt : List (List Aside × Traffic.Move (BucketState Float)) :=
  [([.look], .ask 2 (some .serverError)), ([], .poll 0),
    ([.ask 2 (some .transient), .look], .ask 1 none),
    ([], .others (World.advance · (.ofMillis 250))), ([.look, .look], .poll 1),
    ([.ask 2 (some .transient)], .others (World.advance · (.ofSecs 1))), ([], .look)]

theorem looks_change_no_reply_waiting :
    let opened := waitingBucket.opened (.start .epoch .epoch (.full waitingBucket.config .epoch))
    waitingBucket.repliesAmid lookedAt opened =
        waitingBucket.replies (lookedAt.map Prod.snd) opened ∧
      shown (waitingBucket.replies (lookedAt.map Prod.snd) opened) = [2] := by
  have hbeside : waitingBucket.Beside clockPart ManualClock.now :=
    ⟨fun _ => rfl, fun time => ⟨Fiber.modify (·.sleep time), rfl⟩, fun _ _ => rfl,
      fun _ _ _ _ => rfl, fun _ _ => rfl, fun _ _ _ _ => rfl⟩
  have hsame := waitingBucket.looks_change_no_reply 64 ⟨by decide, by decide⟩ (by decide) hbeside
    (.start .epoch .epoch (.full waitingBucket.config .epoch)) lookedAt
    (by
      simp only [lookedAt, List.forall_mem_cons]
      exact ⟨trivial, trivial, trivial, ⟨(·.advance (.ofMillis 250)), rfl⟩, trivial,
        ⟨(·.advance (.ofSecs 1)), rfl⟩, trivial, by simp⟩)
    (by decide +kernel)
  exact ⟨hsame, by decide +kernel⟩

/-- A million units a second: one in each microsecond. -/
def microBucket : StandardBucket (BucketState Float) Float :=
  ⟨⟨3, 1, 3, 5, 1, 1000000, true⟩, World.manualClock, World.hostLens, 99⟩

/-- A look after almost two microseconds, and another one after almost three. -/
def lookedAtOnce : List (List Aside × Traffic.Move (BucketState Float)) :=
  [([], .ask 2 (some .serverError)), ([], .poll 0),
    ([], .others (World.advance · (.ofNanos 1999))),
    ([.look], .others (World.advance · (.ofNanos 999))), ([], .look)]

/-- The first look credits one microsecond and forgets the rest of the time. -/
theorem look_forgets_time :
    let opened := microBucket.opened (.start .epoch .epoch (.full microBucket.config .epoch))
    shown (microBucket.repliesAmid lookedAtOnce opened) = [1] ∧
      shown (microBucket.replies (lookedAtOnce.map Prod.snd) opened) = [2] := by
  decide +kernel

end StandardBucket

end ClientRuntime
