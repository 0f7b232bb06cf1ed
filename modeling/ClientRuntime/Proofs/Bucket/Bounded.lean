import Mathlib
import ClientRuntime.Proofs.Bucket.Conservation
import ClientRuntime.Proofs.Fiber.Maintains
import ClientRuntime.Proofs.Float.Arithmetic

/-!
An account never leaves its bounds. Whatever is taken from it, given back to it or refilled by a
clock that may run forwards or backwards, it holds at least nothing and at most the capacity, with
floats as much as with exact numbers. So an attempt that costs nothing never waits.
-/

namespace ClientRuntime

/-- The capacity and the rate have 32 bits. -/
structure BucketConfig.Sized (c : BucketConfig) : Prop where
  capacity : c.capacity < 2 ^ 32
  rate : c.refillRate < 2 ^ 32

/-- Costs that can be granted are numbers without rounding. -/
theorem BucketConfig.Sized.value_ofNat {α : Type} [Scalar α] [OrderedScalar α] {c : BucketConfig}
    (hc : c.Sized) {n : Nat} (hn : n ≤ c.capacity) :
    Scalar.value? (Scalar.ofNat n : α) = some (n : Rat) :=
  OrderedScalar.value_ofNat (hn.trans_lt (hc.capacity.trans (by decide)))

namespace BucketState

variable {α : Type} [Scalar α]

/-- A finite amount from nothing to the capacity. -/
def Bounded (c : BucketConfig) (s : BucketState α) : Prop :=
  ∃ q, Scalar.value? s.available = some q ∧ 0 ≤ q ∧ q ≤ c.capacity

variable [OrderedScalar α] {c : BucketConfig} {s : BucketState α}

theorem bounded_full (hc : c.Sized) (now : Instant) : (full c now : BucketState α).Bounded c :=
  ⟨c.capacity, hc.value_ofNat le_rfl, Nat.cast_nonneg _, le_rfl⟩

theorem Bounded.nonneg (h : s.Bounded c) : Scalar.Nonneg s.available := by
  obtain ⟨q, hq, hpos, -⟩ := h
  exact (Scalar.nonneg_iff hq).mpr hpos

theorem Bounded.add (hc : c.Sized) (h : s.Bounded c) {units : α} (hu : Scalar.Nonneg units) :
    (s.add c units).Bounded c :=
  Scalar.value_minimum (OrderedScalar.nonneg_add h.nonneg hu) (hc.value_ofNat le_rfl)
    (Nat.cast_nonneg _)

/-- However long the time, its units are no negative number; there may be infinitely many. -/
theorem nonneg_unitsFor (hc : c.Sized) (hrate : c.refillRate ≠ 0) (micros : Nat) :
    Scalar.Nonneg (unitsFor c micros : α) := by
  have hmillion : Scalar.value? (Scalar.ofNat 1000000 : α) = some ((1000000 : Nat) : Rat) :=
    OrderedScalar.value_ofNat (by decide)
  have hper : Scalar.value? (Scalar.ofNat c.refillRate : α) = some (c.refillRate : Rat) :=
    OrderedScalar.value_ofNat (hc.rate.trans (by decide))
  have hseconds := OrderedScalar.nonneg_div (OrderedScalar.nonneg_ofNat micros) hmillion
    (by norm_num)
  exact OrderedScalar.nonneg_mul hseconds hper (Nat.cast_pos.mpr (Nat.pos_of_ne_zero hrate))

theorem Bounded.refill (hc : c.Sized) (h : s.Bounded c) (now : Instant) :
    (s.refill c now).Bounded c := by
  unfold BucketState.refill
  by_cases hrate : c.refillRate = 0
  · rw [if_pos hrate]
    exact h
  · rw [if_neg hrate]
    dsimp only
    split
    · exact h
    · exact h.add hc (nonneg_unitsFor hc hrate _)

theorem Bounded.take (hc : c.Sized) (h : s.Bounded c) (now : Instant) {cost : Nat}
    (hcost : cost ≤ c.capacity) : (s.take c now cost).2.Bounded c := by
  have hrefilled := h.refill hc now
  have hneeded := hc.value_ofNat (α := α) hcost
  obtain ⟨q, hq, hpos, hle⟩ := hrefilled
  rcases htake : (s.take c now cost).1 with missing | ⟨⟩
  · rw [(take_error htake).2.1]
    exact ⟨q, hq, hpos, hle⟩
  · obtain ⟨hthere, hstate⟩ := take_ok htake
    have hcover := (OrderedScalar.le_iff hneeded hq).mp hthere
    obtain ⟨r, hr, hr0, hrq⟩ := OrderedScalar.value_sub hq hneeded (Nat.cast_nonneg _) hcover
    rw [hstate]
    exact ⟨r, hr, hr0, hrq.trans hle⟩

/-- What costs nothing is always there. -/
theorem Bounded.take_zero (hc : c.Sized) (h : s.Bounded c) (now : Instant) :
    (s.take c now 0).1 = .ok () := by
  have hthere : Scalar.le (Scalar.ofNat 0 : α) (s.refill c now).available = true :=
    (h.refill hc now).nonneg
  unfold BucketState.take
  dsimp only
  rw [if_pos hthere]

theorem Bounded.giveBack (hc : c.Sized) (h : s.Bounded c) (cost : Nat) :
    (s.giveBack c cost).Bounded c :=
  h.add hc (OrderedScalar.nonneg_add (OrderedScalar.nonneg_ofNat _) (OrderedScalar.nonneg_ofNat _))

omit [OrderedScalar α] in
theorem Bounded.units_le (h : s.Bounded c) : s.units ≤ c.capacity := by
  obtain ⟨q, hq, -, hle⟩ := h
  have hfloor : (⌊q⌋ : Rat) ≤ (c.capacity : Int) := (Int.floor_le q).trans (by exact_mod_cast hle)
  have hint : ⌊q⌋ ≤ (c.capacity : Int) := by exact_mod_cast hfloor
  unfold units Scalar.floor
  rw [hq]
  change ⌊q⌋.toNat ≤ c.capacity
  omega

end BucketState

namespace StandardBucket

variable {η α : Type} [Scalar α] (b : StandardBucket η α)

/-- Amounts have 32 bits; neither the log nor sleeping touches the account. -/
structure Regular : Prop where
  sized : b.config.Sized
  logs : ∀ (w : World η) level fields message,
    b.account.get (w.emit level fields message) = b.account.get w
  sleeps : ∀ d, (b.clock.sleep d).Leaves b.account.get

/-- The account in the world is within its bounds. -/
def Within (w : World η) : Prop := (b.account.get w).Bounded b.config

/-- Tokens that are answered were issued by the bucket. -/
def Honest (answer : Except RetryError (RetryToken η)) : Prop := ∀ t, answer = .ok t → b.Issued t

/-- Callers maintain the bounds, and the tokens that they hold were issued by the bucket. -/
def Sound : Visit η → Prop
  | .asking p => p.Maintains b.Within b.Honest
  | .holding t => b.Issued t
  | .over => True

/-- The account is within its bounds, and all callers see to it. -/
structure Contained (s : Traffic η) : Prop where
  within : b.Within s.world
  sound : ∀ v ∈ s.visits, b.Sound v

variable {b} [OrderedScalar α] {w w' : World η}

omit [OrderedScalar α] in
theorem Within.of_same (h : b.Within w) (hw : b.account.get w' = b.account.get w) :
    b.Within w' := by
  unfold Within
  rwa [hw]

theorem Within.take (hb : b.Regular) (h : b.Within w) {cost : Nat}
    (hcost : cost ≤ b.config.capacity) : b.Within (b.take cost w).2 := by
  unfold Within
  rw [get_take]
  exact BucketState.Bounded.take hb.sized h _ hcost

theorem Within.available (hb : b.Regular) (h : b.Within w) :
    (b.available w).1 ≤ b.config.capacity ∧ b.Within (b.available w).2 := by
  have hrefilled := h.refill hb.sized (b.clock.now w)
  refine ⟨hrefilled.units_le, ?_⟩
  unfold Within
  rwa [get_available]

theorem Within.ledger (hb : b.Regular) (h : b.Within w) (cost : Nat) (outcome : TokenOutcome) :
    b.Within (b.ledger cost outcome w) := by
  simp only [StandardBucket.ledger, poll_giving]
  split
  · unfold Within
    rw [b.account.get_modify]
    exact h.giveBack hb.sized cost
  · exact h.of_same (hb.logs ..)

theorem Within.release (hb : b.Regular) (h : b.Within w) {t : RetryToken η} (ht : b.Issued t)
    (outcome : TokenOutcome) : b.Within (t.release outcome w) := by
  unfold RetryToken.release
  rw [ht.ledger]
  exact h.ledger hb _ _

theorem Within.drop (hb : b.Regular) (h : b.Within w) {t : RetryToken η} (ht : b.Issued t) :
    b.Within (t.drop w) := by
  unfold RetryToken.drop
  rw [ht.ledger]
  exact Within.ledger hb (h.of_same (hb.logs ..)) _ _

omit [OrderedScalar α] in
theorem maintains_wait (hb : b.Regular) (seen : Nat) (time : Duration) :
    (b.wait seen time).Maintains b.Within fun _ => True := by
  unfold wait
  split
  · exact .waitUntil _ trivial
  · apply Fiber.Maintains.giveUpWhen (.pure trivial)
    exact .of_leaves (fun w w' hw h => h.of_same hw) (hb.sleeps time)

theorem maintains_round (hb : b.Regular) (n : Nat) {cost : Nat}
    (hcost : cost ≤ b.config.capacity) :
    (b.round n cost).Maintains b.Within fun o => ∀ answer ∈ o, b.Honest answer := by
  have hlog (level : LogLevel) (fields : List (String × LogValue)) (message : String) (w : World η)
      (h : b.Within w) : b.Within (w.emit level fields message) := h.of_same (hb.logs ..)
  unfold round
  apply Fiber.Maintains.gets_bind
  intro seen
  apply Fiber.Maintains.modifyGet_bind (fun w h => h.take hb hcost)
  intro taken
  cases taken with
  | ok =>
    apply Fiber.Maintains.pure
    rintro _ ⟨⟩ t ⟨⟩
    exact ⟨rfl, hcost⟩
  | error missing =>
    unfold settle
    dsimp only
    split
    · apply Fiber.Maintains.modify_bind (hlog _ _ _)
      apply Fiber.Maintains.pure
      rintro _ ⟨⟩ t ⟨⟩
    · apply Fiber.Maintains.modify_bind (hlog _ _ _)
      exact (maintains_wait hb seen missing.wait).bind fun _ _ => .pure (by simp)

theorem maintains_acquire (hb : b.Regular) (n : Nat) (cause : Option RetryCause) :
    (b.acquire n cause).Maintains b.Within b.Honest := by
  unfold acquire
  dsimp only
  split
  · apply Fiber.Maintains.modifyGet_bind (fun w h => (h.available hb).2)
    exact fun units => .pure fun t ht => by cases ht
  · exact (maintains_round hb n (by omega)).rounds _

namespace Contained

variable {s : Traffic η}

theorem opened (hb : b.Regular) (w : World η) : b.Contained (b.opened w) where
  within := by
    unfold Within StandardBucket.opened openAccount
    rw [b.account.get_set]
    exact BucketState.bounded_full hb.sized _
  sound _ hv := by cases hv

omit [OrderedScalar α] in
theorem answer (h : b.Contained s) (i : Nat)
    {p : Paused (World η) (Except RetryError (RetryToken η))}
    (hp : p.Maintains b.Within b.Honest) : b.Contained (answer i s (p.poll s.world)) := by
  have hpolled := hp.poll h.within
  rcases hpoll : p.poll s.world with ⟨(e | t) | text | q, w⟩ <;> rw [hpoll] at hpolled
  · exact ⟨hpolled.2, forall_mem_set h.sound i trivial⟩
  · have ht : b.Issued t := hpolled.1 t rfl
    exact ⟨hpolled.2, forall_mem_set h.sound i ht⟩
  · exact ⟨hpolled.2, forall_mem_set h.sound i trivial⟩
  · exact ⟨hpolled.2, forall_mem_set h.sound i hpolled.1⟩

theorem serve (hb : b.Regular) (h : b.Contained s) {m : Traffic.Move η} (hm : b.Minds m) :
    b.Contained (b.serve s m) := by
  cases m with
  | ask n cause =>
    refine ⟨h.within, fun v hv => ?_⟩
    rcases List.mem_append.mp hv with hv | hv
    · exact h.sound v hv
    · rw [List.mem_singleton.mp hv]
      exact Paused.Maintains.start (maintains_acquire hb n cause)
  | poll i =>
    simp only [StandardBucket.serve]
    rcases hi : s.visits[i]? with _ | p | t | _
    · exact h
    · exact h.answer i (h.sound _ (List.mem_of_getElem? hi))
    · exact h
    · exact h
  | release i outcome =>
    simp only [StandardBucket.serve]
    rcases hi : s.visits[i]? with _ | p | t | _
    · exact h
    · exact h
    · have ht : b.Issued t := h.sound _ (List.mem_of_getElem? hi)
      exact ⟨h.within.release hb ht outcome, forall_mem_set h.sound i trivial⟩
    · exact h
  | letGo i =>
    simp only [StandardBucket.serve]
    rcases hi : s.visits[i]? with _ | p | t | _
    · exact h
    · have hp : p.Maintains b.Within b.Honest := h.sound _ (List.mem_of_getElem? hi)
      exact ⟨hp.cleanup _ h.within, forall_mem_set h.sound i trivial⟩
    · have ht : b.Issued t := h.sound _ (List.mem_of_getElem? hi)
      exact ⟨h.within.drop hb ht, forall_mem_set h.sound i trivial⟩
    · exact h
  | look => exact ⟨(h.within.available hb).2, h.sound⟩
  | others f => exact ⟨h.within.of_same (hm _), h.sound⟩

theorem serveAll (hb : b.Regular) (h : b.Contained s) {moves : List (Traffic.Move η)}
    (hm : ∀ m ∈ moves, b.Minds m) : b.Contained (b.serveAll moves s) :=
  serveAll_of_serve (fun _ _ h hm => h.serve hb hm) h hm

end Contained

/-- What costs nothing is granted by the first poll. -/
theorem Within.acquire_free (hb : b.Regular) (h : b.Within w) {n : Nat} {cause : Option RetryCause}
    (hfree : b.config.costFor n cause = 0) :
    ∃ w', (Paused.start (b.acquire n cause)).poll w =
      (.ready (.ok ⟨n, 0, some b.ledger⟩), w') := by
  have htaken : (b.take (b.config.costFor n cause) w).1 = .ok () := by
    rw [hfree]
    exact BucketState.Bounded.take_zero hb.sized h (b.clock.now w)
  have hgranted := poll_acquire_granted (hfree.trans_le (Nat.zero_le _)) htaken
  rw [hfree] at hgranted
  exact ⟨_, hgranted⟩

/-- Whatever callers do and in whatever order, and however the clock moves, what is available is a
finite amount from nothing to the capacity. So whoever asks for what costs nothing gets it at
once. -/
theorem available_within_bounds (b : StandardBucket η α) (hb : b.Regular) (w : World η)
    (moves : List (Traffic.Move η)) (hm : ∀ m ∈ moves, b.Minds m) :
    let s := b.serveAll moves (b.opened w)
    (∃ q, Scalar.value? (b.account.get s.world).available = some q ∧ 0 ≤ q ∧
        q ≤ b.config.capacity) ∧
      (b.available s.world).1 ≤ b.config.capacity ∧
      ∀ n cause, b.config.costFor n cause = 0 →
        ∃ w', (Paused.start (b.acquire n cause)).poll s.world =
          (.ready (.ok ⟨n, 0, some b.ledger⟩), w') := by
  have h : b.Within (b.serveAll moves (b.opened w)).world :=
    ((Contained.opened hb w).serveAll hb hm).within
  exact ⟨h, (h.available hb).1, fun n cause hfree => h.acquire_free hb hfree⟩

/-- A bucket with default settings on a clock that others may turn. -/
def floatBucket : StandardBucket (BucketState Float) Float :=
  ⟨.default, World.manualClock, World.hostLens, 99⟩

/-- A first attempt fails. Then the clock is turned forwards and back while a retry succeeds and
another is let go. -/
def turnedTraffic : List (Traffic.Move (BucketState Float)) :=
  [.ask 1 none, .poll 0, .release 0 .retryableFailure, .ask 2 (some .transient), .poll 1,
    .others (World.advance · (.ofSecs 3)), .look, .others (World.moveTo · .epoch),
    .release 1 .success, .ask 2 (some .throttling), .poll 2, .letGo 2]

theorem available_within_bounds_turned :
    let s := floatBucket.serveAll turnedTraffic
      (floatBucket.opened (.start .epoch .epoch (.full floatBucket.config .epoch)))
    floatBucket.config.costFor 1 none = 0 ∧ (floatBucket.available s.world).1 ≤ 500 ∧
      ∃ w', (Paused.start (floatBucket.acquire 1 none)).poll s.world =
        (.ready (.ok ⟨1, 0, some floatBucket.ledger⟩), w') := by
  have hb : floatBucket.Regular :=
    ⟨⟨by decide, by decide⟩, fun _ _ _ _ => rfl, fun _ => ⟨fun _ => rfl, trivial⟩⟩
  have h := floatBucket.available_within_bounds hb
    (.start .epoch .epoch (.full floatBucket.config .epoch)) turnedTraffic
    (by simp [turnedTraffic, Minds, floatBucket, World.hostLens, World.advance, World.moveTo])
  exact ⟨rfl, h.2.1, h.2.2 1 none rfl⟩

end StandardBucket

end ClientRuntime
