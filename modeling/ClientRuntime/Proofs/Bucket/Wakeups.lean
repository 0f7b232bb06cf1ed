import Mathlib
import ClientRuntime.Proofs.Bucket.Bounded
import ClientRuntime.Proofs.Bucket.Interleaved

/-!
No wakeup is lost. A caller looks how often units were given back before it tries to take its cost,
and giving back adds the units before it counts the return. So whoever was refused notices every
return since, and nobody waits on for units that are there, except while units were added whose
return is not counted yet.
-/

namespace ClientRuntime

namespace BucketState

variable {α : Type} [Scalar α]

/-- Less is there than a cost. -/
def Lacks (cost : Nat) (s : BucketState α) : Prop :=
  ∃ q, Scalar.value? s.available = some q ∧ q < cost

variable {c : BucketConfig} {s : BucketState α} {cost : Nat}

variable [OrderedScalar α]

omit [OrderedScalar α] in
theorem Lacks.units_lt (h : s.Lacks cost) (hs : s.Bounded c) : s.units < cost := by
  obtain ⟨q, hq, hlt⟩ := h
  obtain ⟨q', hq', hpos, -⟩ := hs
  obtain rfl : q = q' := Option.some.inj (hq.symm.trans hq')
  have hfloor : ⌊q⌋ < (cost : Int) := Int.floor_lt.mpr (by exact_mod_cast hlt)
  have hnonneg : 0 ≤ ⌊q⌋ := Int.floor_nonneg.mpr hpos
  unfold units Scalar.floor
  rw [hq]
  change ⌊q⌋.toNat < cost
  omega

/-- Whether it takes its cost or is refused, a caller adds nothing. -/
theorem Lacks.take (hc : c.Sized) (hrate : c.refillRate = 0) (now : Instant)
    (hcost : cost ≤ c.capacity) {k : Nat} (hk : s.Lacks k) :
    (s.take c now cost).2.Lacks k := by
  obtain ⟨q, hq, hlt⟩ := hk
  have hneeded := hc.value_ofNat (α := α) hcost
  rw [← refill_available hrate now] at hq
  rcases htake : (s.take c now cost).1 with missing | ⟨⟩
  · rw [(take_error htake).2.1]
    exact ⟨q, hq, hlt⟩
  · obtain ⟨hthere, hstate⟩ := take_ok htake
    have hcover := (OrderedScalar.le_iff hneeded hq).mp hthere
    obtain ⟨r, hr, -, hrq⟩ := OrderedScalar.value_sub hq hneeded (Nat.cast_nonneg _) hcover
    rw [hstate]
    exact ⟨r, hr, hrq.trans_lt hlt⟩

/-- Who is refused was not denied what was there. -/
theorem Bounded.lacks_of_take_error (hc : c.Sized) (h : s.Bounded c) {now : Instant}
    (hcost : cost ≤ c.capacity) {missing : Shortfall}
    (herror : (s.take c now cost).1 = .error missing) : (s.take c now cost).2.Lacks cost := by
  obtain ⟨q, hq, -, -⟩ := h.refill hc now
  obtain ⟨hthere, hstate, -⟩ := take_error herror
  rw [OrderedScalar.le_iff (hc.value_ofNat hcost) hq, not_le] at hthere
  rw [hstate]
  exact ⟨q, hq, hthere⟩

end BucketState

namespace StandardBucket

variable {η α : Type} [Scalar α] (b : StandardBucket η α)

/-- Neither the amount nor the number of returns is another. -/
structure Unmoved (w w' : World η) : Prop where
  available : (b.account.get w').available = (b.account.get w).available
  returns : (b.account.get w').returns = (b.account.get w).returns

/-- Others neither take nor give. -/
def Spares : Turn η → Prop
  | .others f => ∀ w, b.Unmoved w (f w)
  | _ => True

/-- Nobody was polled yet, and the account is within its bounds. -/
structure Opening (s : Scene η) : Prop where
  within : b.Within s.world
  fresh : ∀ g ∈ s.stages, b.Fresh g

/-- Units were added whose return is not counted yet, or a cost is not there. -/
def Excused (cost : Nat) (s : Scene η) : Prop :=
  .returning b.notifying ∈ s.stages ∨ (b.account.get s.world).Lacks cost

/-- Who was refused after it had seen so many returns will notice another one, or has reason to
wait. -/
structure Watches (s : Scene η) (cost seen : Nat) : Prop where
  le : seen ≤ (b.account.get s.world).returns
  reason : seen < (b.account.get s.world).returns ∨ b.Excused cost s

/-- Where a caller may be, with more than `left` rounds to go, and what it may count on there. -/
inductive Attentive (s : Scene η) (left : Nat) : Stage η → Prop where
  | exceeding {n : Nat} {cause : Option RetryCause} :
      b.config.capacity < b.config.costFor n cause →
      Attentive s left (.calling n cause (b.acquire n cause))
  | arriving {n : Nat} {cause : Option RetryCause} {k : Nat} :
      b.config.costFor n cause ≤ b.config.capacity → left < k →
      Attentive s left (.calling n cause ((b.round n (b.config.costFor n cause)).rounds k))
  | trying {n : Nat} {cause : Option RetryCause} {seen k : Nat} :
      b.config.costFor n cause ≤ b.config.capacity → left < k →
      seen ≤ (b.account.get s.world).returns →
      Attentive s left (.calling n cause (b.trying n (b.config.costFor n cause) seen k))
  | refused {n : Nat} {cause : Option RetryCause} {seen : Nat} {missing : Shortfall} {k : Nat} :
      b.config.costFor n cause ≤ b.config.capacity → left < k →
      b.Watches s (b.config.costFor n cause) seen →
      Attentive s left (.calling n cause (b.refused n (b.config.costFor n cause) seen missing k))
  | waiting {n : Nat} {cause : Option RetryCause} {seen k : Nat} :
      b.config.costFor n cause ≤ b.config.capacity → left < k →
      b.Watches s (b.config.costFor n cause) seen →
      Attentive s left (.calling n cause (b.waiting n (b.config.costFor n cause) seen k))
  | suspended {n : Nat} {cause : Option RetryCause} {seen k : Nat} :
      b.config.costFor n cause ≤ b.config.capacity → left < k →
      b.Watches s (b.config.costFor n cause) seen →
      Attentive s left (.calling n cause (b.suspended n (b.config.costFor n cause) seen k))
  | holding {t : RetryToken η} : t.ledger = some b.ledger → Attentive s left (.holding t)
  | giving (cost : Nat) : Attentive s left (.returning (b.giving cost))
  | notifying : Attentive s left (.returning b.notifying)
  | gone : Attentive s left .gone

/-- All callers are where they may be, and the account is within its bounds. -/
structure Awake (left : Nat) (s : Scene η) : Prop where
  within : b.Within s.world
  attentive : ∀ g ∈ s.stages, b.Attentive s left g

/-- From `s` to `s'` nobody loses its reason to wait without a return. -/
structure Heeds (s s' : Scene η) : Prop where
  returns : (b.account.get s.world).returns ≤ (b.account.get s'.world).returns
  excused : ∀ cost, b.Excused cost s →
    (b.account.get s.world).returns < (b.account.get s'.world).returns ∨ b.Excused cost s'

variable {b} {s s' : Scene η} {w w' : World η} {g g' : Stage η} {i left left' cost seen : Nat}

theorem Watches.mono (h : b.Watches s cost seen) (hs : b.Heeds s s') : b.Watches s' cost seen where
  le := h.le.trans hs.returns
  reason := by
    rcases h.reason with hlt | hexcused
    · exact .inl (hlt.trans_le hs.returns)
    · exact (hs.excused cost hexcused).imp_left h.le.trans_lt

theorem Attentive.mono (h : b.Attentive s left g) (hs : b.Heeds s s') (hleft : left' ≤ left) :
    b.Attentive s' left' g := by
  cases h with
  | exceeding h => exact .exceeding h
  | arriving h hk => exact .arriving h (by omega)
  | trying h hk hseen => exact .trying h (by omega) (hseen.trans hs.returns)
  | refused h hk hw => exact .refused h (by omega) (hw.mono hs)
  | waiting h hk hw => exact .waiting h (by omega) (hw.mono hs)
  | suspended h hk hw => exact .suspended h (by omega) (hw.mono hs)
  | holding h => exact .holding h
  | giving cost => exact .giving cost
  | notifying => exact .notifying
  | gone => exact .gone

theorem Heeds.refl (s : Scene η) : b.Heeds s s := ⟨le_rfl, fun _ h => .inr h⟩

omit [Scalar α] in
theorem Fixed.sized (hb : b.Fixed) : b.config.Sized where
  capacity := hb.capacity
  rate := by
    rw [hb.rate]
    decide

omit [Scalar α] in
/-- Who sees to it that a return is counted stays until it is. -/
theorem mem_notifying_set {stages : List (Stage η)} (hi : stages[i]? = some g)
    (hg : g ≠ .returning b.notifying) (hmem : .returning b.notifying ∈ stages) :
    .returning b.notifying ∈ stages.set i g' := by
  obtain ⟨j, hj⟩ := List.mem_iff_getElem?.mp hmem
  have hne : i ≠ j := by
    rintro rfl
    exact hg (Option.some.inj (hi.symm.trans hj))
  exact List.mem_iff_getElem?.mpr ⟨j, by rw [List.getElem?_set_ne hne, hj]⟩

/-- Where nothing is given back and nothing counted, only lacking a cost may change. -/
theorem Heeds.quiet (hi : s.stages[i]? = some g) (hg : g ≠ .returning b.notifying)
    (hreturns : (b.account.get w).returns = (b.account.get s.world).returns)
    (hlacks : ∀ k, (b.account.get s.world).Lacks k → (b.account.get w).Lacks k) :
    b.Heeds s ⟨w, s.stages.set i g'⟩ where
  returns := hreturns.ge
  excused cost h := by
    right
    rcases h with hmem | hlack
    · exact .inl (mem_notifying_set hi hg hmem)
    · exact .inr (hlacks cost hlack)

theorem Unmoved.lacks (h : b.Unmoved w w') {k : Nat} (hk : (b.account.get w).Lacks k) :
    (b.account.get w').Lacks k := by
  unfold BucketState.Lacks
  rwa [h.available]

theorem Unmoved.within (h : b.Unmoved w w') (hw : b.Within w) : b.Within w' := by
  unfold Within BucketState.Bounded
  rwa [h.available]

omit [Scalar α] in
theorem unmoved_of_get (h : b.account.get w' = b.account.get w) : b.Unmoved w w' := by
  constructor
  · rw [h]
  · rw [h]

omit [Scalar α] in
theorem Unmoved.trans {w₁ : World η} (h : b.Unmoved w w₁) (h' : b.Unmoved w₁ w') :
    b.Unmoved w w' :=
  ⟨h'.available.trans h.available, h'.returns.trans h.returns⟩

theorem unmoved_available (hb : b.Fixed) (w : World η) : b.Unmoved w (b.available w).2 := by
  constructor
  · rw [get_available]
    exact BucketState.refill_available hb.rate _
  · rw [get_available]
    exact BucketState.returns_refill ..

theorem unmoved_ledger (hb : b.Fixed) (w : World η) (cost : Nat) {outcome : TokenOutcome}
    (h : outcome ≠ .success) : b.Unmoved w (b.ledger cost outcome w) := by
  unfold ledger
  rw [if_neg h]
  exact unmoved_of_get (hb.logs ..)

namespace Awake

theorem mono (hs : b.Awake left s) (hleft : left' ≤ left) : b.Awake left' s :=
  ⟨hs.within, fun g hg => (hs.attentive g hg).mono (.refl s) hleft⟩

theorem stays (hs : b.Awake (left + 1) s) (hi : s.stages[i]? = some g) :
    b.Awake left ⟨s.world, s.stages.set i g⟩ := by
  obtain ⟨hlt, rfl⟩ := List.getElem?_eq_some_iff.mp hi
  rw [List.set_getElem_self]
  exact hs.mono (Nat.le_succ _)

/-- One caller comes to another stage. -/
theorem set (hs : b.Awake (left + 1) s) (hwithin : b.Within w)
    (hheeds : b.Heeds s ⟨w, s.stages.set i g'⟩)
    (hg' : b.Attentive ⟨w, s.stages.set i g'⟩ left g') :
    b.Awake left ⟨w, s.stages.set i g'⟩ where
  within := hwithin
  attentive := forall_mem_set
    (fun g hg => (hs.attentive g hg).mono hheeds (Nat.le_add_right ..)) i hg'

/-- One caller comes to another stage and leaves the account as it is. -/
theorem unmoved (hs : b.Awake (left + 1) s) (hi : s.stages[i]? = some g)
    (hg : g ≠ .returning b.notifying) (hw : b.Unmoved s.world w)
    (hg' : b.Heeds s ⟨w, s.stages.set i g'⟩ → b.Attentive ⟨w, s.stages.set i g'⟩ left g') :
    b.Awake left ⟨w, s.stages.set i g'⟩ := by
  have hheeds : b.Heeds s ⟨w, s.stages.set i g'⟩ := .quiet hi hg hw.returns fun _ => hw.lacks
  exact hs.set (hw.within hs.within) hheeds (hg' hheeds)

/-- Who looks once more, or is looked after, goes round again or stays suspended. -/
theorem looks (hs : b.Awake (left + 1) s) {n : Nat} {cause : Option RetryCause} {k : Nat}
    (hi : s.stages[i]? = some g) (hg : g ≠ .returning b.notifying)
    (hcost : b.config.costFor n cause ≤ b.config.capacity) (hk : left < k)
    (hw : b.Watches s (b.config.costFor n cause) seen) :
    b.Awake left ⟨s.world, s.stages.set i (.calling n cause
      (if b.returnsSince seen s.world then (b.round n (b.config.costFor n cause)).rounds k
        else b.suspended n (b.config.costFor n cause) seen k))⟩ := by
  by_cases h : b.returnsSince seen s.world = true
  · simp only [h, if_true]
    exact hs.unmoved hi hg (unmoved_of_get rfl) fun _ => .arriving hcost hk
  · simp only [h, Bool.false_eq_true, if_false]
    exact hs.unmoved hi hg (unmoved_of_get rfl) fun hheeds =>
      .suspended hcost hk (hw.mono hheeds)

variable [OrderedScalar α]

/-- A try adds nothing and counts nothing, and if it is refused then for a reason. -/
theorem tries (hb : b.Fixed) (hwaits : b.config.circuitBreaker = false)
    (hs : b.Awake (left + 1) s) {n : Nat} {cause : Option RetryCause} {k : Nat}
    (hi : s.stages[i]? = some (.calling n cause (b.trying n (b.config.costFor n cause) seen k)))
    (hcost : b.config.costFor n cause ≤ b.config.capacity) (hk : left < k)
    (hseen : seen ≤ (b.account.get s.world).returns) :
    let after := Stage.advance (.calling n cause (b.trying n (b.config.costFor n cause) seen k))
      s.world
    b.Awake left ⟨after.2, s.stages.set i after.1⟩ := by
  have hwithin : b.Within (b.take (b.config.costFor n cause) s.world).2 := by
    unfold Within
    rw [get_take]
    exact BucketState.Bounded.take hb.sized hs.within _ hcost
  have hreturns : (b.account.get (b.take (b.config.costFor n cause) s.world).2).returns =
      (b.account.get s.world).returns := by
    rw [get_take]
    exact BucketState.returns_take ..
  have hheeds (g' : Stage η) :
      b.Heeds s ⟨(b.take (b.config.costFor n cause) s.world).2, s.stages.set i g'⟩ := by
    apply Heeds.quiet hi nofun hreturns
    intro k hk
    rw [get_take]
    exact hk.take hb.sized hb.rate _ hcost
  rcases htake : (b.take (b.config.costFor n cause) s.world).1 with missing | ⟨⟩
  · have hlongest : missing.wait = .longest :=
      BucketState.wait_of_take_error (s := b.account.get s.world) hb.rate htake
    have hlacks : (b.account.get (b.take (b.config.costFor n cause) s.world).2).Lacks
        (b.config.costFor n cause) := by
      rw [get_take]
      exact BucketState.Bounded.lacks_of_take_error hb.sized hs.within hcost htake
    rw [Stage.advance_missed hwaits htake hlongest]
    exact hs.set hwithin (hheeds _) (.refused hcost hk ⟨hreturns ▸ hseen, .inr (.inr hlacks)⟩)
  · rw [Stage.advance_granted htake]
    exact hs.set hwithin (hheeds _) (.holding rfl)

/-- A giver that adds its units is about to count the return. -/
theorem adds (hb : b.Fixed) (hs : b.Awake (left + 1) s) {cost : Nat}
    (hi : s.stages[i]? = some (.returning (b.giving cost))) :
    b.Awake left ⟨b.account.modify (·.credit b.config cost) s.world,
      s.stages.set i (.returning b.notifying)⟩ := by
  have hlt : i < s.stages.length := (List.getElem?_eq_some_iff.mp hi).1
  refine hs.set ?_ ⟨?_, fun k _ => .inr (.inl (List.mem_set hlt _))⟩ .notifying
  · have hgained := OrderedScalar.nonneg_add (OrderedScalar.nonneg_ofNat (α := α) cost)
      (OrderedScalar.nonneg_ofNat b.config.successIncrement)
    unfold Within
    rw [b.account.get_modify]
    exact BucketState.Bounded.add hb.sized hs.within hgained
  · rw [b.account.get_modify]
    exact le_rfl

omit [OrderedScalar α] in
theorem notifies (hs : b.Awake (left + 1) s) (i : Nat) :
    b.Awake left ⟨b.account.modify (·.notify) s.world, s.stages.set i .gone⟩ := by
  have hreturns : (b.account.get (b.account.modify (·.notify) s.world)).returns =
      (b.account.get s.world).returns + 1 := by
    rw [b.account.get_modify]
    rfl
  have hlt : (b.account.get s.world).returns <
      (b.account.get (b.account.modify (·.notify) s.world)).returns := by omega
  refine hs.set ?_ ⟨hlt.le, fun k _ => .inl hlt⟩ .gone
  unfold Within
  rw [b.account.get_modify]
  exact hs.within

/-- No step of a caller makes anybody wait in vain. -/
theorem step (hb : b.Fixed) (hwaits : b.config.circuitBreaker = false)
    (hs : b.Awake (left + 1) s) (hi : s.stages[i]? = some g) :
    b.Awake left ⟨(g.advance s.world).2, s.stages.set i (g.advance s.world).1⟩ := by
  cases hs.attentive g (List.mem_of_getElem? hi) with
  | exceeding h =>
    rw [Stage.advance_exceeding h]
    exact hs.unmoved hi nofun (unmoved_available hb _) fun _ => .gone
  | @arriving n cause k hcost hk =>
    obtain ⟨k, rfl⟩ := Nat.exists_eq_add_of_le' (Nat.one_le_of_lt hk)
    rw [Stage.advance_arriving]
    exact hs.unmoved hi nofun (unmoved_of_get rfl) fun _ => .trying hcost (by omega) le_rfl
  | trying hcost hk hseen => exact hs.tries hb hwaits hi hcost (by omega) hseen
  | refused hcost hk hw =>
    rw [Stage.advance_refused]
    exact hs.unmoved hi nofun (unmoved_of_get (hb.logs ..)) fun hheeds =>
      .waiting hcost (by omega) (hw.mono hheeds)
  | @waiting n cause seen k hcost hk hw =>
    obtain ⟨k, rfl⟩ := Nat.exists_eq_add_of_le' (Nat.one_le_of_lt hk)
    rw [Stage.advance_waiting]
    exact hs.looks hi nofun hcost (by omega) hw
  | @suspended n cause seen k hcost hk hw =>
    obtain ⟨k, rfl⟩ := Nat.exists_eq_add_of_le' (Nat.one_le_of_lt hk)
    rw [Stage.advance_suspended]
    exact hs.looks hi nofun hcost (by omega) hw
  | holding => exact hs.stays hi
  | giving cost =>
    rw [Stage.advance_giving]
    exact hs.adds hb hi
  | notifying =>
    rw [Stage.advance_notifying]
    exact hs.notifies i
  | gone => exact hs.stays hi

omit [OrderedScalar α] in
/-- Only who is suspended can be dropped, and a token that is dropped gives nothing back. -/
theorem drop (hb : b.Fixed) (hs : b.Awake (left + 1) s) (hi : s.stages[i]? = some g) :
    b.Awake left ⟨(g.drop s.world).2, s.stages.set i (g.drop s.world).1⟩ := by
  cases hs.attentive g (List.mem_of_getElem? hi) with
  | exceeding h =>
    rw [Stage.drop_exceeding h]
    exact hs.stays hi
  | @arriving n cause k hcost hk =>
    obtain ⟨k, rfl⟩ := Nat.exists_eq_add_of_le' (Nat.one_le_of_lt hk)
    exact hs.stays hi
  | trying | refused | waiting | giving | notifying | gone => exact hs.stays hi
  | suspended => exact hs.unmoved hi nofun (unmoved_of_get rfl) fun _ => .gone
  | @holding t ht =>
    have hlogged : b.Unmoved s.world (t.drop s.world) := by
      unfold RetryToken.drop
      rw [ht]
      exact (unmoved_of_get (hb.logs ..)).trans (unmoved_ledger hb _ _ (by decide))
    exact hs.unmoved hi nofun hlogged fun _ => .gone

omit [OrderedScalar α] in
theorem release (hb : b.Fixed) (hs : b.Awake (left + 1) s) (hi : s.stages[i]? = some g)
    (outcome : TokenOutcome) :
    b.Awake left ⟨(b.release outcome g s.world).2,
      s.stages.set i (b.release outcome g s.world).1⟩ := by
  cases hs.attentive g (List.mem_of_getElem? hi) with
  | @holding t ht =>
    unfold StandardBucket.release
    by_cases h : outcome = .success
    · simp only [h, if_true]
      exact hs.unmoved hi nofun (unmoved_of_get rfl) fun _ => .giving t.cost
    · simp only [h, if_false]
      apply hs.unmoved hi nofun _ fun _ => .gone
      unfold RetryToken.release
      rw [ht]
      exact unmoved_ledger hb _ _ h
  | _ => exact hs.stays hi

omit [OrderedScalar α] in
theorem others (hs : b.Awake (left + 1) s) (hw : b.Unmoved s.world w) :
    b.Awake left ⟨w, s.stages⟩ := by
  have hheeds : b.Heeds s ⟨w, s.stages⟩ :=
    ⟨hw.returns.ge, fun cost h => .inr (h.imp_right hw.lacks)⟩
  exact ⟨hw.within hs.within, fun g hg =>
    (hs.attentive g hg).mono hheeds (Nat.le_succ _)⟩

omit [OrderedScalar α] in
/-- What holds of a caller that is there holds after any turn of it. -/
theorem change (hs : b.Awake (left + 1) s) (i : Nat)
    {f : Stage η → World η → Stage η × World η}
    (hf : ∀ g, s.stages[i]? = some g →
      b.Awake left ⟨(f g s.world).2, s.stages.set i (f g s.world).1⟩) :
    b.Awake left (s.change i f) := by
  unfold Scene.change
  split
  · exact hf _ ‹_›
  · exact hs.mono (Nat.le_succ _)

theorem turn (hb : b.Fixed) (hwaits : b.config.circuitBreaker = false)
    (hs : b.Awake (left + 1) s) {t : Turn η} (ht : b.Spares t) :
    b.Awake left (b.turn s t) := by
  cases t with
  | step i => exact hs.change i fun _ hi => hs.step hb hwaits hi
  | drop i => exact hs.change i fun _ hi => hs.drop hb hi
  | release i outcome => exact hs.change i fun _ hi => hs.release hb hi outcome
  | others f => exact hs.others (ht s.world)

theorem play (hb : b.Fixed) (hwaits : b.config.circuitBreaker = false) {turns : List (Turn η)}
    (hs : b.Awake turns.length s) (ht : ∀ t ∈ turns, b.Spares t) :
    b.Awake 0 (b.play turns s) := by
  induction turns generalizing s with
  | nil => exact hs
  | cons t turns ih =>
    rw [List.forall_mem_cons] at ht
    exact ih (hs.turn hb hwaits ht.1) ht.2

end Awake

theorem Fresh.attentive (h : b.Fresh g) (hleft : left ≤ b.rounds) (s : Scene η) :
    b.Attentive s left g := by
  cases h with
  | calling n cause =>
    by_cases hcost : b.config.capacity < b.config.costFor n cause
    · exact .exceeding hcost
    · rw [not_lt] at hcost
      rw [acquire_of_le hcost]
      exact .arriving hcost (by omega)
  | holding t ht => exact .holding ht

theorem Opening.awake (h : b.Opening s) (hleft : left ≤ b.rounds) : b.Awake left s where
  within := h.within
  attentive g hg := (h.fresh g hg).attentive hleft s

/-- Calls are suspended nowhere else than in their waits. -/
theorem Attentive.watches {n : Nat} {cause : Option RetryCause} {wake : World η → Bool}
    {cleanup : World η → World η} {next : Fiber (World η) (Except RetryError (RetryToken η))}
    (h : b.Attentive s left (.calling n cause (.block wake cleanup next))) :
    ∃ seen, wake = b.returnsSince seen ∧ b.Watches s (b.config.costFor n cause) seen := by
  generalize hg : Stage.calling n cause (.block wake cleanup next) = g at h
  cases h with
  | exceeding h =>
    obtain ⟨rfl, rfl, hm⟩ := Stage.calling.inj hg
    unfold acquire at hm
    simp only [h, if_true] at hm
    cases hm
  | @arriving n cause k hcost hk =>
    obtain ⟨k, rfl⟩ := Nat.exists_eq_add_of_le' (Nat.one_le_of_lt hk)
    cases (Stage.calling.inj hg).2.2
  | trying | refused | waiting => cases (Stage.calling.inj hg).2.2
  | suspended hcost hk hw =>
    obtain ⟨rfl, rfl, hm⟩ := Stage.calling.inj hg
    obtain ⟨rfl, -, -⟩ := Fiber.block.inj hm
    exact ⟨_, rfl, hw⟩
  | _ => cases hg

variable [OrderedScalar α]

/-- However the steps of callers interleave, who waits and was not notified of a return since it
last looked asks for more than is there, unless somebody has added units and is about to count the
return. Calls are followed for no fewer rounds than there are turns, so none is left before its
end. What a refused call waits for is another return than those before its round, and a release is
the two steps of a giver. -/
theorem suspended_lacks_units (b : StandardBucket η α) (hb : b.Fixed)
    (hwaits : b.config.circuitBreaker = false) :
    (∀ s₀ turns, b.Opening s₀ → (∀ t ∈ turns, b.Spares t) → turns.length ≤ b.rounds →
      let s := b.play turns s₀
      ∀ n cause wake cleanup next, .calling n cause (.block wake cleanup next) ∈ s.stages →
        (∃ seen, seen ≤ (b.account.get s.world).returns ∧ wake = b.returnsSince seen) ∧
          (wake s.world = false → .returning b.notifying ∈ s.stages ∨
            (b.available s.world).1 < b.config.costFor n cause)) ∧
    (∀ n cause w missing, b.config.costFor n cause ≤ b.config.capacity →
      (b.take (b.config.costFor n cause) w).1 = .error missing →
      ∃ k next w', (b.acquire n cause).advances k w =
        (.block (b.returnsSince (b.account.get w).returns) id next, w')) ∧
    ∀ cost w, (b.giving cost).poll w = (.ready (), b.ledger cost .success w) := by
  refine ⟨?_, ?_, fun cost w => by simp only [ledger, poll_giving, if_true]⟩
  · intro s₀ turns h₀ hturns hrounds s n cause wake cleanup next hmem
    have hawake : b.Awake 0 s := (h₀.awake hrounds).play hb hwaits hturns
    obtain ⟨seen, rfl, hw⟩ := (hawake.attentive _ hmem).watches
    refine ⟨⟨seen, hw.le, rfl⟩, fun hpending => ?_⟩
    have hsame : (b.account.get s.world).returns = seen := by
      simpa [returnsSince] using hpending
    rcases hw.reason with hlt | hmem | hlacks
    · omega
    · exact .inl hmem
    · right
      have hrefilled := BucketState.Bounded.refill hb.sized hawake.within (b.clock.now s.world)
      apply BucketState.Lacks.units_lt _ hrefilled
      unfold BucketState.Lacks
      rwa [BucketState.refill_available hb.rate]
  · intro n cause w missing hcost herror
    have hlongest : missing.wait = .longest :=
      BucketState.wait_of_take_error (s := b.account.get w) hb.rate herror
    have hround := poll_round_suspended hb.logs hwaits herror hlongest n
    obtain ⟨k, hk⟩ := (b.acquire n cause).poll_advances w
    rw [acquire_of_le hcost, Fiber.poll_rounds_of_pending hround] at hk
    rw [acquire_of_le hcost]
    exact ⟨k, _, _, hk⟩

/-- Nothing is there. Two retries come, and the token of a first attempt is out. -/
def smallScene : Scene (BucketState Rat) :=
  ⟨.start .epoch .epoch ⟨0, .epoch, 0⟩,
    [.calling 2 (some .transient) (smallBucket.acquire 2 (some .transient)),
      .calling 2 (some .transient) (smallBucket.acquire 2 (some .transient)),
      .holding ⟨1, 3, some smallBucket.ledger⟩]⟩

/-- The first retry is refused. Before it is suspended, the first attempt succeeds and adds its
units, which the other retry takes before the return is counted. So the first retry wakes in vain,
and waits again. -/
def smallRace : List (Turn (BucketState Rat)) :=
  [.step 0, .step 0, .release 2 .success, .step 2, .step 0, .step 0, .step 1, .step 1, .step 2,
    .step 0, .step 0, .step 0, .step 0, .step 0]

theorem suspended_lacks_units_race :
    let s := smallBucket.play smallRace smallScene
    .calling 2 (some .transient) (smallBucket.suspended 2 5 1 98) ∈ s.stages ∧
      smallBucket.returnsSince 1 s.world = false ∧ (smallBucket.available s.world).1 < 5 ∧
      ∃ k next w', (smallBucket.acquire 2 (some .transient)).advances k smallScene.world =
        (.block (smallBucket.returnsSince 0) id next, w') := by
  have hstages : (smallBucket.play smallRace smallScene).stages =
      [.calling 2 (some .transient) (smallBucket.suspended 2 5 1 98),
        .holding ⟨2, 5, some smallBucket.ledger⟩, .gone] := by
    cbv
  have hpending :
      smallBucket.returnsSince 1 (smallBucket.play smallRace smallScene).world = false := by
    cbv
  intro s
  have hb : smallBucket.Fixed := ⟨rfl, by decide, by decide, fun _ _ _ _ => rfl⟩
  have hopening : smallBucket.Opening smallScene := by
    refine ⟨⟨0, rfl, le_rfl, by decide⟩, ?_⟩
    simp only [smallScene, List.forall_mem_cons]
    exact ⟨.calling .., .calling .., .holding _ rfl, List.forall_mem_nil _⟩
  have hmem : .calling 2 (some .transient) (smallBucket.suspended 2 5 1 98) ∈ s.stages := by
    rw [hstages]
    exact List.mem_cons_self ..
  obtain ⟨hlacks, hsuspends, -⟩ := smallBucket.suspended_lacks_units hb rfl
  have hreason := (hlacks smallScene smallRace hopening (by simp [smallRace, Spares]) (by decide)
    2 (some .transient) _ _ _ hmem).2 hpending
  refine ⟨hmem, hpending, hreason.resolve_left ?_, ?_⟩
  · rw [hstages]
    simp
  · exact hsuspends 2 (some .transient) smallScene.world ⟨0, .longest⟩ (by decide) (by cbv)

end StandardBucket

end ClientRuntime
