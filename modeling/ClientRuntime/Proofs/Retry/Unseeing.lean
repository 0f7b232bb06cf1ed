import ClientRuntime.Proofs.Operation.Observed
import ClientRuntime.Proofs.Trace.Untraced

/-!
Retrying without a look at the trace. A strategy tells its span what it does, but nothing that it
does depends on the span, as long as its bucket, its delays, its clock and the judge do not look at
the trace either. Those that come with the library do not.
-/

namespace ClientRuntime

open ClientRuntime.Fiber
open World (SameUntraced)

variable {η ρ ε γ ν : Type} {judge : Judge (World η) ρ ε} {attempt : Attempt η ρ ε ν}

/-- Whatever becomes of the token does not depend on the trace. -/
structure RetryToken.Unseeing (t : RetryToken η) : Prop where
  drop : ∀ w w', w.SameUntraced w' → (t.drop w).SameUntraced (t.drop w')
  release : ∀ outcome w w', w.SameUntraced w' →
    (t.release outcome w).SameUntraced (t.release outcome w')

/-- A bucket that does not look at the trace, and hands out tokens that do not either. -/
def TokenBucket.Unseeing (b : TokenBucket η) : Prop :=
  ∀ n cause, (b.acquire n cause).Blind SameUntraced fun answer => ∀ t, answer = .ok t → t.Unseeing

structure Clock.Unseeing (c : Clock (World η)) : Prop where
  now : ∀ w w', w.SameUntraced w' → c.now w = c.now w'
  sleep : ∀ d, (c.sleep d).Unseeing

def DelayProvider.Unseeing (p : DelayProvider (World η)) : Prop :=
  ∀ n, World.Unseeing (p.backoff n)

def Judge.Unseeing (judge : Judge (World η) ρ ε) : Prop := ∀ result, World.Unseeing (judge result)

structure StandardStrategy.Unseeing (s : StandardStrategy η) : Prop where
  bucket : s.bucket.Unseeing
  delays : s.delays.Unseeing
  clock : s.clock.Unseeing

namespace StandardStrategy

variable {s : StandardStrategy η} (hs : s.Unseeing) (span : SpanId)

theorem note_unseeing (level : TraceLevel) (text : String) :
    (note span level text : Fiber (World η) Unit).Unseeing :=
  unseeing_tracing fun w => w.untraced_say span level component text none

theorem warn_unseeing (text : String) (e : RetryError) :
    (warn span text e : Fiber (World η) Unit).Unseeing :=
  unseeing_tracing fun w => w.untraced_say span _ _ _ _

theorem turn_unseeing (hjudge : judge.Unseeing) (hattempt : ∀ n, (attempt n).Unseeing) (n : Nat)
    {t : RetryToken η} (ht : t.Unseeing) : (s.turn judge span attempt n t).Unseeing := by
  refine (note_unseeing span _ _).bind fun _ _ => ?_
  refine ((hattempt n).guarded ht.drop ht.drop).bind fun ⟨result, last⟩ _ => ?_
  refine (unseeing_modifyGet (hjudge result)).bind fun d _ => ?_
  exact (Blind.modify (ht.release _)).bind fun _ _ => .pure trivial

include hs

theorem backOff_unseeing (n : Nat) (cause : RetryCause) : (s.backOff span n cause).Unseeing := by
  refine (unseeing_modifyGet (hs.delays n)).bind fun delay _ => ?_
  refine (unseeing_tracing fun w => w.untraced_emit _ _ _).bind fun _ _ => ?_
  exact (note_unseeing span _ _).bind fun _ _ => hs.clock.sleep delay

variable [OperationError ε]

theorem attemptFrom_unseeing (hjudge : judge.Unseeing) (hattempt : ∀ n, (attempt n).Unseeing)
    (left n : Nat) {t : RetryToken η} (ht : t.Unseeing) :
    (s.attemptFrom judge span attempt left n t).Unseeing := by
  have last {o : Retried ρ ε ν} {text : String} :
      Fiber.Unseeing (η := η) (do note span .debug text; return o) :=
    (note_unseeing span .debug text).bind fun _ _ => .pure trivial
  induction left using Nat.strongRecOn generalizing n t with
  | ind left ih =>
  unfold attemptFrom
  refine (turn_unseeing span hjudge hattempt n ht).bind ?_
  rintro ⟨result, x, d⟩ -
  cases d with
  | success | failure => exact last
  | retry cause =>
    cases left with
    | zero => exact last
    | succ left =>
      refine (backOff_unseeing hs span n cause).bind fun _ _ => ?_
      refine (hs.bucket (n + 1) (some cause)).bind fun answer hanswer => ?_
      cases answer with
      | error e => exact (warn_unseeing span _ e).bind fun _ _ => .pure trivial
      | ok t => exact ih left (by omega) (n + 1) (hanswer t rfl)

theorem retry_unseeing (hjudge : judge.Unseeing) (hattempt : ∀ n, (attempt n).Unseeing) :
    (s.retry judge span attempt).Unseeing := by
  refine (hs.bucket 1 none).bind fun answer hanswer => ?_
  cases answer with
  | error e => exact (warn_unseeing span _ e).bind fun _ _ => .pure trivial
  | ok t => exact attemptFrom_unseeing hs span hjudge hattempt _ 1 (hanswer t rfl)

end StandardStrategy

theorem RetryStrategy.retryOnce_unseeing [OperationError ε] (span : SpanId)
    (hjudge : judge.Unseeing) (hattempt : ∀ n, (attempt n).Unseeing) :
    (retryOnce judge span attempt).Unseeing := by
  refine (hattempt 1).bind fun ⟨result, note⟩ _ => ?_
  refine (unseeing_modifyGet (hjudge result)).bind fun d _ => ?_
  exact (unseeing_tracing fun w => w.untraced_say span _ _ _ _).bind fun _ _ => .pure trivial

/-- A way to retry that does not look at the trace. -/
inductive Retrying.Unseeing : Retrying η → Prop where
  | standard {s : StandardStrategy η} : s.Unseeing → Retrying.Unseeing (.standard s)
  | single : Retrying.Unseeing .single

theorem Retrying.Unseeing.retry [OperationError ε] {retrying : Retrying η}
    (h : retrying.Unseeing) (span : SpanId) (hjudge : judge.Unseeing)
    (hattempt : ∀ n, (attempt n).Unseeing) :
    (retrying.strategy.retry judge span attempt).Unseeing := by
  cases h with
  | standard hs => exact StandardStrategy.retry_unseeing hs span hjudge hattempt
  | single => exact RetryStrategy.retryOnce_unseeing span hjudge hattempt

section Watched

variable {α : Type}

/-- A step in the rest of the world, and a note of its answer. -/
theorem World.Unseeing.watched {f : World η → α × World η} (h : World.Unseeing f)
    (call : α → RetryCall ρ ε γ) :
    World.Unseeing fun w : World (Journaled (RetryCall ρ ε γ) η) =>
      ((f (unwatched.get w)).1,
        (unwatched.set (f (unwatched.get w)).2 w).record (call (f (unwatched.get w)).1)) where
  value w w' hw := h.value _ _ (sameUntraced_journaled.mp hw).1
  world w w' hw := by
    have hv := (sameUntraced_journaled.mp hw).1
    rw [h.value _ _ hv]
    exact (hw.set (h.world _ _ hv)).record _

theorem RetryToken.Unseeing.watched {t : RetryToken η} (h : t.Unseeing) (n : Nat) :
    (t.watched n : RetryToken (Journaled (RetryCall ρ ε γ) η)).Unseeing := by
  have hrelease (outcome : TokenOutcome) (w w' : World (Journaled (RetryCall ρ ε γ) η))
      (hw : w.SameUntraced w') :
      ((t.watched n).release outcome w).SameUntraced ((t.watched n).release outcome w') := by
    rw [release_watched, release_watched]
    exact (hw.set (h.release outcome _ _ (World.sameUntraced_journaled.mp hw).1)).record _
  exact ⟨fun _ _ hw => hrelease .retryableFailure _ _ hw, hrelease⟩

theorem TokenBucket.Unseeing.watched {b : TokenBucket η} (h : b.Unseeing) :
    (b.watched : TokenBucket (Journaled (RetryCall ρ ε γ) η)).Unseeing := by
  intro n cause
  refine (unseeing_record _).bind fun _ _ => ((h n cause).watched _).bind fun answer hanswer => ?_
  refine .pure fun t ht => ?_
  cases answer with
  | error e => cases ht
  | ok t' =>
    obtain rfl := Except.ok.inj ht
    exact (hanswer t' rfl).watched n

theorem Clock.Unseeing.watched {c : Clock (World η)} (h : c.Unseeing) :
    (c.watched : Clock (World (Journaled (RetryCall ρ ε γ) η))).Unseeing where
  now _ _ hw := h.now _ _ (World.sameUntraced_journaled.mp hw).1
  sleep d := (unseeing_record _).bind fun _ _ => (h.sleep d).unwatched

theorem DelayProvider.Unseeing.watched {p : DelayProvider (World η)} (h : p.Unseeing) :
    (p.watched : DelayProvider (World (Journaled (RetryCall ρ ε γ) η))).Unseeing :=
  fun n => (h n).watched (.delayed n)

theorem Judge.Unseeing.watched (h : judge.Unseeing) :
    (judge.watched : Judge (World (Journaled (RetryCall ρ ε γ) η)) ρ ε).Unseeing :=
  fun result => (h result).watched (.judged result)

theorem StandardStrategy.Unseeing.watched {s : StandardStrategy η} (h : s.Unseeing) :
    (s.watched : StandardStrategy (Journaled (RetryCall ρ ε γ) η)).Unseeing :=
  ⟨h.bucket.watched, h.delays.watched, h.clock.watched⟩

theorem Attempt.watched_unseeing
    {attempt : Attempt (Journaled (RetryCall ρ ε γ) η) ρ ε ν} (h : ∀ n, (attempt n).Unseeing)
    (n : Nat) : (attempt.watched n).Unseeing := by
  refine (unseeing_record _).bind fun _ _ => (h n).bind fun ⟨result, note⟩ _ => ?_
  exact (unseeing_record _).bind fun _ _ => .pure trivial

theorem Retrying.Unseeing.watched_retry [OperationError ε] {retrying : Retrying η}
    (h : retrying.Unseeing) (span : SpanId) (hjudge : judge.Unseeing)
    {attempt : Attempt (Journaled (RetryCall ρ ε γ) η) ρ ε ν}
    (hattempt : ∀ n, (attempt n).Unseeing) :
    (retrying.watched.retry judge.watched span attempt).Unseeing := by
  have hwatched := Attempt.watched_unseeing hattempt
  cases h with
  | standard hs => exact StandardStrategy.retry_unseeing hs.watched span hjudge.watched hwatched
  | single => exact RetryStrategy.retryOnce_unseeing span hjudge.watched hwatched

end Watched

section Library

variable {α β : Type}

theorem World.randomLens_unseeing : (World.randomLens : Lens (World η) Random).Unseeing where
  get _ _ h := h.random
  set r _ _ h := h.modify (f := World.randomLens.set r) fun _ => rfl

theorem World.hostLens_unseeing : (World.hostLens : Lens (World η) η).Unseeing where
  get _ _ h := h.host
  set a _ _ h := h.modify (f := World.hostLens.set a) fun _ => rfl

theorem Lens.Unseeing.comp {l : Lens (World η) α} (h : l.Unseeing) (m : Lens α β) :
    (l.comp m).Unseeing where
  get w w' hw := congrArg m.get (h.get w w' hw)
  set b w w' hw := by
    simp only [Lens.comp, h.get w w' hw]
    exact h.set _ w w' hw

theorem Lens.Unseeing.modify {l : Lens (World η) α} (h : l.Unseeing) (f : α → α) {w w' : World η}
    (hw : w.SameUntraced w') : (l.modify f w).SameUntraced (l.modify f w') := by
  simp only [Lens.modify, h.get w w' hw]
  exact h.set _ w w' hw

theorem World.manualClock_unseeing : (World.manualClock : Clock (World η)).Unseeing where
  now _ _ h := congrArg ManualClock.now h.clock
  sleep d := .modify fun _ _ h =>
    h.modify (f := fun w => { w with clock := w.clock.sleep d }) fun _ => rfl

theorem Clock.system_unseeing : (Clock.system : Clock (World η)).Unseeing where
  now _ _ h := h.systemTime
  sleep _ := .hang

theorem Clock.Unseeing.yielding {c : Clock (World η)} (h : c.Unseeing) : c.yielding.Unseeing where
  now := h.now
  sleep d := Blind.suspend.bind fun _ _ => h.sleep d

theorem DelayProvider.none_unseeing : (DelayProvider.none : DelayProvider (World η)).Unseeing :=
  fun _ => ⟨fun _ _ _ => rfl, fun _ _ h => h⟩

theorem DelayProvider.fixed_unseeing (d : Duration) :
    (DelayProvider.fixed d : DelayProvider (World η)).Unseeing :=
  fun _ => ⟨fun _ _ _ => rfl, fun _ _ h => h⟩

theorem DelayProvider.exponential_unseeing (c : BackoffConfig Float) (seeded : Bool)
    {random : Lens (World η) Random} (h : random.Unseeing) :
    (DelayProvider.exponential c seeded random).Unseeing := by
  refine fun n => ⟨fun w w' hw => ?_, fun w w' hw => ?_⟩
  · simp only [exponential, h.get w w' hw]
  · simp only [exponential, h.get w w' hw]
    exact h.set _ w w' hw

theorem RetryPolicy.judge_unseeing (p : RetryPolicy ρ ε) :
    (p.judge : Judge (World η) ρ ε).Unseeing :=
  fun _ => ⟨fun _ _ _ => rfl, fun _ _ h => h⟩

theorem TokenBucket.infinite_unseeing : (TokenBucket.infinite : TokenBucket η).Unseeing := by
  refine fun n cause => .pure fun t ht => ?_
  obtain rfl := Except.ok.inj ht
  exact ⟨fun _ _ h => h, fun _ _ _ h => h⟩

namespace StandardBucket

variable {b : StandardBucket η Float} (haccount : b.account.Unseeing) (hclock : b.clock.Unseeing)

include haccount

theorem token_unseeing (n cost : Nat) : RetryToken.Unseeing ⟨n, cost, some b.ledger⟩ := by
  have hledger (outcome : TokenOutcome) (w w' : World η) (h : w.SameUntraced w') :
      (b.ledger cost outcome w).SameUntraced (b.ledger cost outcome w') := by
    simp only [ledger, poll_giving]
    split
    · exact haccount.modify _ h
    · exact h
  exact ⟨fun w w' h => hledger .retryableFailure _ _ h, hledger⟩

theorem returnsSince_unseeing (seen : Nat) (w w' : World η) (h : w.SameUntraced w') :
    b.returnsSince seen w = b.returnsSince seen w' := by
  simp only [returnsSince, haccount.get w w' h]

include hclock

theorem take_unseeing (cost : Nat) : World.Unseeing (b.take cost) where
  value w w' h := by simp only [take, haccount.get w w' h, hclock.now w w' h]
  world w w' h := by
    simp only [take, haccount.get w w' h, hclock.now w w' h]
    exact haccount.set _ w w' h

theorem available_unseeing : World.Unseeing b.available where
  value w w' h := by simp only [available, haccount.get w w' h, hclock.now w w' h]
  world w w' h := by
    simp only [available, haccount.get w w' h, hclock.now w w' h]
    exact haccount.set _ w w' h

theorem wait_unseeing (seen : Nat) (time : Duration) : (b.wait seen time).Unseeing := by
  unfold wait
  split
  · exact .waitUntil (returnsSince_unseeing haccount seen)
  · exact .giveUpWhen (returnsSince_unseeing haccount seen) (.pure trivial) (hclock.sleep time)

theorem round_unseeing (n cost : Nat) :
    (b.round n cost).Blind SameUntraced
      fun o => ∀ answer ∈ o, ∀ t, answer = .ok t → t.Unseeing := by
  refine Blind.bind (P := fun _ => True)
    (.gets (fun w w' h => by rw [haccount.get w w' h]) fun _ => trivial) fun seen _ => ?_
  refine (unseeing_modifyGet (take_unseeing haccount hclock cost)).bind fun taken _ => ?_
  cases taken with
  | ok =>
    apply Blind.pure
    rintro _ ⟨⟩ t ht
    obtain rfl := Except.ok.inj ht
    exact token_unseeing haccount n cost
  | error missing =>
    unfold settle
    dsimp only
    split
    · exact (unseeing_tracing fun w => w.untraced_emit _ _ _).bind fun _ _ => .pure (by simp)
    · refine (unseeing_tracing fun w => w.untraced_emit _ _ _).bind fun _ _ => ?_
      exact (wait_unseeing haccount hclock seen _).bind fun _ _ => .pure (by simp)

theorem tokenBucket_unseeing : b.tokenBucket.Unseeing := by
  intro n cause
  show (b.acquire n cause).Blind _ _
  unfold acquire
  dsimp only
  split
  · exact (unseeing_modifyGet (available_unseeing haccount hclock)).bind fun _ _ => .pure (by simp)
  · exact (round_unseeing haccount hclock n _).rounds _

end StandardBucket

/-- A configured strategy does not look at the trace if its clock does not, and if what is its own
is kept elsewhere. -/
theorem StandardStrategy.ofConfig_unseeing (c : RetryConfig Float) {clock : Clock (World η)}
    (hclock : clock.Unseeing) {own : StrategyParts η} (haccount : own.account.Unseeing)
    (hrandom : own.random.Unseeing) (w : World η) : (ofConfig c clock own w).1.Unseeing where
  bucket := StandardBucket.tokenBucket_unseeing haccount hclock
  delays := DelayProvider.exponential_unseeing c.backoff false hrandom
  clock := hclock

end Library

end ClientRuntime
