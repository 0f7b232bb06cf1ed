import ClientRuntime.Proofs.Fiber.Stays
import ClientRuntime.Retry.Standard

/-!
Attempts one after the other. Between them and around them, what a strategy does is what others
may do as well.
-/

namespace ClientRuntime

open ClientRuntime.Fiber

variable {η ρ ε ν : Type} {R T : World η → World η → Prop} {judge : Judge (World η) ρ ε}
  {attempt : Attempt η ρ ε ν} {span : SpanId}

/-- Whatever the steps of others and the runs of attempts amount to, runs of the strategy do too. -/
def RetryStrategy.Sequential (R : World η → World η → Prop) (judge : Judge (World η) ρ ε)
    (span : SpanId) (s : RetryStrategy η ρ ε ν) : Prop :=
  ∀ T : World η → World η → Prop, Composes T → (∀ w w', R w w' → T w w') →
    ∀ attempt : Attempt η ρ ε ν, (∀ n, (attempt n).Stays R T) →
      (s.retry judge span attempt).Stays R T

/-- Whatever becomes of the token, others may do as well. -/
structure RetryToken.Harmless (R : World η → World η → Prop) (t : RetryToken η) : Prop where
  drop : ∀ w, R w (t.drop w)
  release : ∀ outcome w, R w (t.release outcome w)

namespace StandardStrategy

/-- Every part of the strategy does only what others may do as well. -/
structure Harmless (R : World η → World η → Prop) (judge : Judge (World η) ρ ε)
    (span : SpanId) (s : StandardStrategy η) : Prop where
  emit : ∀ (w : World η) level fields message, R w (w.emit level fields message)
  say : ∀ (w : World η) level text error, R w (w.say span level component text error)
  acquire : ∀ n cause, (s.bucket.acquire n cause).Stays R R
  granted : ∀ n cause w answer w', Run R (s.bucket.acquire n cause) w (.returned answer) w' →
    ∀ t, answer = .ok t → t.Harmless R
  judge : ∀ result w, R w (judge result w).2
  backoff : ∀ n w, R w (s.delays.backoff n w).2
  sleep : ∀ d, (s.clock.sleep d).Stays R R

variable {s : StandardStrategy η}

theorem stays_turn (h : s.Harmless R judge span) (hT : Composes T) (hR : ∀ w w', R w w' → T w w')
    (hattempt : ∀ n, (attempt n).Stays R T) (n : Nat) {t : RetryToken η} (ht : t.Harmless R) :
    (s.turn judge span attempt n t).Stays R T := by
  refine .modify_bind hT (fun w => hR _ _ (h.say w _ _ _)) ?_
  have hguarded := (hattempt n).guarded hT (fun w => hR _ _ (ht.drop w))
    fun w => hR _ _ (ht.drop w)
  refine hguarded.bind hT fun made => ?_
  refine .modifyGet_bind hT (fun w => hR _ _ (h.judge _ w)) fun d => ?_
  exact .modify_bind hT (fun w => hR _ _ (ht.release _ w)) (.pure hT _)

theorem stays_backOff (h : s.Harmless R judge span) (hT : Composes T)
    (hR : ∀ w w', R w w' → T w w') (n : Nat) (cause : RetryCause) :
    (s.backOff span n cause).Stays R T := by
  refine .modifyGet_bind hT (fun w => hR _ _ (h.backoff n w)) fun d => ?_
  refine .modify_bind hT (fun w => hR _ _ (h.emit w _ _ _)) ?_
  exact .modify_bind hT (fun w => hR _ _ (h.say w _ _ _)) ((h.sleep d).mono hR)

variable [OperationError ε]

theorem stays_attemptFrom (h : s.Harmless R judge span) (hT : Composes T)
    (hR : ∀ w w', R w w' → T w w') (hattempt : ∀ n, (attempt n).Stays R T) (left n : Nat)
    {t : RetryToken η} (ht : t.Harmless R) :
    (s.attemptFrom judge span attempt left n t).Stays R T := by
  have last {o : Retried ρ ε ν} {text : String} :
      Stays R T (do note span .debug text; return o) :=
    .modify_bind hT (fun w => hR _ _ (h.say w _ _ _)) (.pure hT o)
  induction left using Nat.strongRecOn generalizing n t with
  | ind left ih =>
  unfold attemptFrom
  refine (stays_turn h hT hR hattempt n ht).bind hT fun ⟨r, x, d⟩ => ?_
  cases d with
  | success | failure => exact last
  | retry cause =>
    cases left with
    | zero => exact last
    | succ left =>
      refine (stays_backOff h hT hR n cause).bind hT fun _ => ?_
      refine ((h.acquire _ _).mono hR).bind_of hT (h.granted _ _) fun answer ht => ?_
      cases answer with
      | error e => exact .modify_bind hT (fun w => hR _ _ (h.say w _ _ _)) (.pure hT _)
      | ok t => exact ih left (by omega) (n + 1) (ht t rfl)

theorem sequential (h : s.Harmless R judge span) :
    (s.strategy : RetryStrategy η ρ ε ν).Sequential R judge span := by
  intro T hT hR attempt hattempt
  refine ((h.acquire _ _).mono hR).bind_of hT (h.granted _ _) fun answer ht => ?_
  cases answer with
  | error e => exact .modify_bind hT (fun w => hR _ _ (h.say w _ _ _)) (.pure hT _)
  | ok t => exact stays_attemptFrom h hT hR hattempt _ _ (ht t rfl)

end StandardStrategy

theorem RetryStrategy.single_sequential [OperationError ε]
    (hsay : ∀ (w : World η) level text error, R w (w.say span level singleComponent text error))
    (hjudge : ∀ result w, R w (judge result w).2) :
    (RetryStrategy.single : RetryStrategy η ρ ε ν).Sequential R judge span := by
  intro T hT hR attempt hattempt
  refine (hattempt 1).bind hT fun made => ?_
  refine .modifyGet_bind hT (fun w => hR _ _ (hjudge _ w)) fun d => ?_
  exact .modify_bind hT (fun w => hR _ _ (hsay w _ _ _)) (.pure hT _)

namespace StandardBucket

variable {α : Type} [Scalar α] {b : StandardBucket η α}

/-- The account is out of the way, and so is the clock. -/
structure Harmless (R : World η → World η → Prop) (b : StandardBucket η α) : Prop where
  emit : ∀ (w : World η) level fields message, R w (w.emit level fields message)
  account : ∀ s w, R w (b.account.set s w)
  sleep : ∀ d, (b.clock.sleep d).Stays R R

variable (hR : Composes R) (h : b.Harmless R)

include hR h

theorem token_harmless (n cost : Nat) : RetryToken.Harmless R ⟨n, cost, some b.ledger⟩ := by
  have hledger (outcome : TokenOutcome) (w : World η) : R w (b.ledger cost outcome w) := by
    simp only [ledger, poll_giving]
    split
    · exact h.account _ w
    · exact h.emit w _ _ _
  exact ⟨fun w => hR.andThen (h.emit w _ _ _) (hledger .retryableFailure _), hledger⟩

omit [Scalar α] in
theorem stays_wait (seen : Nat) (time : Duration) : (b.wait seen time).Stays R R := by
  unfold wait
  split
  · exact .waitUntil hR (fun _ _ h => h) _
  · exact .giveUpWhen hR (h.sleep time) (.pure hR ())

theorem stays_round (n cost : Nat) : (b.round n cost).Stays R R := by
  refine .gets_bind fun seen => .modifyGet_bind hR (fun w => h.account _ w) fun taken => ?_
  cases taken with
  | ok => exact .pure hR _
  | error missing =>
    unfold settle
    dsimp only
    split
    · exact .modify_bind hR (fun w => h.emit w _ _ _) (.pure hR _)
    · refine .modify_bind hR (fun w => h.emit w _ _ _) ?_
      exact (stays_wait hR h seen _).bind hR fun _ => .pure hR _

theorem stays_acquire (n : Nat) (cause : Option RetryCause) : (b.acquire n cause).Stays R R := by
  unfold acquire
  dsimp only
  split
  · exact .modifyGet_bind hR (fun w => h.account _ w) fun _ => .pure hR _
  · exact (stays_round hR h n _).rounds hR (fun _ _ h => h) _

omit hR h in
theorem granted_of_round {n cost : Nat} {w w' : World η} {t : RetryToken η}
    (hrun : Run R (b.round n cost) w (.returned (some (.ok t))) w') :
    t = ⟨n, cost, some b.ledger⟩ := by
  rw [round, run_gets_bind, run_modifyGet_bind] at hrun
  rcases htake : b.take cost w with ⟨missing | ⟨⟩, w₁⟩ <;> rw [htake] at hrun
  · unfold settle at hrun
    dsimp only at hrun
    split at hrun
    · rw [run_modify_bind, run_pure] at hrun
      cases hrun.1
    · rw [run_modify_bind] at hrun
      obtain ⟨_, _, -, hnone⟩ := run_bind_returned.mp hrun
      cases (run_pure.mp hnone).1
  · obtain ⟨⟨⟩, -⟩ := run_pure.mp hrun
    rfl

omit hR h in
/-- Only the bucket's own tokens are handed out. -/
theorem granted_of_acquire {n : Nat} {cause : Option RetryCause} {w w' : World η} {t : RetryToken η}
    (hrun : Run R (b.acquire n cause) w (.returned (.ok t)) w') :
    t = ⟨n, b.config.costFor n cause, some b.ledger⟩ := by
  unfold acquire at hrun
  dsimp only at hrun
  split at hrun
  · rw [run_modifyGet_bind, run_pure] at hrun
    cases hrun.1
  · obtain ⟨w₁, w₂, hround⟩ := hrun.of_rounds
    exact granted_of_round hround

end StandardBucket

namespace StandardStrategy

variable {s : StandardStrategy η}

/-- A strategy on a bucket of the standard kind is harmless if its surroundings are. -/
theorem harmless_of_bucket {b : StandardBucket η Float} (hR : Composes R) (hb : b.Harmless R)
    (hs : s.bucket = b.tokenBucket)
    (hsay : ∀ (w : World η) level text error, R w (w.say span level component text error))
    (hjudge : ∀ result w, R w (judge result w).2) (hbackoff : ∀ n w, R w (s.delays.backoff n w).2)
    (hsleep : ∀ d, (s.clock.sleep d).Stays R R) : s.Harmless R judge span where
  emit := hb.emit
  say := hsay
  acquire n cause := by
    rw [hs]
    exact StandardBucket.stays_acquire hR hb n cause
  granted n cause w answer w' hrun t ht := by
    rw [hs, ht] at hrun
    rw [StandardBucket.granted_of_acquire hrun]
    exact StandardBucket.token_harmless hR hb _ _
  judge := hjudge
  backoff := hbackoff
  sleep := hsleep

end StandardStrategy

end ClientRuntime
