import ClientRuntime.Proofs.Retry.Progress

/-!
A single attempt, made in two ways. A standard strategy that may make one attempt takes a token and
then does what the strategy does that makes exactly one: one attempt, one judgement, no pause. It
comes to the same outcome, however the result is judged.
-/

namespace ClientRuntime

open ClientRuntime.Fiber

variable {η ρ ε γ ν : Type}

namespace StandardStrategy

/-- Says that attempt `n` starts. -/
def announce (s : StandardStrategy η) (span : SpanId) (n : Nat) (w : World η) : World η :=
  w.say span .trace component
    ("Starting attempt " ++ toString n ++ " of " ++ toString s.maxAttempts) none

/-- A turn that returns is an attempt that returns, a judgement of its result, and the release of
the token. -/
theorem run_turn_returned {R : World η → World η → Prop} {s : StandardStrategy η}
    {judge : Judge (World η) ρ ε} {span : SpanId} {attempt : Attempt η ρ ε ν} {n : Nat}
    {token : RetryToken η} {r : Except ε ρ} {x : ν} {d : RetryDirective} {w w' : World η} :
    Run R (s.turn judge span attempt n token) w (.returned (r, x, d)) w' ↔
      ∃ w₁, Run R (attempt n) (s.announce span n w) (.returned (r, x)) w₁ ∧ (judge r w₁).1 = d ∧
        w' = token.release (tokenOutcome d) (judge r w₁).2 := by
  unfold turn note
  rw [run_modify_bind, run_bind_returned]
  constructor
  · rintro ⟨⟨r, x⟩, w₁, hguard, h⟩
    obtain ⟨w₁, hattempt, rfl⟩ := run_guarded.mp hguard
    simp only [run_modifyGet_bind, run_modify_bind, run_pure, Ending.returned.injEq,
      Prod.mk.injEq] at h
    obtain ⟨⟨rfl, rfl, rfl⟩, rfl⟩ := h
    exact ⟨w₁, hattempt, rfl, rfl⟩
  · rintro ⟨w₁, hattempt, rfl, rfl⟩
    refine ⟨(r, x), w₁, run_guarded.mpr ⟨w₁, hattempt, rfl⟩, ?_⟩
    simp only [run_modifyGet_bind, run_modify_bind, run_pure, and_self]

end StandardStrategy

variable [OperationError ε]

/-- The strategy of a single attempt returns where the attempt returns. -/
theorem RetryStrategy.run_retryOnce {R : World η → World η → Prop} {judge : Judge (World η) ρ ε}
    {span : SpanId} {attempt : Attempt η ρ ε ν} {out : Retried ρ ε ν} {w : World η} :
    (∃ w', Run R (retryOnce judge span attempt) w (.returned out) w') ↔
      ∃ r x w₁, Run R (attempt 1) w (.returned (r, x)) w₁ ∧
        out = ⟨(judge r w₁).1.conclude 1 r, some x⟩ := by
  unfold retryOnce
  constructor
  · rintro ⟨w', h⟩
    obtain ⟨⟨r, x⟩, w₁, hattempt, h⟩ := run_bind_returned.mp h
    simp only [run_modifyGet_bind, run_modify_bind, run_pure, Ending.returned.injEq] at h
    exact ⟨r, x, w₁, hattempt, h.1⟩
  · rintro ⟨r, x, w₁, hattempt, rfl⟩
    apply Exists.intro
    apply run_bind_returned.mpr
    exact ⟨(r, x), w₁, hattempt,
      run_modifyGet_bind.mpr (run_modify_bind.mpr (run_pure.mpr ⟨rfl, rfl⟩))⟩

namespace StandardStrategy

/-- The last attempt of a strategy returns where the attempt returns, and the way in which its
result is judged makes no difference to what follows. -/
theorem run_lastAttempt {R : World η → World η → Prop} {s : StandardStrategy η}
    {judge : Judge (World η) ρ ε} {span : SpanId} {attempt : Attempt η ρ ε ν} {n : Nat}
    {token : RetryToken η} {out : Retried ρ ε ν} {w : World η} :
    (∃ w', Run R (s.attemptFrom judge span attempt 0 n token) w (.returned out) w') ↔
      ∃ r x w₁, Run R (attempt n) (s.announce span n w) (.returned (r, x)) w₁ ∧
        out = ⟨(judge r w₁).1.conclude n r, some x⟩ := by
  unfold attemptFrom
  simp only [run_bind_returned]
  constructor
  · rintro ⟨w', ⟨r, x, d⟩, w₂, hturn, h⟩
    obtain ⟨w₁, hattempt, rfl, rfl⟩ := run_turn_returned.mp hturn
    refine ⟨r, x, w₁, hattempt, ?_⟩
    dsimp only at h
    generalize (judge r w₁).1 = d at h ⊢
    cases d <;> simp only [note, run_modify_bind, run_pure, Ending.returned.injEq] at h <;>
      exact h.1
  · rintro ⟨r, x, w₁, hattempt, rfl⟩
    have hturn := run_turn_returned.mpr
      ⟨w₁, hattempt, rfl, Eq.refl (token.release _ (judge r w₁).2)⟩
    generalize (judge r w₁).1 = d at hturn ⊢
    cases d <;>
      exact ⟨_, _, _, hturn, run_modify_bind.mpr (run_pure.mpr ⟨rfl, rfl⟩)⟩

/-- Where the first token is always granted, a strategy that may make one attempt returns what the
strategy of a single attempt returns once the token is there. -/
theorem run_retry_one {R : World η → World η → Prop} {s : StandardStrategy η}
    (hone : s.maxAttempts = 1) {judge : Judge (World η) ρ ε} {span : SpanId}
    {attempt : Attempt η ρ ε ν} {out : Retried ρ ε ν} {w : World η}
    (hgrants : ∀ answer w', Run R (s.bucket.acquire 1 none) w (.returned answer) w' →
      ∃ token, answer = .ok token) :
    (∃ w', Run R (s.retry judge span attempt) w (.returned out) w') ↔
      ∃ token w₁, Run R (s.bucket.acquire 1 none) w (.returned (.ok token)) w₁ ∧
        ∃ w', Run R (RetryStrategy.retryOnce judge span attempt) (s.announce span 1 w₁)
          (.returned out) w' := by
  unfold retry
  simp only [run_bind_returned, hone, Nat.sub_self, RetryStrategy.run_retryOnce]
  constructor
  · rintro ⟨w', answer, w₁, hacquire, h⟩
    obtain ⟨token, rfl⟩ := hgrants answer w₁ hacquire
    exact ⟨token, w₁, hacquire, run_lastAttempt.mp ⟨w', h⟩⟩
  · rintro ⟨token, w₁, hacquire, h⟩
    obtain ⟨w', hlast⟩ := run_lastAttempt.mpr h
    exact ⟨w', .ok token, w₁, hacquire, hlast⟩

end StandardStrategy

section Watched

variable {w w' : World (Journaled (RetryCall ρ ε γ) η)}

omit [OperationError ε] in
/-- A bucket under watch grants what it grants by itself. -/
theorem TokenBucket.granted_of_watched {b : TokenBucket η} {n : Nat} {cause : Option RetryCause}
    {answer : Except RetryError (RetryToken (Journaled (RetryCall ρ ε γ) η))}
    (hgrants : ∀ answer v', Run (fun _ _ => True) (b.acquire n cause) (World.unwatched.get w)
      (.returned answer) v' → ∃ token, answer = .ok token)
    (h : Run World.SameCalls (b.watched.acquire n cause) w (.returned answer) w') :
    ∃ token, answer = .ok token := by
  obtain ⟨seen, w₁, hseen, h⟩ := run_bind_returned.mp (run_modify_bind.mp h)
  obtain ⟨own, w₂, hown, hnoted⟩ := run_bind_returned.mp hseen
  obtain ⟨token, rfl⟩ := hgrants own _ (hown.ofAlong fun _ _ _ => trivial)
  simp only [run_modify_bind, run_pure, Ending.returned.injEq] at h hnoted
  obtain ⟨rfl, rfl⟩ := hnoted
  exact ⟨token.watched n, h.1⟩

/-- The strategy of a single attempt makes it, has it judged and goes by that. -/
theorem RetryStrategy.calls_retryOnce {judge : Judge (World η) ρ ε} {span : SpanId}
    {attempt : Attempt η ρ ε ν} {out : Retried ρ ε ν}
    (h : Run World.SameCalls (retryOnce judge.watched span attempt.unwatched.watched) w
      (.returned out) w') :
    ∃ r d, w'.calls = w.calls ++ [.started 1, .finished 1 r, .judged r d] ∧
      out.outcome = .verdict 1 r d := by
  obtain ⟨⟨r, x⟩, w₁, hattempt, h⟩ := run_bind_returned.mp h
  simp only [run_modifyGet_bind, run_modify_bind, run_pure, Ending.returned.injEq] at h
  obtain ⟨inner, hinner, hcalls⟩ := StandardStrategy.calls_attempt
    (attempt.unwatched_makes (fun _ _ h => h) _) 1 hattempt
  obtain rfl : inner = [] := hinner
  obtain ⟨rfl, rfl⟩ := h
  refine ⟨r, (judge.watched r w₁).1, ?_, Outcome.conclude_eq_verdict ..⟩
  simp [(World.say_traced ..).calls, hcalls, Ending.value?]

theorem RetryStrategy.returns_retryOnce {attempt : Attempt η ρ ε ν}
    (hattempt : (attempt 1).Reliable) (judge : Judge (World η) ρ ε) (span : SpanId) :
    (retryOnce judge.watched span attempt.unwatched.watched).Returns World.SameCalls w := by
  have hmade : (attempt.unwatched.watched 1).Returns World.SameCalls w :=
    hattempt.unwatched.bind fun _ _ _ => trivial
  exact hmade.bind fun _ _ _ => trivial

/-- From the last attempt on there is an attempt, a judgement and the release of the token. -/
theorem Course.eq_turn {limit n cost : Nat} {calls : List (RetryCall ρ ε γ)} {o : Outcome ρ ε}
    (h : Course limit .silent n cost calls (some o)) (hlast : limit ≤ n) :
    ∃ r d, calls = RetryCall.turn n cost [] r d ∧ o = .verdict n r d := by
  cases h with
  | concluded hbody =>
    obtain rfl : _ = [] := hbody
    exact ⟨_, _, rfl, rfl⟩
  | refused _ hn => omega
  | again _ hn => omega

end Watched

namespace StandardStrategy

variable {s : StandardStrategy η} {w : World (Journaled (RetryCall ρ ε γ) η)}

/-- A strategy that may make one attempt and gets its token makes the attempt, has it judged and
lets go of the token. -/
theorem calls_retry_one (hone : s.maxAttempts = 1) {judge : Judge (World η) ρ ε} {span : SpanId}
    {attempt : Attempt η ρ ε ν} {w' : World (Journaled (RetryCall ρ ε γ) η)} {out : Retried ρ ε ν}
    (hgrants : ∀ answer v', Run (fun _ _ => True) (s.bucket.acquire 1 none)
      (World.unwatched.get w) (.returned answer) v' → ∃ token, answer = .ok token)
    (h : Run World.SameCalls (s.watched.retry judge.watched span attempt.unwatched.watched) w
      (.returned out) w') :
    ∃ cost r d, w'.calls = w.calls ++ ([.acquire 1 none, .granted 1 cost] ++
        RetryCall.turn 1 cost [] r d) ∧
      out.outcome = .verdict 1 r d := by
  have hR : ∀ w w' : World (Journaled (RetryCall ρ ε γ) η), w.SameCalls w' → w.SameCalls w' :=
    fun _ _ h => h
  obtain ⟨a, w₁, hacquire, h⟩ := run_bind_returned.mp h
  obtain ⟨answer, rfl, hask⟩ := TokenBucket.acquire_returned hR s.bucket 1 none hacquire
  obtain ⟨token, hgranted⟩ := TokenBucket.granted_of_watched hgrants hacquire
  cases answer with
  | error e => cases hgranted
  | ok token =>
  have hlast : s.maxAttempts - 1 = 0 := by rw [hone]
  replace h : Run World.SameCalls (s.watched.attemptFrom judge.watched span
      attempt.unwatched.watched 0 1 (token.watched 1)) w₁ (.returned out) w' := hlast ▸ h
  obtain ⟨calls, hcalls, hcourse⟩ := course_of_run hR s judge span
    (fun _ => attempt.unwatched_makes hR _) (fun _ _ => attempt.unwatched_makes hR _) 0 1 token h
  obtain ⟨r, d, rfl, houtcome⟩ := hcourse.eq_turn le_rfl
  exact ⟨token.cost, r, d, by simp [hcalls, hask, RetryCall.answer], houtcome⟩

/-- Where the first acquire and the attempt return, so does a strategy that may make one attempt. -/
theorem returns_retry_one (hone : s.maxAttempts = 1) {attempt : Attempt η ρ ε ν}
    (hattempt : (attempt 1).Reliable)
    (hgrants : ∀ answer v', Run (fun _ _ => True) (s.bucket.acquire 1 none)
      (World.unwatched.get w) (.returned answer) v' → ∃ token, answer = .ok token)
    (hb : (s.bucket.acquire 1 none).Returns (fun _ _ => True) (World.unwatched.get w))
    (judge : Judge (World η) ρ ε) (span : SpanId) :
    (s.watched.retry judge.watched span attempt.unwatched.watched).Returns World.SameCalls w := by
  refine (returns_acquire hb).bind fun a w₁ h => ?_
  obtain ⟨answer, rfl, -⟩ := TokenBucket.acquire_returned (fun _ _ h => h) s.bucket 1 none h
  obtain ⟨token, hgranted⟩ := TokenBucket.granted_of_watched hgrants h
  cases answer with
  | error e => cases hgranted
  | ok token =>
  have hlast : s.maxAttempts - 1 = 0 := by rw [hone]
  show (s.watched.attemptFrom judge.watched span attempt.unwatched.watched (s.maxAttempts - 1) 1
    (token.watched 1)).Returns World.SameCalls w₁
  rw [hlast, attemptFrom]
  refine (returns_turn hattempt judge span token).bind fun made w₂ _ => ?_
  obtain ⟨r, x, d⟩ := made
  cases d <;> trivial

/-- Where its bucket grants the first token, a strategy that may make one attempt and the strategy
that makes exactly one call the attempt once, have its result judged once and do not sleep. By the
same result, judged the same, they come to the same outcome. What the one returns the other returns
too, from where the token was taken and the attempt announced, whatever others do meanwhile. Every
run of either can be seen under watch, and where bucket and attempt always return, both do. -/
theorem one_attempt_agrees_with_single (hone : s.maxAttempts = 1) (judge : Judge (World η) ρ ε)
    (span : SpanId) (attempt : Attempt η ρ ε ν) (w : World (Journaled (RetryCall ρ ε γ) η))
    (hgrants : ∀ answer v', Run (fun _ _ => True) (s.bucket.acquire 1 none)
      (World.unwatched.get w) (.returned answer) v' → ∃ token, answer = .ok token) :
    (∀ out w', Run World.SameCalls
        (RetryStrategy.single.retry judge.watched span attempt.unwatched.watched) w
        (.returned out) w' →
      ∃ r d, w'.calls = w.calls ++ [.started 1, .finished 1 r, .judged r d] ∧
        out.outcome = .verdict 1 r d) ∧
    (∀ out w', Run World.SameCalls
        (s.watched.strategy.retry judge.watched span attempt.unwatched.watched) w
        (.returned out) w' →
      ∃ cost r d, w'.calls = w.calls ++ [.acquire 1 none, .granted 1 cost, .started 1,
          .finished 1 r, .judged r d, .released 1 cost (tokenOutcome d)] ∧
        out.outcome = .verdict 1 r d) ∧
    (∀ R out, (∃ v', Run R (s.strategy.retry judge span attempt) (World.unwatched.get w)
        (.returned out) v') ↔
      ∃ token v, Run R (s.bucket.acquire 1 none) (World.unwatched.get w)
        (.returned (.ok token)) v ∧
        ∃ v', Run R (RetryStrategy.single.retry judge span attempt) (s.announce span 1 v)
          (.returned out) v') ∧
    (∀ out v', Run (fun _ _ => True) (RetryStrategy.single.retry judge span attempt)
        (World.unwatched.get w) (.returned out) v' →
      ∃ w', World.unwatched.get w' = v' ∧ Run World.SameCalls
        (RetryStrategy.single.retry judge.watched span attempt.unwatched.watched) w
        (.returned out) w') ∧
    (∀ out v', Run (fun _ _ => True) (s.strategy.retry judge span attempt)
        (World.unwatched.get w) (.returned out) v' →
      ∃ w', World.unwatched.get w' = v' ∧ Run World.SameCalls
        (s.watched.strategy.retry judge.watched span attempt.unwatched.watched) w
        (.returned out) w') ∧
    ((attempt 1).Reliable →
      (RetryStrategy.single.retry judge.watched span attempt.unwatched.watched).Returns
        World.SameCalls w ∧
      ((s.bucket.acquire 1 none).Returns (fun _ _ => True) (World.unwatched.get w) →
        (s.watched.strategy.retry judge.watched span attempt.unwatched.watched).Returns
          World.SameCalls w)) := by
  have hR (w : World (Journaled (RetryCall ρ ε γ) η)) (v : World η) (_ : True) :
      w.SameCalls (World.unwatched.set v w) := rfl
  refine ⟨?_, ?_, ?_, ?_, ?_, ?_⟩
  · intro out w' h
    exact RetryStrategy.calls_retryOnce h
  · intro out w' h
    obtain ⟨cost, r, d, hcalls, houtcome⟩ := calls_retry_one hone hgrants h
    exact ⟨cost, r, d, hcalls, houtcome⟩
  · intro R out
    exact run_retry_one hone fun answer v' h => hgrants answer v' (h.mono fun _ _ _ => trivial)
  · intro out v' h
    exact RetryStrategy.retryOnce_covers judge span (fun n => .along hR (attempt n)) w out v' h
  · intro out v' h
    exact retry_covers hR s judge span (fun n => .along hR (attempt n)) w out v' h
  · intro hattempt
    exact ⟨RetryStrategy.returns_retryOnce hattempt judge span,
      fun hb => returns_retry_one hone hattempt hgrants hb judge span⟩

/-- A value that is there after a pause. -/
def steady : Attempt Unit Nat RetryError Unit := fun n => do
  Fiber.suspend
  return (.ok n, ())

/-- One attempt, and a token for it. -/
def oneAttempt : StandardStrategy Unit :=
  ⟨1, .infinite, .fixed (.ofSecs 1), World.manualClock⟩

/-- Finds every result throttled. -/
def findThrottled {ε : Type} : Judge (World Unit) Nat ε := fun _ w => (.retry .throttling, w)

theorem one_attempt_agrees_with_single_throttled :
    (∃ v', Run (fun _ _ => True) (oneAttempt.strategy.retry findThrottled 0 steady)
      (World.unwatched.get emptyJournal)
      (.returned ⟨.exception 1 (.tooManyAttempts 1), some ()⟩) v') ∧
    (∃ v v', Run (fun _ _ => True) (RetryStrategy.single.retry findThrottled 0 steady)
      (oneAttempt.announce 0 1 v)
      (.returned ⟨.exception 1 (.tooManyAttempts 1), some ()⟩) v') ∧
    (∃ (w' : World (Journaled (RetryCall Nat RetryError Empty) Unit)) (cost : Nat)
        (r : Except RetryError Nat) (d : RetryDirective),
      w'.calls = emptyJournal.calls ++ [.acquire 1 none, .granted 1 cost, .started 1,
        .finished 1 r, .judged r d, .released 1 cost (tokenOutcome d)]) ∧
    (oneAttempt.watched.strategy.retry findThrottled.watched 0 steady.unwatched.watched).Returns
      World.SameCalls emptyJournal := by
  obtain ⟨-, calls, same, -, seen, returns⟩ := one_attempt_agrees_with_single (s := oneAttempt) rfl
    findThrottled 0 steady emptyJournal fun answer v' h =>
      ⟨_, Ending.returned.inj (run_pure.mp h).1⟩
  have run : Run (fun _ _ => True) (oneAttempt.strategy.retry findThrottled 0 steady)
      (World.unwatched.get emptyJournal)
      (.returned ⟨.exception 1 (.tooManyAttempts 1), some ()⟩) _ :=
    Paused.run_of_ready (fun _ => trivial) 2 (by cbv)
  obtain ⟨token, v, -, single⟩ := (same _ _).mp ⟨_, run⟩
  obtain ⟨w', -, watched⟩ := seen _ _ run
  obtain ⟨cost, r, d, hcalls, -⟩ := calls _ _ watched
  have reliable : (steady 1).Reliable := fun v => ⟨⟨v, trivial, rfl⟩, fun _ _ _ => trivial⟩
  exact ⟨⟨_, run⟩, ⟨v, single⟩, ⟨w', cost, r, d, hcalls⟩, (returns reliable).2 trivial⟩

end StandardStrategy

end ClientRuntime
