import ClientRuntime.Proofs.Retry.Watched

/-!
The course of a retry loop: which calls it makes, in which order, and what it comes to. Every run
of the standard strategy follows it, runs that are cut included.
-/

namespace ClientRuntime

variable {η ρ ε γ ν : Type} [OperationError ε]

namespace Outcome

/-- What a result comes to that was judged so and is the last. -/
def verdict (n : Nat) : Except ε ρ → RetryDirective → Outcome ρ ε
  | .error e, _ => .exception n e
  | .ok v, .success => .response n v
  | .ok _, .failure => .exception n (OperationError.ofRetry (.unacceptableResult n))
  | .ok _, .retry _ => .exception n (OperationError.ofRetry (.tooManyAttempts n))

/-- What a result comes to after which no token is to be had. -/
def denial (n : Nat) : Except ε ρ → RetryError → Outcome ρ ε
  | .error e, _ => .exception n e
  | .ok _, reason => .exception n (OperationError.ofRetry reason)

theorem conclude_eq_verdict (d : RetryDirective) (n : Nat) (r : Except ε ρ) :
    d.conclude n r = verdict n r d := by
  cases d <;> cases r <;> rfl

theorem refused_eq_denial (n : Nat) (r : Except ε ρ) (e : RetryError) :
    refused n r e = denial n r e := by
  cases r <;> rfl

end Outcome

/-- Which calls an attempt may make within itself, by its number and its result; one that is cut
has none. -/
abbrev AttemptBody (ρ ε γ : Type) := Nat → Option (Except ε ρ) → List γ → Prop

/-- No calls. -/
def AttemptBody.silent : AttemptBody ρ ε γ := fun _ _ inner => inner = []

namespace RetryCall

/-- The calls of an attempt whose result is judged, and of the return of its token. -/
def turn (n cost : Nat) (inner : List γ) (r : Except ε ρ) (d : RetryDirective) :
    List (RetryCall ρ ε γ) :=
  .started n :: inner.map .within ++
    [.finished n r, .judged r d, .released n cost (StandardStrategy.tokenOutcome d)]

def pause (n : Nat) (d : Duration) : List (RetryCall ρ ε γ) := [.delayed n d, .slept d]

end RetryCall

open RetryCall

/-- The course from the start of attempt `n`, which has a token of some cost, with `limit` attempts
at most. There is no outcome if the run is cut. -/
inductive Course (limit : Nat) (body : AttemptBody ρ ε γ) :
    Nat → Nat → List (RetryCall ρ ε γ) → Option (Outcome ρ ε) → Prop where
  /-- Cut within the attempt, which lets go of the token. -/
  | interrupted {n cost inner} : body n none inner →
      Course limit body n cost
        (.started n :: inner.map .within ++ [.released n cost .retryableFailure]) none
  /-- The result is final, or the attempt was the last. -/
  | concluded {n cost inner r d} : body n (some r) inner → (d.isRetry = true → limit ≤ n) →
      Course limit body n cost (turn n cost inner r d) (some (.verdict n r d))
  /-- Cut in the pause. -/
  | asleep {n cost inner r cause t} : body n (some r) inner → n < limit →
      Course limit body n cost (turn n cost inner r (.retry cause) ++ pause n t) none
  /-- Cut while it waits for the next token. -/
  | waiting {n cost inner r cause t} : body n (some r) inner → n < limit →
      Course limit body n cost
        (turn n cost inner r (.retry cause) ++ pause n t ++ [.acquire (n + 1) (some cause)]) none
  | refused {n cost inner r cause t e} : body n (some r) inner → n < limit →
      Course limit body n cost
        (turn n cost inner r (.retry cause) ++ pause n t ++
          [.acquire (n + 1) (some cause), .refused (n + 1) e])
        (some (.denial n r e))
  | again {n cost inner r cause t next calls o} : body n (some r) inner → n < limit →
      Course limit body (n + 1) next calls o →
      Course limit body n cost
        (turn n cost inner r (.retry cause) ++ pause n t ++
          .acquire (n + 1) (some cause) :: .granted (n + 1) next :: calls) o

/-- The whole course, the first token included. -/
inductive RetryCourse (limit : Nat) (body : AttemptBody ρ ε γ) :
    List (RetryCall ρ ε γ) → Option (Outcome ρ ε) → Prop where
  | waiting : RetryCourse limit body [.acquire 1 none] none
  | refused {e} :
      RetryCourse limit body [.acquire 1 none, .refused 1 e]
        (some (.exception 0 (OperationError.ofRetry e)))
  | granted {cost calls o} : Course limit body 1 cost calls o →
      RetryCourse limit body (.acquire 1 none :: .granted 1 cost :: calls) o

section Runs

variable {R : World (Journaled (RetryCall ρ ε γ) η) → World (Journaled (RetryCall ρ ε γ) η) → Prop}
  {w w' : World (Journaled (RetryCall ρ ε γ) η)} {body : AttemptBody ρ ε γ}

/-- An attempt that ends so has made calls that the body allows. -/
def Attempt.Makes
    (R : World (Journaled (RetryCall ρ ε γ) η) → World (Journaled (RetryCall ρ ε γ) η) → Prop)
    (body : AttemptBody ρ ε γ) (attempt : Attempt (Journaled (RetryCall ρ ε γ) η) ρ ε ν)
    (e : Ending (Except ε ρ × ν)) : Prop :=
  ∀ n w w', Fiber.Run R (attempt n) w e w' →
    ∃ inner, w'.calls = w.calls ++ inner.map .within ∧ body n (e.value?.map Prod.fst) inner

omit [OperationError ε] in
theorem Attempt.unwatched_makes (hR : ∀ w w', R w w' → w.SameCalls w')
    (attempt : Attempt η ρ ε ν) (e : Ending (Except ε ρ × ν)) :
    attempt.unwatched.Makes R .silent e := by
  intro n w w' h
  exact ⟨[], by simp [h.along_calls hR], rfl⟩

namespace StandardStrategy

open ClientRuntime.Fiber

omit [OperationError ε] in
theorem calls_note (span : SpanId) (level : TraceLevel) (text : String) :
    (w.say span level component text none).calls = w.calls :=
  (World.say_traced w span level component text none).calls

omit [OperationError ε] in
theorem calls_backOff (hR : ∀ w w', R w w' → w.SameCalls w') (s : StandardStrategy η)
    (span : SpanId) (n : Nat) (cause : RetryCause) {e : Ending Unit}
    (h : Run R (s.watched.backOff span n cause) w e w') :
    ∃ d, w'.calls = w.calls ++ pause n d := by
  simp only [backOff, note, run_modifyGet_bind, run_modify_bind] at h
  refine ⟨(s.delays.watched.backoff n w).1, ?_⟩
  rw [Clock.calls_sleep hR s.clock _ h, calls_note, (World.emit_traced _ _ _ _).calls]
  simp [StandardStrategy.watched, pause]

omit [OperationError ε] in
theorem calls_attempt {attempt : Attempt (Journaled (RetryCall ρ ε γ) η) ρ ε ν}
    {e : Ending (Except ε ρ × ν)} (hbody : attempt.Makes R body e) (n : Nat)
    (h : Run R (attempt.watched n) w e w') :
    ∃ inner, body n (e.value?.map Prod.fst) inner ∧
      w'.calls = w.calls ++ .started n :: inner.map .within ++
        (e.value?.map fun a => .finished n a.1).toList := by
  obtain ⟨⟨r, x⟩, w₁, hatt, h⟩ | ⟨c, rfl, hatt⟩ := run_bind.mp (run_modify_bind.mp h)
  · simp only [run_modify_bind, run_pure] at h
    obtain ⟨rfl, rfl⟩ := h
    obtain ⟨inner, hcalls, hin⟩ := hbody n _ _ hatt
    exact ⟨inner, hin, by simp [Ending.value?, hcalls]⟩
  · obtain ⟨inner, hcalls, hin⟩ := hbody n _ _ hatt
    exact ⟨inner, hin, by simp [Ending.value?, hcalls]⟩

omit [OperationError ε] in
/-- A turn makes its calls in order; if it is cut, the token goes back as a retryable failure. -/
theorem calls_turn (s : StandardStrategy η) (judge : Judge (World η) ρ ε) (span : SpanId)
    {attempt : Attempt (Journaled (RetryCall ρ ε γ) η) ρ ε ν}
    {e : Ending (Except ε ρ × ν × RetryDirective)}
    (hbody : ∀ a, attempt.Makes R body (.returned a))
    (hcut : e.value? = none → ∀ c, attempt.Makes R body (.cut c)) (n : Nat) (t : RetryToken η)
    (h : Run R (s.watched.turn judge.watched span attempt.watched n (t.watched n)) w e w') :
    (∃ r x d inner, e = .returned (r, x, d) ∧ body n (some r) inner ∧
      w'.calls = w.calls ++ RetryCall.turn n t.cost inner r d) ∨
    ∃ c inner, e = .cut c ∧ body n none inner ∧
      w'.calls = w.calls ++
        (.started n :: inner.map .within ++ [.released n t.cost .retryableFailure]) := by
  obtain ⟨⟨r, x⟩, w₁, hguard, h⟩ | ⟨c, rfl, hguard⟩ := run_bind.mp (run_modify_bind.mp h)
  · left
    obtain ⟨w₂, hatt, rfl⟩ := run_guarded.mp hguard
    obtain ⟨inner, hin, hcalls⟩ := calls_attempt (hbody _) n hatt
    simp only [run_modifyGet_bind, run_modify_bind, run_pure] at h
    obtain ⟨rfl, rfl⟩ := h
    refine ⟨r, x, _, inner, rfl, hin, ?_⟩
    simp [RetryCall.turn, Ending.value?, hcalls, calls_note]
  · right
    obtain ⟨w₂, hatt, rfl⟩ := run_guarded.mp hguard
    obtain ⟨inner, hin, hcalls⟩ := calls_attempt (hcut rfl c) n hatt
    refine ⟨c, inner, rfl, hin, ?_⟩
    cases c <;> simp [Ending.letGo, Ending.value?, hcalls, calls_note]

omit [OperationError ε] in
/-- Between attempts a run is cut in the pause or while it waits for a token, or it goes on with
the answer of the bucket. -/
theorem calls_between (hR : ∀ w w', R w w' → w.SameCalls w') (s : StandardStrategy η)
    (span : SpanId) (n : Nat) (cause : RetryCause)
    {k : Except RetryError (RetryToken (Journaled (RetryCall ρ ε γ) η)) →
      Fiber (World (Journaled (RetryCall ρ ε γ) η)) (Retried ρ ε ν)}
    {e : Ending (Retried ρ ε ν)}
    (h : Run R (do
      s.watched.backOff span n cause
      k (← s.watched.bucket.acquire (n + 1) (some cause))) w e w') :
    (∃ c d, e = .cut c ∧ w'.calls = w.calls ++ pause n d) ∨
    (∃ c d, e = .cut c ∧ w'.calls = w.calls ++ pause n d ++ [.acquire (n + 1) (some cause)]) ∨
    ∃ d answer w₁, Run R (k (answer.map (·.watched (n + 1)))) w₁ e w' ∧
      w₁.calls = w.calls ++ pause n d ++
        [.acquire (n + 1) (some cause), .answer (n + 1) answer] := by
  obtain ⟨_, w₁, hsleep, h⟩ | ⟨c, rfl, hsleep⟩ := run_bind.mp h
  · obtain ⟨d, hpause⟩ := calls_backOff hR s span n cause hsleep
    obtain ⟨a, w₂, hacquire, h⟩ | ⟨c, rfl, hacquire⟩ := run_bind.mp h
    · obtain ⟨answer, rfl, hask⟩ :=
        TokenBucket.acquire_returned hR s.bucket (n + 1) (some cause) hacquire
      exact .inr (.inr ⟨d, answer, w₂, h, by rw [hask, hpause]⟩)
    · have hask := TokenBucket.acquire_cut hR s.bucket (n + 1) (some cause) hacquire
      exact .inr (.inl ⟨c, d, rfl, by rw [hask, hpause]⟩)
  · obtain ⟨d, hpause⟩ := calls_backOff hR s span n cause hsleep
    exact .inl ⟨c, d, rfl, hpause⟩

/-- Every run from the start of an attempt follows the course. -/
theorem course_of_run (hR : ∀ w w', R w w' → w.SameCalls w') (s : StandardStrategy η)
    (judge : Judge (World η) ρ ε) (span : SpanId)
    {attempt : Attempt (Journaled (RetryCall ρ ε γ) η) ρ ε ν} {e : Ending (Retried ρ ε ν)}
    (hbody : ∀ a, attempt.Makes R body (.returned a))
    (hcut : e.value? = none → ∀ c, attempt.Makes R body (.cut c)) (left n : Nat) (t : RetryToken η)
    (h : Run R (s.watched.attemptFrom judge.watched span attempt.watched left n (t.watched n))
      w e w') :
    ∃ calls, w'.calls = w.calls ++ calls ∧
      Course (n + left) body n t.cost calls (e.value?.map (·.outcome)) := by
  induction left using Nat.strongRecOn generalizing n t w with
  | ind left ih =>
  unfold attemptFrom at h
  obtain ⟨⟨r, x, d⟩, w₁, hturn, h⟩ | ⟨c, rfl, hturn⟩ := run_bind.mp h
  case inr =>
    obtain ⟨_, _, _, _, ⟨⟩, -⟩ | ⟨_, inner, -, hin, hcalls⟩ :=
      calls_turn s judge span hbody (fun _ => hcut rfl) n t hturn
    exact ⟨_, hcalls, .interrupted hin⟩
  obtain ⟨r, x, d, inner, ⟨⟩, hin, hcalls⟩ | ⟨_, _, ⟨⟩, -⟩ :=
    calls_turn s judge span hbody (by simp [Ending.value?]) n t hturn
  -- Nothing follows a final result, nor the result of the last attempt.
  have stop {text : String} (hd : d.isRetry = true → n + left ≤ n)
      (h : Run R (do note span .debug text; return ⟨d.conclude n r, some x⟩) w₁ e w') :
      ∃ calls, w'.calls = w.calls ++ calls ∧
        Course (n + left) body n t.cost calls (e.value?.map (·.outcome)) := by
    simp only [note, run_modify_bind, run_pure] at h
    obtain ⟨rfl, rfl⟩ := h
    refine ⟨_, (calls_note ..).trans hcalls, ?_⟩
    simpa [Ending.value?, Outcome.conclude_eq_verdict] using Course.concluded hin hd
  cases d with
  | success => exact stop (by simp [RetryDirective.isRetry]) h
  | failure => exact stop (by simp [RetryDirective.isRetry]) h
  | retry cause =>
    cases left with
    | zero => exact stop (by simp) h
    | succ left =>
      have hn : n < n + (left + 1) := by omega
      obtain ⟨c, d, rfl, hslept⟩ | ⟨c, d, rfl, hasked⟩ | ⟨d, answer, w₂, hrun, hask⟩ :=
        calls_between hR s span n cause h
      · exact ⟨RetryCall.turn n t.cost inner r (.retry cause) ++ pause n d,
          by simp [hslept, hcalls], .asleep hin hn⟩
      · exact ⟨RetryCall.turn n t.cost inner r (.retry cause) ++ pause n d ++
          [.acquire (n + 1) (some cause)], by simp [hasked, hcalls], .waiting hin hn⟩
      cases answer with
      | error reason =>
        simp only [Except.map, warn, run_modify_bind, run_pure] at hrun
        obtain ⟨rfl, rfl⟩ := hrun
        refine ⟨RetryCall.turn n t.cost inner r (.retry cause) ++ pause n d ++
          [.acquire (n + 1) (some cause), .refused (n + 1) reason], ?_, ?_⟩
        · simp [(World.say_traced ..).calls, hask, hcalls, answer]
        · simpa [Ending.value?, Outcome.refused_eq_denial] using Course.refused hin hn
      | ok token =>
        obtain ⟨calls, hrest, hcourse⟩ := ih left (by omega) (n + 1) token hrun
        refine ⟨RetryCall.turn n t.cost inner r (.retry cause) ++ pause n d ++
          .acquire (n + 1) (some cause) :: .granted (n + 1) token.cost :: calls, ?_, ?_⟩
        · simp [hrest, hask, hcalls, answer]
        · exact .again hin hn (by rwa [Nat.add_right_comm, Nat.add_assoc] at hcourse)

/-- Every run follows the course, with one attempt at least. -/
theorem retryCourse_of_run (hR : ∀ w w', R w w' → w.SameCalls w') (s : StandardStrategy η)
    (judge : Judge (World η) ρ ε) (span : SpanId)
    {attempt : Attempt (Journaled (RetryCall ρ ε γ) η) ρ ε ν} {e : Ending (Retried ρ ε ν)}
    (hbody : ∀ a, attempt.Makes R body (.returned a))
    (hcut : e.value? = none → ∀ c, attempt.Makes R body (.cut c))
    (h : Run R (s.watched.retry judge.watched span attempt.watched) w e w') :
    ∃ calls, w'.calls = w.calls ++ calls ∧
      RetryCourse (max s.maxAttempts 1) body calls (e.value?.map (·.outcome)) := by
  obtain ⟨a, w₁, hacquire, h⟩ | ⟨c, rfl, hacquire⟩ := run_bind.mp h
  case inr =>
    exact ⟨_, TokenBucket.acquire_cut hR s.bucket 1 none hacquire, .waiting⟩
  obtain ⟨answer, rfl, hask⟩ := TokenBucket.acquire_returned hR s.bucket 1 none hacquire
  cases answer with
  | error reason =>
    simp only [Except.map, warn, run_modify_bind, run_pure] at h
    obtain ⟨rfl, rfl⟩ := h
    exact ⟨_, ((World.say_traced ..).calls).trans hask, .refused⟩
  | ok token =>
    obtain ⟨calls, hrest, hcourse⟩ := course_of_run hR s judge span hbody hcut _ 1 token h
    have hlimit : 1 + (s.maxAttempts - 1) = max s.maxAttempts 1 := by omega
    exact ⟨.acquire 1 none :: .granted 1 token.cost :: calls, by simp [hrest, hask, answer],
      .granted (hlimit ▸ hcourse)⟩

end StandardStrategy

end Runs

end ClientRuntime
