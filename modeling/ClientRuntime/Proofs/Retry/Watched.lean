import ClientRuntime.Proofs.Fiber.Journal
import ClientRuntime.Retry.Standard

/-!
Retrying under watch. The bucket and its tokens, the delays, the clock, the judge and the attempts
note in a journal what they are asked and what they answer, whatever they do besides.
-/

namespace ClientRuntime

/-- What a retry loop asks for, and what it is answered. -/
inductive RetryCall (ρ ε γ : Type) where
  | acquire (n : Nat) (cause : Option RetryCause)
  | granted (n cost : Nat)
  | refused (n : Nat) (e : RetryError)
  | started (n : Nat)
  /-- A call made within an attempt. -/
  | within (c : γ)
  | finished (n : Nat) (result : Except ε ρ)
  | judged (result : Except ε ρ) (d : RetryDirective)
  | released (n cost : Nat) (outcome : TokenOutcome)
  | delayed (n : Nat) (d : Duration)
  | slept (d : Duration)

variable {η ρ ε γ ν : Type}

open World (unwatched)

/-- The bucket's answer to the call for attempt `n`. -/
def RetryCall.answer (n : Nat) : Except RetryError (RetryToken η) → RetryCall ρ ε γ
  | .ok t => .granted n t.cost
  | .error e => .refused n e

/-- The token of attempt `n`. Its release is noted also where nobody accounts for it. -/
def RetryToken.watched (n : Nat) (t : RetryToken η) :
    RetryToken (Journaled (RetryCall ρ ε γ) η) where
  attempt := t.attempt
  cost := t.cost
  ledger := some fun cost outcome w =>
    let account : World η → World η :=
      match t.ledger with
      | some report => report cost outcome
      | none => id
    (unwatched.modify account w).record (.released n cost outcome)

def TokenBucket.watched (b : TokenBucket η) :
    TokenBucket (Journaled (RetryCall ρ ε γ) η) where
  acquire n cause := do
    Fiber.modify (·.record (.acquire n cause))
    let answer ← (b.acquire n cause).watched (.answer n)
    return answer.map (·.watched n)
  available w :=
    let (n, v) := b.available (unwatched.get w)
    (n, unwatched.set v w)
  capacity := b.capacity
  describe w := b.describe (unwatched.get w)

def DelayProvider.watched (p : DelayProvider (World η)) :
    DelayProvider (World (Journaled (RetryCall ρ ε γ) η)) where
  backoff n w :=
    let (d, v) := p.backoff n (unwatched.get w)
    (d, (unwatched.set v w).record (.delayed n d))
  describe := p.describe

def Clock.watched (c : Clock (World η)) :
    Clock (World (Journaled (RetryCall ρ ε γ) η)) where
  name := c.name
  now w := c.now (unwatched.get w)
  sleep d := do
    Fiber.modify (·.record (.slept d))
    (c.sleep d).along unwatched

def Judge.watched (judge : Judge (World η) ρ ε) :
    Judge (World (Journaled (RetryCall ρ ε γ) η)) ρ ε := fun result w =>
  let (d, v) := judge result (unwatched.get w)
  (d, (unwatched.set v w).record (.judged result d))

namespace Attempt

def watched (attempt : Attempt (Journaled (RetryCall ρ ε γ) η) ρ ε ν) :
    Attempt (Journaled (RetryCall ρ ε γ) η) ρ ε ν := fun n => do
  Fiber.modify (·.record (.started n))
  let (result, note) ← attempt n
  Fiber.modify (·.record (.finished n result))
  return (result, note)

/-- Attempts in a world without a journal. They note nothing. -/
def unwatched (attempt : Attempt η ρ ε ν) : Attempt (Journaled (RetryCall ρ ε γ) η) ρ ε ν :=
  fun n => (attempt n).along World.unwatched

end Attempt

def StandardStrategy.watched (s : StandardStrategy η) :
    StandardStrategy (Journaled (RetryCall ρ ε γ) η) :=
  ⟨s.maxAttempts, s.bucket.watched, s.delays.watched, s.clock.watched⟩

section Calls

variable {R : World (Journaled (RetryCall ρ ε γ) η) → World (Journaled (RetryCall ρ ε γ) η) → Prop}
  {w w' : World (Journaled (RetryCall ρ ε γ) η)}

namespace RetryToken

theorem release_watched (t : RetryToken η) (n : Nat) (outcome : TokenOutcome) :
    (t.watched n).release outcome w =
      (unwatched.modify (t.release outcome) w).record (.released n t.cost outcome) := by
  obtain ⟨attempt, cost, ledger⟩ := t
  cases ledger <;> rfl

@[simp] theorem calls_release (t : RetryToken η) (n : Nat) (outcome : TokenOutcome) :
    ((t.watched n).release outcome w).calls = w.calls ++ [.released n t.cost outcome] := rfl

@[simp] theorem calls_drop (t : RetryToken η) (n : Nat) :
    ((t.watched n).drop w).calls = w.calls ++ [.released n t.cost .retryableFailure] := by
  change (World.emit w .debug _ _).calls ++ _ = _
  rw [(World.emit_traced w _ _ _).calls]
  rfl

end RetryToken

@[simp] theorem DelayProvider.calls_backoff (p : DelayProvider (World η)) (n : Nat) :
    (p.watched.backoff n w).2.calls = w.calls ++ [.delayed n (p.watched.backoff n w).1] := rfl

@[simp] theorem Judge.calls_watched (judge : Judge (World η) ρ ε) (result : Except ε ρ) :
    (judge.watched result w).2.calls = w.calls ++ [.judged result (judge.watched result w).1] :=
  rfl

theorem Clock.calls_sleep (hR : ∀ w w', R w w' → w.SameCalls w') (c : Clock (World η))
    (d : Duration) {e : Ending Unit} (h : Fiber.Run R (c.watched.sleep d) w e w') :
    w'.calls = w.calls ++ [.slept d] := by
  rw [Fiber.Run.along_calls hR (Fiber.run_modify_bind.mp h), World.calls_record]

namespace TokenBucket

theorem acquire_returned (hR : ∀ w w', R w w' → w.SameCalls w') (b : TokenBucket η) (n : Nat)
    (cause : Option RetryCause) {a}
    (h : Fiber.Run R (b.watched.acquire n cause) w (.returned a) w') :
    ∃ answer : Except RetryError (RetryToken η), a = answer.map (·.watched n) ∧
      w'.calls = w.calls ++ [.acquire n cause, .answer n answer] := by
  replace h := Fiber.run_modify_bind.mp h
  simp only [Fiber.run_bind_returned, Fiber.run_pure, Ending.returned.injEq] at h
  obtain ⟨answer, w₁, h, rfl, rfl⟩ := h
  exact ⟨answer, rfl, by simp [h.watched_returned hR]⟩

theorem acquire_cut (hR : ∀ w w', R w w' → w.SameCalls w') (b : TokenBucket η) (n : Nat)
    (cause : Option RetryCause) {c : Cut}
    (h : Fiber.Run R (b.watched.acquire n cause) w (.cut c) w') :
    w'.calls = w.calls ++ [.acquire n cause] := by
  replace h := Fiber.run_modify_bind.mp h
  simp only [Fiber.run_bind_cut, Fiber.run_pure, reduceCtorEq, false_and, and_false, exists_false,
    or_false] at h
  rw [h.watched_cut hR, World.calls_record]

end TokenBucket

end Calls

end ClientRuntime
