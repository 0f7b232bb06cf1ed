import Mathlib
import ClientRuntime.Proofs.Retry.Course
import ClientRuntime.Proofs.Retry.Unwatched

/-!
A retry loop from its first token to its outcome. Where the bucket, the attempts and the clock
always return, so does the loop, and what it returns is the outcome of its course.
-/

namespace ClientRuntime

open ClientRuntime.Fiber

variable {η ρ ε γ ν : Type} {s : StandardStrategy η} {attempt : Attempt η ρ ε ν}
  {w : World (Journaled (RetryCall ρ ε γ) η)}

namespace StandardStrategy

theorem returns_acquire {n : Nat} {cause : Option RetryCause}
    (hb : (s.bucket.acquire n cause).Returns (fun _ _ => True) (World.unwatched.get w)) :
    (s.watched.bucket.acquire n cause).Returns World.SameCalls w := by
  have hown : ((s.bucket.acquire n cause).along World.unwatched).Returns World.SameCalls
      (w.record (.acquire n cause)) := .along (fun _ _ => rfl) hb
  have hask : ((s.bucket.acquire n cause).watched (RetryCall.answer n)).Returns World.SameCalls
      (w.record (.acquire n cause)) := hown.bind fun _ _ _ => trivial
  exact hask.bind fun _ _ _ => trivial

theorem returns_turn {n : Nat} (ha : (attempt n).Reliable)
    (judge : Judge (World η) ρ ε) (span : SpanId) (t : RetryToken η) :
    (s.watched.turn judge.watched span attempt.unwatched.watched n (t.watched n)).Returns
      World.SameCalls w := by
  have hatt (v : World (Journaled (RetryCall ρ ε γ) η)) :
      (attempt.unwatched.watched n).Returns World.SameCalls v :=
    ha.unwatched.bind fun _ _ _ => trivial
  exact (hatt _).guarded.bind fun _ _ _ => trivial

theorem returns_backOff (hc : ∀ d, (s.clock.sleep d).Reliable) (span : SpanId) (n : Nat)
    (cause : RetryCause) :
    (s.watched.backOff span n cause).Returns World.SameCalls w :=
  (hc _).unwatched

variable [OperationError ε]

theorem returns_attemptFrom (hb : ∀ n cause, (s.bucket.acquire n cause).Reliable)
    (ha : ∀ n, (attempt n).Reliable) (hc : ∀ d, (s.clock.sleep d).Reliable)
    (judge : Judge (World η) ρ ε) (span : SpanId) (left n : Nat) (t : RetryToken η) :
    (s.watched.attemptFrom judge.watched span attempt.unwatched.watched left n
      (t.watched n)).Returns World.SameCalls w := by
  induction left using Nat.strongRecOn generalizing n t w with
  | ind left ih =>
  unfold attemptFrom
  refine (returns_turn (ha n) judge span t).bind fun made w₁ _ => ?_
  obtain ⟨r, x, d⟩ := made
  cases d with
  | success | failure => trivial
  | retry cause =>
    cases left with
    | zero => trivial
    | succ left =>
      refine (returns_backOff hc span n cause).bind fun _ w₂ _ => ?_
      refine (returns_acquire (hb _ _ _)).bind fun a w₃ h => ?_
      obtain ⟨answer, rfl, -⟩ :=
        TokenBucket.acquire_returned (fun _ _ h => h) s.bucket (n + 1) (some cause) h
      cases answer with
      | error => trivial
      | ok token => exact ih left (by omega) (n + 1) token

theorem returns_retry (hb : ∀ n cause, (s.bucket.acquire n cause).Reliable)
    (ha : ∀ n, (attempt n).Reliable) (hc : ∀ d, (s.clock.sleep d).Reliable)
    (judge : Judge (World η) ρ ε) (span : SpanId) :
    (s.watched.retry judge.watched span attempt.unwatched.watched).Returns
      World.SameCalls w := by
  refine (returns_acquire (hb 1 none _)).bind fun a w₁ h => ?_
  obtain ⟨answer, rfl, -⟩ := TokenBucket.acquire_returned (fun _ _ h => h) s.bucket 1 none h
  cases answer with
  | error => trivial
  | ok token => exact returns_attemptFrom hb ha hc judge span _ 1 token

/-- A run that returns has made the calls of a course and no others, and comes to its outcome. So
does every run of the strategy by itself, which can be seen under watch. Where the bucket, the
attempts and the clock always return, every run can. -/
theorem retry_follows_course (s : StandardStrategy η) (judge : Judge (World η) ρ ε)
    (span : SpanId) (attempt : Attempt η ρ ε ν) (w : World (Journaled (RetryCall ρ ε γ) η)) :
    (∀ out w', Run World.SameCalls
        (s.watched.retry judge.watched span attempt.unwatched.watched) w (.returned out) w' →
      ∃ calls, w'.calls = w.calls ++ calls ∧
        RetryCourse (max s.maxAttempts 1) .silent calls (some out.outcome)) ∧
    (∀ out v', Run (fun _ _ => True) (s.retry judge span attempt) (World.unwatched.get w)
        (.returned out) v' →
      ∃ w', World.unwatched.get w' = v' ∧ Run World.SameCalls
        (s.watched.retry judge.watched span attempt.unwatched.watched) w (.returned out) w') ∧
    ((∀ n cause, (s.bucket.acquire n cause).Reliable) → (∀ n, (attempt n).Reliable) →
      (∀ d, (s.clock.sleep d).Reliable) →
      (s.watched.retry judge.watched span attempt.unwatched.watched).Returns
        World.SameCalls w) := by
  refine ⟨?_, ?_, ?_⟩
  · intro out w' h
    have hR : ∀ w w' : World (Journaled (RetryCall ρ ε γ) η), w.SameCalls w' → w.SameCalls w' :=
      fun _ _ h => h
    exact retryCourse_of_run hR s judge span (fun _ => attempt.unwatched_makes hR _)
      (fun _ _ => attempt.unwatched_makes hR _) h
  · intro out v' h
    have hR (w : World (Journaled (RetryCall ρ ε γ) η)) (v : World η) (_ : True) :
        w.SameCalls (World.unwatched.set v w) := rfl
    exact retry_covers hR s judge span (fun n => .along hR (attempt n)) w out v' h
  · intro hb ha hc
    exact returns_retry hb ha hc judge span

/-- An attempt that is suspended once and fails the first time. -/
def secondTry : Attempt Unit Nat RetryError Unit := fun n => do
  Fiber.suspend
  return (if n = 1 then .error .cancelled else .ok n, ())

/-- Two attempts a second apart, and a token for each. -/
def twoAttempts : StandardStrategy Unit :=
  ⟨2, .infinite, .fixed (.ofSecs 1), World.manualClock⟩

def retryErrors {ε : Type} : Judge (World Unit) Nat ε
  | .ok _, w => (.success, w)
  | .error _, w => (.retry .transient, w)

def emptyJournal : World (Journaled (RetryCall Nat RetryError Empty) Unit) :=
  .start .epoch .epoch ⟨[], ()⟩

theorem retry_follows_course_second_attempt :
    ∃ v' w', Run (fun _ _ => True) (twoAttempts.retry retryErrors 0 secondTry)
        (World.unwatched.get emptyJournal) (.returned ⟨.response 2 2, some ()⟩) v' ∧
      World.unwatched.get w' = v' ∧
      (∃ calls, w'.calls = emptyJournal.calls ++ calls ∧
        RetryCourse 2 .silent calls (some (.response 2 2))) ∧
      (twoAttempts.watched.retry retryErrors.watched 0 secondTry.unwatched.watched).Returns
        World.SameCalls emptyJournal := by
  obtain ⟨course, seen, progress⟩ :=
    retry_follows_course twoAttempts retryErrors 0 secondTry emptyJournal
  have run : Run (fun _ _ => True) (twoAttempts.retry retryErrors 0 secondTry)
      (World.unwatched.get emptyJournal) (.returned ⟨.response 2 2, some ()⟩) _ :=
    Paused.run_of_ready (fun _ => trivial) 2 (by cbv)
  obtain ⟨w', hw', watched⟩ := seen _ _ run
  have returns := progress (fun _ _ _ => trivial)
    (fun _ v => ⟨⟨v, trivial, rfl⟩, fun _ _ _ => trivial⟩) fun _ _ => trivial
  exact ⟨_, w', run, hw', course _ _ watched, returns⟩

end StandardStrategy

end ClientRuntime
