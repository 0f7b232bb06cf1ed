import ClientRuntime.Proofs.Trace.Frame
import ClientRuntime.Retry.Standard

/-!
What retrying keeps. If every part of a strategy adds nothing that counts, and neither does
tracing, then no run of it does.
-/

namespace ClientRuntime

open ClientRuntime.Fiber

variable {η ρ ε ν κ : Type} {R : World η → World η → Prop} {G : Growth (World η) κ}

namespace StandardStrategy

/-- Every part of the strategy adds nothing. -/
structure Still (G : Growth (World η) κ) (R : World η → World η → Prop) (s : StandardStrategy η)
    (judge : Judge (World η) ρ ε) (attempt : Attempt η ρ ε ν) : Prop where
  traced : ∀ w w', w.TracedTo w' → G.grew [] w w'
  acquire : ∀ n cause, (s.bucket.acquire n cause).Yields G R fun _ answer =>
    ∀ t, answer = .ok t → ∀ outcome w, G.grew [] w (t.release outcome w)
  attempt : ∀ n, (attempt n).Yields G R fun _ _ => True
  judge : ∀ result w, G.grew [] w (judge result w).2
  backoff : ∀ n w, G.grew [] w (s.delays.backoff n w).2
  sleep : ∀ d, (s.clock.sleep d).Yields G R fun _ _ => True

namespace Still

variable {s : StandardStrategy η} {judge : Judge (World η) ρ ε} {attempt : Attempt η ρ ε ν}
  {span : SpanId}

theorem say (h : s.Still G R judge attempt) (level : TraceLevel) (text : String)
    (error : Option String) (w : World η) : G.grew [] w (w.say span level component text error) :=
  h.traced _ _ (World.say_traced ..)

theorem turn (h : s.Still G R judge attempt) (n : Nat) {t : RetryToken η}
    (ht : ∀ outcome w, G.grew [] w (t.release outcome w)) :
    (s.turn judge span attempt n t).Yields G R fun _ _ => True := by
  refine .modify_bind (h.say _ _ _) ((h.attempt n).guarded.bind fun _ _ _ => ?_)
  exact .modifyGet_bind (h.judge _) fun _ => .modify_bind (ht _) (.pure trivial)

theorem backOff (h : s.Still G R judge attempt) (n : Nat) (cause : RetryCause) :
    (s.backOff span n cause).Yields G R fun _ _ => True := by
  refine .modifyGet_bind (h.backoff n) fun d => ?_
  refine .modify_bind (fun w => h.traced _ _ (World.emit_traced ..)) ?_
  exact .modify_bind (h.say _ _ _) (h.sleep d)

variable [OperationError ε]

theorem attemptFrom (h : s.Still G R judge attempt) (left n : Nat) {t : RetryToken η}
    (ht : ∀ outcome w, G.grew [] w (t.release outcome w)) :
    (s.attemptFrom judge span attempt left n t).Yields G R fun _ _ => True := by
  induction left using Nat.strongRecOn generalizing n t with
  | ind left ih =>
  unfold StandardStrategy.attemptFrom
  refine (h.turn n ht).bind fun _ ⟨r, x, d⟩ _ => ?_
  cases d with
  | success | failure => exact .modify_bind (h.say _ _ _) (.pure trivial)
  | retry cause =>
    cases left with
    | zero => exact .modify_bind (h.say _ _ _) (.pure trivial)
    | succ left =>
      refine (h.backOff n cause).bind fun _ _ _ => (h.acquire _ _).bind fun _ answer ht => ?_
      cases answer with
      | error e => exact .modify_bind (h.say _ _ _) (.pure trivial)
      | ok t => exact ih left (by omega) (n + 1) (ht t rfl)

theorem retry (h : s.Still G R judge attempt) :
    (s.retry judge span attempt).Yields G R fun _ _ => True := by
  refine (h.acquire _ _).bind fun _ answer ht => ?_
  cases answer with
  | error e => exact .modify_bind (h.say _ _ _) (.pure trivial)
  | ok t => exact h.attemptFrom _ _ (ht t rfl)

end Still

end StandardStrategy

theorem RetryStrategy.retryOnce_still [OperationError ε] {judge : Judge (World η) ρ ε}
    {attempt : Attempt η ρ ε ν} (span : SpanId) (htraced : ∀ w w', w.TracedTo w' → G.grew [] w w')
    (hattempt : (attempt 1).Yields G R fun _ _ => True)
    (hjudge : ∀ result w, G.grew [] w (judge result w).2) :
    (RetryStrategy.retryOnce judge span attempt).Yields G R fun _ _ => True := by
  refine hattempt.bind fun _ _ _ => .modifyGet_bind (hjudge _) fun _ => ?_
  exact .modify_bind (fun w => htraced _ _ (World.say_traced ..)) (.pure trivial)

end ClientRuntime
