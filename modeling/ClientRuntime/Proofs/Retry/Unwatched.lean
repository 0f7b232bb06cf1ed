import ClientRuntime.Proofs.Retry.Watched
import ClientRuntime.Proofs.Trace.Beside

/-!
Watching changes nothing. Every run of a strategy that returns can be seen in a run under watch,
from the same world to the same world and with the same result.
-/

namespace ClientRuntime

open ClientRuntime.Fiber
open World (unwatched)

variable {η κ ρ ε γ ν : Type}

theorem Fiber.watched_covers {R : World (Journaled κ η) → World (Journaled κ η) → Prop}
    {R' : World η → World η → Prop}
    (hR : ∀ w v, R' (unwatched.get w) v → R w (unwatched.set v w)) {α : Type} (call : α → κ)
    (m : Fiber (World η) α) : (m.watched call).Covers unwatched R R' (fun a => a) m :=
  (Covers.along hR m).followed fun a => .beside (fun _ => rfl) (.pure a)

theorem RetryToken.get_release (t : RetryToken η) (n : Nat) (outcome : TokenOutcome)
    (w : World (Journaled (RetryCall ρ ε γ) η)) :
    unwatched.get ((t.watched n).release outcome w) = t.release outcome (unwatched.get w) := by
  rw [release_watched]
  rfl

variable {R : World (Journaled (RetryCall ρ ε γ) η) → World (Journaled (RetryCall ρ ε γ) η) → Prop}
  {R' : World η → World η → Prop}
  {attempt : Attempt (Journaled (RetryCall ρ ε γ) η) ρ ε ν} {attempt' : Attempt η ρ ε ν}

/-- Notes before and after an attempt are all that is new. -/
theorem attempt_watched_covers {n : Nat}
    (h : (attempt n).Covers unwatched R R' (fun a => a) (attempt' n)) :
    (attempt.watched n).Covers unwatched R R' (fun a => a) (attempt' n) :=
  .beside (fun _ => rfl) (h.followed fun a => .beside (fun _ => rfl) (.pure a))

theorem RetryStrategy.retryOnce_covers [OperationError ε] (judge : Judge (World η) ρ ε)
    (span : SpanId) (h : ∀ n, (attempt n).Covers unwatched R R' (fun a => a) (attempt' n)) :
    (retryOnce judge.watched span attempt.watched).Covers unwatched R R' (fun a => a)
      (retryOnce judge span attempt') := by
  refine (attempt_watched_covers (h 1)).bind fun ⟨result, last⟩ => ?_
  exact .modifyGet_bind (fun _ => rfl) (fun _ => rfl) fun d => .say_bind (.pure _)

namespace StandardStrategy

variable (hR : ∀ w v, R' (unwatched.get w) v → R w (unwatched.set v w)) (s : StandardStrategy η)
  (judge : Judge (World η) ρ ε) (span : SpanId)
  (ha : ∀ n, (attempt n).Covers unwatched R R' (fun a => a) (attempt' n))

include hR in
theorem acquire_covers (n : Nat) (cause : Option RetryCause) :
    (s.watched.bucket.acquire n cause).Covers unwatched R R'
      (fun answer => answer.map (·.watched n)) (s.bucket.acquire n cause) :=
  .beside (fun _ => rfl) ((watched_covers hR _ _).followed fun _ => .pure _)

include hR in
theorem backOff_covers (n : Nat) (cause : RetryCause) :
    (s.watched.backOff span n cause).Covers unwatched R R' (fun u => u)
      (s.backOff span n cause) := by
  refine .modifyGet_bind (fun _ => rfl) (fun _ => rfl) fun d => ?_
  exact .modify_bind (fun _ => rfl) (.say_bind (.beside (fun _ => rfl) (.along hR _)))

include ha in
theorem turn_covers (n : Nat) (t : RetryToken η) :
    (s.watched.turn judge.watched span attempt.watched n (t.watched n)).Covers unwatched R R'
      (fun a => a) (s.turn judge span attempt' n t) := by
  refine .say_bind ((attempt_watched_covers (ha n)).guarded.bind fun ⟨result, last⟩ => ?_)
  refine .modifyGet_bind (fun _ => rfl) (fun _ => rfl) fun d => ?_
  exact .modify_bind (fun w => t.get_release n _ w) (.pure _)

variable [OperationError ε]

include hR ha

theorem attemptFrom_covers (left n : Nat) (t : RetryToken η) :
    (s.watched.attemptFrom judge.watched span attempt.watched left n (t.watched n)).Covers
      unwatched R R' (fun a => a) (s.attemptFrom judge span attempt' left n t) := by
  induction left using Nat.strongRecOn generalizing n t with
  | ind left ih =>
  unfold attemptFrom
  refine (turn_covers s judge span ha n t).bind fun ⟨result, last, d⟩ => ?_
  cases d with
  | success | failure => exact .say_bind (.pure _)
  | retry cause =>
    cases left with
    | zero => exact .say_bind (.pure _)
    | succ left =>
      refine (backOff_covers hR s span n cause).bind fun _ => ?_
      refine (acquire_covers hR s _ _).bind fun answer => ?_
      cases answer with
      | error e => exact .say_bind (.pure _)
      | ok t => exact ih left (by omega) (n + 1) t

/-- Every run of the strategy that returns can be seen under watch. -/
theorem retry_covers :
    (s.watched.retry judge.watched span attempt.watched).Covers unwatched R R' (fun a => a)
      (s.retry judge span attempt') := by
  refine (acquire_covers hR s _ _).bind fun answer => ?_
  cases answer with
  | error e => exact .say_bind (.pure _)
  | ok t => exact attemptFrom_covers hR s judge span ha _ 1 t

end StandardStrategy

end ClientRuntime
