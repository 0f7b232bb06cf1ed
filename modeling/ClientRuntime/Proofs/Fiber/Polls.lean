import ClientRuntime.Fiber.Control

/-!
Single polls of fibers put together from others.
-/

namespace ClientRuntime

namespace Fiber

variable {σ α β : Type}

/-- A poll of `m` and then `k` goes on with `k` in the same poll if `m` is ready. -/
theorem poll_bind (m : Fiber σ α) (k : α → Fiber σ β) (s : σ) :
    (m >>= k).poll s =
      match m.poll s with
      | (.ready a, s₁) => (k a).poll s₁
      | (.panicked text, s₁) => (.panicked text, s₁)
      | (.pending wake cleanup next, s₁) => (.pending wake cleanup (next >>= k), s₁) := by
  change (m.bind k).poll s = _
  induction m generalizing s with
  | done | panic | block => rfl
  | read next ih => exact ih s s
  | update f next ih => exact ih (f s)

theorem poll_waitUntil {ready : σ → Bool} {s : σ} (h : ready s = false) :
    (waitUntil ready).poll s = (.pending ready id (pure ()), s) := by
  simp only [waitUntil, poll, h, Bool.false_eq_true, if_false]
  rfl

section Rounds

variable {round : Fiber σ (Option α)} {s s' : σ}

/-- A round with an answer is the last one. -/
theorem poll_rounds_of_some {a : α} (h : round.poll s = (.ready (some a), s')) (n : Nat) :
    (round.rounds (n + 1)).poll s = (.ready a, s') := by
  rw [rounds, poll_bind, h]
  rfl

/-- After a round without one the next begins in the same poll. -/
theorem poll_rounds_of_none (h : round.poll s = (.ready none, s')) (n : Nat) :
    (round.rounds (n + 1)).poll s = (round.rounds n).poll s' := by
  rw [rounds, poll_bind, h]
  rfl

theorem poll_rounds_of_pending {wake : σ → Bool} {cleanup : σ → σ} {next : Fiber σ (Option α)}
    (h : round.poll s = (.pending wake cleanup next, s')) (n : Nat) :
    (round.rounds (n + 1)).poll s =
      (.pending wake cleanup (next >>= answerOr fun _ => round.rounds n), s') := by
  rw [rounds, poll_bind, h]

/-- Rounds in a row that each end at once, but without an answer. -/
inductive Fruitless (round : Fiber σ (Option α)) : Nat → σ → σ → Prop where
  | none (s : σ) : Fruitless round 0 s s
  | more {n : Nat} {s s₁ s' : σ} : round.poll s = (.ready none, s₁) → Fruitless round n s₁ s' →
      Fruitless round (n + 1) s s'

namespace Fruitless

/-- A run goes on behind them as one that begins there. -/
theorem poll_rounds {k : Nat} (h : Fruitless round k s s') (n : Nat) :
    (round.rounds (n + k)).poll s = (round.rounds n).poll s' := by
  induction h with
  | none => rfl
  | more hround _ ih => exact (poll_rounds_of_none hround _).trans ih

/-- A run of no more rounds than that is not answered. -/
theorem not_answered {k : Nat} (h : Fruitless round k s s') (a : α) (s₁ : σ) :
    (round.rounds k).poll s ≠ (.ready a, s₁) := by
  have hpoll := h.poll_rounds 0
  rw [Nat.zero_add] at hpoll
  rw [hpoll]
  exact fun hready => by cases hready

theorem left {j k : Nat} (h : Fruitless round (j + k) s s') : ∃ s₁, Fruitless round j s s₁ := by
  induction j generalizing s with
  | zero => exact ⟨s, .none s⟩
  | succ j ih =>
    rw [Nat.add_right_comm] at h
    obtain - | ⟨hround, hrest⟩ := h
    obtain ⟨s₁, hfirst⟩ := ih hrest
    exact ⟨s₁, .more hround hfirst⟩

theorem trans {j k : Nat} {s₁ : σ} (h : Fruitless round j s s₁) (h' : Fruitless round k s₁ s') :
    Fruitless round (k + j) s s' := by
  induction h with
  | none => exact h'
  | more hround _ ih => exact .more hround (ih h')

end Fruitless

end Rounds

end Fiber

namespace Paused

open ClientRuntime.Fiber

variable {σ α β : Type}

/-- Once it is worth resuming, a fiber is polled like one that starts there. -/
theorem poll_eq (p : Paused σ α) (s : σ) :
    p.poll s = if p.wake s then (start p.next).poll s else (.pending p, s) := by
  simp [poll, start]

theorem poll_start_of_ready {m : Fiber σ α} {s s' : σ} {a : α} (h : m.poll s = (.ready a, s')) :
    (start m).poll s = (.ready a, s') := by
  simp only [poll, start, if_true, h]

theorem poll_start_of_pending {m next : Fiber σ α} {s s' : σ} {wake : σ → Bool} {cleanup : σ → σ}
    (h : m.poll s = (.pending wake cleanup next, s')) :
    (start m).poll s = (.pending ⟨wake, cleanup, next⟩, s') := by
  simp only [poll, start, if_true, h]

theorem poll_start_gets_bind (f : σ → α) (k : α → Fiber σ β) (s : σ) :
    (start (gets f >>= k)).poll s = (start (k (f s))).poll s := rfl

theorem poll_start_modify_bind (f : σ → σ) (k : Unit → Fiber σ β) (s : σ) :
    (start (modify f >>= k)).poll s = (start (k ())).poll (f s) := rfl

theorem poll_start_modifyGet_bind (f : σ → α × σ) (k : α → Fiber σ β) (s : σ) :
    (start (modifyGet f >>= k)).poll s = (start (k (f s).1)).poll (f s).2 := rfl

theorem poll_start_waitUntil_bind (ready : σ → Bool) (k : Unit → Fiber σ β) (s : σ) :
    (start (waitUntil ready >>= k)).poll s =
      if ready s then (start (k ())).poll s else (.pending ⟨ready, id, k ()⟩, s) := by
  simp only [poll, start, if_true, poll_bind, waitUntil, Fiber.poll]
  by_cases h : ready s = true
  · simp only [h, if_true, Fiber.poll]
  · simp only [h, Bool.false_eq_true, if_false, Fiber.poll]
    rfl

end Paused

end ClientRuntime
