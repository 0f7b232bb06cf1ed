import ClientRuntime.Proofs.Fiber.Polls
import ClientRuntime.Proofs.Lock.Tickets

/-!
Queueing for a lock, poll by poll. Whoever has drawn a ticket waits until it is the first in the
queue, then runs with the lock, and gives the ticket up however that ends. Every ticket in the queue
is somebody's.
-/

namespace ClientRuntime

variable {σ α : Type}

/-- A guarded fiber is polled as the fiber itself is. If it unwinds, it lets go. -/
theorem Fiber.poll_guarded (onDrop onPanic : σ → σ) (m : Fiber σ α) (s : σ) :
    (m.guarded onDrop onPanic).poll s =
      match m.poll s with
      | (.ready a, s₁) => (.ready a, s₁)
      | (.panicked text, s₁) => (.panicked text, onPanic s₁)
      | (.pending wake cleanup next, s₁) =>
        (.pending wake (fun s => onDrop (cleanup s)) (next.guarded onDrop onPanic), s₁) := by
  induction m generalizing s with
  | done | panic | block => rfl
  | read next ih => exact ih s s
  | update f next ih => exact ih (f s)

theorem Paused.poll_start_guarded (onDrop onPanic : σ → σ) (m : Fiber σ α) (s : σ) :
    (start (m.guarded onDrop onPanic)).poll s =
      match (start m).poll s with
      | (.ready a, s₁) => (.ready a, s₁)
      | (.panicked text, s₁) => (.panicked text, onPanic s₁)
      | (.pending p, s₁) =>
        (.pending ⟨p.wake, fun s => onDrop (p.cleanup s), p.next.guarded onDrop onPanic⟩, s₁) := by
  simp only [poll, start, if_true, Fiber.poll_guarded]
  rcases m.poll s with ⟨_ | _ | _, _⟩ <;> rfl

namespace Lock

/-- Runs with a ticket in hand and gives it up in the end. -/
def held (lock : Lens σ Lock) (t : Nat) (m : Fiber σ α) : Fiber σ α :=
  Fiber.guarded (lock.modify (leave t)) (lock.modify (leave t)) do
    let a ← m
    Fiber.modify (lock.modify (leave t))
    return a

/-- Waits for its turn. -/
def queued (lock : Lens σ Lock) (t : Nat) (body : Fiber σ α) : Paused σ α where
  wake s := (lock.get s).owns t
  cleanup := lock.modify (leave t)
  next := held lock t body

/-- Is suspended while it has the lock. -/
def inside (lock : Lens σ Lock) (t : Nat) (p : Paused σ α) : Paused σ α where
  wake := p.wake
  cleanup s := lock.modify (leave t) (p.cleanup s)
  next := held lock t p.next

/-- What becomes of a poll with the lock: it is given up unless the fiber is suspended. -/
def outcome (lock : Lens σ Lock) (t : Nat) : Paused.Outcome σ α × σ → Paused.Outcome σ α × σ
  | (.ready a, s) => (.ready a, lock.modify (leave t) s)
  | (.panicked text, s) => (.panicked text, lock.modify (leave t) s)
  | (.pending p, s) => (.pending (inside lock t p), s)

variable (lock : Lens σ Lock) (t : Nat) (body : Fiber σ α) (p : Paused σ α) (s : σ)

theorem poll_held :
    (Paused.start (held lock t body)).poll s = outcome lock t ((Paused.start body).poll s) := by
  simp only [Paused.poll, Paused.start, if_true, held, Fiber.poll_guarded, Fiber.poll_bind]
  rcases body.poll s with ⟨_ | _ | _, _⟩ <;> rfl

theorem poll_queued : (queued lock t body).poll s =
    if (lock.get s).owns t then outcome lock t ((Paused.start body).poll s)
    else (.pending (queued lock t body), s) := by
  rw [Paused.poll_eq, queued, poll_held]

theorem poll_inside : (inside lock t p).poll s = outcome lock t (p.poll s) := by
  rw [Paused.poll_eq, p.poll_eq, inside, poll_held]
  split <;> rfl

/-- A newcomer draws a ticket and goes on like one that waits. -/
theorem poll_start_holding : (Paused.start (holding lock body)).poll s =
    (queued lock (lock.get s).next body).poll (lock.set (lock.get s).draw.2 s) := by
  rw [poll_queued, ← poll_held, holding, Paused.poll_start_modifyGet_bind,
    Paused.poll_start_guarded, Paused.poll_start_waitUntil_bind, held, Paused.poll_start_guarded]
  by_cases h : (lock.get (lock.set (lock.get s).draw.2 s)).owns (lock.get s).next = true
  · simp only [draw] at h ⊢
    simp only [h, if_true]
  · simp only [draw] at h ⊢
    simp only [h, Bool.false_eq_true, if_false]
    rfl

section Tickets

variable {ticket : Nat → Option Nat} {l : Lock} {i t : Nat}

/-- Who has which ticket, down to the last one in the queue. -/
structure Queue (ticket : Nat → Option Nat) (l : Lock) : Prop extends Tickets ticket l where
  owned : ∀ t ∈ l.queue, ∃ i, ticket i = some t

theorem Queue.draw (h : Queue ticket l) (hi : ticket i = none) :
    Queue (Function.update ticket i (some l.next)) l.draw.2 where
  toTickets := h.toTickets.draw
  owned t ht := by
    rcases List.mem_append.mp ht with ht | ht
    · obtain ⟨j, hj⟩ := h.owned t ht
      have hji : j ≠ i := by
        rintro rfl
        rw [hi] at hj
        cases hj
      exact ⟨j, by rw [Function.update_of_ne hji, hj]⟩
    · exact ⟨i, by rw [Function.update_self, List.mem_singleton.mp ht]⟩

theorem Queue.leave (h : Queue ticket l) (hi : ticket i = some t) :
    Queue (Function.update ticket i none) (l.leave t) where
  toTickets := h.toTickets.leave hi
  owned u hu := by
    obtain ⟨hu, hne⟩ := List.mem_filter.mp hu
    obtain ⟨j, hj⟩ := h.owned u hu
    have hji : j ≠ i := by
      rintro rfl
      rw [hi] at hj
      simp [Option.some.inj hj] at hne
    exact ⟨j, by rw [Function.update_of_ne hji, hj]⟩

/-- Nobody queues. -/
theorem Queue.none (h : l.queue = []) : Queue (fun _ => Option.none) l where
  toTickets := .none h
  owned t ht := by
    rw [h] at ht
    cases ht

end Tickets

end Lock

end ClientRuntime
