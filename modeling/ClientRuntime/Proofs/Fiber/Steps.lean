import ClientRuntime.Fiber.Basic

/-!
Fibers step by step. Others who share the state may come in between any two steps; a poll is some
steps in a row, with nobody in between.
-/

namespace ClientRuntime.Fiber

variable {σ α : Type}

/-- One step. A change that is made right where the state was read is part of the same step. Who is
suspended goes on once that is worth it. -/
def advance : Fiber σ α → σ → Fiber σ α × σ
  | done a, s => (done a, s)
  | panic text, s => (panic text, s)
  | read next, s =>
    match next s with
    | update f m => (m, f s)
    | m => (m, s)
  | update f next, s => (next, f s)
  | block wake cleanup next, s => (if wake s then next else block wake cleanup next, s)

/-- Some steps in a row. -/
def advances : Nat → Fiber σ α → σ → Fiber σ α × σ
  | 0, m, s => (m, s)
  | k + 1, m, s => (m.advance s).1.advances k (m.advance s).2

/-- What is left of a fiber after a poll. -/
def Polled.rest : Polled σ α → Fiber σ α
  | .ready a => done a
  | .panicked text => panic text
  | .pending wake cleanup next => block wake cleanup next

theorem Polled.rest_ne_update (p : Polled σ α) (f : σ → σ) (m : Fiber σ α) :
    p.rest ≠ update f m := by
  cases p <;> exact nofun

/-- What a poll comes to, the fiber comes to by steps. -/
theorem poll_advances (m : Fiber σ α) (s : σ) :
    ∃ k, m.advances k s = ((m.poll s).1.rest, (m.poll s).2) := by
  induction m generalizing s with
  | done | panic | block => exact ⟨0, rfl⟩
  | update f next ih =>
    obtain ⟨k, hk⟩ := ih (f s)
    exact ⟨k + 1, hk⟩
  | read next ih =>
    obtain ⟨k, hk⟩ := ih s s
    -- A change right behind the read is no step of its own.
    cases hnext : next s with
    | update f m =>
      rw [hnext] at hk
      cases k with
      | zero => exact absurd (congrArg Prod.fst hk).symm (Polled.rest_ne_update _ f m)
      | succ k =>
        refine ⟨k + 1, ?_⟩
        simpa only [advances, advance, poll, hnext] using hk
    | _ =>
      refine ⟨k + 1, ?_⟩
      simpa only [advances, advance, poll, hnext] using hk

end ClientRuntime.Fiber
