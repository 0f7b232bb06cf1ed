import ClientRuntime.Lens
import ClientRuntime.Proofs.Fiber.Stays
import ClientRuntime.Proofs.Trace.Frame

/-!
Watched fibers. The host of a world gets a journal of calls beside it. A watched fiber runs in the
rest of the world, where it cannot tell that it is watched, and its call is noted when it has a
value.
-/

namespace ClientRuntime

namespace Fiber

variable {σ τ α γ : Type} {R : σ → σ → Prop}

/-- The fiber in a larger state, of which it sees and changes a part. -/
def along (l : Lens σ τ) : Fiber τ α → Fiber σ α
  | done a => done a
  | panic text => panic text
  | read next => read fun s => (next (l.get s)).along l
  | update f next => update (l.modify f) (next.along l)
  | block wake cleanup next =>
    block (fun s => wake (l.get s)) (l.modify cleanup) (next.along l)

/-- In the part that it sees, the fiber runs as it does by itself. -/
theorem Run.ofAlong {l : Lens σ τ} {R' : τ → τ → Prop}
    (hR : ∀ s s₁, R s s₁ → R' (l.get s) (l.get s₁)) {m : Fiber τ α} {s s' : σ} {e : Ending α}
    (h : Run R (m.along l) s e s') : Run R' m (l.get s) e (l.get s') := by
  induction m generalizing s with
  | done a =>
    obtain ⟨rfl, rfl⟩ := run_done.mp h
    exact .done
  | panic text =>
    obtain ⟨rfl, rfl⟩ := run_panic.mp h
    exact .panic
  | read next ih => exact .read (ih _ (run_read.mp h))
  | update f next ih => exact .update (by simpa using ih (run_update.mp h))
  | block wake cleanup next ih =>
    obtain ⟨s₁, hr, ⟨hw, h⟩ | ⟨rfl, rfl⟩⟩ := run_block.mp h
    · exact .resume (hR s s₁ hr) hw (ih h)
    · rw [Lens.get_modify]
      exact .drop (hR s s₁ hr)

/-- What the fiber does not see, it leaves as it is. -/
theorem Run.along_frame {l : Lens σ τ} {view : σ → γ} (hset : ∀ t s, view (l.set t s) = view s)
    (hR : ∀ s s₁, R s s₁ → view s₁ = view s) {m : Fiber τ α} {s s' : σ} {e : Ending α}
    (h : Run R (m.along l) s e s') : view s' = view s := by
  induction m generalizing s with
  | done => rw [(run_done.mp h).2]
  | panic => rw [(run_panic.mp h).2]
  | read next ih => exact ih _ (run_read.mp h)
  | update f next ih => rw [ih (run_update.mp h), Lens.modify, hset]
  | block wake cleanup next ih =>
    obtain ⟨s₁, hr, ⟨-, h⟩ | ⟨-, rfl⟩⟩ := run_block.mp h
    · rw [ih h, hR s s₁ hr]
    · rw [Lens.modify, hset, hR s s₁ hr]

/-- A fiber in a larger state stays in what its own steps and those of others amount to. -/
theorem Stays.along {l : Lens σ τ} {T : σ → σ → Prop} (hT : Composes T)
    (hR : ∀ s s', R s s' → T s s') (hset : ∀ t s, T s (l.set t s)) (m : Fiber τ α) :
    (m.along l).Stays R T := by
  induction m with
  | done a => exact .pure hT a
  | panic text =>
    intro s e s' hrun
    obtain ⟨-, rfl⟩ := run_panic.mp hrun
    exact hT.none s'
  | read next ih => exact fun s e s' hrun => ih _ _ _ _ (run_read.mp hrun)
  | update f next ih =>
    intro s e s' hrun
    exact hT.andThen (hset _ _) (ih (l.modify f s) e s' (run_update.mp hrun))
  | block wake cleanup next ih =>
    intro s e s' hrun
    obtain ⟨s₁, hr, ⟨-, hrest⟩ | ⟨-, rfl⟩⟩ := run_block.mp hrun
    · exact hT.andThen (hR _ _ hr) (ih _ _ _ hrest)
    · exact hT.andThen (hR _ _ hr) (hset _ _)

/-- A fiber that returns whatever others do returns in a larger state too. -/
theorem Returns.along {l : Lens σ τ} (hR : ∀ t s, R s (l.set t s)) {m : Fiber τ α} {s : σ}
    (h : m.Returns (fun _ _ => True) (l.get s)) : (m.along l).Returns R s := by
  induction m generalizing s with
  | done | panic => exact h
  | read next ih => exact ih _ h
  | update f next ih => exact ih (by rwa [Lens.get_modify])
  | block wake cleanup next ih =>
    obtain ⟨⟨t, -, hw⟩, hn⟩ := h
    exact ⟨⟨l.set t s, hR t s, by simpa only [l.get_set]⟩, fun s₁ _ hw => ih (hn _ trivial hw)⟩

end Fiber

/-- A host with a journal, oldest call first. -/
structure Journaled (κ η : Type) where
  calls : List κ
  host : η

namespace World

variable {κ η : Type}

def calls (w : World (Journaled κ η)) : List κ := w.host.calls

/-- The world without the journal. -/
def unwatched : Lens (World (Journaled κ η)) (World η) where
  get w := ⟨w.clock, w.systemTime, w.log, w.trace, w.executions, w.random, w.host.host⟩
  set v w :=
    ⟨v.clock, v.systemTime, v.log, v.trace, v.executions, v.random, ⟨w.host.calls, v.host⟩⟩
  get_set _ _ := rfl
  set_get _ := rfl
  set_set _ _ _ := rfl

/-- The world with a journal that is still empty. -/
def journaled (v : World η) : World (Journaled κ η) :=
  ⟨v.clock, v.systemTime, v.log, v.trace, v.executions, v.random, ⟨[], v.host⟩⟩

@[simp] theorem unwatched_journaled (v : World η) :
    unwatched.get (v.journaled : World (Journaled κ η)) = v := rfl

def record (c : κ) (w : World (Journaled κ η)) : World (Journaled κ η) :=
  { w with host := { w.host with calls := w.host.calls ++ [c] } }

@[simp] theorem calls_record (c : κ) (w : World (Journaled κ η)) :
    (w.record c).calls = w.calls ++ [c] := rfl

theorem TracedTo.calls {w w' : World (Journaled κ η)} (h : w.TracedTo w') :
    w'.calls = w.calls := by rw [World.calls, World.calls, h.host]

/-- Others may do what they like, save to write to the journal. -/
def SameCalls (w w' : World (Journaled κ η)) : Prop := w'.calls = w.calls

theorem sameCalls_refl (w : World (Journaled κ η)) : w.SameCalls w := rfl

end World

section Watched

variable {κ η α : Type}

/-- The fiber, whose call is noted when it has a value. -/
def Fiber.watched (call : α → κ) (m : Fiber (World η) α) : Fiber (World (Journaled κ η)) α := do
  let a ← m.along World.unwatched
  Fiber.modify (·.record (call a))
  return a

variable {R : World (Journaled κ η) → World (Journaled κ η) → Prop}
  {w w' : World (Journaled κ η)}

namespace Fiber

theorem Run.along_calls (hR : ∀ w w', R w w' → w.SameCalls w') {m : Fiber (World η) α}
    {e : Ending α} (h : Run R (m.along World.unwatched) w e w') : w'.calls = w.calls :=
  h.along_frame (fun _ _ => rfl) hR

theorem Run.watched_returned (hR : ∀ w w', R w w' → w.SameCalls w') {call : α → κ}
    {m : Fiber (World η) α} {a : α} (h : Run R (m.watched call) w (.returned a) w') :
    w'.calls = w.calls ++ [call a] := by
  simp only [watched, run_bind_returned, run_modify, run_pure, Ending.returned.injEq] at h
  obtain ⟨_, w₁, hm, _, _, ⟨-, rfl⟩, rfl, rfl⟩ := h
  rw [World.calls_record, hm.along_calls hR]

theorem Run.watched_cut (hR : ∀ w w', R w w' → w.SameCalls w') {call : α → κ}
    {m : Fiber (World η) α} {c : Cut} (h : Run R (m.watched call) w (.cut c) w') :
    w'.calls = w.calls := by
  simp only [watched, run_bind_cut, run_modify, run_pure, reduceCtorEq, false_and, and_false,
    exists_false, or_false] at h
  exact h.along_calls hR

/-- A fiber that returns, whatever others do. -/
def Reliable {σ : Type} (m : Fiber σ α) : Prop := ∀ s, m.Returns (fun _ _ => True) s

theorem Reliable.unwatched {m : Fiber (World η) α} (h : m.Reliable) :
    (m.along World.unwatched).Returns World.SameCalls w :=
  (h _).along fun _ _ => rfl

end Fiber

end Watched

end ClientRuntime
