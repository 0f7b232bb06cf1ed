import ClientRuntime.Proofs.Fiber.Run

/-!
What a fiber does to the state from its first poll to its end, whatever that end is: a value, an
unwinding or a drop. A fiber stays in a relation if all its runs lead from a state to a related one.
-/

namespace ClientRuntime

/-- Steps can be made one after the other, or none at all. -/
structure Composes {σ : Type} (T : σ → σ → Prop) : Prop where
  none : ∀ s, T s s
  andThen : ∀ {s s₁ s₂}, T s s₁ → T s₁ s₂ → T s s₂

namespace Fiber

variable {σ α β : Type} {R T : σ → σ → Prop}

def Stays (R T : σ → σ → Prop) (m : Fiber σ α) : Prop :=
  ∀ s e s', Run R m s e s' → T s s'

namespace Stays

theorem mono {T' : σ → σ → Prop} {m : Fiber σ α} (h : m.Stays R T) (hT : ∀ s s', T s s' → T' s s') :
    m.Stays R T' :=
  fun s e s' hrun => hT s s' (h s e s' hrun)

theorem pure (hT : Composes T) (a : α) : Stays R T (Pure.pure a : Fiber σ α) := by
  intro s e s' hrun
  obtain ⟨-, rfl⟩ := run_pure.mp hrun
  exact hT.none s'

theorem modify {f : σ → σ} (h : ∀ s, T s (f s)) : Stays R T (Fiber.modify f) := by
  intro s e s' hrun
  obtain ⟨-, rfl⟩ := run_modify.mp hrun
  exact h s

/-- A run is cut in its first part, or it goes on from a value of it. -/
theorem bind (hT : Composes T) {m : Fiber σ α} {f : α → Fiber σ β} (hm : m.Stays R T)
    (hf : ∀ a, (f a).Stays R T) : (m >>= f).Stays R T := by
  intro s e s' hrun
  rcases run_bind.mp hrun with ⟨a, s₁, hfirst, hrest⟩ | ⟨c, rfl, hcut⟩
  · exact hT.andThen (hm _ _ _ hfirst) (hf a _ _ _ hrest)
  · exact hm _ _ _ hcut

/-- What comes after a first part may count on a property of its value. -/
theorem bind_of (hT : Composes T) {m : Fiber σ α} {f : α → Fiber σ β} {P : α → Prop}
    (hm : m.Stays R T) (hP : ∀ s a s', Run R m s (.returned a) s' → P a)
    (hf : ∀ a, P a → (f a).Stays R T) : (m >>= f).Stays R T := by
  intro s e s' hrun
  rcases run_bind.mp hrun with ⟨a, s₁, hfirst, hrest⟩ | ⟨c, rfl, hcut⟩
  · exact hT.andThen (hm _ _ _ hfirst) (hf a (hP _ _ _ hfirst) _ _ _ hrest)
  · exact hm _ _ _ hcut

theorem gets_bind {f : σ → α} {next : α → Fiber σ β} (h : ∀ a, (next a).Stays R T) :
    (gets f >>= next).Stays R T :=
  fun s e s' hrun => h (f s) s e s' (run_gets_bind.mp hrun)

theorem modify_bind (hT : Composes T) {f : σ → σ} {next : Unit → Fiber σ β} (hf : ∀ s, T s (f s))
    (h : (next ()).Stays R T) : (Fiber.modify f >>= next).Stays R T :=
  fun s e s' hrun => hT.andThen (hf s) (h (f s) e s' (run_modify_bind.mp hrun))

theorem modifyGet_bind (hT : Composes T) {f : σ → α × σ} {next : α → Fiber σ β}
    (hf : ∀ s, T s (f s).2) (h : ∀ a, (next a).Stays R T) :
    (modifyGet f >>= next).Stays R T :=
  fun s e s' hrun => hT.andThen (hf s) (h (f s).1 (f s).2 e s' (run_modifyGet_bind.mp hrun))

theorem guarded (hT : Composes T) {onDrop onPanic : σ → σ} {m : Fiber σ α} (hm : m.Stays R T)
    (hdrop : ∀ s, T s (onDrop s)) (hpanic : ∀ s, T s (onPanic s)) :
    (m.guarded onDrop onPanic).Stays R T := by
  intro s e s' hrun
  obtain ⟨s₁, hbody, rfl⟩ := run_guarded.mp hrun
  have inner := hm _ _ _ hbody
  cases e with
  | returned a => exact inner
  | cut c =>
    cases c with
    | unwound text => exact hT.andThen inner (hpanic s₁)
    | dropped => exact hT.andThen inner (hdrop s₁)

/-- Whoever hands back control leaves the state to others. -/
theorem suspend (hR : ∀ s s', R s s' → T s s') :
    Stays R T (Fiber.suspend : Fiber σ Unit) := by
  intro s e s' hrun
  obtain ⟨s₁, hr, ⟨-, hrest⟩ | ⟨-, rfl⟩⟩ := run_block.mp hrun
  · obtain ⟨-, rfl⟩ := run_done.mp hrest
    exact hR s s' hr
  · exact hR _ _ hr

theorem hang (hR : ∀ s s', R s s' → T s s') :
    Stays R T (Fiber.hang : Fiber σ α) := by
  intro s e s' hrun
  obtain ⟨s₁, hr, ⟨hw, -⟩ | ⟨-, rfl⟩⟩ := run_block.mp hrun
  · cases hw
  · exact hR _ _ hr

theorem waitUntil (hT : Composes T) (hR : ∀ s s', R s s' → T s s') (ready : σ → Bool) :
    Stays R T (Fiber.waitUntil ready) := by
  intro s e s' hrun
  rw [Fiber.waitUntil, run_read] at hrun
  split at hrun
  · obtain ⟨-, rfl⟩ := run_done.mp hrun
    exact hT.none s'
  · obtain ⟨s₁, hr, ⟨-, hrest⟩ | ⟨-, rfl⟩⟩ := run_block.mp hrun
    · obtain ⟨-, rfl⟩ := run_done.mp hrest
      exact hR s s' hr
    · exact hR _ _ hr

/-- What every round does, any number of them do one after the other. -/
theorem rounds (hT : Composes T) (hR : ∀ s s', R s s' → T s s') {round : Fiber σ (Option α)}
    (h : round.Stays R T) (n : Nat) : (round.rounds n).Stays R T := by
  induction n with
  | zero => exact hang hR
  | succ n ih =>
    refine h.bind hT fun answer => ?_
    cases answer with
    | none => exact ih
    | some a => exact pure hT a

end Stays

/-- Whoever is given up at a signal runs as it would, or it is dropped and something else runs
instead. -/
theorem Run.giveUpLater {fired : σ → Bool} {instead m : Fiber σ α} {s s' : σ} {e : Ending α}
    (h : Run R (giveUpLater fired instead m) s e s') :
    Run R m s e s' ∨ ∃ s₁, Run R m s (.cut .dropped) s₁ ∧ Run R instead s₁ e s' := by
  induction m generalizing s with
  | done a => exact .inl h
  | panic text => exact .inl h
  | read next ih => simpa only [Fiber.giveUpLater, run_read] using ih s (run_read.mp h)
  | update f next ih => simpa only [Fiber.giveUpLater, run_update] using ih (run_update.mp h)
  | block wake cleanup next ih =>
    obtain ⟨s₁, hr, ⟨hwake, hrest⟩ | ⟨rfl, rfl⟩⟩ := run_block.mp h
    · rw [run_read] at hrest
      by_cases hfired : fired s₁ = true
      · rw [if_pos hfired, run_update] at hrest
        exact .inr ⟨cleanup s₁, .drop hr, hrest⟩
      · rw [if_neg hfired] at hrest
        have hwake : wake s₁ = true := by simpa [hfired] using hwake
        rcases ih hrest with hrun | ⟨s₂, hrun, hinstead⟩
        · exact .inl (.resume hr hwake hrun)
        · exact .inr ⟨s₂, .resume hr hwake hrun, hinstead⟩
    · exact .inl (.drop hr)

/-- The signal is looked at before the first poll too. -/
theorem Run.giveUpWhen {fired : σ → Bool} {instead m : Fiber σ α} {s s' : σ} {e : Ending α}
    (h : Run R (giveUpWhen fired instead m) s e s') :
    (fired s = true ∧ Run R instead s e s') ∨ (fired s = false ∧
      (Run R m s e s' ∨ ∃ s₁, Run R m s (.cut .dropped) s₁ ∧ Run R instead s₁ e s')) := by
  rw [Fiber.giveUpWhen, run_read] at h
  cases hfired : fired s with
  | true =>
    rw [if_pos hfired] at h
    exact .inl ⟨rfl, h⟩
  | false =>
    rw [if_neg (by simp [hfired])] at h
    exact .inr ⟨rfl, h.giveUpLater⟩

theorem Stays.giveUpWhen (hT : Composes T) {fired : σ → Bool} {instead m : Fiber σ α}
    (hm : m.Stays R T) (hinstead : instead.Stays R T) :
    (Fiber.giveUpWhen fired instead m).Stays R T := by
  intro s e s' hrun
  rcases hrun.giveUpWhen with ⟨-, hrun⟩ | ⟨-, hrun | ⟨s₁, hdropped, hrun⟩⟩
  · exact hinstead _ _ _ hrun
  · exact hm _ _ _ hrun
  · exact hT.andThen (hm _ _ _ hdropped) (hinstead _ _ _ hrun)

end Fiber

end ClientRuntime
