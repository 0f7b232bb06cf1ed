import ClientRuntime.Proofs.Fiber.Run

/-!
What a fiber adds to a list that can be read off two states, one of which comes later. A fiber
yields a property of the addition and of its value if every run that returns has it.
-/

namespace ClientRuntime

/-- A list that only grows: `grew k s s'` if `k` was added from `s` to `s'`. -/
structure Growth (σ κ : Type) where
  grew : List κ → σ → σ → Prop
  still : ∀ s, grew [] s s
  append : ∀ {k k' s s₁ s₂}, grew k s s₁ → grew k' s₁ s₂ → grew (k ++ k') s s₂

/-- A preorder, as the growth of nothing. -/
def Growth.ofPreorder {σ : Type} (Q : σ → σ → Prop) (refl : ∀ s, Q s s)
    (trans : ∀ {s s₁ s₂}, Q s s₁ → Q s₁ s₂ → Q s s₂) : Growth σ Empty :=
  ⟨fun _ => Q, refl, trans⟩

namespace Fiber

variable {σ α β κ : Type} {R : σ → σ → Prop} {G : Growth σ κ}

def Yields (G : Growth σ κ) (R : σ → σ → Prop) (m : Fiber σ α) (P : List κ → α → Prop) : Prop :=
  ∀ s a s', Run R m s (.returned a) s' → ∃ k, G.grew k s s' ∧ P k a

namespace Yields

variable {P : List κ → α → Prop} {Q : List κ → β → Prop}

theorem pure {a : α} (h : P [] a) : Yields G R (Pure.pure a) P := by
  intro s b s' hrun
  obtain ⟨⟨⟩, rfl⟩ := run_pure.mp hrun
  exact ⟨[], G.still _, h⟩

/-- What comes after a first part adds to what the first part added. -/
theorem bind {m : Fiber σ α} {f : α → Fiber σ β} (hm : m.Yields G R P)
    (hf : ∀ k a, P k a → (f a).Yields G R fun k' b => Q (k ++ k') b) :
    (m >>= f).Yields G R Q := by
  intro s b s' hrun
  obtain ⟨a, s₁, hfirst, hrest⟩ := run_bind_returned.mp hrun
  obtain ⟨k, hk, hP⟩ := hm _ _ _ hfirst
  obtain ⟨k', hk', hQ⟩ := hf k a hP _ _ _ hrest
  exact ⟨k ++ k', G.append hk hk', hQ⟩

theorem imp {P' : List κ → α → Prop} {m : Fiber σ α} (hm : m.Yields G R P)
    (h : ∀ k a, P k a → P' k a) : m.Yields G R P' := by
  intro s a s' hrun
  obtain ⟨k, hk, hP⟩ := hm _ _ _ hrun
  exact ⟨k, hk, h k a hP⟩

theorem modify {f : σ → σ} {k : List κ} (h : ∀ s, G.grew k s (f s)) :
    (Fiber.modify f).Yields G R fun k' _ => k' = k := by
  intro s _ s' hrun
  obtain ⟨-, rfl⟩ := run_modify.mp hrun
  exact ⟨k, h s, rfl⟩

theorem gets_bind {f : σ → α} {next : α → Fiber σ β} (h : ∀ a, (next a).Yields G R Q) :
    (gets f >>= next).Yields G R Q :=
  fun _ _ _ hrun => h _ _ _ _ (run_gets_bind.mp hrun)

theorem modify_bind {f : σ → σ} {next : Unit → Fiber σ β} (hf : ∀ s, G.grew [] s (f s))
    (h : (next ()).Yields G R Q) : (Fiber.modify f >>= next).Yields G R Q := by
  intro s b s' hrun
  obtain ⟨k, hk, hQ⟩ := h _ _ _ (run_modify_bind.mp hrun)
  exact ⟨k, G.append (hf s) hk, hQ⟩

theorem modifyGet_bind {f : σ → α × σ} {next : α → Fiber σ β} (hf : ∀ s, G.grew [] s (f s).2)
    (h : ∀ a, (next a).Yields G R Q) : (modifyGet f >>= next).Yields G R Q := by
  intro s b s' hrun
  obtain ⟨k, hk, hQ⟩ := h _ _ _ _ (run_modifyGet_bind.mp hrun)
  exact ⟨k, G.append (hf s) hk, hQ⟩

/-- A guard says nothing of runs that return. -/
theorem guarded {onDrop onPanic : σ → σ} {m : Fiber σ α} (hm : m.Yields G R P) :
    (m.guarded onDrop onPanic).Yields G R P := by
  intro s a s' hrun
  obtain ⟨_, hrun, rfl⟩ := run_guarded.mp hrun
  exact hm _ _ _ hrun

end Yields

end Fiber

end ClientRuntime
