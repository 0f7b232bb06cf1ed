/-!
A component's state as a part of a larger state.
-/

namespace ClientRuntime

structure Lens (σ α : Type) where
  get : σ → α
  set : α → σ → σ
  get_set : ∀ a s, get (set a s) = a
  set_get : ∀ s, set (get s) s = s
  set_set : ∀ a b s, set a (set b s) = set a s

namespace Lens

variable {σ α β : Type}

def modify (l : Lens σ α) (f : α → α) (s : σ) : σ := l.set (f (l.get s)) s

@[simp] theorem get_modify (l : Lens σ α) (f : α → α) (s : σ) :
    l.get (l.modify f s) = f (l.get s) := l.get_set _ _

theorem modify_modify (l : Lens σ α) (f g : α → α) (s : σ) :
    l.modify f (l.modify g s) = l.modify (fun a => f (g a)) s := by
  simp only [modify, l.get_set, l.set_set]

/-- The whole state. -/
def whole : Lens α α := ⟨id, fun a _ => a, fun _ _ => rfl, fun _ => rfl, fun _ _ _ => rfl⟩

/-- A part of a part. -/
def comp (l : Lens σ α) (m : Lens α β) : Lens σ β where
  get s := m.get (l.get s)
  set b s := l.set (m.set b (l.get s)) s
  get_set _ _ := by rw [l.get_set, m.get_set]
  set_get _ := by rw [m.set_get, l.set_get]
  set_set _ _ _ := by rw [l.get_set, l.set_set, m.set_set]

end Lens

end ClientRuntime
