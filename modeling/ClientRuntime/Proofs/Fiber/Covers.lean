import ClientRuntime.Lens
import ClientRuntime.Proofs.Fiber.Journal

/-!
Fibers in a larger state that cover others in a part of it. Every run of the smaller fiber that
returns can be seen, in the part, as a run of the larger one. What the larger fiber does beside the
part is its own affair.
-/

namespace ClientRuntime.Fiber

variable {σ τ α β γ δ : Type} {l : Lens σ τ} {R : σ → σ → Prop} {R' : τ → τ → Prop}
  {f : α → β}

/-- Where `m'` returns among others who obey `R'` in the part, `m` returns among others who obey
`R`, and returns what `f` makes of the value. -/
def Covers (l : Lens σ τ) (R : σ → σ → Prop) (R' : τ → τ → Prop) (f : α → β) (m : Fiber σ β)
    (m' : Fiber τ α) : Prop :=
  ∀ s a t', Run R' m' (l.get s) (.returned a) t' →
    ∃ s', l.get s' = t' ∧ Run R m s (.returned (f a)) s'

namespace Covers

theorem pure (a : α) : Covers l R R' f (Pure.pure (f a)) (Pure.pure a) := by
  intro s b t' h
  obtain ⟨⟨⟩, rfl⟩ := run_pure.mp h
  exact ⟨s, rfl, .done⟩

theorem bind {m : Fiber σ β} {m' : Fiber τ α} {k : β → Fiber σ δ} {k' : α → Fiber τ γ} {g : γ → δ}
    (hm : m.Covers l R R' f m') (hk : ∀ a, (k (f a)).Covers l R R' g (k' a)) :
    (m >>= k).Covers l R R' g (m' >>= k') := by
  intro s b t' h
  obtain ⟨a, t₁, hfirst', hrest'⟩ := run_bind_returned.mp h
  obtain ⟨s₁, rfl, hfirst⟩ := hm _ _ _ hfirst'
  obtain ⟨s', rfl, hrest⟩ := hk a _ _ _ hrest'
  exact ⟨s', rfl, run_bind_returned.mpr ⟨_, _, hfirst, hrest⟩⟩

/-- What follows may do nothing that the part sees. -/
theorem followed {m : Fiber σ β} {m' : Fiber τ α} {k : β → Fiber σ δ} {g : α → δ}
    (hm : m.Covers l R R' f m') (hk : ∀ a, (k (f a)).Covers l R R' g (Pure.pure a)) :
    (m >>= k).Covers l R R' g m' := by
  have h := hm.bind hk
  rwa [bind_pure] at h

/-- A change of the whole that the part sees as a change of its own. -/
theorem modify_bind {F : σ → σ} {F' : τ → τ} {k : Unit → Fiber σ β} {k' : Unit → Fiber τ α}
    (h : ∀ s, l.get (F s) = F' (l.get s)) (hk : (k ()).Covers l R R' f (k' ())) :
    (Fiber.modify F >>= k).Covers l R R' f (Fiber.modify F' >>= k') := by
  intro s a t' hrun
  replace hrun := run_modify_bind.mp hrun
  rw [← h] at hrun
  obtain ⟨s', hs', hrun⟩ := hk _ _ _ hrun
  exact ⟨s', hs', run_modify_bind.mpr hrun⟩

protected theorem modify {F : σ → σ} {F' : τ → τ} (h : ∀ s, l.get (F s) = F' (l.get s)) :
    (Fiber.modify F).Covers l R R' (fun a => a) (Fiber.modify F') :=
  modify_bind h (.pure ())

/-- A change that the part does not see. -/
theorem beside {F : σ → σ} {k : Unit → Fiber σ β} {m' : Fiber τ α}
    (h : ∀ s, l.get (F s) = l.get s) (hk : (k ()).Covers l R R' f m') :
    (Fiber.modify F >>= k).Covers l R R' f m' := by
  intro s a t' hrun
  rw [← h] at hrun
  obtain ⟨s', hs', hrun⟩ := hk _ _ _ hrun
  exact ⟨s', hs', run_modify_bind.mpr hrun⟩

theorem gets_bind {F : σ → γ} {F' : τ → γ} {k : γ → Fiber σ β} {k' : γ → Fiber τ α}
    (h : ∀ s, F s = F' (l.get s)) (hk : ∀ c, (k c).Covers l R R' f (k' c)) :
    (gets F >>= k).Covers l R R' f (gets F' >>= k') := by
  intro s a t' hrun
  replace hrun := run_gets_bind.mp hrun
  rw [← h] at hrun
  obtain ⟨s', hs', hrun⟩ := hk _ _ _ _ hrun
  exact ⟨s', hs', run_gets_bind.mpr hrun⟩

protected theorem gets {F : σ → γ} {F' : τ → γ} (h : ∀ s, F s = F' (l.get s)) :
    (Fiber.gets F).Covers l R R' (fun a => a) (Fiber.gets F') :=
  gets_bind h fun c => .pure c

/-- A look at the whole that the part knows nothing of. -/
theorem looking {F : σ → γ} {k : γ → Fiber σ β} {m' : Fiber τ α}
    (hk : ∀ c, (k c).Covers l R R' f m') : (gets F >>= k).Covers l R R' f m' := by
  intro s a t' hrun
  obtain ⟨s', hs', hrun⟩ := hk (F s) _ _ _ hrun
  exact ⟨s', hs', run_gets_bind.mpr hrun⟩

theorem modifyGet_bind {F : σ → γ × σ} {F' : τ → γ × τ} {k : γ → Fiber σ β} {k' : γ → Fiber τ α}
    (hvalue : ∀ s, (F s).1 = (F' (l.get s)).1) (h : ∀ s, l.get (F s).2 = (F' (l.get s)).2)
    (hk : ∀ c, (k c).Covers l R R' f (k' c)) :
    (modifyGet F >>= k).Covers l R R' f (modifyGet F' >>= k') := by
  intro s a t' hrun
  replace hrun := run_modifyGet_bind.mp hrun
  rw [← hvalue, ← h] at hrun
  obtain ⟨s', hs', hrun⟩ := hk _ _ _ _ hrun
  exact ⟨s', hs', run_modifyGet_bind.mpr hrun⟩

protected theorem modifyGet {F : σ → γ × σ} {F' : τ → γ × τ}
    (hvalue : ∀ s, (F s).1 = (F' (l.get s)).1)
    (h : ∀ s, l.get (F s).2 = (F' (l.get s)).2) :
    (Fiber.modifyGet F).Covers l R R' (fun a => a) (Fiber.modifyGet F') :=
  modifyGet_bind hvalue h fun c => .pure c

/-- Guards say nothing of runs that return. -/
theorem guarded {onDrop onPanic : σ → σ} {onDrop' onPanic' : τ → τ} {m : Fiber σ β}
    {m' : Fiber τ α} (h : m.Covers l R R' f m') :
    (m.guarded onDrop onPanic).Covers l R R' f (m'.guarded onDrop' onPanic') := by
  intro s a t' hrun
  obtain ⟨_, hrun', rfl⟩ := run_guarded.mp hrun
  obtain ⟨s', hs', hrun⟩ := h _ _ _ hrun'
  exact ⟨s', hs', run_guarded.mpr ⟨s', hrun, rfl⟩⟩

/-- The same fiber in the larger state, where others may do to the part what they may do to it
alone. -/
theorem along (hR : ∀ s t, R' (l.get s) t → R s (l.set t s)) (m : Fiber τ α) :
    (m.along l).Covers l R R' (fun a => a) m := by
  induction m with
  | done a => exact .pure a
  | panic text =>
    intro s a t' h
    cases h
  | read next ih =>
    intro s a t' hrun
    obtain ⟨s', hs', h⟩ := ih _ _ _ _ (run_read.mp hrun)
    exact ⟨s', hs', .read h⟩
  | update F next ih =>
    intro s a t' hrun
    replace hrun := run_update.mp hrun
    rw [← l.get_modify F s] at hrun
    obtain ⟨s', hs', h⟩ := ih _ _ _ hrun
    exact ⟨s', hs', .update h⟩
  | block wake cleanup next ih =>
    intro s a t' hrun
    obtain ⟨t₁, hr, ⟨hw, hrun⟩ | ⟨he, -⟩⟩ := run_block.mp hrun
    · rw [← l.get_set t₁ s] at hrun hw
      obtain ⟨s', hs', h⟩ := ih _ _ _ hrun
      exact ⟨s', hs', .resume (hR s t₁ hr) hw h⟩
    · cases he

end Covers

end ClientRuntime.Fiber
