import ClientRuntime.Proofs.Fiber.Stays

/-!
Fibers that lead from scene to scene. A scene is what is known of the state; a fiber carries it on
if every run, however it ends, leads from a state in one scene to a state in some other, and with a
value to one that goes with the value.
-/

namespace ClientRuntime.Fiber

variable {σ τ α β : Type} {R : σ → σ → Prop} {I : τ → σ → Prop} {t : τ}

/-- From every state in scene `t`, a value and the scene at the end are as `P` says. -/
def Carries (R : σ → σ → Prop) (I : τ → σ → Prop) (t : τ) (m : Fiber σ α) (P : α → τ → Prop) :
    Prop :=
  ∀ s e s', I t s → Run R m s e s' → ∃ t', I t' s' ∧ ∀ a, e = .returned a → P a t'

namespace Carries

variable {P : α → τ → Prop} {Q : β → τ → Prop} {m : Fiber σ α}

theorem pure {a : α} (h : P a t) : (Pure.pure a : Fiber σ α).Carries R I t P := by
  intro s e s' hs hrun
  obtain ⟨rfl, rfl⟩ := run_pure.mp hrun
  exact ⟨t, hs, fun b hb => by cases hb; exact h⟩

theorem imp {P' : α → τ → Prop} (hm : m.Carries R I t P) (h : ∀ a t', P a t' → P' a t') :
    m.Carries R I t P' := by
  intro s e s' hs hrun
  obtain ⟨t', hs', hP⟩ := hm s e s' hs hrun
  exact ⟨t', hs', fun a ha => h a t' (hP a ha)⟩

/-- What comes after a first part goes on from its scene. -/
theorem bind {f : α → Fiber σ β} (hm : m.Carries R I t P)
    (hf : ∀ a t', P a t' → (f a).Carries R I t' Q) : (m >>= f).Carries R I t Q := by
  intro s e s' hs hrun
  rcases run_bind.mp hrun with ⟨a, s₁, hfirst, hrest⟩ | ⟨c, rfl, hcut⟩
  · obtain ⟨t₁, hs₁, hP⟩ := hm _ _ _ hs hfirst
    exact hf a t₁ (hP a rfl) _ _ _ hs₁ hrest
  · obtain ⟨t', hs', -⟩ := hm _ _ _ hs hcut
    exact ⟨t', hs', by simp⟩

theorem modify_bind {f : σ → σ} {next : Unit → Fiber σ β} {t' : τ} (hf : ∀ s, I t s → I t' (f s))
    (h : (next ()).Carries R I t' Q) : (Fiber.modify f >>= next).Carries R I t Q :=
  fun s e s' hs hrun => h (f s) e s' (hf s hs) (run_modify_bind.mp hrun)

theorem gets_bind {f : σ → α} {next : α → Fiber σ β} (h : ∀ a, (next a).Carries R I t Q) :
    (gets f >>= next).Carries R I t Q :=
  fun s e s' hs hrun => h (f s) s e s' hs (run_gets_bind.mp hrun)

theorem modifyGet_bind {f : σ → α × σ} {next : α → Fiber σ β} (hf : ∀ s, I t s → I t (f s).2)
    (h : ∀ a, (next a).Carries R I t Q) : (modifyGet f >>= next).Carries R I t Q :=
  fun s e s' hs hrun => h (f s).1 (f s).2 e s' (hf s hs) (run_modifyGet_bind.mp hrun)

theorem guarded {onDrop onPanic : σ → σ} (hm : m.Carries R I t P)
    (hdrop : ∀ t s, I t s → I t (onDrop s)) (hpanic : ∀ t s, I t s → I t (onPanic s)) :
    (m.guarded onDrop onPanic).Carries R I t P := by
  intro s e s' hs hrun
  obtain ⟨s₁, hbody, rfl⟩ := run_guarded.mp hrun
  obtain ⟨t', hs₁, hP⟩ := hm _ _ _ hs hbody
  refine ⟨t', ?_, hP⟩
  cases e with
  | returned a => exact hs₁
  | cut c =>
    cases c with
    | unwound text => exact hpanic t' s₁ hs₁
    | dropped => exact hdrop t' s₁ hs₁

/-- What only others may do as well, and what keeps every scene, is of no account. -/
theorem of_stays (hI : ∀ t s s', R s s' → I t s → I t s') (hm : m.Stays R R) :
    m.Carries R I t fun _ t' => t' = t :=
  fun s e s' hs hrun => ⟨t, hI t s s' (hm s e s' hrun) hs, fun _ _ => rfl⟩

end Carries

end ClientRuntime.Fiber
