import ClientRuntime.Fiber.Control
import ClientRuntime.Proofs.Fiber.Alike
import ClientRuntime.Proofs.Fiber.While

/-!
Fibers that do not see everything. Started in two states that look the same to it, such a fiber
takes the same steps in both, and comes to the same.
-/

namespace ClientRuntime.Fiber

variable {σ τ α β : Type} {R : σ → σ → Prop} {P : α → Prop} {Q : β → Prop}

/-- Two ends that are the same, in states that look the same. Values are as `P` says. -/
inductive EndSame (R : σ → σ → Prop) (P : α → Prop) : Ending α → Ending α → σ → σ → Prop where
  | returned {a : α} {s s' : σ} : R s s' → P a → EndSame R P (.returned a) (.returned a) s s'
  | cut {c : Cut} {s s' : σ} : R s s' → EndSame R P (.cut c) (.cut c) s s'

/-- The fiber goes on alike from any two states that `R` says look the same to it. -/
def Blind (R : σ → σ → Prop) (P : α → Prop) (m : Fiber σ α) : Prop :=
  ∀ s s', R s s' → Alike R (EndSame R P) m s m s'

theorem Alike.endAlike {m m' : Fiber σ α} {s s' : σ} (h : Alike R (EndSame R P) m s m' s') :
    Alike R (EndAlike R fun a => a) m s m' s' := by
  refine h.imp fun e e' u u' hends => ?_
  cases hends with
  | returned hu => exact .returned hu rfl
  | cut hu => exact .cut hu

/-- This is to go on alike whatever the steps are. -/
theorem alike_iff_alikeWhile {m m' : Fiber σ α} {s s' : σ} :
    Alike R (EndSame R P) m s m' s' ↔ AlikeWhile (fun _ _ => True) R P m s m' s' := by
  constructor
  · intro h
    induction h with
    | done h =>
      obtain ⟨hs, ha⟩ | _ := h
      exact .done hs ha
    | panic h =>
      cases h with
      | cut hs => exact .panic hs
    | read _ ih => exact .read ih
    | update _ ih => exact .update fun _ => ih
    | block hs hwake hdrop _ ih =>
      apply AlikeWhile.block hs hwake _ ih
      intro u u' hu _
      cases hdrop u u' hu with
      | cut hcleaned => exact hcleaned
  · intro h
    induction h with
    | done hs ha => exact .done (.returned hs ha)
    | panic hs => exact .panic (.cut hs)
    | read _ ih => exact .read ih
    | update _ ih => exact .update (ih trivial)
    | block hs hwake hdrop _ ih =>
      exact .block hs hwake (fun u u' hu => .cut (hdrop u u' hu trivial)) ih

theorem blind_iff_blindWhile {m : Fiber σ α} :
    m.Blind R P ↔ m.BlindWhile (fun _ _ => True) R P :=
  forall₃_congr fun _ _ _ => alike_iff_alikeWhile

namespace Blind

theorem imp {P' : α → Prop} {m : Fiber σ α} (hm : m.Blind R P) (h : ∀ a, P a → P' a) :
    m.Blind R P' := by
  refine fun s s' hs => (hm s s' hs).imp fun e e' u u' hends => ?_
  cases hends with
  | returned hu ha => exact .returned hu (h _ ha)
  | cut hu => exact .cut hu

theorem pure {a : α} (ha : P a) : (Pure.pure a : Fiber σ α).Blind R P :=
  blind_iff_blindWhile.mpr (.pure ha)

theorem bind {m : Fiber σ α} {k : α → Fiber σ β} (hm : m.Blind R P)
    (hk : ∀ a, P a → (k a).Blind R Q) : (m >>= k).Blind R Q := by
  rw [blind_iff_blindWhile] at hm ⊢
  exact hm.bind fun a ha => blind_iff_blindWhile.mp (hk a ha)

theorem gets {f : σ → α} (hf : ∀ s s', R s s' → f s = f s') (hP : ∀ s, P (f s)) :
    (Fiber.gets f).Blind R P :=
  blind_iff_blindWhile.mpr (.gets hf hP)

theorem modify {f : σ → σ} (hf : ∀ s s', R s s' → R (f s) (f s')) :
    (Fiber.modify f).Blind R fun _ => True :=
  blind_iff_blindWhile.mpr (.modify hf)

theorem modifyGet {f : σ → α × σ} (hvalue : ∀ s s', R s s' → (f s).1 = (f s').1)
    (hf : ∀ s s', R s s' → R (f s).2 (f s').2) (hP : ∀ s, P (f s).1) :
    (Fiber.modifyGet f).Blind R P :=
  blind_iff_blindWhile.mpr (.modifyGet hvalue hf hP)

theorem hang : (Fiber.hang : Fiber σ α).Blind R P := blind_iff_blindWhile.mpr .hang

theorem suspend : (Fiber.suspend : Fiber σ Unit).Blind R fun _ => True := by
  intro s s' hs
  refine .block hs (fun _ _ _ => rfl) (fun _ _ hu => .cut hu) fun _ _ hu _ => ?_
  exact .done (.returned hu trivial)

theorem waitUntil {ready : σ → Bool} (h : ∀ s s', R s s' → ready s = ready s') :
    (Fiber.waitUntil ready).Blind R fun _ => True :=
  blind_iff_blindWhile.mpr (.waitUntil h)

theorem guarded {onDrop onPanic : σ → σ} {m : Fiber σ α} (hm : m.Blind R P)
    (hdrop : ∀ s s', R s s' → R (onDrop s) (onDrop s'))
    (hpanic : ∀ s s', R s s' → R (onPanic s) (onPanic s')) :
    (m.guarded onDrop onPanic).Blind R P := by
  refine fun s s' hs => .guarded ((hm s s' hs).imp fun e e' u u' hends => ?_)
  cases hends with
  | returned hu ha => exact .returned hu ha
  | @cut c _ _ hu =>
    cases c with
    | dropped => exact .cut (hdrop _ _ hu)
    | unwound => exact .cut (hpanic _ _ hu)

theorem giveUpWhen {fired : σ → Bool} {instead m : Fiber σ α}
    (hfired : ∀ s s', R s s' → fired s = fired s') (hinstead : instead.Blind R P)
    (hm : m.Blind R P) : (Fiber.giveUpWhen fired instead m).Blind R P := by
  rw [blind_iff_blindWhile] at hinstead hm ⊢
  exact .giveUpWhen hfired hinstead hm

theorem rounds {round : Fiber σ (Option α)} (h : round.Blind R fun o => ∀ a ∈ o, P a)
    (n : Nat) : (round.rounds n).Blind R P := by
  rw [blind_iff_blindWhile] at h ⊢
  exact h.rounds n

/-- A fiber that is run in a part of the state sees no more of it than by itself, if the rest is
known to look the same. -/
theorem along {l : Lens σ τ} {R' : τ → τ → Prop}
    (hget : ∀ s s', R s s' → R' (l.get s) (l.get s'))
    (hset : ∀ s s' t t', R s s' → R' t t' → R (l.set t s) (l.set t' s')) {m : Fiber τ α}
    (hm : m.Blind R' P) : (m.along l).Blind R P := by
  -- While the fiber is under way only the rests of the states are known to look the same.
  have inside {m m' : Fiber τ α} {t t' : τ} (h : Alike R' (EndSame R' P) m t m' t') :
      ∀ s s', l.get s = t → l.get s' = t' → (∀ t t', R' t t' → R (l.set t s) (l.set t' s')) →
        Alike R (EndSame R P) (m.along l) s (m'.along l) s' := by
    have whole {s s' : σ} (hrest : ∀ t t', R' t t' → R (l.set t s) (l.set t' s'))
        (h : R' (l.get s) (l.get s')) : R s s' := by simpa only [l.set_get] using hrest _ _ h
    induction h with
    | done h =>
      rintro s s' rfl rfl hrest
      obtain ⟨ht, ha⟩ | _ := h
      exact .done (.returned (whole hrest ht) ha)
    | panic h =>
      rintro s s' rfl rfl hrest
      cases h with
      | cut ht => exact .panic (.cut (whole hrest ht))
    | read _ ih =>
      rintro s s' rfl rfl hrest
      exact .read (ih s s' rfl rfl hrest)
    | update _ ih =>
      rintro s s' rfl rfl hrest
      refine .update (ih _ _ (l.get_modify _ s) (l.get_modify _ s') fun t t' ht => ?_)
      simpa only [Lens.modify, l.set_set] using hrest t t' ht
    | block ht hwake hdrop _ ih =>
      rintro s s' rfl rfl hrest
      refine .block (whole hrest ht) (fun u u' hu => hwake _ _ (hget u u' hu))
        (fun u u' hu => ?_) fun u u' hu hw => ?_
      · cases hdrop _ _ (hget u u' hu) with
        | cut hcleaned => exact .cut (hset u u' _ _ hu hcleaned)
      · exact ih _ _ (hget u u' hu) hw u u' rfl rfl fun t t' => hset u u' t t' hu
  exact fun s s' hs => inside (hm _ _ (hget s s' hs)) s s' rfl rfl fun t t' => hset s s' t t' hs

end Blind

end ClientRuntime.Fiber
