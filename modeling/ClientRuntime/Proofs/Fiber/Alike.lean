import ClientRuntime.Lock
import ClientRuntime.Proofs.Fiber.Crowd
import ClientRuntime.Proofs.Fiber.Journal

/-!
Two fibers that run side by side, each over a state of its own. They take their steps together, a
relation between the two states holds whenever they hand back control, and they come to related
ends. So two crowds whose members are alike, and who make the same moves, stay related for good.
-/

namespace ClientRuntime

variable {σ τ α β χ : Type}

def Ending.map (f : α → β) : Ending α → Ending β
  | returned a => returned (f a)
  | cut c => cut c

namespace Fiber

/-- From these two states on, `m` and `m'` take their steps together. Whenever they hand back
control the states are related by `R`; from any two states so related they are resumed together or
stay suspended together. However they end, they end together and as `ends` says. -/
inductive Alike (R : σ → σ → Prop) (ends : Ending α → Ending α → σ → σ → Prop) :
    Fiber σ α → σ → Fiber σ α → σ → Prop where
  | done {a a' : α} {s s' : σ} : ends (.returned a) (.returned a') s s' →
      Alike R ends (.done a) s (.done a') s'
  | panic {text : String} {s s' : σ} : ends (.cut (.unwound text)) (.cut (.unwound text)) s s' →
      Alike R ends (.panic text) s (.panic text) s'
  | read {next next' : σ → Fiber σ α} {s s' : σ} : Alike R ends (next s) s (next' s') s' →
      Alike R ends (.read next) s (.read next') s'
  | update {f f' : σ → σ} {next next' : Fiber σ α} {s s' : σ} :
      Alike R ends next (f s) next' (f' s') → Alike R ends (.update f next) s (.update f' next') s'
  | block {wake wake' : σ → Bool} {cleanup cleanup' : σ → σ} {next next' : Fiber σ α} {s s' : σ} :
      R s s' → (∀ u u', R u u' → wake u = wake' u') →
      (∀ u u', R u u' → ends (.cut .dropped) (.cut .dropped) (cleanup u) (cleanup' u')) →
      (∀ u u', R u u' → wake u = true → Alike R ends next u next' u') →
      Alike R ends (.block wake cleanup next) s (.block wake' cleanup' next') s'

/-- Two ends in related states, with the same value as far as `f` shows it. -/
inductive EndAlike (R : σ → σ → Prop) (f : α → β) : Ending α → Ending α → σ → σ → Prop where
  | returned {a a' : α} {s s' : σ} : R s s' → f a = f a' →
      EndAlike R f (.returned a) (.returned a') s s'
  | cut {c : Cut} {s s' : σ} : R s s' → EndAlike R f (.cut c) (.cut c) s s'

namespace Alike

variable {R : σ → σ → Prop} {ends : Ending α → Ending α → σ → σ → Prop} {s s' : σ}

theorem imp {ends' : Ending α → Ending α → σ → σ → Prop}
    (h : ∀ e e' s s', ends e e' s s' → ends' e e' s s') {m m' : Fiber σ α}
    (hm : Alike R ends m s m' s') : Alike R ends' m s m' s' := by
  induction hm with
  | done hends => exact .done (h _ _ _ _ hends)
  | panic hends => exact .panic (h _ _ _ _ hends)
  | read _ ih => exact .read ih
  | update _ ih => exact .update ih
  | block hR hwake hdrop _ ih =>
    exact .block hR hwake (fun u u' hu => h _ _ _ _ (hdrop u u' hu)) ih

/-- Two fibers go on after related values as they please, as long as they go on alike. -/
theorem bind {ends : Ending β → Ending β → σ → σ → Prop} {m m' : Fiber σ α}
    {k k' : α → Fiber σ β}
    (hm : Alike R (fun e e' s s' =>
      match e, e' with
      | .returned a, .returned a' => Alike R ends (k a) s (k' a') s'
      | .cut c, .cut c' => ends (.cut c) (.cut c') s s'
      | _, _ => False) m s m' s') : Alike R ends (m >>= k) s (m' >>= k') s' := by
  change Alike R ends (m.bind k) s (m'.bind k') s'
  induction hm with
  | done h => exact h
  | panic h => exact .panic h
  | read _ ih => exact .read ih
  | update _ ih => exact .update ih
  | block hR hwake hdrop _ ih => exact .block hR hwake hdrop ih

theorem pure {a a' : α} (h : ends (.returned a) (.returned a') s s') :
    Alike R ends (Pure.pure a) s (Pure.pure a') s' := .done h

theorem gets_bind {f f' : σ → β} {k k' : β → Fiber σ α}
    (h : Alike R ends (k (f s)) s (k' (f' s')) s') :
    Alike R ends (gets f >>= k) s (gets f' >>= k') s' := .read h

theorem modify_bind {f f' : σ → σ} {k k' : Unit → Fiber σ α}
    (h : Alike R ends (k ()) (f s) (k' ()) (f' s')) :
    Alike R ends (modify f >>= k) s (modify f' >>= k') s' := .update h

theorem modifyGet_bind {f f' : σ → β × σ} {k k' : β → Fiber σ α}
    (h : Alike R ends (k (f s).1) (f s).2 (k' (f' s').1) (f' s').2) :
    Alike R ends (modifyGet f >>= k) s (modifyGet f' >>= k') s' := .read (.update h)

theorem waitUntil {ends : Ending Unit → Ending Unit → σ → σ → Prop} {ready ready' : σ → Bool}
    (hR : R s s') (hready : ∀ u u', R u u' → ready u = ready' u')
    (hends : ∀ e u u', R u u' → ends e e u u') :
    Alike R ends (Fiber.waitUntil ready) s (Fiber.waitUntil ready') s' := by
  apply Alike.read
  rw [← hready s s' hR]
  split
  · exact .done (hends _ _ _ hR)
  · apply Alike.block hR hready
    · exact fun u u' hu => hends _ _ _ hu
    · exact fun u u' hu _ => .done (hends _ _ _ hu)

/-- Two guards that end what `ends` is about. -/
theorem guarded {onDrop onPanic onDrop' onPanic' : σ → σ} {m m' : Fiber σ α}
    (hm : Alike R (fun e e' s s' =>
      ends e e' (e.letGo onDrop onPanic s) (e'.letGo onDrop' onPanic' s')) m s m' s') :
    Alike R ends (m.guarded onDrop onPanic) s (m'.guarded onDrop' onPanic') s' := by
  induction hm with
  | done h => exact .done h
  | panic h => exact .update (.panic h)
  | read _ ih => exact .read ih
  | update _ ih => exact .update ih
  | block hR hwake hdrop _ ih => exact .block hR hwake hdrop ih

/-- Under one lock two bodies stay alike if drawing tickets and giving them up keeps the relation,
and related states have related locks. -/
theorem holding {lock : Lens σ Lock} {body body' : Fiber σ α} {f : α → β} (hs : R s s')
    (hlock : ∀ u u', R u u' → lock.get u = lock.get u')
    (hset : ∀ l u u', R u u' → R (lock.set l u) (lock.set l u'))
    (hbody : ∀ u u', R u u' → Alike R (EndAlike R f) body u body' u') :
    Alike R (EndAlike R f) (Lock.holding lock body) s (Lock.holding lock body') s' := by
  have hgive (t : Nat) (u u' : σ) (hu : R u u') :
      R (lock.modify (Lock.leave t) u) (lock.modify (Lock.leave t) u') := by
    unfold Lens.modify
    rw [← hlock u u' hu]
    exact hset _ _ _ hu
  unfold Lock.holding
  apply modifyGet_bind
  rw [← hlock s s' hs]
  apply guarded
  apply bind
  apply waitUntil (hset _ _ _ hs)
  · intro u u' hu
    rw [hlock u u' hu]
  · intro e u u' hu
    rcases e with _ | _ | _
    · apply bind
      apply (hbody u u' hu).imp
      intro e e' w w' hw
      cases hw with
      | returned hw hf => exact .update (.done (.returned (hgive _ _ _ hw) hf))
      | @cut c _ _ hw => cases c <;> exact .cut (hgive _ _ _ hw)
    · exact .cut (hgive _ _ _ hu)
    · exact .cut (hgive _ _ _ hu)

end Alike

/-- Every step of the fiber takes the state up in an order, others may move it in between. -/
def Ascends (le : τ → τ → Prop) : Fiber τ α → τ → Prop
  | done _, _ => True
  | panic _, _ => True
  | read next, t => (next t).Ascends le t
  | update f next, t => le t (f t) ∧ next.Ascends le (f t)
  | block wake cleanup next, _ => ∀ u, le u (cleanup u) ∧ (wake u = true → next.Ascends le u)

/-- A fiber that sees a part of the state goes on alike from any two states that agree on the part,
as long as the relation outlives the steps that it takes. -/
theorem Alike.along {l : Lens σ τ} {le : τ → τ → Prop} {R : σ → σ → Prop}
    {ends : Ending α → Ending α → σ → σ → Prop} (hpart : ∀ s s', R s s' → l.get s = l.get s')
    (hset : ∀ t s s', R s s' → le (l.get s) t → R (l.set t s) (l.set t s'))
    (hends : ∀ e s s', R s s' → ends e e s s') {m : Fiber τ α} {s s' : σ} (hs : R s s')
    (hm : m.Ascends le (l.get s)) : Alike R ends (m.along l) s (m.along l) s' := by
  have hmodify {f : τ → τ} {s s' : σ} (hs : R s s') (hf : le (l.get s) (f (l.get s))) :
      R (l.modify f s) (l.modify f s') := by
    unfold Lens.modify
    rw [← hpart s s' hs]
    exact hset _ _ _ hs hf
  induction m generalizing s s' with
  | done | panic => constructor; exact hends _ _ _ hs
  | read next ih =>
    apply Alike.read
    rw [← hpart s s' hs]
    exact ih _ hs hm
  | update f next ih =>
    apply Alike.update
    apply ih (hmodify hs hm.1)
    rw [l.get_modify]
    exact hm.2
  | block wake cleanup next ih =>
    apply Alike.block hs
    · intro u u' hu
      rw [hpart u u' hu]
    · exact fun u u' hu => hends _ _ _ (hmodify hu (hm _).1)
    · exact fun u u' hu hw => ih hu ((hm _).2 hw)

end Fiber

namespace Member

/-- Both are suspended and go on alike, or both have ended. -/
inductive Alike (R : σ → σ → Prop) (f : α → β) : Member σ α → Member σ α → Prop where
  | active {p p' : Paused σ α} : (∀ u u', R u u' → p.wake u = p'.wake u') →
      (∀ u u', R u u' → R (p.cleanup u) (p'.cleanup u')) →
      (∀ u u', R u u' → p.wake u = true →
        Fiber.Alike R (Fiber.EndAlike R f) p.next u p'.next u') → Alike R f (.active p) (.active p')
  | ended {e e' : Ending α} : e.map f = e'.map f → Alike R f (.ended e) (.ended e')

theorem Alike.start {R : σ → σ → Prop} {f : α → β} {m m' : Fiber σ α}
    (h : ∀ s s', R s s' → Fiber.Alike R (Fiber.EndAlike R f) m s m' s') :
    Alike R f (.active (.start m)) (.active (.start m')) :=
  .active (fun _ _ _ => rfl) (fun _ _ hu => hu) fun u u' hu _ => h u u' hu

end Member

theorem Fiber.Alike.poll {R : σ → σ → Prop} {f : α → β} {m m' : Fiber σ α} {s s' : σ}
    (h : Fiber.Alike R (Fiber.EndAlike R f) m s m' s') :
    (Member.ofOutcome ((Paused.start m).poll s).1).Alike R f
        (.ofOutcome ((Paused.start m').poll s').1) ∧
      R ((Paused.start m).poll s).2 ((Paused.start m').poll s').2 := by
  induction h with
  | done h =>
    obtain ⟨hR, hf⟩ | _ := h
    exact ⟨.ended (congrArg Ending.returned hf), hR⟩
  | panic h =>
    obtain _ | hR := h
    exact ⟨.ended rfl, hR⟩
  | read _ ih => exact ih
  | update _ ih => exact ih
  | block hR hwake hdrop hnext =>
    refine ⟨.active hwake (fun u u' hu => ?_) hnext, hR⟩
    obtain _ | hcut := hdrop u u' hu
    exact hcut

theorem Paused.poll_alike {R : σ → σ → Prop} {f : α → β} {p p' : Paused σ α} {s s' : σ}
    (h : Member.Alike R f (.active p) (.active p')) (hs : R s s') :
    (Member.ofOutcome (p.poll s).1).Alike R f (.ofOutcome (p'.poll s').1) ∧
      R (p.poll s).2 (p'.poll s').2 := by
  obtain ⟨hwake, hdrop, hnext⟩ | _ := h
  rw [p.poll_eq s, p'.poll_eq s', ← hwake s s' hs]
  split
  · exact (hnext s s' hs ‹_›).poll
  · exact ⟨.active hwake hdrop hnext, hs⟩

namespace Crowd

/-- The states are related and the members are alike, one by one. -/
structure Alike (R : σ → σ → Prop) (f : α → β) (c c' : Crowd σ α) : Prop where
  state : R c.state c'.state
  members : List.Forall₂ (Member.Alike R f) c.members c'.members

/-- What a move has to respect: whoever joins goes on alike in both crowds, and what others do
keeps the relation. -/
def Suits (R : σ → σ → Prop) (f : α → β) (program program' : Nat → χ → Fiber σ α) :
    Move χ σ → Prop
  | .join call => ∀ i s s', R s s' →
    Fiber.Alike R (Fiber.EndAlike R f) (program i call) s (program' i call) s'
  | .others g => ∀ s s', R s s' → R (g s) (g s')
  | _ => True

namespace Alike

variable {R : σ → σ → Prop} {f : α → β} {program program' : Nat → χ → Fiber σ α}
  {c c' : Crowd σ α}

theorem set (h : c.Alike R f c') (i : Nat) {m m' : Member σ α} (hm : m.Alike R f m') {s s' : σ}
    (hs : R s s') : Alike R f ⟨s, c.members.set i m⟩ ⟨s', c'.members.set i m'⟩ :=
  ⟨hs, forall₂_set h.members i hm⟩

theorem step (h : c.Alike R f c') {m : Move χ σ} (hm : Suits R f program program' m) :
    (c.step program m).Alike R f (c'.step program' m) := by
  cases m with
  | join call =>
    simp only [Crowd.step]
    rw [← h.members.length_eq]
    exact ⟨h.state, List.rel_append h.members (.cons (.start (hm _)) .nil)⟩
  | poll i =>
    simp only [Crowd.step]
    obtain ⟨hi, hi'⟩ | ⟨_, _, hi, hi', hmember⟩ := forall₂_place h.members i
    · simp only [hi, hi']
      exact h
    · cases hmember with
      | active hwake hdrop hnext =>
        simp only [hi, hi']
        have hpoll := Paused.poll_alike (.active hwake hdrop hnext) h.state
        exact h.set i hpoll.1 hpoll.2
      | ended =>
        simp only [hi, hi']
        exact h
  | drop i =>
    simp only [Crowd.step]
    obtain ⟨hi, hi'⟩ | ⟨_, _, hi, hi', hmember⟩ := forall₂_place h.members i
    · simp only [hi, hi']
      exact h
    · cases hmember with
      | active hwake hdrop hnext =>
        simp only [hi, hi']
        exact h.set i (.ended rfl) (hdrop _ _ h.state)
      | ended =>
        simp only [hi, hi']
        exact h
  | others g => exact ⟨hm _ _ h.state, h.members⟩

/-- Whatever the moves are, as long as each suits the relation, the crowds stay alike. -/
theorem run (h : c.Alike R f c') {moves : List (Move χ σ)}
    (hm : ∀ m ∈ moves, Suits R f program program' m) :
    (c.run program moves).Alike R f (c'.run program' moves) := by
  induction moves generalizing c c' with
  | nil => exact h
  | cons m moves ih =>
    rw [List.forall_mem_cons] at hm
    exact ih (h.step hm.1) hm.2

/-- Members that are alike come to the same, as far as `f` shows it. -/
theorem endings (h : c.Alike R f c') :
    c.endings.map (Option.map (Ending.map f)) = c'.endings.map (Option.map (Ending.map f)) := by
  have hmembers := h.members
  unfold Crowd.endings
  generalize c.members = ms at hmembers ⊢
  generalize c'.members = ms' at hmembers ⊢
  induction hmembers with
  | nil => rfl
  | cons hfirst _ ih =>
    simp only [List.map_cons, ih]
    cases hfirst with
    | active => rfl
    | ended he => simp only [Member.ending?, Option.map_some, he]

end Alike

/-- Nobody has joined yet. -/
theorem Alike.nobody {R : σ → σ → Prop} {f : α → β} {s s' : σ} (h : R s s') :
    Alike R f ⟨s, []⟩ ⟨s', []⟩ := ⟨h, .nil⟩

end Crowd

end ClientRuntime
