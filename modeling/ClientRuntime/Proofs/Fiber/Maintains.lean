import ClientRuntime.Proofs.Fiber.Crowd
import ClientRuntime.Proofs.Fiber.Polls

/-!
Fibers that maintain an invariant of the state with each of their steps, whatever others who
maintain it do in between, and whose values have a property.
-/

namespace ClientRuntime

variable {σ α β γ : Type}

namespace Fiber

/-- From a state in which `I` holds no step leads to one in which it does not, nor does dropping the
fiber; its value, if it ever has one, is as `P` says. -/
def Maintains (I : σ → Prop) (P : α → Prop) : Fiber σ α → Prop
  | done a => P a
  | panic _ => True
  | read next => ∀ s, I s → (next s).Maintains I P
  | update f next => (∀ s, I s → I (f s)) ∧ next.Maintains I P
  | block _ cleanup next => (∀ s, I s → I (cleanup s)) ∧ next.Maintains I P

namespace Maintains

variable {I : σ → Prop} {P : α → Prop} {Q : β → Prop}

theorem imp {P' : α → Prop} (h : ∀ a, P a → P' a) {m : Fiber σ α} (hm : m.Maintains I P) :
    m.Maintains I P' := by
  induction m with
  | done a => exact h a hm
  | panic => trivial
  | read next ih => exact fun s hs => ih s (hm s hs)
  | update f next ih => exact ⟨hm.1, ih hm.2⟩
  | block wake cleanup next ih => exact ⟨hm.1, ih hm.2⟩

theorem pure {a : α} (h : P a) : Maintains I P (Pure.pure a : Fiber σ α) := h

theorem bind {m : Fiber σ α} {k : α → Fiber σ β} (hm : m.Maintains I P)
    (hk : ∀ a, P a → (k a).Maintains I Q) : (m >>= k).Maintains I Q := by
  change (m.bind k).Maintains I Q
  induction m with
  | done a => exact hk a hm
  | panic => trivial
  | read next ih => exact fun s hs => ih s (hm s hs)
  | update f next ih => exact ⟨hm.1, ih hm.2⟩
  | block wake cleanup next ih => exact ⟨hm.1, ih hm.2⟩

theorem gets_bind {f : σ → α} {k : α → Fiber σ β} (h : ∀ a, (k a).Maintains I Q) :
    (gets f >>= k).Maintains I Q := fun _ _ => h _

theorem modify_bind {f : σ → σ} {k : Unit → Fiber σ β} (hf : ∀ s, I s → I (f s))
    (h : (k ()).Maintains I Q) : (modify f >>= k).Maintains I Q := ⟨hf, h⟩

theorem modifyGet_bind {f : σ → α × σ} {k : α → Fiber σ β} (hf : ∀ s, I s → I (f s).2)
    (h : ∀ a, (k a).Maintains I Q) : (modifyGet f >>= k).Maintains I Q :=
  fun s hs => ⟨fun _ _ => hf s hs, h _⟩

theorem waitUntil (ready : σ → Bool) {P : Unit → Prop} (h : P ()) :
    (Fiber.waitUntil ready).Maintains I P := by
  intro s _
  dsimp only
  split
  · exact h
  · exact ⟨fun _ hs => hs, h⟩

theorem giveUpLater {fired : σ → Bool} {instead m : Fiber σ α} (hinstead : instead.Maintains I P)
    (hm : m.Maintains I P) : (Fiber.giveUpLater fired instead m).Maintains I P := by
  induction m with
  | done | panic => exact hm
  | read next ih => exact fun s hs => ih s (hm s hs)
  | update f next ih => exact ⟨hm.1, ih hm.2⟩
  | block wake cleanup next ih =>
    refine ⟨hm.1, fun s _ => ?_⟩
    dsimp only
    split
    · exact ⟨hm.1, hinstead⟩
    · exact ih hm.2

theorem giveUpWhen {fired : σ → Bool} {instead m : Fiber σ α} (hinstead : instead.Maintains I P)
    (hm : m.Maintains I P) : (Fiber.giveUpWhen fired instead m).Maintains I P := by
  intro s _
  dsimp only
  split
  · exact hinstead
  · exact giveUpLater hinstead hm

/-- Who leaves alone what an invariant is about maintains it. -/
theorem of_leaves {view : σ → γ} (hI : ∀ s s', view s' = view s → I s → I s') {m : Fiber σ α}
    (hm : m.Leaves view) : m.Maintains I fun _ => True := by
  induction m with
  | done | panic => trivial
  | read next ih => exact fun s _ => ih s (hm s)
  | update f next ih => exact ⟨fun s hs => hI s _ (hm.1 s) hs, ih hm.2⟩
  | block wake cleanup next ih => exact ⟨fun s hs => hI s _ (hm.1 s) hs, ih hm.2⟩

/-- There is nothing to maintain. -/
theorem of_true (m : Fiber σ α) : m.Maintains (fun _ => True) fun _ => True := by
  induction m with
  | done | panic => trivial
  | read next ih => exact fun s _ => ih s
  | update f next ih => exact ⟨fun _ _ => trivial, ih⟩
  | block wake cleanup next ih => exact ⟨fun _ _ => trivial, ih⟩

/-- Who maintains an invariant in each round maintains it in any number of them. -/
theorem rounds {round : Fiber σ (Option α)} (h : round.Maintains I fun o => ∀ a ∈ o, P a)
    (n : Nat) : (round.rounds n).Maintains I P := by
  induction n with
  | zero => exact ⟨fun _ hs => hs, trivial⟩
  | succ n ih =>
    refine h.bind fun o ho => ?_
    cases o with
    | none => exact ih
    | some a => exact ho a rfl

end Maintains

end Fiber

/-- A suspended fiber that maintains an invariant, resumed or dropped. -/
structure Paused.Maintains (I : σ → Prop) (P : α → Prop) (p : Paused σ α) : Prop where
  cleanup : ∀ s, I s → I (p.cleanup s)
  next : p.next.Maintains I P

/-- What polling a fiber that maintains an invariant comes to. -/
def Paused.Outcome.Maintains (I : σ → Prop) (P : α → Prop) : Paused.Outcome σ α → Prop
  | .ready a => P a
  | .panicked _ => True
  | .pending p => p.Maintains I P

variable {I : σ → Prop} {P : α → Prop}

theorem Paused.Maintains.start {m : Fiber σ α} (hm : m.Maintains I P) :
    (Paused.start m).Maintains I P :=
  ⟨fun _ hs => hs, hm⟩

theorem Fiber.Maintains.poll {m : Fiber σ α} (hm : m.Maintains I P) {s : σ} (hs : I s) :
    ((Paused.start m).poll s).1.Maintains I P ∧ I ((Paused.start m).poll s).2 := by
  induction m generalizing s with
  | done a => exact ⟨hm, hs⟩
  | panic => exact ⟨trivial, hs⟩
  | read next ih => exact ih s (hm s hs) hs
  | update f next ih => exact ih hm.2 (hm.1 s hs)
  | block wake cleanup next => exact ⟨⟨hm.1, hm.2⟩, hs⟩

theorem Paused.Maintains.poll {p : Paused σ α} (hp : p.Maintains I P) {s : σ} (hs : I s) :
    (p.poll s).1.Maintains I P ∧ I (p.poll s).2 := by
  rw [p.poll_eq s]
  split
  · exact hp.next.poll hs
  · exact ⟨hp, hs⟩

end ClientRuntime
