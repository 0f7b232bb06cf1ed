import ClientRuntime.Proofs.Fiber.Crowd
import ClientRuntime.Proofs.Fiber.Polls

/-!
What a poll costs. The steps of a fiber may have a price; a fiber pays for what it answers if the
prices of its steps, from one time that it hands back control to the next, come to what its answer
says, and to nothing where it only waits.
-/

namespace ClientRuntime

variable {σ α β γ : Type}

namespace Fiber

/-- The steps up to the next suspension point: the states that are changed, each with what it is
changed to. -/
def steps : Fiber σ α → σ → List (σ × σ)
  | done _, _ => []
  | panic _, _ => []
  | read next, s => (next s).steps s
  | update f next, s => (s, f s) :: next.steps (f s)
  | block _ _ _, _ => []

/-- From this state on, with something paid since the fiber was last resumed, each step has a price
that `T` allows. Nothing is paid for a suspension or for an unwinding, and `P` says what is paid for
a value. The fiber may be resumed in any state; dropping it leaves `view` alone. -/
def Pays (view : σ → γ) (T : σ → Nat → σ → Prop) (P : α → Nat → Prop) : Fiber σ α → Nat → σ → Prop
  | done a, paid, _ => P a paid
  | panic _, paid, _ => paid = 0
  | read next, paid, s => (next s).Pays view T P paid s
  | update f next, paid, s => ∃ price, T s price (f s) ∧ next.Pays view T P (paid + price) (f s)
  | block wake cleanup next, paid, _ =>
    paid = 0 ∧ ∀ u, view (cleanup u) = view u ∧ (wake u = true → next.Pays view T P 0 u)

/-- What is paid by a fiber that only waits. -/
def Free (_ : α) (paid : Nat) : Prop := paid = 0

namespace Pays

variable {view : σ → γ} {T : σ → Nat → σ → Prop} {P : β → Nat → Prop} {paid : Nat} {s : σ}

theorem pure {b : β} (h : P b paid) : Pays view T P (Pure.pure b) paid s := h

/-- What comes after a part goes on from what that has paid. -/
theorem bind {Q : α → Nat → Prop} {m : Fiber σ α} {k : α → Fiber σ β}
    (hm : m.Pays view T Q paid s) (hk : ∀ a paid s, Q a paid → (k a).Pays view T P paid s) :
    (m >>= k).Pays view T P paid s := by
  change (m.bind k).Pays view T P paid s
  induction m generalizing paid s with
  | done a => exact hk a paid s hm
  | panic => exact hm
  | read next ih => exact ih s hm
  | update f next ih =>
    obtain ⟨price, hprice, hnext⟩ := hm
    exact ⟨price, hprice, ih hnext⟩
  | block wake cleanup next ih =>
    exact ⟨hm.1, fun u => ⟨(hm.2 u).1, fun hwake => ih ((hm.2 u).2 hwake)⟩⟩

theorem gets_bind {f : σ → α} {k : α → Fiber σ β} (h : (k (f s)).Pays view T P paid s) :
    (gets f >>= k).Pays view T P paid s := h

theorem modify_bind {f : σ → σ} {k : Unit → Fiber σ β} (hf : T s 0 (f s))
    (h : (k ()).Pays view T P paid (f s)) : (modify f >>= k).Pays view T P paid s := ⟨0, hf, h⟩

theorem modifyGet_bind {f : σ → α × σ} {k : α → Fiber σ β} (price : Nat)
    (hf : T s price (f s).2) (h : (k (f s).1).Pays view T P (paid + price) (f s).2) :
    (modifyGet f >>= k).Pays view T P paid s := ⟨price, hf, h⟩

/-- Rounds without an answer are to pay nothing. -/
theorem rounds {round : Fiber σ (Option β)}
    (h : ∀ s, round.Pays view T (fun o paid => o.elim (paid = 0) fun b => P b paid) 0 s) (n : Nat)
    (s : σ) : (round.rounds n).Pays view T P 0 s := by
  induction n generalizing s with
  | zero => exact ⟨rfl, fun u => ⟨rfl, fun hwake => by cases hwake⟩⟩
  | succ n ih =>
    refine (h s).bind fun o paid s ho => ?_
    cases o with
    | none =>
      obtain rfl : paid = 0 := ho
      exact ih s
    | some b => exact ho

theorem waitUntil (ready : σ → Bool) :
    (Fiber.waitUntil ready).Pays view T Free 0 s := by
  unfold Fiber.waitUntil Pays
  dsimp only
  split
  · exact Eq.refl 0
  · exact ⟨rfl, fun u => ⟨rfl, fun _ => Eq.refl 0⟩⟩

theorem giveUpLater (hT : ∀ u u', view u' = view u → T u 0 u') {fired : σ → Bool}
    {m : Fiber σ Unit} (hm : m.Pays view T Free paid s) :
    (Fiber.giveUpLater fired (return ()) m).Pays view T Free paid s := by
  induction m generalizing paid s with
  | done | panic => exact hm
  | read next ih => exact ih s hm
  | update f next ih =>
    obtain ⟨price, hprice, hnext⟩ := hm
    exact ⟨price, hprice, ih hnext⟩
  | block wake cleanup next ih =>
    refine ⟨hm.1, fun u => ⟨(hm.2 u).1, fun hwake => ?_⟩⟩
    change Pays view T Free (if fired u = true then _ else _) 0 u
    by_cases hfired : fired u = true
    · rw [if_pos hfired]
      exact ⟨0, hT u _ (hm.2 u).1, Eq.refl 0⟩
    · rw [if_neg hfired]
      exact ih ((hm.2 u).2 (by simpa [hfired] using hwake))

theorem giveUpWhen (hT : ∀ u u', view u' = view u → T u 0 u') {fired : σ → Bool}
    {m : Fiber σ Unit} (hm : ∀ s, m.Pays view T Free 0 s) :
    (Fiber.giveUpWhen fired (return ()) m).Pays view T Free 0 s := by
  unfold Fiber.giveUpWhen Pays
  dsimp only
  split
  · exact Eq.refl 0
  · exact giveUpLater hT (hm s)

/-- Who leaves alone what the prices are about pays nothing. -/
theorem of_leaves (hT : ∀ u u', view u' = view u → T u 0 u') {m : Fiber σ α}
    (hm : m.Leaves view) (s : σ) : m.Pays view T Free 0 s := by
  induction m generalizing s with
  | done | panic => exact Eq.refl 0
  | read next ih => exact ih s (hm s) s
  | update f next ih => exact ⟨0, hT s _ (hm.1 s), ih hm.2 (f s)⟩
  | block wake cleanup next ih => exact ⟨rfl, fun u => ⟨hm.1 u, fun _ => ih hm.2 u⟩⟩

end Pays

end Fiber

namespace Paused

/-- The steps of the next poll. -/
def steps (p : Paused σ α) (s : σ) : List (σ × σ) := if p.wake s then p.next.steps s else []

/-- A suspended fiber that pays from here on, resumed or dropped in any state. -/
def Pays (view : σ → γ) (T : σ → Nat → σ → Prop) (P : α → Nat → Prop) (p : Paused σ α) : Prop :=
  ∀ u, view (p.cleanup u) = view u ∧ (p.wake u = true → p.next.Pays view T P 0 u)

variable {view : σ → γ} {T : σ → Nat → σ → Prop} {P : α → Nat → Prop}

theorem Pays.start {m : Fiber σ α} (hm : ∀ s, m.Pays view T P 0 s) :
    (Paused.start m).Pays view T P :=
  fun u => ⟨rfl, fun _ => hm u⟩

/-- What a poll comes to when it has a balance `Q` to keep, of what was paid and the state. -/
def Outcome.Settles (view : σ → γ) (T : σ → Nat → σ → Prop) (P : α → Nat → Prop)
    (Q : Nat → σ → Prop) :
    Outcome σ α × σ → Prop
  | (.ready a, s) => ∃ paid, P a paid ∧ Q paid s
  | (.panicked _, s) => Q 0 s
  | (.pending p, s) => p.Pays view T P ∧ Q 0 s

end Paused

/-- A balance that each step of a poll keeps at its price is kept by the poll. -/
theorem Fiber.Pays.poll {view : σ → γ} {T : σ → Nat → σ → Prop} {P : α → Nat → Prop}
    {Q : Nat → σ → Prop}
    {m : Fiber σ α} {paid : Nat} {s : σ} (hm : m.Pays view T P paid s) (hs : Q paid s)
    (hstep : ∀ e ∈ m.steps s, ∀ paid price, T e.1 price e.2 → Q paid e.1 → Q (paid + price) e.2) :
    Paused.Outcome.Settles view T P Q ((Paused.start m).poll s) := by
  induction m generalizing paid s with
  | done a => exact ⟨paid, hm, hs⟩
  | panic =>
    obtain rfl : paid = 0 := hm
    exact hs
  | read next ih => exact ih s hm hs hstep
  | update f next ih =>
    obtain ⟨price, hprice, hnext⟩ := hm
    obtain ⟨hfirst, hrest⟩ := List.forall_mem_cons.mp hstep
    exact ih hnext (hfirst paid price hprice hs) hrest
  | block wake cleanup next =>
    obtain ⟨rfl, hresume⟩ := hm
    exact ⟨hresume, hs⟩

theorem Paused.Pays.poll {view : σ → γ} {T : σ → Nat → σ → Prop} {P : α → Nat → Prop}
    {Q : Nat → σ → Prop}
    {p : Paused σ α} {s : σ} (hp : p.Pays view T P) (hs : Q 0 s)
    (hstep : ∀ e ∈ p.steps s, ∀ paid price, T e.1 price e.2 → Q paid e.1 → Q (paid + price) e.2) :
    Outcome.Settles view T P Q (p.poll s) := by
  rw [p.poll_eq s]
  unfold steps at hstep
  split
  · rename_i hwake
    rw [if_pos hwake] at hstep
    exact ((hp s).2 hwake).poll hs hstep
  · exact ⟨hp, hs⟩

end ClientRuntime
