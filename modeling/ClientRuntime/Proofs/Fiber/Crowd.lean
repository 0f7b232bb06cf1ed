import Mathlib.Data.List.Forall2
import Mathlib.Logic.Function.Basic
import ClientRuntime.Proofs.Fiber.Polls
import ClientRuntime.Proofs.Fiber.Run

/-!
Crowds: fibers that share a state and are polled and dropped in any order, while others who are
not among them may change the state too. What a crowd keeps is shown from what each member does
between two suspension points. Every member is in a phase of its own, and an invariant ties the
phases of all members to the state; a member may rely on it whenever it is resumed or dropped, and
has to see to it whenever it hands back control.
-/

namespace ClientRuntime

variable {σ α β χ Φ γ : Type}

section Places

variable {R : α → β → Prop} {as : List α} {bs : List β}

theorem forall_mem_set {P : α → Prop} (h : ∀ a ∈ as, P a) (i : Nat) {a : α} (ha : P a) :
    ∀ a' ∈ as.set i a, P a' := by
  intro a' ha'
  rcases List.mem_or_eq_of_mem_set ha' with hmem | rfl
  · exact h a' hmem
  · exact ha

/-- A place is empty in both lists, or two elements stand there that are related. -/
theorem forall₂_place (h : List.Forall₂ R as bs) (i : Nat) :
    as[i]? = none ∧ bs[i]? = none ∨ ∃ a b, as[i]? = some a ∧ bs[i]? = some b ∧ R a b := by
  obtain ⟨hlength, hm⟩ := List.forall₂_iff_get.mp h
  by_cases hi : i < as.length
  · have hi' : i < bs.length := by omega
    exact .inr ⟨_, _, List.getElem?_eq_getElem hi, List.getElem?_eq_getElem hi', hm i hi hi'⟩
  · exact .inl ⟨List.getElem?_eq_none (by omega), List.getElem?_eq_none (by omega)⟩

theorem forall₂_set (h : List.Forall₂ R as bs) (i : Nat) {a : α} {b : β} (hab : R a b) :
    List.Forall₂ R (as.set i a) (bs.set i b) := by
  induction h generalizing i with
  | nil => exact .nil
  | cons hfirst hrest ih =>
    cases i with
    | zero => exact .cons hab hrest
    | succ i => exact .cons hfirst (ih i)

end Places

inductive Member (σ α : Type) where
  | active (p : Paused σ α)
  | ended (e : Ending α)

structure Crowd (σ α : Type) where
  state : σ
  members : List (Member σ α)

/-- What may happen next. Members are named by their place in the order of joining. -/
inductive Move (χ σ : Type) where
  | join (call : χ)
  | poll (i : Nat)
  | drop (i : Nat)
  | others (f : σ → σ)

namespace Member

def ofOutcome : Paused.Outcome σ α → Member σ α
  | .ready a => .ended (.returned a)
  | .panicked text => .ended (.cut (.unwound text))
  | .pending p => .active p

def ending? : Member σ α → Option (Ending α)
  | .active _ => none
  | .ended e => some e

end Member

namespace Crowd

/-- One move, where `program i call` is what the member `i` does for a call. Members that have ended
are neither polled nor dropped. -/
def step (program : Nat → χ → Fiber σ α) (c : Crowd σ α) : Move χ σ → Crowd σ α
  | .join call =>
    { c with members := c.members ++ [.active (.start (program c.members.length call))] }
  | .poll i =>
    match c.members[i]? with
    | some (.active p) =>
      let (outcome, s) := p.poll c.state
      ⟨s, c.members.set i (.ofOutcome outcome)⟩
    | _ => c
  | .drop i =>
    match c.members[i]? with
    | some (.active p) => ⟨p.drop c.state, c.members.set i (.ended (.cut .dropped))⟩
    | _ => c
  | .others f => { c with state := f c.state }

def run (program : Nat → χ → Fiber σ α) (moves : List (Move χ σ)) (c : Crowd σ α) :
    Crowd σ α :=
  moves.foldl (step program) c

def endings (c : Crowd σ α) : List (Option (Ending α)) := c.members.map (·.ending?)

end Crowd

namespace Fiber

/-- From this state, until it ends, member `i` hands back control only in a phase in which the
invariant holds; it ends as `ends` says, if others keep the invariant and leave its phase alone. -/
def Keeps (I : (Nat → Φ) → σ → Prop) (i : Nat) (ends : Ending α → (Nat → Φ) → σ → Prop) :
    Fiber σ α → (Nat → Φ) → σ → Prop
  | done a, phases, s => ends (.returned a) phases s
  | panic text, phases, s => ends (.cut (.unwound text)) phases s
  | read next, phases, s => (next s).Keeps I i ends phases s
  | update f next, phases, s => next.Keeps I i ends phases (f s)
  | block wake cleanup next, phases, s =>
    ∃ φ, I (Function.update phases i φ) s ∧ ∀ phases' s', phases' i = φ → I phases' s' →
      ends (.cut .dropped) phases' (cleanup s') ∧
        (wake s' = true → next.Keeps I i ends phases' s')

namespace Keeps

variable {I : (Nat → Φ) → σ → Prop} {i : Nat} {phases : Nat → Φ} {s : σ}

theorem imp {ends ends' : Ending α → (Nat → Φ) → σ → Prop}
    (h : ∀ e phases s, ends e phases s → ends' e phases s) {m : Fiber σ α}
    (hm : m.Keeps I i ends phases s) : m.Keeps I i ends' phases s := by
  induction m generalizing phases s with
  | done | panic => exact h _ _ _ hm
  | read next ih => exact ih s hm
  | update f next ih => exact ih hm
  | block wake cleanup next ih =>
    obtain ⟨φ, hI, hnext⟩ := hm
    refine ⟨φ, hI, fun phases' s' hφ hI' => ?_⟩
    obtain ⟨hdrop, hresume⟩ := hnext phases' s' hφ hI'
    exact ⟨h _ _ _ hdrop, fun hw => ih (hresume hw)⟩

theorem gets_bind {ends : Ending β → (Nat → Φ) → σ → Prop} {f : σ → α} {k : α → Fiber σ β}
    (h : (k (f s)).Keeps I i ends phases s) : (gets f >>= k).Keeps I i ends phases s := h

theorem modify_bind {ends : Ending β → (Nat → Φ) → σ → Prop} {f : σ → σ} {k : Unit → Fiber σ β}
    (h : (k ()).Keeps I i ends phases (f s)) : (modify f >>= k).Keeps I i ends phases s := h

/-- What comes after a first part goes on where that has returned. -/
theorem bind {ends : Ending β → (Nat → Φ) → σ → Prop} {m : Fiber σ α} {k : α → Fiber σ β}
    (hm : m.Keeps I i (fun e phases s =>
      match e with
      | .returned a => (k a).Keeps I i ends phases s
      | .cut c => ends (.cut c) phases s) phases s) : (m >>= k).Keeps I i ends phases s := by
  change (m.bind k).Keeps I i ends phases s
  induction m generalizing phases s with
  | done | panic => exact hm
  | read next ih => exact ih s hm
  | update f next ih => exact ih hm
  | block wake cleanup next ih =>
    obtain ⟨φ, hI, hnext⟩ := hm
    refine ⟨φ, hI, fun phases' s' hφ hI' => ?_⟩
    obtain ⟨hdrop, hresume⟩ := hnext phases' s' hφ hI'
    exact ⟨hdrop, fun hw => ih (hresume hw)⟩

theorem guarded {ends : Ending α → (Nat → Φ) → σ → Prop} {onDrop onPanic : σ → σ} {m : Fiber σ α}
    (hm : m.Keeps I i (fun e phases s => ends e phases (e.letGo onDrop onPanic s)) phases s) :
    (m.guarded onDrop onPanic).Keeps I i ends phases s := by
  induction m generalizing phases s with
  | done | panic => exact hm
  | read next ih => exact ih s hm
  | update f next ih => exact ih hm
  | block wake cleanup next ih =>
    obtain ⟨φ, hI, hnext⟩ := hm
    refine ⟨φ, hI, fun phases' s' hφ hI' => ?_⟩
    obtain ⟨hdrop, hresume⟩ := hnext phases' s' hφ hI'
    exact ⟨hdrop, fun hw => ih (hresume hw)⟩

/-- Waiting is a phase of its own, unless it is over before it begins. -/
theorem waitUntil {ends : Ending Unit → (Nat → Φ) → σ → Prop} {ready : σ → Bool} (φ : Φ)
    (hnow : ready s = true → ends (.returned ()) phases s)
    (hwait : ready s = false → I (Function.update phases i φ) s)
    (hlater : ∀ phases' s', phases' i = φ → I phases' s' →
      ends (.cut .dropped) phases' s' ∧ (ready s' = true → ends (.returned ()) phases' s')) :
    (Fiber.waitUntil ready).Keeps I i ends phases s := by
  change Fiber.Keeps I i ends (if ready s then .done () else .block ready id (.done ())) phases s
  by_cases h : ready s = true
  · rw [if_pos h]
    exact hnow h
  · rw [if_neg h]
    exact ⟨φ, hwait (by simpa using h), hlater⟩

/-- What one poll comes to. -/
theorem poll {ends : Ending α → (Nat → Φ) → σ → Prop} {m : Fiber σ α}
    (hm : m.Keeps I i ends phases s) :
    match m.poll s with
    | (.ready a, s') => ends (.returned a) phases s'
    | (.panicked text, s') => ends (.cut (.unwound text)) phases s'
    | (.pending wake cleanup next, s') =>
      (Fiber.block wake cleanup next).Keeps I i ends phases s' := by
  induction m generalizing s with
  | done | panic | block => exact hm
  | read next ih => exact ih s hm
  | update f next ih => exact ih hm

end Keeps

/-- No step of the fiber changes what is seen of the state. -/
def Leaves (view : σ → γ) : Fiber σ α → Prop
  | done _ => True
  | panic _ => True
  | read next => ∀ s, (next s).Leaves view
  | update f next => (∀ s, view (f s) = view s) ∧ next.Leaves view
  | block _ cleanup next => (∀ s, view (cleanup s) = view s) ∧ next.Leaves view

/-- A fiber that leaves alone what an assertion is about stays in one phase. -/
theorem Leaves.keeps {view : σ → γ} {I : (Nat → Φ) → σ → Prop} {i : Nat}
    {A : (Nat → Φ) → σ → Prop} {ends : Ending α → (Nat → Φ) → σ → Prop}
    (hA : ∀ phases s s', view s' = view s → A phases s → A phases s')
    (hstay : ∀ phases s, A phases s → ∃ φ, I (Function.update phases i φ) s ∧
      ∀ phases' s', phases' i = φ → I phases' s' → A phases' s')
    (hends : ∀ e phases s, A phases s → ends e phases s) {m : Fiber σ α} (hm : m.Leaves view)
    {phases : Nat → Φ} {s : σ} (hs : A phases s) : m.Keeps I i ends phases s := by
  induction m generalizing phases s with
  | done | panic => exact hends _ _ _ hs
  | read next ih => exact ih s (hm s) hs
  | update f next ih => exact ih hm.2 (hA _ _ _ (hm.1 s) hs)
  | block wake cleanup next ih =>
    obtain ⟨φ, hI, hback⟩ := hstay phases s hs
    refine ⟨φ, hI, fun phases' s' hφ hI' => ?_⟩
    have hs' := hback phases' s' hφ hI'
    exact ⟨hends _ _ _ (hA _ _ _ (hm.1 s') hs'), fun _ => ih hm.2 hs'⟩

end Fiber

/-- A rule for a crowd: an invariant over the phases of the members and the state, the phase of
those who have not begun, and the phases of those who have ended. -/
structure Order (σ α Φ : Type) where
  holds : (Nat → Φ) → σ → Prop
  fresh : Φ
  gone : Ending α → Φ

namespace Order

variable (O : Order σ α Φ)

/-- Member `i` has ended, and the invariant holds with that. -/
def Settled (i : Nat) (e : Ending α) (phases : Nat → Φ) (s : σ) : Prop :=
  O.holds (Function.update phases i (O.gone e)) s

/-- What a member in some phase has to do. -/
def Obeys (i : Nat) : Member σ α → Φ → Prop
  | .active p, φ => ∀ phases s, phases i = φ → O.holds phases s →
      O.Settled i (.cut .dropped) phases (p.cleanup s) ∧
        (p.wake s = true → p.next.Keeps O.holds i (O.Settled i) phases s)
  | .ended e, φ => φ = O.gone e

/-- The invariant holds for some phases of the members in which each does what it has to. -/
structure Holds (c : Crowd σ α) (phases : Nat → Φ) : Prop where
  holds : O.holds phases c.state
  fresh : ∀ i, c.members.length ≤ i → phases i = O.fresh
  obeys : ∀ i m, c.members[i]? = some m → O.Obeys i m (phases i)

variable {O} {program : Nat → χ → Fiber σ α}

/-- A program that obeys from its first poll on. -/
def Admits (O : Order σ α Φ) (i : Nat) (m : Fiber σ α) : Prop :=
  O.Obeys i (.active (.start m)) O.fresh

namespace Holds

variable {c : Crowd σ α} {phases : Nat → Φ}

theorem set (h : O.Holds c phases) {i : Nat} {m m' : Member σ α} (hi : c.members[i]? = some m)
    {s : σ} {φ : Φ} (hs : O.holds (Function.update phases i φ) s) (hm' : O.Obeys i m' φ) :
    O.Holds ⟨s, c.members.set i m'⟩ (Function.update phases i φ) where
  holds := hs
  fresh j hj := by
    have hlt : i < c.members.length := (List.getElem?_eq_some_iff.mp hi).1
    rw [List.length_set] at hj
    rw [Function.update_of_ne (by omega)]
    exact h.fresh j hj
  obeys j m hj := by
    by_cases hji : j = i
    · subst hji
      rw [List.getElem?_set_self (List.getElem?_eq_some_iff.mp hi).1] at hj
      obtain rfl := Option.some.inj hj
      rwa [Function.update_self]
    · rw [List.getElem?_set_ne (Ne.symm hji)] at hj
      rw [Function.update_of_ne hji]
      exact h.obeys j m hj

theorem join (h : O.Holds c phases) {m : Fiber σ α} (hm : O.Admits c.members.length m) :
    O.Holds { c with members := c.members ++ [.active (.start m)] } phases where
  holds := h.holds
  fresh j hj := h.fresh j (by simp at hj; omega)
  obeys j m' hj := by
    by_cases hlt : j < c.members.length
    · rw [List.getElem?_append_left hlt] at hj
      exact h.obeys j m' hj
    · have hlast := (List.getElem?_eq_some_iff.mp hj).1
      simp only [List.length_append, List.length_singleton] at hlast
      obtain rfl : j = c.members.length := by omega
      rw [List.getElem?_concat_length] at hj
      obtain rfl := Option.some.inj hj
      rw [h.fresh _ (Nat.le_refl _)]
      exact hm

theorem poll (h : O.Holds c phases) {i : Nat} {p : Paused σ α}
    (hi : c.members[i]? = some (.active p)) :
    ∃ phases', O.Holds ⟨(p.poll c.state).2, c.members.set i (.ofOutcome (p.poll c.state).1)⟩
      phases' := by
  obtain ⟨-, hresume⟩ := h.obeys i _ hi phases c.state rfl h.holds
  by_cases hw : p.wake c.state = true
  · have hpoll := (hresume hw).poll
    rcases hp : p.next.poll c.state with ⟨a | text | ⟨wake, cleanup, next⟩, s⟩ <;>
      simp only [hp] at hpoll <;> simp only [Paused.poll, hw, if_true, hp, Member.ofOutcome]
    · exact ⟨_, h.set hi hpoll rfl⟩
    · exact ⟨_, h.set hi hpoll rfl⟩
    · obtain ⟨φ, hI, hnext⟩ := hpoll
      exact ⟨_, h.set hi hI hnext⟩
  · simp only [Paused.poll, hw, Bool.false_eq_true, if_false, Member.ofOutcome]
    have hsame : Function.update phases i (phases i) = phases := Function.update_eq_self ..
    exact ⟨_, h.set hi (by rw [hsame]; exact h.holds) (h.obeys i _ hi)⟩

theorem drop (h : O.Holds c phases) {i : Nat} {p : Paused σ α}
    (hi : c.members[i]? = some (.active p)) :
    ∃ phases', O.Holds ⟨p.drop c.state, c.members.set i (.ended (.cut .dropped))⟩ phases' := by
  obtain ⟨hsettled, -⟩ := h.obeys i _ hi phases c.state rfl h.holds
  exact ⟨_, h.set hi hsettled rfl⟩

end Holds

/-- What a move has to respect: whoever joins obeys, and others keep the invariant. -/
def Allows (O : Order σ α Φ) (program : Nat → χ → Fiber σ α) : Move χ σ → Prop
  | .join call => ∀ i, O.Admits i (program i call)
  | .others f => ∀ phases s, O.holds phases s → O.holds phases (f s)
  | _ => True

theorem Holds.step {c : Crowd σ α} {phases : Nat → Φ} (h : O.Holds c phases) {m : Move χ σ}
    (hm : O.Allows program m) : ∃ phases', O.Holds (c.step program m) phases' := by
  cases m with
  | join call => exact ⟨phases, h.join (hm _)⟩
  | poll i =>
    simp only [Crowd.step]
    rcases hi : c.members[i]? with _ | p | e
    · exact ⟨phases, h⟩
    · exact h.poll hi
    · exact ⟨phases, h⟩
  | drop i =>
    simp only [Crowd.step]
    rcases hi : c.members[i]? with _ | p | e
    · exact ⟨phases, h⟩
    · exact h.drop hi
    · exact ⟨phases, h⟩
  | others f => exact ⟨phases, hm _ _ h.holds, h.fresh, h.obeys⟩

/-- Whatever the moves are, as long as each is allowed, the rule goes on to hold. -/
theorem Holds.run {moves : List (Move χ σ)} {c : Crowd σ α} {phases : Nat → Φ}
    (h : O.Holds c phases) (hm : ∀ m ∈ moves, O.Allows program m) :
    ∃ phases', O.Holds (c.run program moves) phases' := by
  induction moves generalizing c phases with
  | nil => exact ⟨phases, h⟩
  | cons m moves ih =>
    obtain ⟨phases₁, h₁⟩ := h.step (hm m (List.mem_cons_self ..))
    exact ih h₁ fun m' hm' => hm m' (List.mem_cons_of_mem _ hm')

/-- Nobody has joined yet. -/
theorem Holds.start {s : σ} (h : O.holds (fun _ => O.fresh) s) :
    O.Holds ⟨s, []⟩ fun _ => O.fresh where
  holds := h
  fresh _ _ := rfl
  obeys _ _ hi := by cases hi

end Order

end ClientRuntime
