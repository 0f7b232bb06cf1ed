import ClientRuntime.Fiber.Control

/-!
Runs of a fiber from its first poll to its end. At a suspension point others who share the state
may change it, in any way that a relation allows. A run ends with a value, or it is cut: the fiber
unwinds, or it is dropped where it is suspended.
-/

namespace ClientRuntime

/-- What ends a run before it has a value. -/
inductive Cut where
  | unwound (text : String)
  | dropped

inductive Ending (α : Type) where
  | returned (a : α)
  | cut (c : Cut)

namespace Ending

variable {σ α β : Type}

/-- What letting go of something does to the state at the end of a run. A run with a value has let
go of it before. -/
def letGo (onDrop onPanic : σ → σ) : Ending α → σ → σ
  | returned _, s => s
  | cut .dropped, s => onDrop s
  | cut (.unwound _), s => onPanic s

def value? : Ending α → Option α
  | returned a => some a
  | cut _ => none

end Ending

namespace Fiber

variable {σ α β : Type} {R : σ → σ → Prop}

/-- The runs of a fiber among others who change the state only as `R` allows. -/
inductive Run (R : σ → σ → Prop) : Fiber σ α → σ → Ending α → σ → Prop where
  | done {a s} : Run R (.done a) s (.returned a) s
  | panic {text s} : Run R (.panic text) s (.cut (.unwound text)) s
  | read {next s e s'} : Run R (next s) s e s' → Run R (.read next) s e s'
  | update {f next s e s'} : Run R next (f s) e s' → Run R (.update f next) s e s'
  | resume {wake cleanup next s s₁ e s'} : R s s₁ → wake s₁ = true → Run R next s₁ e s' →
      Run R (.block wake cleanup next) s e s'
  | drop {wake cleanup next s s₁} : R s s₁ →
      Run R (.block wake cleanup next) s (.cut .dropped) (cleanup s₁)

/-- Others who may do more allow more runs. -/
theorem Run.mono {R' : σ → σ → Prop} (hR : ∀ s s', R s s' → R' s s') {m : Fiber σ α} {s s' : σ}
    {e : Ending α} (h : Run R m s e s') : Run R' m s e s' := by
  induction h with
  | done => exact .done
  | panic => exact .panic
  | read _ ih => exact .read ih
  | update _ ih => exact .update ih
  | resume hr hw _ ih => exact .resume (hR _ _ hr) hw ih
  | drop hr => exact .drop (hR _ _ hr)

section Inversion

variable {s s' : σ} {e : Ending α}

@[simp] theorem run_done {a : α} : Run R (.done a) s e s' ↔ e = .returned a ∧ s' = s := by
  constructor
  · rintro ⟨⟩
    exact ⟨rfl, rfl⟩
  · rintro ⟨rfl, rfl⟩
    exact .done

@[simp] theorem run_pure {a : α} : Run R (pure a) s e s' ↔ e = .returned a ∧ s' = s := run_done

@[simp] theorem run_panic {text : String} :
    Run R (.panic text : Fiber σ α) s e s' ↔ e = .cut (.unwound text) ∧ s' = s := by
  constructor
  · rintro ⟨⟩
    exact ⟨rfl, rfl⟩
  · rintro ⟨rfl, rfl⟩
    exact .panic

@[simp] theorem run_read {next : σ → Fiber σ α} :
    Run R (.read next) s e s' ↔ Run R (next s) s e s' :=
  ⟨fun h => by cases h; assumption, .read⟩

@[simp] theorem run_update {f : σ → σ} {next : Fiber σ α} :
    Run R (.update f next) s e s' ↔ Run R next (f s) e s' :=
  ⟨fun h => by cases h; assumption, .update⟩

theorem run_block {wake : σ → Bool} {cleanup : σ → σ} {next : Fiber σ α} :
    Run R (.block wake cleanup next) s e s' ↔
      ∃ s₁, R s s₁ ∧ (wake s₁ = true ∧ Run R next s₁ e s' ∨
        e = .cut .dropped ∧ s' = cleanup s₁) := by
  constructor
  · rintro (_ | _ | _ | _ | ⟨hr, hw, h⟩ | hr)
    · exact ⟨_, hr, .inl ⟨hw, h⟩⟩
    · exact ⟨_, hr, .inr ⟨rfl, rfl⟩⟩
  · rintro ⟨s₁, hr, ⟨hw, h⟩ | ⟨rfl, rfl⟩⟩
    · exact .resume hr hw h
    · exact .drop hr

end Inversion

/-- A run of `m` and then `k` is a run of `m` to a value and one of `k` from there, or a run of `m`
that is cut. -/
theorem run_bind {m : Fiber σ α} {k : α → Fiber σ β} {s s' : σ} {e : Ending β} :
    Run R (m >>= k) s e s' ↔
      (∃ a s₁, Run R m s (.returned a) s₁ ∧ Run R (k a) s₁ e s') ∨
        ∃ c, e = .cut c ∧ Run R m s (.cut c) s' := by
  change Run R (m.bind k) s e s' ↔ _
  induction m generalizing s with
  | done a =>
    constructor
    · exact fun h => .inl ⟨a, s, .done, h⟩
    · rintro (⟨_, _, ⟨⟩, h⟩ | ⟨_, -, ⟨⟩⟩)
      exact h
  | panic text =>
    constructor
    · rintro ⟨⟩
      exact .inr ⟨_, rfl, .panic⟩
    · rintro (⟨_, _, ⟨⟩, -⟩ | ⟨_, rfl, ⟨⟩⟩)
      exact .panic
  | read next ih => simp only [Fiber.bind, run_read, ih]
  | update f next ih => simp only [Fiber.bind, run_update, ih]
  | block wake cleanup next ih =>
    -- The continuation does not change when to resume, nor what a drop does.
    simp only [Fiber.bind, run_block, ih]
    constructor
    · rintro ⟨s₁, hr, ⟨hw, ⟨a, s₂, h, hk⟩ | ⟨c, rfl, h⟩⟩ | ⟨rfl, rfl⟩⟩
      · exact .inl ⟨a, s₂, ⟨s₁, hr, .inl ⟨hw, h⟩⟩, hk⟩
      · exact .inr ⟨c, rfl, s₁, hr, .inl ⟨hw, h⟩⟩
      · exact .inr ⟨.dropped, rfl, s₁, hr, .inr ⟨rfl, rfl⟩⟩
    · rintro (⟨a, s₂, ⟨s₁, hr, ⟨hw, h⟩ | ⟨he, -⟩⟩, hk⟩ |
        ⟨c, rfl, s₁, hr, ⟨hw, h⟩ | ⟨he, rfl⟩⟩)
      · exact ⟨s₁, hr, .inl ⟨hw, .inl ⟨a, s₂, h, hk⟩⟩⟩
      · cases he
      · exact ⟨s₁, hr, .inl ⟨hw, .inr ⟨c, rfl, h⟩⟩⟩
      · cases he
        exact ⟨s₁, hr, .inr ⟨rfl, rfl⟩⟩

/-- A run to a value goes through a value of its first part. -/
theorem run_bind_returned {m : Fiber σ α} {k : α → Fiber σ β} {s s' : σ} {b : β} :
    Run R (m >>= k) s (.returned b) s' ↔
      ∃ a s₁, Run R m s (.returned a) s₁ ∧ Run R (k a) s₁ (.returned b) s' := by
  simp [run_bind]

/-- The answer of a run of rounds is the answer of one of them. -/
theorem Run.of_rounds {round : Fiber σ (Option α)} {n : Nat} {s s' : σ} {a : α}
    (h : Run R (round.rounds n) s (.returned a) s') :
    ∃ s₁ s₂, Run R round s₁ (.returned (some a)) s₂ := by
  induction n generalizing s with
  | zero =>
    obtain ⟨_, -, ⟨hwake, -⟩ | ⟨⟨⟩, -⟩⟩ := run_block.mp h
    cases hwake
  | succ n ih =>
    obtain ⟨answer, s₁, hround, hrest⟩ := run_bind_returned.mp h
    cases answer with
    | none => exact ih hrest
    | some b =>
      obtain ⟨⟨⟩, -⟩ := run_pure.mp hrest
      exact ⟨s, s₁, hround⟩

/-- A run that is cut is cut in its first part or after it. -/
theorem run_bind_cut {m : Fiber σ α} {k : α → Fiber σ β} {s s' : σ} {c : Cut} :
    Run R (m >>= k) s (.cut c) s' ↔
      Run R m s (.cut c) s' ∨
        ∃ a s₁, Run R m s (.returned a) s₁ ∧ Run R (k a) s₁ (.cut c) s' := by
  rw [run_bind, or_comm]
  simp

@[simp] theorem run_modify {f : σ → σ} {s s' : σ} {e : Ending Unit} :
    Run R (modify f) s e s' ↔ e = .returned () ∧ s' = f s := by
  simp [modify]

@[simp] theorem run_gets {f : σ → α} {s s' : σ} {e : Ending α} :
    Run R (gets f) s e s' ↔ e = .returned (f s) ∧ s' = s := by
  simp [gets]

@[simp] theorem run_modifyGet {f : σ → α × σ} {s s' : σ} {e : Ending α} :
    Run R (modifyGet f) s e s' ↔ e = .returned (f s).1 ∧ s' = (f s).2 := by
  simp [modifyGet]

theorem run_modify_bind {f : σ → σ} {k : Unit → Fiber σ β} {s s' : σ} {e : Ending β} :
    Run R (modify f >>= k) s e s' ↔ Run R (k ()) (f s) e s' := run_update

theorem run_gets_bind {f : σ → α} {k : α → Fiber σ β} {s s' : σ} {e : Ending β} :
    Run R (gets f >>= k) s e s' ↔ Run R (k (f s)) s e s' := run_read

theorem run_modifyGet_bind {f : σ → α × σ} {k : α → Fiber σ β} {s s' : σ} {e : Ending β} :
    Run R (modifyGet f >>= k) s e s' ↔ Run R (k (f s).1) (f s).2 e s' :=
  run_read.trans run_update

/-- A guard changes nothing but what happens when the run is cut. -/
theorem run_guarded {onDrop onPanic : σ → σ} {m : Fiber σ α} {s s' : σ} {e : Ending α} :
    Run R (m.guarded onDrop onPanic) s e s' ↔
      ∃ s₁, Run R m s e s₁ ∧ s' = e.letGo onDrop onPanic s₁ := by
  induction m generalizing s with
  | done a =>
    simp only [guarded, run_done]
    constructor
    · rintro ⟨rfl, rfl⟩
      exact ⟨_, ⟨rfl, rfl⟩, rfl⟩
    · rintro ⟨_, ⟨rfl, rfl⟩, rfl⟩
      exact ⟨rfl, rfl⟩
  | panic text =>
    simp only [guarded, run_update, run_panic]
    constructor
    · rintro ⟨rfl, rfl⟩
      exact ⟨_, ⟨rfl, rfl⟩, rfl⟩
    · rintro ⟨_, ⟨rfl, rfl⟩, rfl⟩
      exact ⟨rfl, rfl⟩
  | read next ih => simp only [guarded, run_read, ih]
  | update f next ih => simp only [guarded, run_update, ih]
  | block wake cleanup next ih =>
    simp only [guarded, run_block, ih]
    constructor
    · rintro ⟨s₁, hr, ⟨hw, s₂, h, rfl⟩ | ⟨rfl, rfl⟩⟩
      · exact ⟨s₂, ⟨s₁, hr, .inl ⟨hw, h⟩⟩, rfl⟩
      · exact ⟨_, ⟨s₁, hr, .inr ⟨rfl, rfl⟩⟩, rfl⟩
    · rintro ⟨s₂, ⟨s₁, hr, ⟨hw, h⟩ | ⟨rfl, rfl⟩⟩, rfl⟩
      · exact ⟨s₁, hr, .inl ⟨hw, s₂, h, rfl⟩⟩
      · exact ⟨s₁, hr, .inr ⟨rfl, rfl⟩⟩

/-- Every way to go on from a state leads to a value: nothing unwinds, and wherever the fiber is
suspended others can bring about what it waits for. -/
def Returns (R : σ → σ → Prop) : Fiber σ α → σ → Prop
  | done _, _ => True
  | panic _, _ => False
  | read next, s => (next s).Returns R s
  | update f next, s => next.Returns R (f s)
  | block wake _ next, s =>
    (∃ s₁, R s s₁ ∧ wake s₁ = true) ∧ ∀ s₁, R s s₁ → wake s₁ = true → next.Returns R s₁

namespace Returns

/-- A fiber that returns has a run that does, whatever others have to do for it. -/
theorem exists_run {m : Fiber σ α} {s : σ} (h : m.Returns R s) :
    ∃ a s', Run R m s (.returned a) s' := by
  induction m generalizing s with
  | done a => exact ⟨a, s, .done⟩
  | panic => exact h.elim
  | read next ih =>
    obtain ⟨a, s', h⟩ := ih s h
    exact ⟨a, s', .read h⟩
  | update f next ih =>
    obtain ⟨a, s', h⟩ := ih h
    exact ⟨a, s', .update h⟩
  | block wake cleanup next ih =>
    obtain ⟨⟨s₁, hr, hw⟩, hn⟩ := h
    obtain ⟨a, s', h⟩ := ih (hn s₁ hr hw)
    exact ⟨a, s', .resume hr hw h⟩

theorem bind {m : Fiber σ α} {k : α → Fiber σ β} {s : σ} (hm : m.Returns R s)
    (hk : ∀ a s', Run R m s (.returned a) s' → (k a).Returns R s') :
    (m >>= k).Returns R s := by
  change (m.bind k).Returns R s
  induction m generalizing s with
  | done a => exact hk a s .done
  | panic => exact hm.elim
  | read next ih => exact ih s hm fun a s' h => hk a s' (.read h)
  | update f next ih => exact ih hm fun a s' h => hk a s' (.update h)
  | block wake cleanup next ih =>
    refine ⟨hm.1, fun s₁ hr hw => ?_⟩
    exact ih (hm.2 s₁ hr hw) fun a s' h => hk a s' (.resume hr hw h)

theorem guarded {onDrop onPanic : σ → σ} {m : Fiber σ α} {s : σ} (h : m.Returns R s) :
    (m.guarded onDrop onPanic).Returns R s := by
  induction m generalizing s with
  | done | panic => exact h
  | read next ih => exact ih s h
  | update f next ih => exact ih h
  | block wake cleanup next ih => exact ⟨h.1, fun s₁ hr hw => ih (h.2 s₁ hr hw)⟩

end Returns

/-- What one poll comes to, as a run. -/
theorem run_of_poll (m : Fiber σ α) (s : σ) :
    match m.poll s with
    | (.ready a, s') => Run R m s (.returned a) s'
    | (.panicked text, s') => Run R m s (.cut (.unwound text)) s'
    | (.pending wake cleanup next, s') =>
      ∀ e s'', Run R (.block wake cleanup next) s' e s'' → Run R m s e s'' := by
  induction m generalizing s with
  | done a => exact .done
  | panic text => exact .panic
  | read next ih => simpa only [poll, run_read] using ih s s
  | update f next ih => simpa only [poll, run_update] using ih (f s)
  | block wake cleanup next => exact fun _ _ h => h

end Fiber

namespace Paused

open ClientRuntime.Fiber

variable {σ α β : Type} {R : σ → σ → Prop}

/-- What polling comes to, as a run from the suspension point. -/
theorem run_of_pollTimes (hR : ∀ s, R s s) (n : Nat) (p : Paused σ α) (s : σ) :
    match p.pollTimes n s with
    | (.ready a, s') => Run R (.block p.wake p.cleanup p.next) s (.returned a) s'
    | (.panicked text, s') => Run R (.block p.wake p.cleanup p.next) s (.cut (.unwound text)) s'
    | (.pending q, s') => Run R (.block p.wake p.cleanup p.next) s (.cut .dropped) (q.drop s') := by
  induction n generalizing p s with
  | zero => exact .drop (hR s)
  | succ n ih =>
    by_cases hw : p.wake s = true
    · have h := run_of_poll (R := R) p.next s
      simp only [pollTimes, poll, hw, if_true]
      rcases hp : p.next.poll s with ⟨_ | _ | ⟨wake, cleanup, next⟩, s₁⟩
      · rw [hp] at h
        exact .resume (hR s) hw h
      · rw [hp] at h
        exact .resume (hR s) hw h
      · rw [hp] at h
        have later := ih ⟨wake, cleanup, next⟩ s₁
        simp only
        split at later <;> exact .resume (hR s) hw (h _ _ later)
    · simpa [pollTimes, poll, hw] using ih p s

/-- Polling a fiber that nobody disturbs is a run of it; one that is still pending is dropped. -/
theorem run_of_polled (hR : ∀ s, R s s) (m : Fiber σ α) (n : Nat) (s : σ) :
    match (start m).pollTimes (n + 1) s with
    | (.ready a, s') => Run R m s (.returned a) s'
    | (.panicked text, s') => Run R m s (.cut (.unwound text)) s'
    | (.pending q, s') => Run R m s (.cut .dropped) (q.drop s') := by
  have h := run_of_poll (R := R) m s
  simp only [pollTimes, poll, start, if_true]
  rcases hp : m.poll s with ⟨_ | _ | ⟨wake, cleanup, next⟩, s₁⟩
  · rwa [hp] at h
  · rwa [hp] at h
  · rw [hp] at h
    have later := run_of_pollTimes hR n ⟨wake, cleanup, next⟩ s₁
    simp only
    split at later <;> exact h _ _ later

theorem run_of_ready (hR : ∀ s, R s s) {m : Fiber σ α} {s : σ} (n : Nat) {a : α}
    (h : ((start m).pollTimes (n + 1) s).1 = .ready a) :
    Run R m s (.returned a) ((start m).pollTimes (n + 1) s).2 := by
  have hrun := run_of_polled hR m n s
  rcases hp : (start m).pollTimes (n + 1) s with ⟨o, s'⟩
  rw [hp] at h hrun
  obtain rfl : o = .ready a := h
  exact hrun

/-- What is seen of the state when a fiber is dropped where polling has left it. -/
theorem exists_run_dropped (hR : ∀ s, R s s) {m : Fiber σ α} {s : σ} {view : σ → β} {b : β}
    (n : Nat)
    (h : match (start m).pollTimes (n + 1) s with
      | (.pending q, s') => view (q.drop s') = b
      | _ => False) :
    ∃ s', Run R m s (.cut .dropped) s' ∧ view s' = b := by
  have hrun := run_of_polled hR m n s
  rcases hp : (start m).pollTimes (n + 1) s with ⟨_ | _ | q, s'⟩ <;> rw [hp] at h hrun
  · exact h.elim
  · exact h.elim
  · exact ⟨_, hrun, h⟩

end Paused

end ClientRuntime
