import ClientRuntime.Proofs.Fiber.Yields
import ClientRuntime.Proofs.Operation.Observed

/-!
An audit of errors. An auditor notes with every call the result that it is shown, its error, and the
texts that the callee itself suppressed; what the operation suppresses comes in between. Errors
are settled over a stretch of these events if those raised are those suppressed and the one in
force at the end, which is always the last.
-/

namespace ClientRuntime

/-- A call as it is audited. -/
structure AuditedCall (S : OperationShape) where
  party : Party
  /-- The result that the callee is shown, if there is one. -/
  shown : Option S.Result
  error : Option S.Error
  /-- Texts that the callee suppressed on its own account. -/
  own : List String

/-- What an auditor notes. -/
inductive AuditNote (S : OperationShape) where
  | call (c : AuditedCall S)
  /-- What was suppressed before an attempt, and after it. -/
  | attempted (before after : Option (List String))

/-- What happens to errors. -/
inductive ErrorEvent (S : OperationShape) where
  | call (c : AuditedCall S)
  /-- The operation suppresses an error. -/
  | suppressed (e : S.Error)

namespace ErrorEvent

variable {S : OperationShape}

def note? : ErrorEvent S → Option (AuditNote S)
  | call c => some (.call c)
  | suppressed _ => none

def raised? : ErrorEvent S → Option S.Error
  | call c => c.error
  | suppressed _ => none

def lost? : ErrorEvent S → Option S.Error
  | call _ => none
  | suppressed e => some e

def shownTexts : ErrorEvent S → List String
  | call c => c.own
  | suppressed e => [OperationError.message e]

def notes (events : List (ErrorEvent S)) : List (AuditNote S) := events.filterMap note?

/-- The errors that calls ended with. -/
def raised (events : List (ErrorEvent S)) : List S.Error := events.filterMap raised?

/-- The errors that the operation suppressed. -/
def lost (events : List (ErrorEvent S)) : List S.Error := events.filterMap lost?

/-- All texts that were suppressed, in order. -/
def texts (events : List (ErrorEvent S)) : List String := events.flatMap shownTexts

variable {events rest : List (ErrorEvent S)} {c : AuditedCall S} {e : S.Error}

@[simp] theorem notes_call : notes (.call c :: events) = .call c :: notes events := rfl

@[simp] theorem notes_suppressed : notes (.suppressed e :: events) = notes events := rfl

@[simp] theorem raised_append : raised (events ++ rest) = raised events ++ raised rest :=
  List.filterMap_append

@[simp] theorem lost_append : lost (events ++ rest) = lost events ++ lost rest :=
  List.filterMap_append

@[simp] theorem raised_call : raised (.call c :: events) = c.error.toList ++ raised events := by
  simp only [raised, List.filterMap_cons, raised?]
  cases c.error <;> rfl

@[simp] theorem lost_call : lost (.call c :: events) = lost events := rfl

@[simp] theorem raised_suppressed : raised (.suppressed e :: events) = raised events := rfl

@[simp] theorem lost_suppressed : lost (.suppressed e :: events) = e :: lost events := rfl

@[simp] theorem raised_nil : raised ([] : List (ErrorEvent S)) = [] := rfl

@[simp] theorem lost_nil : lost ([] : List (ErrorEvent S)) = [] := rfl

end ErrorEvent

/-- Where hooks revise a result, each is shown what the one before made of it. -/
def Stage.revises : Stage → Bool
  | modifyBeforeAttemptCompletion => true
  | modifyBeforeCompletion => true
  | _ => false

open ErrorEvent

variable {η : Type} {S : OperationShape}

/-- From an error in force to one: the error of a call takes its place, and a hook that begins is
shown a result with the error in force. -/
inductive InForce : Option S.Error → List (ErrorEvent S) → Option S.Error → Prop where
  | nil {f} : InForce f [] f
  | call {f g c events} :
      (∀ stage place r, c.party = .hook stage place → (place = 0 ∨ stage.revises = true) →
        c.shown = some r → failure r = f) →
      InForce (c.error.or f) events g → InForce f (.call c :: events) g
  | suppressed {f g e events} : InForce f events g → InForce f (.suppressed e :: events) g

/-- The errors in force at first and raised are those suppressed and in force at last. -/
structure Settles (f : Option S.Error) (events : List (ErrorEvent S)) (g : Option S.Error) :
    Prop where
  kept : (f.toList ++ raised events).Perm (lost events ++ g.toList)
  latest : InForce f events g

/-- While `f` is in force, other errors are raised; the last of them is still to be put in force. -/
structure Raises (f : Option S.Error) (events : List (ErrorEvent S)) (error : Option S.Error) :
    Prop where
  kept : (raised events).Perm (lost events ++ error.toList)
  latest : InForce f events (error.or f)

variable {f g h : Option S.Error} {events rest : List (ErrorEvent S)} {e : S.Error}

theorem InForce.append (ha : InForce f events g) (hb : InForce g rest h) :
    InForce f (events ++ rest) h := by
  induction ha with
  | nil => exact hb
  | call hshown _ ih => exact .call hshown (ih hb)
  | suppressed _ ih => exact .suppressed (ih hb)

theorem InForce.suppressed_all (errors : List S.Error) :
    InForce f (errors.map .suppressed) f := by
  induction errors with
  | nil => exact .nil
  | cons _ _ ih => exact .suppressed ih

namespace Settles

theorem nil : Settles f [] f := ⟨by simp, .nil⟩

theorem append (ha : Settles f events g) (hb : Settles g rest h) :
    Settles f (events ++ rest) h := by
  refine ⟨?_, ha.latest.append hb.latest⟩
  calc f.toList ++ raised (events ++ rest)
      = (f.toList ++ raised events) ++ raised rest := by simp
    List.Perm _ ((lost events ++ g.toList) ++ raised rest) := ha.kept.append_right _
    _ = lost events ++ (g.toList ++ raised rest) := List.append_assoc ..
    List.Perm _ (lost events ++ (lost rest ++ h.toList)) := hb.kept.append_left _
    _ = lost (events ++ rest) ++ h.toList := by simp

end Settles

namespace Raises

theorem nil : Raises f [] none := ⟨by simp, .nil⟩

theorem append (ha : Raises f events none) (hb : Raises f rest g) :
    Raises f (events ++ rest) g := by
  refine ⟨?_, ha.latest.append hb.latest⟩
  have := ha.kept.append hb.kept
  simpa using this

/-- Where nothing was in force. -/
theorem settles (ha : Raises none events g) : Settles none events g :=
  ⟨by simpa using ha.kept, by simpa using ha.latest⟩

theorem passed (ha : Raises f events none) : Settles f events f := by
  refine ⟨?_, ha.latest⟩
  have := ha.kept.append_left f.toList
  exact this.trans (by simpa using List.perm_append_comm)

/-- An error takes the place of the one in force, which is suppressed. -/
theorem overruled (ha : Raises f events (some e)) :
    Settles f (events ++ f.toList.map .suppressed) (some e) := by
  have hlost : lost (f.toList.map .suppressed) = f.toList := by cases f <;> rfl
  have hraised : raised (f.toList.map .suppressed) = [] := by cases f <;> rfl
  refine ⟨?_, ha.latest.append (.suppressed_all _)⟩
  simp only [raised_append, lost_append, hlost, hraised, List.append_nil]
  calc List.Perm (f.toList ++ raised events) (f.toList ++ (lost events ++ [e])) :=
      ha.kept.append_left _
    List.Perm _ ((lost events ++ f.toList) ++ [e]) := by
      rw [← List.append_assoc]
      exact List.perm_append_comm.append_right _

end Raises

namespace World

/-- The texts that were suppressed for an execution, if there is one. -/
def suppressed (w : World η) (id : ExecutionId) : Option (List String) :=
  w.executions[id]?.map (·.suppressed)

/-- Others do not suppress errors of the execution. -/
def SameSuppressed (id : ExecutionId) (w w' : World η) : Prop :=
  w'.suppressed id = w.suppressed id

theorem sameSuppressed_refl (id : ExecutionId) (w : World η) : w.SameSuppressed id w := rfl

/-- Others write neither to the journal nor to what was suppressed. -/
def Undisturbed {κ : Type} (id : ExecutionId) (w w' : World (Journaled κ η)) : Prop :=
  w.SameCalls w' ∧ w.SameSuppressed id w'

variable {id : ExecutionId} {w w' : World η}

theorem TracedTo.suppressed (h : w.TracedTo w') : w'.suppressed id = w.suppressed id := by
  rw [World.suppressed, World.suppressed, h.executions]

theorem suppressed_updateExecution (f : Execution → Execution) :
    (w.updateExecution id f).suppressed id = w.executions[id]?.map fun e => (f e).suppressed := by
  simp [World.suppressed, updateExecution, Function.comp_def]

theorem suppressed_beginAttempt (n : Nat) :
    (w.beginAttempt id n).suppressed id = w.suppressed id :=
  suppressed_updateExecution _

theorem suppressed_suppress (stage error : String) :
    (w.suppress id stage error).suppressed id = (w.suppressed id).map (· ++ [error]) := by
  have h := (say_traced w (w.execution id).span .warning executionComponent
    ("Suppressed error in " ++ stage ++ ": " ++ error) (some error)).executions
  rw [suppress, suppressed_updateExecution, h, World.suppressed, Option.map_map]
  rfl

end World

/-- Whatever the fiber does besides, it adds to what was suppressed. -/
def Fiber.Appends {α : Type} (id : ExecutionId) (m : Fiber (World η) α) : Prop :=
  ∀ w a w', Run (World.SameSuppressed id) m w (.returned a) w' →
    ∃ texts, w'.suppressed id = (w.suppressed id).map (· ++ texts)

namespace Fiber.Appends

variable {α β : Type} {id : ExecutionId}

theorem pure (a : α) : Appends id (Pure.pure a : Fiber (World η) α) := by
  intro w _ w' h
  obtain ⟨-, rfl⟩ := run_pure.mp h
  exact ⟨[], by simp⟩

theorem bind {m : Fiber (World η) α} {k : α → Fiber (World η) β} (hm : m.Appends id)
    (hk : ∀ a, (k a).Appends id) : (m >>= k).Appends id := by
  intro w b w' h
  obtain ⟨a, w₁, hfirst, hrest⟩ := run_bind_returned.mp h
  obtain ⟨texts, h₁⟩ := hm _ _ _ hfirst
  obtain ⟨texts', h₂⟩ := hk a _ _ _ hrest
  exact ⟨texts ++ texts', by simp [h₂, h₁, Function.comp_def]⟩

theorem suspend : Appends id (Fiber.suspend : Fiber (World η) Unit) := by
  intro w _ w' h
  obtain ⟨w₁, hothers, ⟨-, h⟩ | ⟨h, -⟩⟩ := run_block.mp h
  · obtain ⟨-, rfl⟩ := run_done.mp h
    exact ⟨[], by simpa [World.SameSuppressed] using hothers⟩
  · cases h

end Fiber.Appends

/-- The world of an operation that is audited. -/
abbrev AuditWorld (η : Type) (S : OperationShape) :=
  World (Journaled (RetryCall S.Output S.Error (AuditNote S)) η)

/-- Errors as they are noted in the journal and suppressed for an execution. -/
def Growth.errors (id : ExecutionId) : Growth (AuditWorld η S) (ErrorEvent S) where
  grew events w w' := w'.calls = w.calls ++ (notes events).map .within ∧
    w'.suppressed id = (w.suppressed id).map (· ++ texts events)
  still w := by simp [notes, texts]
  append := by
    rintro a b w w₁ w₂ ⟨hc, ht⟩ ⟨hc', ht'⟩
    rw [hc', hc, ht', ht, Option.map_map]
    simp [notes, texts, Function.comp_def]

def Auditor.texts (id : ExecutionId) (w : World η) : List String := (w.suppressed id).getD []

/-- Audits errors of an execution. -/
def auditor (id : ExecutionId) : Observer (RetryCall S.Output S.Error (AuditNote S)) η S where
  watch party shown error m := do
    let before ← Fiber.gets (Auditor.texts id)
    let a ← m.along World.unwatched
    Fiber.modify fun w =>
      w.record (.within (.call ⟨party, shown, error a, (Auditor.texts id w).drop before.length⟩))
    return a

theorem Growth.errors_traced {id : ExecutionId} {w w' : AuditWorld η S} (h : w.TracedTo w') :
    (Growth.errors id).grew [] w w' := by
  refine ⟨by simp [notes, h.calls], ?_⟩
  simp [ErrorEvent.texts, h.suppressed]

/-- A fiber is one audited call. -/
def Fiber.Audited {α : Type} (id : ExecutionId) (R : AuditWorld η S → AuditWorld η S → Prop)
    (m : Fiber (AuditWorld η S) α) (party : Party) (shown : Option S.Result)
    (error : α → Option S.Error) (P : α → Prop) : Prop :=
  m.Yields (.errors id) R fun events a =>
    (∃ own, events = [.call ⟨party, shown, error a, own⟩]) ∧ P a

/-- A call of the auditor comes to what a run of the fiber comes to. -/
theorem auditor_audited {α : Type} {id : ExecutionId} {R : AuditWorld η S → AuditWorld η S → Prop}
    (hR : ∀ w w', R w w' → w.Undisturbed id w') (party : Party) (shown : Option S.Result)
    (error : α → Option S.Error) {m : Fiber (World η) α} (hm : m.Appends id) {P : α → Prop}
    (hP : ∀ w a w', Fiber.Run (World.SameSuppressed id) m w (.returned a) w' → P a) :
    Fiber.Audited id R ((auditor id).watch party shown error m) party shown error P := by
  intro w a w' h
  obtain ⟨a', w₁, hrun, h⟩ := Fiber.run_bind_returned.mp (Fiber.run_gets_bind.mp h)
  simp only [Fiber.run_modify_bind, Fiber.run_pure, Ending.returned.injEq] at h
  obtain ⟨rfl, rfl⟩ := h
  have hcalls : w₁.calls = w.calls := hrun.along_calls fun _ _ h => (hR _ _ h).1
  have hothers (v v' : AuditWorld η S) (h : R v v') :
      (World.unwatched.get v).SameSuppressed id (World.unwatched.get v') := (hR v v' h).2
  have hown := hrun.ofAlong hothers
  obtain ⟨texts, htexts⟩ := hm _ _ _ hown
  replace htexts : w₁.suppressed id = (w.suppressed id).map (· ++ texts) := htexts
  refine ⟨_, ⟨by rw [World.calls_record, hcalls]; rfl, ?_⟩, ⟨_, rfl⟩, hP _ _ _ hown⟩
  change w₁.suppressed id = _
  rw [htexts]
  cases hw : w.suppressed id with
  | none => rfl
  | some before => simp [ErrorEvent.texts, shownTexts, Auditor.texts, htexts, hw]

end ClientRuntime
