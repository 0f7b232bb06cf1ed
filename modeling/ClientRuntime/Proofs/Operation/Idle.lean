import Mathlib
import ClientRuntime.Proofs.Operation.Unseeing

/-!
An interceptor that keeps all default hooks is neutral. Each of its hooks hands on what it was given
without a step of its own, so a loop over hooks is the same program with it and without it; and so,
stage by stage, is the whole operation.
-/

namespace ClientRuntime

open ClientRuntime.Fiber
open World (unwatched)

variable {η δ : Type} {S : OperationShape}

/-- Hooks that are all defaults. -/
def Interceptor.idle (name : String) : Interceptor η S where
  describe := name

section Loops

theorem Step.sequence_insertIdx_keep (steps : List (Step η δ S)) (place : Nat) :
    Step.sequence (steps.insertIdx place .keep) = Step.sequence steps := by
  induction steps generalizing place with
  | nil =>
    cases place with
    | zero => funext d; simp [Step.sequence, Change.keep]
    | succ place => rfl
  | cons step steps ih =>
    funext d
    cases place with
    | zero => simp [Step.sequence, Change.keep]
    | succ place => simp only [List.insertIdx_succ_cons, Step.sequence, ih]

variable (id : ExecutionId) (stage : Stage)

theorem lastError_insertIdx_pass (checks : List (Check η S)) (place : Nat)
    (latest : Option S.Error) :
    lastError id stage latest (checks.insertIdx place .pass) =
      lastError id stage latest checks := by
  induction checks generalizing place latest with
  | nil =>
    cases place with
    | zero => simp [lastError, Check.pass]
    | succ place => rfl
  | cons check checks ih =>
    cases place with
    | zero => simp [lastError, Check.pass]
    | succ place => simp only [List.insertIdx_succ_cons, lastError, ih]

theorem checkAll_insertIdx_pass (checks : List (Check η S)) (place : Nat) :
    checkAll id stage (checks.insertIdx place .pass) = checkAll id stage checks := by
  simp only [checkAll, lastError_insertIdx_pass]

theorem reviseAll_insertIdx_keep (steps : List (Step η S.Result S)) (place : Nat)
    (result : S.Result) :
    reviseAll id stage (steps.insertIdx place .keep) result = reviseAll id stage steps result := by
  induction steps generalizing place result with
  | nil =>
    cases place with
    | zero => simp [reviseAll, Change.keep]
    | succ place => rfl
  | cons step steps ih =>
    cases place with
    | zero => simp [reviseAll, Change.keep]
    | succ place => simp only [List.insertIdx_succ_cons, reviseAll, ih]

end Loops

namespace OperationExecution

/-- The operation with one more interceptor, which does nothing. -/
def idling (op : OperationExecution η S) (name : String) (place : Nat) :
    OperationExecution η S :=
  { op with interceptors := op.interceptors.insertIdx place (.idle name) }

variable (op : OperationExecution η S) (name : String) (place : Nat) (id : ExecutionId)

theorem modify_idling {hook : Interceptor η S → Step η δ S}
    (hidle : hook (.idle name) = .keep) : (op.idling name place).modify hook = op.modify hook := by
  simp only [modify, idling, List.map_insertIdx, hidle, Step.sequence_insertIdx_keep]

theorem read_idling {hook : Interceptor η S → δ → Check η S}
    (hidle : hook (.idle name) = fun _ => .pass) :
    (op.idling name place).read hook = op.read hook := by
  refine op.modify_idling name place ?_
  funext d
  simp [hidle, Step.ofCheck, Check.pass, Change.keep]

theorem readAll_idling (stage : Stage) {hook : Interceptor η S → δ → Check η S}
    (hidle : hook (.idle name) = fun _ => .pass) :
    (op.idling name place).readAll id stage hook = op.readAll id stage hook := by
  simp only [readAll, idling, List.map_insertIdx, hidle, checkAll_insertIdx_pass]

theorem conclude_idling (stage : Stage) {hook : Interceptor η S → Check η S}
    (hidle : hook (.idle name) = .pass) :
    (op.idling name place).conclude id stage hook = op.conclude id stage hook := by
  funext result
  simp only [conclude, idling, List.map_insertIdx, hidle, checkAll_insertIdx_pass]

theorem beforeSerialization_idling :
    (op.idling name place).beforeSerialization id = op.beforeSerialization id := by
  simp only [beforeSerialization]
  rw [readAll_idling, modify_idling, read_idling] <;> rfl

theorem afterSerialization_idling (input : S.Input) :
    (op.idling name place).afterSerialization id input = op.afterSerialization id input := by
  simp only [afterSerialization]
  rw [read_idling, modify_idling] <;> rfl

theorem prepare_idling (input : S.Input) :
    (op.idling name place).prepare id input = op.prepare id input := by
  simp only [prepare, beforeSerialization_idling, afterSerialization_idling]
  rfl

theorem beforeTransmission_idling (input : S.Input) :
    (op.idling name place).beforeTransmission id input = op.beforeTransmission id input := by
  simp only [beforeTransmission]
  rw [readAll_idling, modify_idling, read_idling, read_idling, modify_idling, read_idling] <;> rfl

theorem afterTransmission_idling (input : S.Input) (request : S.Request) :
    (op.idling name place).afterTransmission id input request =
      op.afterTransmission id input request := by
  simp only [afterTransmission]
  rw [read_idling, modify_idling, read_idling] <;> rfl

theorem transmit_idling (input : S.Input) (base : S.Request) :
    (op.idling name place).transmit id input base = op.transmit id input base := by
  simp only [transmit, beforeTransmission_idling, afterTransmission_idling]
  rfl

/-- A hook that keeps what it is given changes no result. -/
theorem reviseAll_idling (stage : Stage) {hook : Interceptor η S → Step η S.Result S}
    (hidle : hook (.idle name) = .keep) :
    reviseAll id stage ((op.idling name place).interceptors.map hook) =
      reviseAll id stage (op.interceptors.map hook) := by
  funext result
  simp only [idling, List.map_insertIdx, hidle, reviseAll_insertIdx_keep]

theorem settle_idling {view : S.Result → ResultView S} (hview : ∀ r, (view r).result = r) :
    (op.idling name place).settle id view = op.settle id view := by
  funext result
  unfold settle
  rw [read_idling, reviseAll_idling]
  · funext r
    exact congrArg Change.keep (hview r)
  · rfl

theorem attempt_idling (input : S.Input) (base : S.Request) :
    (op.idling name place).attempt id input base = op.attempt id input base := by
  have hread (v : ResultView S) :
      _ = op.conclude id .readAfterAttempt fun i => i.readAfterAttempt v :=
    op.conclude_idling name place id .readAfterAttempt rfl
  funext n
  simp (disch := simp) only [attempt, transmit_idling, settle_idling, hread]

theorem retry_idling (input : S.Input) (prepared : Except S.Error S.Request) :
    (op.idling name place).retry id input prepared = op.retry id input prepared := by
  simp only [retry, attempt_idling]
  rfl

theorem complete_idling {view : S.Result → ResultView S} (hview : ∀ r, (view r).result = r) :
    (op.idling name place).complete id view = op.complete id view := by
  have hread (v : ResultView S) :
      _ = op.conclude id .readAfterExecution fun i => i.readAfterExecution v :=
    op.conclude_idling name place id .readAfterExecution rfl
  funext result
  simp only [complete, hread]
  rw [reviseAll_idling]
  funext r
  exact congrArg Change.keep (hview r)

theorem execute_idling (input : S.Input) :
    (op.idling name place).execute id input = op.execute id input := by
  simp (disch := simp) only [execute, prepare_idling, retry_idling, complete_idling]

/-- With and without an interceptor that does nothing, in whatever place, an operation is the same
program. So its executions, however they are polled, dropped and cancelled, leave the same worlds
and come to the same; and so they do when all other calls are noted with what is handed over. Every
execution that returns can be seen so. -/
theorem executions_ignore_idle :
    (∀ id input, (op.idling name place).execute id input = op.execute id input) ∧
    (∀ fired id input,
      (op.idling name place).executeUntil fired id input = op.executeUntil fired id input) ∧
    (∀ moves w, (op.idling name place).executions moves w = op.executions moves w) ∧
    ∀ retrying : Retrying η,
      (∀ moves w, ((op.noted retrying).idling name place).executions moves w =
        (op.noted retrying).executions moves w) ∧
      ∀ (w : HandedWorld η S) id input result v', Run (fun _ _ => True)
          (((op.idling name place).retrying retrying).execute id input) (unwatched.get w)
          (.returned result) v' →
        ∃ w', unwatched.get w' = v' ∧ Run World.SameCalls
          (((op.noted retrying).idling name place).execute id input) w (.returned result) w' := by
  have hsame {η : Type} (op : OperationExecution η S)
      (moves : List (Move (ExecutionId × S.Input) (World η))) (w : World η) :
      (op.idling name place).executions moves w = op.executions moves w := by
    simp only [executions, execute_idling]
  refine ⟨op.execute_idling name place, ?_, hsame op, fun retrying => ⟨hsame _, ?_⟩⟩
  · intro fired id input
    simp only [executeUntil, execute_idling]
  · intro w id input result v' hrun
    change Run _ (((op.retrying retrying).idling name place).execute id input) _ _ _ at hrun
    rw [execute_idling] at hrun ⊢
    have hR (w : HandedWorld η S) (v : World η) (_ : True) : w.SameCalls (unwatched.set v w) := rfl
    exact op.noted_covers hR retrying id input w result v' hrun

theorem executions_ignore_idle_second_attempt :
    ∃ (v' : World Unit) (w' : HandedWorld Unit numberShape), Run (fun _ _ => True)
        (((echo.idling "Idler" 1).retrying (.standard StandardStrategy.twoAttempts)).execute 0 7)
        (unwatched.get (echoWorld : HandedWorld Unit numberShape)) (.returned (.ok 7)) v' ∧
      unwatched.get w' = v' ∧ Run World.SameCalls
        (((echo.noted (.standard StandardStrategy.twoAttempts)).idling "Idler" 1).execute 0 7)
        echoWorld (.returned (.ok 7)) w' := by
  obtain ⟨-, -, -, h⟩ := executions_ignore_idle echo "Idler" 1
  obtain ⟨-, seen⟩ := h (.standard StandardStrategy.twoAttempts)
  have run : Run (fun _ _ => True)
      (((echo.idling "Idler" 1).retrying (.standard StandardStrategy.twoAttempts)).execute 0 7)
      (unwatched.get (echoWorld : HandedWorld Unit numberShape)) (.returned (.ok 7)) _ :=
    Paused.run_of_ready (fun _ => trivial) 2 (by cbv)
  obtain ⟨w', hw', observed⟩ := seen _ _ _ _ _ run
  exact ⟨_, w', run, hw', observed⟩

end OperationExecution

end ClientRuntime
