import ClientRuntime.Proofs.Operation.Likeness
import ClientRuntime.Proofs.Retry.Course

/-!
Operations under observation. An observer stands between an operation and whoever it calls: the
hooks of its interceptors and its collaborators. Retrying is watched as it is by itself.
-/

namespace ClientRuntime

/-- Whom an operation calls: a hook of the interceptor in some place, or a collaborator. -/
inductive Party where
  | hook (stage : Stage) (place : Nat)
  | serializer
  | signer
  | transport
  | deserializer
  deriving DecidableEq

variable {η κ ρ ε γ ν : Type} {S : OperationShape}

def failure {α : Type} : Except ε α → Option ε
  | .ok _ => none
  | .error e => some e

@[simp] theorem failure_ok {α : Type} (a : α) : failure (.ok a : Except ε α) = none := rfl

@[simp] theorem failure_error {α : Type} (e : ε) : failure (.error e : Except ε α) = some e := rfl

@[simp] theorem failure_map {α β : Type} (f : α → β) (r : Except ε α) :
    failure (r.map f) = failure r := by
  cases r <;> rfl

/-- Makes calls on behalf of an operation. It is told who is called, which result is shown, and how
to tell the error of the call. -/
structure Observer (κ η : Type) (S : OperationShape) where
  watch {α : Type} : Party → Option S.Result → (α → Option S.Error) → Fiber (World η) α →
    Fiber (World (Journaled κ η)) α

namespace Observer

def check (o : Observer κ η S) (stage : Stage) (place : Nat) (shown : Option S.Result)
    (m : Check η S) : Check (Journaled κ η) S :=
  o.watch (.hook stage place) shown failure m

def change {δ : Type} (o : Observer κ η S) (stage : Stage) (place : Nat)
    (shown : Option S.Result) (m : Change η δ S) : Change (Journaled κ η) δ S :=
  o.watch (.hook stage place) shown (fun made => failure made.2) m

end Observer

def Interceptor.observed (o : Observer κ η S) (place : Nat) (i : Interceptor η S) :
    Interceptor (Journaled κ η) S where
  describe := i.describe
  readBeforeExecution v := o.check .readBeforeExecution place none (i.readBeforeExecution v)
  modifyBeforeSerialization v :=
    o.change .modifyBeforeSerialization place none (i.modifyBeforeSerialization v)
  readBeforeSerialization v :=
    o.check .readBeforeSerialization place none (i.readBeforeSerialization v)
  readAfterSerialization v :=
    o.check .readAfterSerialization place none (i.readAfterSerialization v)
  modifyBeforeRetryLoop v :=
    o.change .modifyBeforeRetryLoop place none (i.modifyBeforeRetryLoop v)
  readBeforeAttempt v := o.check .readBeforeAttempt place none (i.readBeforeAttempt v)
  modifyBeforeSigning v := o.change .modifyBeforeSigning place none (i.modifyBeforeSigning v)
  readBeforeSigning v := o.check .readBeforeSigning place none (i.readBeforeSigning v)
  readAfterSigning v := o.check .readAfterSigning place none (i.readAfterSigning v)
  modifyBeforeTransmit v := o.change .modifyBeforeTransmit place none (i.modifyBeforeTransmit v)
  readBeforeTransmit v := o.check .readBeforeTransmit place none (i.readBeforeTransmit v)
  readAfterTransmit v := o.check .readAfterTransmit place none (i.readAfterTransmit v)
  modifyBeforeDeserialization v :=
    o.change .modifyBeforeDeserialization place none (i.modifyBeforeDeserialization v)
  readBeforeDeserialization v :=
    o.check .readBeforeDeserialization place none (i.readBeforeDeserialization v)
  readAfterDeserialization v :=
    o.check .readAfterDeserialization place (some v.result) (i.readAfterDeserialization v)
  modifyBeforeAttemptCompletion v :=
    o.change .modifyBeforeAttemptCompletion place (some v.result)
      (i.modifyBeforeAttemptCompletion v)
  readAfterAttempt v := o.check .readAfterAttempt place (some v.result) (i.readAfterAttempt v)
  modifyBeforeCompletion v :=
    o.change .modifyBeforeCompletion place (some v.result) (i.modifyBeforeCompletion v)
  readAfterExecution v := o.check .readAfterExecution place (some v.result) (i.readAfterExecution v)

/-- Interceptors in their places, the first of which is given. -/
def Observer.interceptors (o : Observer κ η S) :
    Nat → List (Interceptor η S) → List (Interceptor (Journaled κ η) S)
  | _, [] => []
  | place, i :: is => i.observed o place :: o.interceptors (place + 1) is

def RetryStrategy.watchingAttempts (s : RetryStrategy (Journaled (RetryCall ρ ε γ) η) ρ ε ν) :
    RetryStrategy (Journaled (RetryCall ρ ε γ) η) ρ ε ν :=
  { s with retry := fun judge span attempt => s.retry judge span attempt.watched }

/-- The two ways to retry. -/
inductive Retrying (η : Type) where
  | standard (s : StandardStrategy η)
  | single

namespace Retrying

variable [OperationError ε]

def strategy : Retrying η → RetryStrategy η ρ ε ν
  | standard s => s.strategy
  | single => .single

def watched : Retrying η → RetryStrategy (Journaled (RetryCall ρ ε γ) η) ρ ε ν
  | standard s => s.watched.strategy.watchingAttempts
  | single => RetryStrategy.single.watchingAttempts

/-- The calls of attempts and between them, and what they come to. -/
inductive Course (body : AttemptBody ρ ε γ) :
    Retrying η → List (RetryCall ρ ε γ) → Outcome ρ ε → Prop where
  | standard {s calls o} : RetryCourse (max s.maxAttempts 1) body calls (some o) →
      Course body (.standard s) calls o
  | single {inner r d} : body 1 (some r) inner →
      Course body .single (.started 1 :: inner.map .within ++ [.finished 1 r, .judged r d])
        (.verdict 1 r d)

theorem course_of_run
    {R : World (Journaled (RetryCall ρ ε γ) η) → World (Journaled (RetryCall ρ ε γ) η) → Prop}
    (hR : ∀ w w', R w w' → w.SameCalls w') {body : AttemptBody ρ ε γ} (retrying : Retrying η)
    (judge : Judge (World η) ρ ε) (span : SpanId)
    {attempt : Attempt (Journaled (RetryCall ρ ε γ) η) ρ ε ν}
    (hbody : ∀ a, attempt.Makes R body (.returned a)) {w w' out}
    (h : Fiber.Run R (retrying.watched.retry judge.watched span attempt) w (.returned out) w') :
    ∃ calls, w'.calls = w.calls ++ calls ∧ retrying.Course body calls out.outcome := by
  cases retrying with
  | standard s =>
    replace h : Fiber.Run R (s.watched.retry judge.watched span attempt.watched) w
      (.returned out) w' := h
    obtain ⟨calls, hcalls, course⟩ :=
      StandardStrategy.retryCourse_of_run hR s judge span hbody (by simp [Ending.value?]) h
    exact ⟨calls, hcalls, .standard course⟩
  | single =>
    replace h : Fiber.Run R (RetryStrategy.retryOnce judge.watched span attempt.watched) w
      (.returned out) w' := h
    unfold RetryStrategy.retryOnce at h
    obtain ⟨⟨r, x⟩, w₁, hatt, h⟩ := Fiber.run_bind_returned.mp h
    obtain ⟨inner, hin, hcalls⟩ := StandardStrategy.calls_attempt (hbody _) 1 hatt
    simp only [Fiber.run_modifyGet_bind, Fiber.run_modify_bind, Fiber.run_pure,
      Ending.returned.injEq] at h
    obtain ⟨rfl, rfl⟩ := h
    let d := (judge.watched r w₁).1
    refine ⟨.started 1 :: inner.map .within ++ [.finished 1 r, .judged r d], ?_, ?_⟩
    · simp [(World.say_traced ..).calls, hcalls, Ending.value?, d]
    · simpa only [Outcome.conclude_eq_verdict] using Course.single hin

end Retrying

namespace OperationExecution

/-- The operation with one of the two ways to retry. -/
def retrying (op : OperationExecution η S) (retrying : Retrying η) : OperationExecution η S :=
  { op with strategy := retrying.strategy }

/-- The operation under observation, with a watched strategy. -/
def observed (op : OperationExecution η S)
    (o : Observer (RetryCall S.Output S.Error γ) η S)
    (strategy : RetryStrategy (Journaled (RetryCall S.Output S.Error γ) η) S.Output S.Error
      (Exchange S)) : OperationExecution (Journaled (RetryCall S.Output S.Error γ) η) S where
  serialize id input := o.watch .serializer none failure (op.serialize id input)
  sign id request := o.watch .signer none (fun made => failure made.2) (op.sign id request)
  send id request := o.watch .transport none failure (op.send id request)
  deserialize id response := o.watch .deserializer none failure (op.deserialize id response)
  interceptors := o.interceptors 0 op.interceptors
  strategy := strategy
  judge := op.judge.watched

end OperationExecution

section Like

variable {η' : Type} {id : ExecutionId}
  {P : ∀ α : Type, Fiber (World η) α → Fiber (World η') α → Prop}

/-- If calls are alike when they are watched, so are hooks under observation, -/
theorem Interceptor.Like.observed {i : Interceptor η S} {i' : Interceptor η' S}
    (h : i.Like P id i') {o : Observer κ η S}
    {Q : ∀ α : Type, Fiber (World (Journaled κ η)) α → Fiber (World η') α → Prop}
    (ho : ∀ {α : Type} party shown error {m : Fiber (World η) α} {m' : Fiber (World η') α},
      P α m m' → Q α (o.watch party shown error m) m') (place : Nat) :
    (i.observed o place).Like Q id i' where
  readBeforeExecution v hv := ho _ _ _ (h.readBeforeExecution v hv)
  modifyBeforeSerialization v hv := ho _ _ _ (h.modifyBeforeSerialization v hv)
  readBeforeSerialization v hv := ho _ _ _ (h.readBeforeSerialization v hv)
  readAfterSerialization v hv := ho _ _ _ (h.readAfterSerialization v hv)
  modifyBeforeRetryLoop v hv := ho _ _ _ (h.modifyBeforeRetryLoop v hv)
  readBeforeAttempt v hv := ho _ _ _ (h.readBeforeAttempt v hv)
  modifyBeforeSigning v hv := ho _ _ _ (h.modifyBeforeSigning v hv)
  readBeforeSigning v hv := ho _ _ _ (h.readBeforeSigning v hv)
  readAfterSigning v hv := ho _ _ _ (h.readAfterSigning v hv)
  modifyBeforeTransmit v hv := ho _ _ _ (h.modifyBeforeTransmit v hv)
  readBeforeTransmit v hv := ho _ _ _ (h.readBeforeTransmit v hv)
  readAfterTransmit v hv := ho _ _ _ (h.readAfterTransmit v hv)
  modifyBeforeDeserialization v hv := ho _ _ _ (h.modifyBeforeDeserialization v hv)
  readBeforeDeserialization v hv := ho _ _ _ (h.readBeforeDeserialization v hv)
  readAfterDeserialization v hv := ho _ _ _ (h.readAfterDeserialization v hv)
  modifyBeforeAttemptCompletion v hv := ho _ _ _ (h.modifyBeforeAttemptCompletion v hv)
  readAfterAttempt v hv := ho _ _ _ (h.readAfterAttempt v hv)
  modifyBeforeCompletion v hv := ho _ _ _ (h.modifyBeforeCompletion v hv)
  readAfterExecution v hv := ho _ _ _ (h.readAfterExecution v hv)

/-- and so are operations. -/
theorem OperationExecution.Like.observed {op : OperationExecution η S}
    {op' : OperationExecution η' S} (h : op.Like P id op')
    {o : Observer (RetryCall S.Output S.Error γ) η S}
    {Q : ∀ α : Type, Fiber (World (Journaled (RetryCall S.Output S.Error γ) η)) α →
      Fiber (World η') α → Prop}
    (ho : ∀ {α : Type} party shown error {m : Fiber (World η) α} {m' : Fiber (World η') α},
      P α m m' → Q α (o.watch party shown error m) m') (strategy) :
    (op.observed o strategy).Like Q id op' where
  serialize input := ho _ _ _ (h.serialize input)
  sign request := ho _ _ _ (h.sign request)
  send request := ho _ _ _ (h.send request)
  deserialize response := ho _ _ _ (h.deserialize response)
  hooks := by
    have places (place : Nat) : List.Forall₂ (Interceptor.Like Q id)
        (o.interceptors place op.interceptors) op'.interceptors := by
      have hooks := h.hooks
      generalize op.interceptors = is at hooks ⊢
      generalize op'.interceptors = is' at hooks ⊢
      induction hooks generalizing place with
      | nil => exact .nil
      | cons hi _ ih => exact .cons (hi.observed ho place) (ih (place + 1))
    exact places 0

end Like

end ClientRuntime
