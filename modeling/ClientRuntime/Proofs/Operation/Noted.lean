import ClientRuntime.Proofs.Operation.Unobserved

/-!
Operations that note what they hand over. Before every call of a hook or a collaborator, what it is
given is written to a journal; then the call is made as it is.
-/

namespace ClientRuntime

open ClientRuntime.Fiber
open World (unwatched)

variable {η κ α : Type} {S : OperationShape} {id : ExecutionId}

/-- What a hook is given. -/
inductive View (S : OperationShape) where
  | input (v : InputView S)
  | request (v : RequestView S)
  | response (v : ResponseView S)
  | result (v : ResultView S)

/-- Who is called, and with what. -/
inductive Handed (S : OperationShape) where
  /-- A hook of the interceptor in some place. -/
  | hook (stage : Stage) (place : Nat) (v : View S)
  | serializer (id : ExecutionId) (input : S.Input)
  | signer (id : ExecutionId) (request : S.Request)
  | transport (id : ExecutionId) (request : S.Request)
  | deserializer (id : ExecutionId) (response : S.Response)

/-- Everything that an operation asks for and hands over, its retry loop included. -/
abbrev HandedCall (S : OperationShape) := RetryCall S.Output S.Error (Handed S)

/-- The world of an operation that notes what it hands over. -/
abbrev HandedWorld (η : Type) (S : OperationShape) := World (Journaled (HandedCall S) η)

/-- A call that is noted before it is made. -/
def Fiber.noted (c : κ) (m : Fiber (World η) α) : Fiber (World (Journaled κ η)) α := do
  Fiber.modify (·.record c)
  m.along unwatched

def Interceptor.noted (place : Nat) (i : Interceptor η S) :
    Interceptor (Journaled (HandedCall S) η) S where
  describe := i.describe
  readBeforeExecution v :=
    (i.readBeforeExecution v).noted (.within (.hook .readBeforeExecution place (.input v)))
  modifyBeforeSerialization v :=
    (i.modifyBeforeSerialization v).noted
      (.within (.hook .modifyBeforeSerialization place (.input v)))
  readBeforeSerialization v :=
    (i.readBeforeSerialization v).noted (.within (.hook .readBeforeSerialization place (.input v)))
  readAfterSerialization v :=
    (i.readAfterSerialization v).noted (.within (.hook .readAfterSerialization place (.request v)))
  modifyBeforeRetryLoop v :=
    (i.modifyBeforeRetryLoop v).noted (.within (.hook .modifyBeforeRetryLoop place (.request v)))
  readBeforeAttempt v :=
    (i.readBeforeAttempt v).noted (.within (.hook .readBeforeAttempt place (.request v)))
  modifyBeforeSigning v :=
    (i.modifyBeforeSigning v).noted (.within (.hook .modifyBeforeSigning place (.request v)))
  readBeforeSigning v :=
    (i.readBeforeSigning v).noted (.within (.hook .readBeforeSigning place (.request v)))
  readAfterSigning v :=
    (i.readAfterSigning v).noted (.within (.hook .readAfterSigning place (.request v)))
  modifyBeforeTransmit v :=
    (i.modifyBeforeTransmit v).noted (.within (.hook .modifyBeforeTransmit place (.request v)))
  readBeforeTransmit v :=
    (i.readBeforeTransmit v).noted (.within (.hook .readBeforeTransmit place (.request v)))
  readAfterTransmit v :=
    (i.readAfterTransmit v).noted (.within (.hook .readAfterTransmit place (.response v)))
  modifyBeforeDeserialization v :=
    (i.modifyBeforeDeserialization v).noted
      (.within (.hook .modifyBeforeDeserialization place (.response v)))
  readBeforeDeserialization v :=
    (i.readBeforeDeserialization v).noted
      (.within (.hook .readBeforeDeserialization place (.response v)))
  readAfterDeserialization v :=
    (i.readAfterDeserialization v).noted
      (.within (.hook .readAfterDeserialization place (.result v)))
  modifyBeforeAttemptCompletion v :=
    (i.modifyBeforeAttemptCompletion v).noted
      (.within (.hook .modifyBeforeAttemptCompletion place (.result v)))
  readAfterAttempt v :=
    (i.readAfterAttempt v).noted (.within (.hook .readAfterAttempt place (.result v)))
  modifyBeforeCompletion v :=
    (i.modifyBeforeCompletion v).noted (.within (.hook .modifyBeforeCompletion place (.result v)))
  readAfterExecution v :=
    (i.readAfterExecution v).noted (.within (.hook .readAfterExecution place (.result v)))

/-- Interceptors in their places, the first of which is given. -/
def Interceptor.notedFrom :
    Nat → List (Interceptor η S) → List (Interceptor (Journaled (HandedCall S) η) S)
  | _, [] => []
  | place, i :: is => i.noted place :: notedFrom (place + 1) is

/-- The operation with every call noted, and with a watched strategy. -/
def OperationExecution.noted (op : OperationExecution η S) (retrying : Retrying η) :
    OperationExecution (Journaled (HandedCall S) η) S where
  serialize id input := (op.serialize id input).noted (.within (.serializer id input))
  sign id request := (op.sign id request).noted (.within (.signer id request))
  send id request := (op.send id request).noted (.within (.transport id request))
  deserialize id response :=
    (op.deserialize id response).noted (.within (.deserializer id response))
  interceptors := Interceptor.notedFrom 0 op.interceptors
  strategy := retrying.watched
  judge := op.judge.watched

section Like

variable {η' : Type} {P : ∀ α : Type, Fiber (World η) α → Fiber (World η') α → Prop}
  {Q : ∀ α : Type, Fiber (HandedWorld η S) α → Fiber (World η') α → Prop}

/-- If calls are alike when they are noted, so are hooks, -/
theorem Interceptor.Like.noted {i : Interceptor η S} {i' : Interceptor η' S} (h : i.Like P id i')
    (hnoted : ∀ {α : Type} (c : HandedCall S) {m : Fiber (World η) α} {m' : Fiber (World η') α},
      P α m m' → Q α (m.noted c) m') (place : Nat) : (i.noted place).Like Q id i' where
  readBeforeExecution v hv := hnoted _ (h.readBeforeExecution v hv)
  modifyBeforeSerialization v hv := hnoted _ (h.modifyBeforeSerialization v hv)
  readBeforeSerialization v hv := hnoted _ (h.readBeforeSerialization v hv)
  readAfterSerialization v hv := hnoted _ (h.readAfterSerialization v hv)
  modifyBeforeRetryLoop v hv := hnoted _ (h.modifyBeforeRetryLoop v hv)
  readBeforeAttempt v hv := hnoted _ (h.readBeforeAttempt v hv)
  modifyBeforeSigning v hv := hnoted _ (h.modifyBeforeSigning v hv)
  readBeforeSigning v hv := hnoted _ (h.readBeforeSigning v hv)
  readAfterSigning v hv := hnoted _ (h.readAfterSigning v hv)
  modifyBeforeTransmit v hv := hnoted _ (h.modifyBeforeTransmit v hv)
  readBeforeTransmit v hv := hnoted _ (h.readBeforeTransmit v hv)
  readAfterTransmit v hv := hnoted _ (h.readAfterTransmit v hv)
  modifyBeforeDeserialization v hv := hnoted _ (h.modifyBeforeDeserialization v hv)
  readBeforeDeserialization v hv := hnoted _ (h.readBeforeDeserialization v hv)
  readAfterDeserialization v hv := hnoted _ (h.readAfterDeserialization v hv)
  modifyBeforeAttemptCompletion v hv := hnoted _ (h.modifyBeforeAttemptCompletion v hv)
  readAfterAttempt v hv := hnoted _ (h.readAfterAttempt v hv)
  modifyBeforeCompletion v hv := hnoted _ (h.modifyBeforeCompletion v hv)
  readAfterExecution v hv := hnoted _ (h.readAfterExecution v hv)

/-- and so are operations. -/
theorem OperationExecution.Like.noted {op : OperationExecution η S}
    {op' : OperationExecution η' S} (h : op.Like P id op')
    (hnoted : ∀ {α : Type} (c : HandedCall S) {m : Fiber (World η) α} {m' : Fiber (World η') α},
      P α m m' → Q α (m.noted c) m') (retrying : Retrying η) :
    (op.noted retrying).Like Q id op' where
  serialize input := hnoted _ (h.serialize input)
  sign request := hnoted _ (h.sign request)
  send request := hnoted _ (h.send request)
  deserialize response := hnoted _ (h.deserialize response)
  hooks := by
    have places (place : Nat) : List.Forall₂ (Interceptor.Like Q id)
        (Interceptor.notedFrom place op.interceptors) op'.interceptors := by
      have hooks := h.hooks
      generalize op.interceptors = is at hooks ⊢
      generalize op'.interceptors = is' at hooks ⊢
      induction hooks generalizing place with
      | nil => exact .nil
      | cons hi _ ih => exact .cons (hi.noted hnoted place) (ih (place + 1))
    exact places 0

end Like

/-- Every execution that returns can be seen with its calls noted. -/
theorem OperationExecution.noted_covers {R : HandedWorld η S → HandedWorld η S → Prop}
    {R' : World η → World η → Prop}
    (hR : ∀ w v, R' (unwatched.get w) v → R w (unwatched.set v w)) (op : OperationExecution η S)
    (retrying : Retrying η) (id : ExecutionId) (input : S.Input) :
    ((op.noted retrying).execute id input).Covers unwatched R R' (fun a => a)
      ((op.retrying retrying).execute id input) := by
  have hlike := (Like.refl id (op.retrying retrying)).noted
    (Q := fun _ m m' => m.Covers unwatched R R' (fun a => a) m')
    (fun c m m' hm => hm ▸ .beside (fun _ => rfl) (.along hR m)) retrying
  exact hlike.execute covers_likeness input (retrying.watched_covering hR op.judge)

end ClientRuntime
