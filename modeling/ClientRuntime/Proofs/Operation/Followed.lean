import ClientRuntime.Proofs.Operation.Noted

/-!
Operations whose requests and responses are followed. Before every call of a hook or a collaborator,
what it is given is written to a journal; after it, what it leaves of a request or a response.
-/

namespace ClientRuntime

open ClientRuntime.Fiber
open World (unwatched)

variable {η κ α : Type} {S : OperationShape} {id : ExecutionId}

/-- What passes between an operation and those it calls. -/
inductive Passage (S : OperationShape) where
  | handed (c : Handed S)
  /-- The request that the serializer, the signer or a hook hands on, if any. -/
  | request (left : Option S.Request)
  /-- The response that the transport or a hook hands on, if any. -/
  | response (left : Option S.Response)

abbrev FollowedCall (S : OperationShape) := RetryCall S.Output S.Error (Passage S)

/-- The world of an operation whose requests and responses are followed. -/
abbrev FollowedWorld (η : Type) (S : OperationShape) := World (Journaled (FollowedCall S) η)

/-- A strategy that may write to the journal too. -/
abbrev FollowedStrategy (η : Type) (S : OperationShape) :=
  RetryStrategy (Journaled (FollowedCall S) η) S.Output S.Error (Exchange S)

/-- A call that is noted before it is made, and then what it leaves. -/
def Fiber.followed (c : κ) (left : α → κ) (m : Fiber (World η) α) :
    Fiber (World (Journaled κ η)) α := do
  Fiber.modify (·.record c)
  m.watched left

namespace FollowedCall

def handed (c : Handed S) : FollowedCall S := .within (.handed c)

/-- A hook or the signer leaves a request also when it fails. -/
def request {ε : Type} (made : S.Request × ε) : FollowedCall S := .within (.request (some made.1))

def response {ε : Type} (made : S.Response × ε) : FollowedCall S :=
  .within (.response (some made.1))

end FollowedCall

open FollowedCall

def Interceptor.followed (place : Nat) (i : Interceptor η S) :
    Interceptor (Journaled (FollowedCall S) η) S where
  describe := i.describe
  readBeforeExecution v :=
    (i.readBeforeExecution v).noted (handed (.hook .readBeforeExecution place (.input v)))
  modifyBeforeSerialization v :=
    (i.modifyBeforeSerialization v).noted
      (handed (.hook .modifyBeforeSerialization place (.input v)))
  readBeforeSerialization v :=
    (i.readBeforeSerialization v).noted (handed (.hook .readBeforeSerialization place (.input v)))
  readAfterSerialization v :=
    (i.readAfterSerialization v).noted (handed (.hook .readAfterSerialization place (.request v)))
  modifyBeforeRetryLoop v :=
    (i.modifyBeforeRetryLoop v).followed
      (handed (.hook .modifyBeforeRetryLoop place (.request v))) request
  readBeforeAttempt v :=
    (i.readBeforeAttempt v).noted (handed (.hook .readBeforeAttempt place (.request v)))
  modifyBeforeSigning v :=
    (i.modifyBeforeSigning v).followed
      (handed (.hook .modifyBeforeSigning place (.request v))) request
  readBeforeSigning v :=
    (i.readBeforeSigning v).noted (handed (.hook .readBeforeSigning place (.request v)))
  readAfterSigning v :=
    (i.readAfterSigning v).noted (handed (.hook .readAfterSigning place (.request v)))
  modifyBeforeTransmit v :=
    (i.modifyBeforeTransmit v).followed
      (handed (.hook .modifyBeforeTransmit place (.request v))) request
  readBeforeTransmit v :=
    (i.readBeforeTransmit v).noted (handed (.hook .readBeforeTransmit place (.request v)))
  readAfterTransmit v :=
    (i.readAfterTransmit v).noted (handed (.hook .readAfterTransmit place (.response v)))
  modifyBeforeDeserialization v :=
    (i.modifyBeforeDeserialization v).followed
      (handed (.hook .modifyBeforeDeserialization place (.response v))) response
  readBeforeDeserialization v :=
    (i.readBeforeDeserialization v).noted
      (handed (.hook .readBeforeDeserialization place (.response v)))
  readAfterDeserialization v :=
    (i.readAfterDeserialization v).noted
      (handed (.hook .readAfterDeserialization place (.result v)))
  modifyBeforeAttemptCompletion v :=
    (i.modifyBeforeAttemptCompletion v).noted
      (handed (.hook .modifyBeforeAttemptCompletion place (.result v)))
  readAfterAttempt v :=
    (i.readAfterAttempt v).noted (handed (.hook .readAfterAttempt place (.result v)))
  modifyBeforeCompletion v :=
    (i.modifyBeforeCompletion v).noted (handed (.hook .modifyBeforeCompletion place (.result v)))
  readAfterExecution v :=
    (i.readAfterExecution v).noted (handed (.hook .readAfterExecution place (.result v)))

/-- Interceptors in their places, the first of which is given. -/
def Interceptor.followedFrom :
    Nat → List (Interceptor η S) → List (Interceptor (Journaled (FollowedCall S) η) S)
  | _, [] => []
  | place, i :: is => i.followed place :: followedFrom (place + 1) is

/-- The operation with its requests and responses followed. -/
def OperationExecution.followed (op : OperationExecution η S) (strategy : FollowedStrategy η S) :
    OperationExecution (Journaled (FollowedCall S) η) S where
  serialize id input :=
    (op.serialize id input).followed (handed (.serializer id input))
      fun answer => .within (.request answer.toOption)
  sign id given := (op.sign id given).followed (handed (.signer id given)) request
  send id request :=
    (op.send id request).followed (handed (.transport id request))
      fun answer => .within (.response answer.toOption)
  deserialize id response :=
    (op.deserialize id response).noted (handed (.deserializer id response))
  interceptors := Interceptor.followedFrom 0 op.interceptors
  strategy := strategy
  judge := op.judge.watched

section Like

variable {η' : Type} {P : ∀ α : Type, Fiber (World η) α → Fiber (World η') α → Prop}
  {Q : ∀ α : Type, Fiber (FollowedWorld η S) α → Fiber (World η') α → Prop}

/-- If calls are alike when they are followed, so are hooks, -/
theorem Interceptor.Like.followed {i : Interceptor η S} {i' : Interceptor η' S} (h : i.Like P id i')
    (hnoted : ∀ {α : Type} (c : FollowedCall S) {m : Fiber (World η) α} {m' : Fiber (World η') α},
      P α m m' → Q α (m.noted c) m')
    (hfollowed : ∀ {α : Type} (c : FollowedCall S) (left : α → FollowedCall S)
      {m : Fiber (World η) α} {m' : Fiber (World η') α}, P α m m' → Q α (m.followed c left) m')
    (place : Nat) : (i.followed place).Like Q id i' where
  readBeforeExecution v hv := hnoted _ (h.readBeforeExecution v hv)
  modifyBeforeSerialization v hv := hnoted _ (h.modifyBeforeSerialization v hv)
  readBeforeSerialization v hv := hnoted _ (h.readBeforeSerialization v hv)
  readAfterSerialization v hv := hnoted _ (h.readAfterSerialization v hv)
  modifyBeforeRetryLoop v hv := hfollowed _ _ (h.modifyBeforeRetryLoop v hv)
  readBeforeAttempt v hv := hnoted _ (h.readBeforeAttempt v hv)
  modifyBeforeSigning v hv := hfollowed _ _ (h.modifyBeforeSigning v hv)
  readBeforeSigning v hv := hnoted _ (h.readBeforeSigning v hv)
  readAfterSigning v hv := hnoted _ (h.readAfterSigning v hv)
  modifyBeforeTransmit v hv := hfollowed _ _ (h.modifyBeforeTransmit v hv)
  readBeforeTransmit v hv := hnoted _ (h.readBeforeTransmit v hv)
  readAfterTransmit v hv := hnoted _ (h.readAfterTransmit v hv)
  modifyBeforeDeserialization v hv := hfollowed _ _ (h.modifyBeforeDeserialization v hv)
  readBeforeDeserialization v hv := hnoted _ (h.readBeforeDeserialization v hv)
  readAfterDeserialization v hv := hnoted _ (h.readAfterDeserialization v hv)
  modifyBeforeAttemptCompletion v hv := hnoted _ (h.modifyBeforeAttemptCompletion v hv)
  readAfterAttempt v hv := hnoted _ (h.readAfterAttempt v hv)
  modifyBeforeCompletion v hv := hnoted _ (h.modifyBeforeCompletion v hv)
  readAfterExecution v hv := hnoted _ (h.readAfterExecution v hv)

/-- and so are operations. -/
theorem OperationExecution.Like.followed {op : OperationExecution η S}
    {op' : OperationExecution η' S} (h : op.Like P id op')
    (hnoted : ∀ {α : Type} (c : FollowedCall S) {m : Fiber (World η) α} {m' : Fiber (World η') α},
      P α m m' → Q α (m.noted c) m')
    (hfollowed : ∀ {α : Type} (c : FollowedCall S) (left : α → FollowedCall S)
      {m : Fiber (World η) α} {m' : Fiber (World η') α}, P α m m' → Q α (m.followed c left) m')
    (strategy : FollowedStrategy η S) : (op.followed strategy).Like Q id op' where
  serialize input := hfollowed _ _ (h.serialize input)
  sign request := hfollowed _ _ (h.sign request)
  send request := hfollowed _ _ (h.send request)
  deserialize response := hnoted _ (h.deserialize response)
  hooks := by
    have places (place : Nat) : List.Forall₂ (Interceptor.Like Q id)
        (Interceptor.followedFrom place op.interceptors) op'.interceptors := by
      have hooks := h.hooks
      generalize op.interceptors = is at hooks ⊢
      generalize op'.interceptors = is' at hooks ⊢
      induction hooks generalizing place with
      | nil => exact .nil
      | cons hi _ ih => exact .cons (hi.followed hnoted hfollowed place) (ih (place + 1))
    exact places 0

end Like

/-- Every execution that returns can be seen with its requests and responses followed. -/
theorem OperationExecution.followed_covers {R : FollowedWorld η S → FollowedWorld η S → Prop}
    {R' : World η → World η → Prop}
    (hR : ∀ w v, R' (unwatched.get w) v → R w (unwatched.set v w)) (op : OperationExecution η S)
    {strategy : FollowedStrategy η S} (hstrategy : strategy.Covering R R' op.strategy)
    (id : ExecutionId) (input : S.Input) :
    ((op.followed strategy).execute id input).Covers unwatched R R' (fun a => a)
      (op.execute id input) := by
  have hlike := (Like.refl id op).followed
    (Q := fun _ m m' => m.Covers unwatched R R' (fun a => a) m')
    (fun c m m' hm => hm ▸ .beside (fun _ => rfl) (.along hR m))
    (fun c left m m' hm => hm ▸ .beside (fun _ => rfl) (watched_covers hR left m)) strategy
  exact hlike.execute covers_likeness input (hstrategy op.judge)

end ClientRuntime
