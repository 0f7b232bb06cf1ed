import ClientRuntime.Proofs.Fiber.Yields
import ClientRuntime.Proofs.Operation.Unobserved
import ClientRuntime.Proofs.Retry.Progress

/-!
The order of an operation's calls. At some stages every interceptor is called, at the others they
are called up to the first error; an error before the attempts leads to completion, and one within
an attempt to the end of the attempt. Every execution that returns follows this order.
-/

namespace ClientRuntime

variable {η : Type} {S : OperationShape}

structure PipelineCall (S : OperationShape) where
  party : Party
  failure : Option S.Error

/-- A stretch of an operation: the calls it makes, and the error it ends with. -/
abbrev Phase (S : OperationShape) := List (PipelineCall S) → Option S.Error → Prop

namespace Phase

/-- One call of a collaborator. -/
def single (party : Party) : Phase S := fun calls error => calls = [⟨party, error⟩]

/-- The interceptors from some place on, so many of them, whatever the others do. The last error is
in force; the one so far comes first. -/
inductive EveryoneFrom (stage : Stage) : Nat → Nat → Option S.Error → Phase S where
  | done {place latest} : EveryoneFrom stage place 0 latest [] latest
  | passed {place left latest calls last} :
      EveryoneFrom stage (place + 1) left latest calls last →
      EveryoneFrom stage place (left + 1) latest (⟨.hook stage place, none⟩ :: calls) last
  | failed {place left latest e calls last} :
      EveryoneFrom stage (place + 1) left (some e) calls last →
      EveryoneFrom stage place (left + 1) latest (⟨.hook stage place, some e⟩ :: calls) last

/-- The interceptors from some place on, so many of them, up to the first error. -/
inductive UntilErrorFrom (stage : Stage) : Nat → Nat → Phase S where
  | done {place} : UntilErrorFrom stage place 0 [] none
  | passed {place left calls error} : UntilErrorFrom stage (place + 1) left calls error →
      UntilErrorFrom stage place (left + 1) (⟨.hook stage place, none⟩ :: calls) error
  | failed {place left e} :
      UntilErrorFrom stage place (left + 1) [⟨.hook stage place, some e⟩] (some e)

def everyone (count : Nat) (stage : Stage) : Phase S := EveryoneFrom stage 0 count none

def untilError (count : Nat) (stage : Stage) : Phase S := UntilErrorFrom stage 0 count

/-- Phases in order, up to the first error. -/
inductive Chain : List (Phase S) → Phase S where
  | nil : Chain [] [] none
  | stopped {p ps calls e} : p calls (some e) → Chain (p :: ps) calls (some e)
  | next {p ps calls calls' error} : p calls none → Chain ps calls' error →
      Chain (p :: ps) (calls ++ calls') error

/-- Up to the attempts. -/
def preparation (count : Nat) : Phase S :=
  Chain
    [everyone count .readBeforeExecution,
      untilError count .modifyBeforeSerialization,
      untilError count .readBeforeSerialization,
      single .serializer,
      untilError count .readAfterSerialization,
      untilError count .modifyBeforeRetryLoop]

/-- Within an attempt, up to deserialization. -/
def transmission (count : Nat) : Phase S :=
  Chain
    [everyone count .readBeforeAttempt,
      untilError count .modifyBeforeSigning,
      untilError count .readBeforeSigning,
      single .signer,
      untilError count .readAfterSigning,
      untilError count .modifyBeforeTransmit,
      untilError count .readBeforeTransmit,
      single .transport,
      untilError count .readAfterTransmit,
      untilError count .modifyBeforeDeserialization,
      untilError count .readBeforeDeserialization]

/-- After the attempts. An error makes no difference to the calls. -/
inductive Completion (count : Nat) : List (PipelineCall S) → Prop where
  | intro {revised read error error'} : everyone count .modifyBeforeCompletion revised error →
      everyone count .readAfterExecution read error' → Completion count (revised ++ read)

end Phase

open Phase

/-- The calls of an attempt that comes to a result. -/
inductive AttemptOrder (count : Nat) : List (PipelineCall S) → Prop where
  /-- An error before deserialization leads to the end of the attempt. -/
  | jumped {sent e ended error} : transmission count sent (some e) →
      everyone count .readAfterAttempt ended error → AttemptOrder count (sent ++ ended)
  /-- An error of the deserializer leads nowhere else, but one that follows it does. -/
  | overruled {sent deserialized read e ended error} : transmission count sent none →
      untilError count .readAfterDeserialization read (some e) →
      everyone count .readAfterAttempt ended error →
      AttemptOrder count (sent ++ ⟨.deserializer, deserialized⟩ :: (read ++ ended))
  | completed {sent deserialized read revised error ended error'} :
      transmission count sent none →
      untilError count .readAfterDeserialization read none →
      everyone count .modifyBeforeAttemptCompletion revised error →
      everyone count .readAfterAttempt ended error' →
      AttemptOrder count (sent ++ ⟨.deserializer, deserialized⟩ :: (read ++ revised ++ ended))

/-- Attempts are complete where they have a result. -/
def AttemptOrder.body (count : Nat) : AttemptBody S.Output S.Error (PipelineCall S) :=
  fun _ result calls => result.isSome → AttemptOrder count calls

/-- The calls of an execution that returns. -/
inductive ExecutionOrder (count : Nat) (retrying : Retrying η) :
    List (RetryCall S.Output S.Error (PipelineCall S)) → Prop where
  /-- An error before the attempts: nobody asks for a token and there is no attempt. -/
  | unprepared {before e after} : preparation count before (some e) → Completion count after →
      ExecutionOrder count retrying (before.map .within ++ after.map .within)
  | retried {before loop outcome after} : preparation count before none →
      retrying.Course (AttemptOrder.body count) loop outcome → Completion count after →
      ExecutionOrder count retrying (before.map .within ++ loop ++ after.map .within)

/-- Notes every call with its error. -/
def PipelineCall.noted : Observer (RetryCall S.Output S.Error (PipelineCall S)) η S where
  watch party _ error m := m.watched fun a => .within ⟨party, error a⟩

/-- The world of an operation under observation. -/
abbrev ObservedWorld (η : Type) (S : OperationShape) (γ : Type) :=
  World (Journaled (RetryCall S.Output S.Error γ) η)

/-- The world of an operation whose calls are noted. -/
abbrev OrderWorld (η : Type) (S : OperationShape) :=
  World (Journaled (RetryCall S.Output S.Error (PipelineCall S)) η)

variable {γ : Type} {call? : γ → Option (PipelineCall S)}

/-- Notes of calls within the operation are all that is added to the journal. `call?` tells
the calls from other notes. -/
def Growth.calls (call? : γ → Option (PipelineCall S)) :
    Growth (ObservedWorld η S γ) (PipelineCall S) where
  grew calls w w' :=
    ∃ notes, w'.calls = w.calls ++ notes.map .within ∧ notes.filterMap call? = calls
  still _ := ⟨[], by simp, rfl⟩
  append := by
    rintro calls calls' w w₁ w₂ ⟨notes, hnotes, rfl⟩ ⟨notes', hnotes', rfl⟩
    exact ⟨notes ++ notes', by simp [hnotes', hnotes], List.filterMap_append⟩

/-- All that is added to the journal. -/
def Growth.journal : Growth (OrderWorld η S) (RetryCall S.Output S.Error (PipelineCall S)) where
  grew calls w w' := w'.calls = w.calls ++ calls
  still _ := by simp
  append h h' := by rw [h', h, List.append_assoc]

/-- The observer notes every call, with its error, when it has a value. -/
def Observer.Notes (call? : γ → Option (PipelineCall S))
    (R : ObservedWorld η S γ → ObservedWorld η S γ → Prop)
    (o : Observer (RetryCall S.Output S.Error γ) η S) : Prop :=
  ∀ ⦃α : Type⦄ (party : Party) (shown : Option S.Result) (error : α → Option S.Error)
    (m : Fiber (World η) α),
    (o.watch party shown error m).Yields (.calls call?) R fun calls a => calls = [⟨party, error a⟩]

theorem PipelineCall.noted_notes {R : OrderWorld η S → OrderWorld η S → Prop}
    (hR : ∀ w w', R w w' → w.SameCalls w') : PipelineCall.noted.Notes some R := by
  intro α party shown error m w a w' h
  exact ⟨[⟨party, error a⟩], ⟨[⟨party, error a⟩], h.watched_returned hR, rfl⟩, rfl⟩

section Runs

open ClientRuntime.Fiber

variable {α δ : Type} {R : ObservedWorld η S γ → ObservedWorld η S γ → Prop}
  {o : Observer (RetryCall S.Output S.Error γ) η S} {id : ExecutionId}
  {stage : Stage} {place : Nat} {is : List (Interceptor η S)}

theorem Growth.calls_traced {w w' : ObservedWorld η S γ} (h : w.TracedTo w') :
    (Growth.calls call?).grew [] w w' := ⟨[], by simpa using h.calls, rfl⟩

/-- Calls within the operation as they stand in the journal. -/
theorem Fiber.Yields.within {R : OrderWorld η S → OrderWorld η S → Prop}
    {m : Fiber (OrderWorld η S) α} {P : List (PipelineCall S) → α → Prop}
    (h : m.Yields (.calls some) R P) :
    m.Yields .journal R fun calls a => ∃ inner, calls = inner.map .within ∧ P inner a := by
  intro w a w' hrun
  obtain ⟨_, ⟨inner, hcalls, rfl⟩, hP⟩ := h _ _ _ hrun
  rw [List.filterMap_some] at hP
  exact ⟨inner.map .within, hcalls, inner, rfl, hP⟩

theorem Growth.calls_suppress (error : S.Error) (w : ObservedWorld η S γ) :
    (Growth.calls call?).grew [] w
      (w.suppress id stage.name (OperationError.message error)) := by
  have h : (w.suppress id stage.name (OperationError.message error)).calls = w.calls :=
    (World.say_traced w _ _ _ _ _).calls
  exact ⟨[], by simpa using h, rfl⟩

/-- A step goes through a phase. -/
def Step.Through (call? : γ → Option (PipelineCall S))
    (R : ObservedWorld η S γ → ObservedWorld η S γ → Prop)
    (step : Step (Journaled (RetryCall S.Output S.Error γ) η) δ S) (p : Phase S) : Prop :=
  ∀ d, Yields (.calls call?) R (step d) fun calls made => p calls (failure made.2)

theorem Step.nil_through : Through call? R (Step.sequence ([] : List (Step _ δ S))) (Chain []) :=
  fun _ => .pure .nil

theorem Step.cons_through {step : Step _ δ S} {steps : List (Step _ δ S)} {p : Phase S}
    {ps : List (Phase S)} (hstep : step.Through call? R p)
    (hsteps : (Step.sequence steps).Through call? R (Chain ps)) :
    (Step.sequence (step :: steps)).Through call? R (Chain (p :: ps)) := by
  intro d
  refine (hstep d).bind fun calls ⟨d', passed⟩ hp => ?_
  cases passed with
  | error e => exact .pure (by simpa using Chain.stopped hp)
  | ok => exact (hsteps d').imp fun _ _ h => .next hp h

theorem Step.ofCheck_through {check : δ → Check _ S} {p : Phase S}
    (h : ∀ d, Yields (.calls call?) R (check d) fun calls passed => p calls (failure passed)) :
    (Step.ofCheck check).Through call? R p := by
  intro d
  exact (h d).bind fun calls passed hp => .pure (by simpa using hp)

/-- Hooks that are run in sequence are called up to the first error. -/
theorem sequence_untilError {hook : Interceptor _ S → Step _ δ S}
    (h : ∀ place (i : Interceptor η S), (hook (i.observed o place)).Through call? R
      (single (.hook stage place))) :
    (Step.sequence ((o.interceptors place is).map hook)).Through call? R
      (UntilErrorFrom stage place is.length) := by
  induction is generalizing place with
  | nil => exact fun d => .pure .done
  | cons i is ih =>
    intro d
    refine (h place i d).bind fun calls ⟨d', passed⟩ hp => ?_
    obtain rfl := hp
    cases passed with
    | error e => exact .pure .failed
    | ok => exact (ih d').imp fun _ _ h => .passed h

theorem lastError_everyone {hook : Interceptor _ S → Check _ S} {latest : Option S.Error}
    (h : ∀ place (i : Interceptor η S), Yields (.calls call?) R (hook (i.observed o place))
      fun calls passed => single (.hook stage place) calls (failure passed)) :
    Yields (.calls call?) R
      (lastError id stage latest ((o.interceptors place is).map hook))
      (EveryoneFrom stage place is.length latest) := by
  induction is generalizing place latest with
  | nil => exact .pure .done
  | cons i is ih =>
    refine (h place i).bind fun calls passed hp => ?_
    obtain rfl := hp
    cases passed with
    | ok => exact ih.imp fun _ _ h => .passed h
    | error e =>
      cases latest with
      | none => exact ih.imp fun _ _ h => .failed h
      | some previous =>
        exact .modify_bind (Growth.calls_suppress previous) (ih.imp fun _ _ h => .failed h)

theorem checkAll_everyone {hook : Interceptor _ S → Check _ S}
    (h : ∀ place (i : Interceptor η S), Yields (.calls call?) R (hook (i.observed o place))
      fun calls passed => single (.hook stage place) calls (failure passed)) :
    Yields (.calls call?) R (checkAll id stage ((o.interceptors 0 is).map hook))
      fun calls passed => everyone is.length stage calls (failure passed) := by
  refine (lastError_everyone h).bind fun calls last hlast => ?_
  cases last with
  | none => exact .pure (by simpa [everyone] using hlast)
  | some e => exact .pure (by simpa [everyone] using hlast)

theorem overrule_silent (result : S.Result) (e : S.Error) :
    Yields (.calls call?) R (overrule id stage result e) fun calls _ => calls = [] := by
  cases result with
  | ok => exact .pure rfl
  | error previous => exact .modify_bind (Growth.calls_suppress previous) (.pure rfl)

/-- Hooks that revise a result are all called. -/
theorem reviseAll_everyone {hook : Interceptor _ S → Step _ S.Result S} {result : S.Result}
    (latest : Option S.Error)
    (h : ∀ place (i : Interceptor η S), (hook (i.observed o place)).Through call? R
      (single (.hook stage place))) :
    Yields (.calls call?) R
      (reviseAll id stage ((o.interceptors place is).map hook) result)
      fun calls _ => ∃ last, EveryoneFrom stage place is.length latest calls last := by
  induction is generalizing place result latest with
  | nil => exact .pure ⟨latest, .done⟩
  | cons i is ih =>
    refine (h place i result).bind fun calls ⟨revised, passed⟩ hp => ?_
    obtain rfl := hp
    cases passed with
    | ok => exact (ih latest).imp fun _ _ ⟨last, h⟩ => ⟨last, .passed h⟩
    | error e =>
      refine (overrule_silent revised e).bind fun calls _ hcalls => ?_
      obtain rfl := hcalls
      exact (ih (some e)).imp fun _ _ ⟨last, h⟩ => ⟨last, .failed h⟩

end Runs

namespace Phase.Chain

variable {ps qs : List (Phase S)} {calls calls' : List (PipelineCall S)} {e : S.Error}
  {error : Option S.Error}

theorem stopped_append (h : Chain ps calls (some e)) : Chain (ps ++ qs) calls (some e) := by
  generalize he : some e = error at h
  induction h with
  | nil => cases he
  | stopped hp =>
    cases he
    exact .stopped hp
  | next hp _ ih => exact .next hp (ih he)

theorem append (h : Chain ps calls none) (h' : Chain qs calls' error) :
    Chain (ps ++ qs) (calls ++ calls') error := by
  generalize he : none = first at h
  induction h with
  | nil => exact h'
  | stopped => cases he
  | next hp _ ih =>
    rw [List.append_assoc]
    exact .next hp (ih he)

end Phase.Chain

namespace OperationExecution

open ClientRuntime.Fiber Step

variable {R : ObservedWorld η S γ → ObservedWorld η S γ → Prop}
  {o : Observer (RetryCall S.Output S.Error γ) η S} {op : OperationExecution η S}
  {strategy : RetryStrategy (Journaled (RetryCall S.Output S.Error γ) η) S.Output S.Error
    (Exchange S)}
  {id : ExecutionId}

theorem conclude_everyone {hook : Interceptor _ S → Check _ S} {stage : Stage} {result : S.Result}
    (h : ∀ place (i : Interceptor η S), Yields (.calls call?) R (hook (i.observed o place))
      fun calls passed => single (.hook stage place) calls (failure passed)) :
    Yields (.calls call?) R ((op.observed o strategy).conclude id stage hook result)
      fun calls _ => ∃ error, everyone op.interceptors.length stage calls error := by
  refine (checkAll_everyone h).bind fun calls passed hcalls => ?_
  cases passed with
  | ok => exact .pure ⟨_, by rwa [List.append_nil]⟩
  | error e =>
    refine (overrule_silent result e).imp fun calls' _ h' => ?_
    obtain rfl := h'
    exact ⟨_, by rwa [List.append_nil]⟩

section Runs

variable (ho : o.Notes call? R)

include ho

theorem beforeSerialization_through :
    ((op.observed o strategy).beforeSerialization id).Through call? R
      (Chain
        [everyone op.interceptors.length .readBeforeExecution,
          untilError op.interceptors.length .modifyBeforeSerialization,
          untilError op.interceptors.length .readBeforeSerialization]) := by
  refine cons_through (ofCheck_through fun d => checkAll_everyone fun _ _ => ?_)
    (cons_through (sequence_untilError fun _ _ d => ?_)
      (cons_through (sequence_untilError fun _ _ => ofCheck_through fun d => ?_) nil_through))
  all_goals exact ho _ _ _ _

theorem afterSerialization_through (input : S.Input) :
    ((op.observed o strategy).afterSerialization id input).Through call? R
      (Chain
        [untilError op.interceptors.length .readAfterSerialization,
          untilError op.interceptors.length .modifyBeforeRetryLoop]) := by
  refine cons_through (sequence_untilError fun _ _ => ofCheck_through fun d => ?_)
    (cons_through (sequence_untilError fun _ _ d => ?_) nil_through)
  all_goals exact ho _ _ _ _

theorem prepare_order (input : S.Input) :
    Yields (.calls call?) R ((op.observed o strategy).prepare id input)
      fun calls made => preparation op.interceptors.length calls (failure made.2) := by
  refine (beforeSerialization_through ho input).bind fun before ⟨input, passed⟩ hbefore => ?_
  cases passed with
  | error e =>
    refine .pure ?_
    rw [List.append_nil]
    exact hbefore.stopped_append
  | ok =>
    refine (ho .serializer none failure (op.serialize id input)).bind
      fun calls request hcall => ?_
    obtain rfl := hcall
    cases request with
    | error e => exact .pure (hbefore.append (.stopped rfl))
    | ok request =>
      refine (afterSerialization_through ho input request).bind
        fun after ⟨request, passed⟩ hafter => .pure ?_
      have hrest : Chain [single .serializer,
          untilError op.interceptors.length .readAfterSerialization,
          untilError op.interceptors.length .modifyBeforeRetryLoop]
          ([⟨.serializer, none⟩] ++ after) (failure passed) := .next rfl hafter
      rw [failure_map, List.append_nil]
      exact hbefore.append hrest

theorem beforeTransmission_through (input : S.Input) :
    ((op.observed o strategy).beforeTransmission id input).Through call? R
      (Chain
        [everyone op.interceptors.length .readBeforeAttempt,
          untilError op.interceptors.length .modifyBeforeSigning,
          untilError op.interceptors.length .readBeforeSigning,
          single .signer,
          untilError op.interceptors.length .readAfterSigning,
          untilError op.interceptors.length .modifyBeforeTransmit,
          untilError op.interceptors.length .readBeforeTransmit]) := by
  refine cons_through (ofCheck_through fun d => checkAll_everyone fun _ _ => ?_)
    (cons_through (sequence_untilError fun _ _ d => ?_)
    (cons_through (sequence_untilError fun _ _ => ofCheck_through fun d => ?_)
    (cons_through (fun d => ?_)
    (cons_through (sequence_untilError fun _ _ => ofCheck_through fun d => ?_)
    (cons_through (sequence_untilError fun _ _ d => ?_)
    (cons_through (sequence_untilError fun _ _ => ofCheck_through fun d => ?_) nil_through))))))
  all_goals exact ho _ _ _ _

theorem afterTransmission_through (input : S.Input) (request : S.Request) :
    ((op.observed o strategy).afterTransmission id input request).Through call? R
      (Chain
        [untilError op.interceptors.length .readAfterTransmit,
          untilError op.interceptors.length .modifyBeforeDeserialization,
          untilError op.interceptors.length .readBeforeDeserialization]) := by
  refine cons_through (sequence_untilError fun _ _ => ofCheck_through fun d => ?_)
    (cons_through (sequence_untilError fun _ _ d => ?_)
    (cons_through (sequence_untilError fun _ _ => ofCheck_through fun d => ?_) nil_through))
  all_goals exact ho _ _ _ _

/-- The deserializer is called where nothing failed before. -/
theorem transmit_order (input : S.Input) (base : S.Request) :
    Yields (.calls call?) R ((op.observed o strategy).transmit id input base)
      fun calls made => match made.2 with
        | .error e => transmission op.interceptors.length calls (some e)
        | .ok result => ∃ sent, transmission op.interceptors.length sent none ∧
          calls = sent ++ [⟨.deserializer, failure result⟩] := by
  refine (beforeTransmission_through ho input base).bind fun before ⟨request, passed⟩ hbefore => ?_
  cases passed with
  | error e =>
    refine .pure ?_
    rw [List.append_nil]
    exact hbefore.stopped_append
  | ok =>
    refine (ho .transport none failure (op.send id request)).bind
      fun calls response hcall => ?_
    obtain rfl := hcall
    cases response with
    | error e => exact .pure (hbefore.append (.stopped rfl))
    | ok response =>
      refine (afterTransmission_through ho input request response).bind
        fun after ⟨response, passed⟩ hafter => ?_
      have hrest : Chain [single .transport,
          untilError op.interceptors.length .readAfterTransmit,
          untilError op.interceptors.length .modifyBeforeDeserialization,
          untilError op.interceptors.length .readBeforeDeserialization]
          ([⟨.transport, none⟩] ++ after) (failure passed) := .next rfl hafter
      cases passed with
      | error e =>
        refine .pure ?_
        rw [List.append_nil]
        exact hbefore.append hrest
      | ok =>
        refine (ho .deserializer none failure (op.deserialize id response)).bind
          fun calls result hcall => ?_
        obtain rfl := hcall
        exact .pure ⟨_, hbefore.append hrest, by simp⟩

theorem settle_order (view : S.Result → ResultView S) (result : S.Result) :
    Yields (.calls call?) R ((op.observed o strategy).settle id view result)
      fun calls _ =>
        (∃ e, untilError op.interceptors.length .readAfterDeserialization calls (some e)) ∨
        ∃ read revised error,
          untilError op.interceptors.length .readAfterDeserialization read none ∧
          everyone op.interceptors.length .modifyBeforeAttemptCompletion revised error ∧
          calls = read ++ revised := by
  have hread : ((op.observed o strategy).read
      fun i d => i.readAfterDeserialization (view d)).Through call? R
      (untilError op.interceptors.length .readAfterDeserialization) :=
    sequence_untilError fun _ _ => ofCheck_through fun d =>
      ho _ _ _ _
  refine (hread result).bind fun read ⟨_, passed⟩ hcalls => ?_
  cases passed with
  | error e =>
    refine (overrule_silent result e).imp fun calls' _ h' => .inl ⟨e, ?_⟩
    obtain rfl := h'
    rwa [List.append_nil]
  | ok =>
    refine (reviseAll_everyone none fun _ _ d =>
      ho _ _ _ _).imp fun revised _ h' => .inr ?_
    obtain ⟨error, hrevised⟩ := h'
    exact ⟨read, revised, error, hcalls, hrevised, rfl⟩

theorem attempt_order (input : S.Input) (base : S.Request) (n : Nat) :
    Yields (.calls call?) R ((op.observed o strategy).attempt id input base n)
      fun calls _ => AttemptOrder op.interceptors.length calls := by
  refine .modify_bind (fun w => ?_) (.modifyGet_bind (fun w => ?_) fun span =>
    .spanClosing (fun _ _ => Growth.calls_traced) ?_)
  · exact ⟨[], (List.append_nil _).symm, rfl⟩
  · exact Growth.calls_traced (World.createChild_traced ..)
  refine (transmit_order ho input base).bind fun sent ⟨exchange, transmitted⟩ hsent => ?_
  cases transmitted with
  | error e =>
    refine (conclude_everyone fun _ _ => ho _ _ _ _).bind fun ended _ hended => ?_
    obtain ⟨error, hended⟩ := hended
    refine .pure ?_
    rw [List.append_nil]
    exact .jumped hsent hended
  | ok result =>
    obtain ⟨sent, hsent, rfl⟩ := hsent
    refine (settle_order ho _ result).bind fun settled _ hsettled => ?_
    refine (conclude_everyone fun _ _ => ho _ _ _ _).bind fun ended _ hended => ?_
    obtain ⟨error, hended⟩ := hended
    refine .pure ?_
    obtain ⟨e, hread⟩ | ⟨read, revised, error', hread, hrevised, rfl⟩ := hsettled
    · simpa using AttemptOrder.overruled hsent hread hended
    · simpa using AttemptOrder.completed hsent hread hrevised hended

theorem attempt_makes (input : S.Input) (base : S.Request) (a : S.Result × Exchange S) :
    Attempt.Makes R
      (fun _ result inner =>
        result.isSome → AttemptOrder op.interceptors.length (inner.filterMap call?))
      ((op.observed o strategy).attempt id input base) (.returned a) := by
  intro n w w' hrun
  obtain ⟨_, ⟨inner, hinner, rfl⟩, horder⟩ := attempt_order ho input base n _ _ _ hrun
  exact ⟨inner, hinner, fun _ => horder⟩

theorem complete_order (view : S.Result → ResultView S) (result : S.Result) :
    Yields (.calls call?) R ((op.observed o strategy).complete id view result)
      fun calls _ => Completion op.interceptors.length calls := by
  refine (reviseAll_everyone none fun _ _ d => ho _ _ _ _).bind
    fun revised _ hrevised => ?_
  refine (conclude_everyone fun _ _ => ho _ _ _ _).imp fun read _ hread => ?_
  obtain ⟨error, hrevised⟩ := hrevised
  obtain ⟨error', hread⟩ := hread
  exact .intro hrevised hread

end Runs

section Noted

variable {R : OrderWorld η S → OrderWorld η S → Prop} (hR : ∀ w w', R w w' → w.SameCalls w')

include hR

theorem retry_order (retrying : Retrying η) (input : S.Input)
    (prepared : Except S.Error S.Request) :
    Yields .journal R
      ((op.observed PipelineCall.noted retrying.watched).retry id input prepared) fun calls _ =>
        match prepared with
        | .error _ => calls = []
        | .ok _ => ∃ outcome,
          retrying.Course (AttemptOrder.body op.interceptors.length) calls outcome := by
  cases prepared with
  | error e => exact .pure rfl
  | ok request =>
    have hbody (a : S.Result × Exchange S) :
        Attempt.Makes R (AttemptOrder.body op.interceptors.length)
          ((op.observed PipelineCall.noted retrying.watched).attempt id input request)
          (.returned a) := by
      have made : Attempt.Makes R _
          ((op.observed PipelineCall.noted retrying.watched).attempt id input request)
          (.returned a) := attempt_makes (PipelineCall.noted_notes hR) input request a
      simp only [List.filterMap_some] at made
      exact made
    refine .gets_bind fun span => ?_
    intro w made w' h
    obtain ⟨retried, w₁, hloop, h⟩ := run_bind_returned.mp h
    obtain ⟨calls, hcalls, hcourse⟩ := retrying.course_of_run hR op.judge span hbody hloop
    simp only [run_modify_bind, run_pure, Ending.returned.injEq] at h
    obtain ⟨-, rfl⟩ := h
    exact ⟨calls, (World.emit_traced ..).calls.trans hcalls, _, hcourse⟩

theorem execute_order (retrying : Retrying η) (input : S.Input) :
    Yields .journal R ((op.observed PipelineCall.noted retrying.watched).execute id input)
      fun calls _ => ExecutionOrder op.interceptors.length retrying calls := by
  have ho := PipelineCall.noted_notes hR
  refine .gets_bind fun span => .spanClosing (fun w w' h => ?_) ?_
  · simpa [Growth.journal] using h.calls
  refine (prepare_order ho input).within.bind fun _ ⟨input, prepared⟩ hbefore => ?_
  obtain ⟨before, rfl, hbefore⟩ := hbefore
  refine (retry_order hR retrying input prepared).bind fun loop ⟨result, last⟩ hloop => ?_
  refine (complete_order ho _ result).within.imp fun _ _ hafter => ?_
  obtain ⟨after, rfl, hafter⟩ := hafter
  cases prepared with
  | error e =>
    obtain rfl := hloop
    simpa using ExecutionOrder.unprepared hbefore hafter
  | ok request =>
    obtain ⟨outcome, hcourse⟩ := hloop
    simpa using ExecutionOrder.retried hbefore hcourse hafter

end Noted

/-- An execution that returns makes its calls in order and no others. So does every execution by
itself, which can be seen under observation. -/
theorem execute_calls_in_order (op : OperationExecution η S) (retrying : Retrying η)
    (id : ExecutionId) (input : S.Input) (w : OrderWorld η S) :
    (∀ result w', Run World.SameCalls
        ((op.observed PipelineCall.noted retrying.watched).execute id input) w
        (.returned result) w' →
      ∃ calls, w'.calls = w.calls ++ calls ∧
        ExecutionOrder op.interceptors.length retrying calls) ∧
    ∀ result v', Run (fun _ _ => True) ((op.retrying retrying).execute id input)
        (World.unwatched.get w) (.returned result) v' →
      ∃ w', World.unwatched.get w' = v' ∧ Run World.SameCalls
        ((op.observed PipelineCall.noted retrying.watched).execute id input) w
        (.returned result) w' := by
  refine ⟨?_, ?_⟩
  · intro result w' h
    exact execute_order (fun _ _ h => h) retrying input _ _ _ h
  · intro result v' h
    have hR (w : OrderWorld η S) (v : World η) (_ : True) :
        w.SameCalls (World.unwatched.set v w) := rfl
    have hnoted : PipelineCall.noted.Covering World.SameCalls (fun (_ _ : World η) => True) :=
      fun _ _ _ m => watched_covers hR _ m
    exact (op.retrying retrying).execute_covers hnoted (retrying.watched_covering hR) input
      w result v' h

/-- Everything is a number. -/
abbrev numberShape : OperationShape := ⟨Nat, Nat, Nat, Nat, ServiceError, inferInstance⟩

def refusal : ServiceError := .modeled "refused" ⟨none, none, false, false, false⟩

/-- Fails before the first attempt. -/
def failsFirst : Interceptor Unit numberShape where
  describe := "FailsFirst"
  readBeforeAttempt v := do
    let n ← Fiber.gets fun w => (w.execution v.execution).attempt
    return if n = 1 then .error refusal else .ok ()

/-- Sends its input there and back, with one interceptor that fails and one that does nothing. -/
def echo : OperationExecution Unit numberShape where
  serialize _ input := return .ok input
  sign := unsigned
  send _ request := do
    Fiber.suspend
    return .ok request
  deserialize _ response := return .ok response
  interceptors := [failsFirst, { describe := "Idle" }]
  strategy := .single
  judge := StandardStrategy.retryErrors

/-- A world in which one execution is about to start. -/
def echoWorld {κ : Type} : World (Journaled κ Unit) :=
  ((World.start .epoch .epoch ⟨[], ()⟩).startExecution "Echo" "1" 0).2

theorem execute_calls_in_order_second_attempt :
    ∃ (v' : World Unit) (w' : OrderWorld Unit numberShape), Run (fun _ _ => True)
        ((echo.retrying (.standard StandardStrategy.twoAttempts)).execute 0 7)
        (World.unwatched.get (echoWorld : OrderWorld Unit numberShape)) (.returned (.ok 7)) v' ∧
      World.unwatched.get w' = v' ∧
      ∃ calls, w'.calls = (echoWorld : OrderWorld Unit numberShape).calls ++ calls ∧
        ExecutionOrder 2 (.standard StandardStrategy.twoAttempts) calls := by
  obtain ⟨order, seen⟩ :=
    execute_calls_in_order echo (.standard StandardStrategy.twoAttempts) 0 7 echoWorld
  have run : Run (fun _ _ => True)
      ((echo.retrying (.standard StandardStrategy.twoAttempts)).execute 0 7)
      (World.unwatched.get (echoWorld : OrderWorld Unit numberShape)) (.returned (.ok 7)) _ :=
    Paused.run_of_ready (fun _ => trivial) 2 (by cbv)
  obtain ⟨w', hw', observed⟩ := seen _ _ run
  exact ⟨_, w', run, hw', order _ _ observed⟩

end OperationExecution

end ClientRuntime
