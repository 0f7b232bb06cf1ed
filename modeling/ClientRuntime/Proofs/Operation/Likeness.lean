import Mathlib.Data.List.Forall2
import ClientRuntime.Operation.Execution

/-!
What is true of the hooks and collaborators of an operation is true of the operation. A likeness
relates fibers step by step; of two operations, if each part of one is like the part of the other,
every stretch of the pipeline is, and so is the whole execution.
-/

namespace ClientRuntime

variable {η η' δ : Type} {S : OperationShape} {id : ExecutionId} {stage : Stage}
  {P : ∀ α : Type, Fiber (World η) α → Fiber (World η') α → Prop}

/-- A relation between fibers that goes on from one to the next, and that keeping an error which
lost to a later one leaves alone. -/
structure Likeness (id : ExecutionId)
    (P : ∀ α : Type, Fiber (World η) α → Fiber (World η') α → Prop) : Prop where
  pure : ∀ {α : Type} (a : α), P α (Pure.pure a) (Pure.pure a)
  bind : ∀ {α β : Type} {m : Fiber (World η) α} {m' : Fiber (World η') α}
    {k : α → Fiber (World η) β} {k' : α → Fiber (World η') β},
    P α m m' → (∀ a, P β (k a) (k' a)) → P β (m >>= k) (m' >>= k')
  suppress : ∀ stage error, P Unit (Fiber.modify (World.suppress id stage error))
    (Fiber.modify (World.suppress id stage error))

/-- At the stages of an execution the hooks are alike. -/
structure Interceptor.Like (P : ∀ α : Type, Fiber (World η) α → Fiber (World η') α → Prop)
    (id : ExecutionId) (i : Interceptor η S) (i' : Interceptor η' S) : Prop where
  readBeforeExecution : ∀ v, v.execution = id →
    P _ (i.readBeforeExecution v) (i'.readBeforeExecution v)
  modifyBeforeSerialization : ∀ v, v.execution = id →
    P _ (i.modifyBeforeSerialization v) (i'.modifyBeforeSerialization v)
  readBeforeSerialization : ∀ v, v.execution = id →
    P _ (i.readBeforeSerialization v) (i'.readBeforeSerialization v)
  readAfterSerialization : ∀ v, v.execution = id →
    P _ (i.readAfterSerialization v) (i'.readAfterSerialization v)
  modifyBeforeRetryLoop : ∀ v, v.execution = id →
    P _ (i.modifyBeforeRetryLoop v) (i'.modifyBeforeRetryLoop v)
  readBeforeAttempt : ∀ v, v.execution = id → P _ (i.readBeforeAttempt v) (i'.readBeforeAttempt v)
  modifyBeforeSigning : ∀ v, v.execution = id →
    P _ (i.modifyBeforeSigning v) (i'.modifyBeforeSigning v)
  readBeforeSigning : ∀ v, v.execution = id → P _ (i.readBeforeSigning v) (i'.readBeforeSigning v)
  readAfterSigning : ∀ v, v.execution = id → P _ (i.readAfterSigning v) (i'.readAfterSigning v)
  modifyBeforeTransmit : ∀ v, v.execution = id →
    P _ (i.modifyBeforeTransmit v) (i'.modifyBeforeTransmit v)
  readBeforeTransmit : ∀ v, v.execution = id →
    P _ (i.readBeforeTransmit v) (i'.readBeforeTransmit v)
  readAfterTransmit : ∀ v, v.execution = id → P _ (i.readAfterTransmit v) (i'.readAfterTransmit v)
  modifyBeforeDeserialization : ∀ v, v.execution = id →
    P _ (i.modifyBeforeDeserialization v) (i'.modifyBeforeDeserialization v)
  readBeforeDeserialization : ∀ v, v.execution = id →
    P _ (i.readBeforeDeserialization v) (i'.readBeforeDeserialization v)
  readAfterDeserialization : ∀ v, v.execution = id →
    P _ (i.readAfterDeserialization v) (i'.readAfterDeserialization v)
  modifyBeforeAttemptCompletion : ∀ v, v.execution = id →
    P _ (i.modifyBeforeAttemptCompletion v) (i'.modifyBeforeAttemptCompletion v)
  readAfterAttempt : ∀ v, v.execution = id → P _ (i.readAfterAttempt v) (i'.readAfterAttempt v)
  modifyBeforeCompletion : ∀ v, v.execution = id →
    P _ (i.modifyBeforeCompletion v) (i'.modifyBeforeCompletion v)
  readAfterExecution : ∀ v, v.execution = id →
    P _ (i.readAfterExecution v) (i'.readAfterExecution v)

/-- Hooks and collaborators are alike. Nothing is said of the strategies. -/
structure OperationExecution.Like
    (P : ∀ α : Type, Fiber (World η) α → Fiber (World η') α → Prop) (id : ExecutionId)
    (op : OperationExecution η S) (op' : OperationExecution η' S) : Prop where
  serialize : ∀ input, P _ (op.serialize id input) (op'.serialize id input)
  sign : ∀ request, P _ (op.sign id request) (op'.sign id request)
  send : ∀ request, P _ (op.send id request) (op'.send id request)
  deserialize : ∀ response, P _ (op.deserialize id response) (op'.deserialize id response)
  hooks : List.Forall₂ (Interceptor.Like P id) op.interceptors op'.interceptors

theorem Interceptor.Like.refl (id : ExecutionId) (i : Interceptor η S) :
    i.Like (fun _ m m' => m = m') id i := by
  constructor <;> exact fun _ _ => rfl

theorem OperationExecution.Like.refl (id : ExecutionId) (op : OperationExecution η S) :
    op.Like (fun _ m m' => m = m') id op :=
  ⟨fun _ => rfl, fun _ => rfl, fun _ => rfl, fun _ => rfl,
    List.forall₂_same.mpr fun i _ => .refl id i⟩

namespace Likeness

variable (hP : Likeness id P)

include hP

theorem sequence {steps : List (Step η δ S)} {steps' : List (Step η' δ S)}
    (h : List.Forall₂ (fun step step' => ∀ d, P _ (step d) (step' d)) steps steps') (d : δ) :
    P _ (Step.sequence steps d) (Step.sequence steps' d) := by
  induction h generalizing d with
  | nil => exact hP.pure _
  | cons hstep _ ih =>
    refine hP.bind (hstep d) fun ⟨d', passed⟩ => ?_
    cases passed with
    | error e => exact hP.pure _
    | ok => exact ih d'

theorem ofCheck {check : δ → Check η S} {check' : δ → Check η' S} {d : δ}
    (h : P _ (check d) (check' d)) : P _ (Step.ofCheck check d) (Step.ofCheck check' d) :=
  hP.bind h fun _ => hP.pure _

theorem suppressError (stage : Stage) (e : S.Error) :
    P _ (ClientRuntime.suppressError id stage e) (ClientRuntime.suppressError id stage e) :=
  hP.suppress _ _

theorem checkAll {checks : List (Check η S)} {checks' : List (Check η' S)}
    (h : List.Forall₂ (P _) checks checks') :
    P _ (ClientRuntime.checkAll id stage checks) (ClientRuntime.checkAll id stage checks') := by
  have hlast (latest : Option S.Error) :
      P _ (lastError id stage latest checks) (lastError id stage latest checks') := by
    induction h generalizing latest with
    | nil => exact hP.pure _
    | cons hcheck _ ih =>
      refine hP.bind hcheck fun passed => ?_
      cases passed with
      | ok => exact ih latest
      | error e =>
        cases latest with
        | none => exact ih (some e)
        | some previous => exact hP.bind (hP.suppressError stage previous) fun _ => ih (some e)
  refine hP.bind (hlast none) fun last => ?_
  cases last <;> exact hP.pure _

theorem overrule (result : S.Result) (e : S.Error) :
    P _ (ClientRuntime.overrule id stage result e) (ClientRuntime.overrule id stage result e) := by
  cases result with
  | ok => exact hP.pure _
  | error previous => exact hP.bind (hP.suppressError stage previous) fun _ => hP.pure _

theorem reviseAll {steps : List (Step η S.Result S)} {steps' : List (Step η' S.Result S)}
    (h : List.Forall₂ (fun step step' => ∀ d, P _ (step d) (step' d)) steps steps')
    (result : S.Result) :
    P _ (ClientRuntime.reviseAll id stage steps result)
      (ClientRuntime.reviseAll id stage steps' result) := by
  induction h generalizing result with
  | nil => exact hP.pure _
  | cons hstep _ ih =>
    refine hP.bind (hstep result) fun ⟨draft, passed⟩ => ?_
    cases passed with
    | ok => exact ih draft
    | error e => exact hP.bind (hP.overrule draft e) ih

end Likeness

namespace OperationExecution

variable {op : OperationExecution η S} {op' : OperationExecution η' S}

/-- What an attempt does in its span. -/
def making (op : OperationExecution η S) (id : ExecutionId) (input : S.Input) (base : S.Request) :
    Fiber (World η) (S.Result × Exchange S) := do
  let (exchange, sent) ← op.transmit id input base
  let view (result : S.Result) : ResultView S :=
    ⟨id, input, some exchange.request, exchange.response, result⟩
  let result ←
    match sent with
    | .ok result => op.settle id view result
    | .error e => pure (.error e)
  let result ← op.conclude id .readAfterAttempt (fun i => i.readAfterAttempt (view result)) result
  return (result, exchange)

theorem attempt_eq (op : OperationExecution η S) (id : ExecutionId) (input : S.Input)
    (base : S.Request) (n : Nat) : op.attempt id input base n = (do
      Fiber.modify (World.beginAttempt id n)
      let span ← Fiber.modifyGet fun w =>
        w.createChild (w.execution id).span ("attempt-" ++ toString n)
      spanClosing span (fun made => failed made.1) (op.making id input base)) := rfl

section Hooks

variable {I : Interceptor η S → Interceptor η' S → Prop} (hP : Likeness id P)
  (hooks : List.Forall₂ I op.interceptors op'.interceptors)

include hooks

/-- A hook of every interceptor, in two operations. -/
theorem hooks_like {γ γ' : Type} {f : Interceptor η S → γ} {f' : Interceptor η' S → γ'}
    {Q : γ → γ' → Prop} (h : ∀ i i', I i i' → Q (f i) (f' i')) :
    List.Forall₂ Q (op.interceptors.map f) (op'.interceptors.map f') := by
  rw [List.forall₂_map_left_iff, List.forall₂_map_right_iff]
  exact hooks.imp fun _ _ => h _ _

include hP

theorem modify_like {hook : Interceptor η S → Step η δ S} {hook' : Interceptor η' S → Step η' δ S}
    (h : ∀ i i', I i i' → ∀ d, P _ (hook i d) (hook' i' d)) (d : δ) :
    P _ (op.modify hook d) (op'.modify hook' d) :=
  hP.sequence (hooks_like hooks h) d

theorem read_like {hook : Interceptor η S → δ → Check η S}
    {hook' : Interceptor η' S → δ → Check η' S}
    (h : ∀ i i', I i i' → ∀ d, P _ (hook i d) (hook' i' d)) (d : δ) :
    P _ (op.read hook d) (op'.read hook' d) :=
  modify_like hP hooks (fun i i' hi d => Likeness.ofCheck hP (d := d) (h i i' hi d)) d

theorem readAll_like {hook : Interceptor η S → δ → Check η S}
    {hook' : Interceptor η' S → δ → Check η' S}
    (h : ∀ i i', I i i' → ∀ d, P _ (hook i d) (hook' i' d)) (d : δ) :
    P _ (op.readAll id stage hook d) (op'.readAll id stage hook' d) :=
  hP.ofCheck (hP.checkAll (hooks_like hooks fun i i' hi => h i i' hi d))

theorem revise_like (stage : Stage) {hook : Interceptor η S → Step η S.Result S}
    {hook' : Interceptor η' S → Step η' S.Result S}
    (h : ∀ i i', I i i' → ∀ d, P _ (hook i d) (hook' i' d)) (result : S.Result) :
    P _ (reviseAll id stage (op.interceptors.map hook) result)
      (reviseAll id stage (op'.interceptors.map hook') result) :=
  hP.reviseAll (hooks_like hooks h) result

theorem conclude_like (stage : Stage) {hook : Interceptor η S → Check η S}
    {hook' : Interceptor η' S → Check η' S} (h : ∀ i i', I i i' → P _ (hook i) (hook' i'))
    (result : S.Result) :
    P _ (op.conclude id stage hook result) (op'.conclude id stage hook' result) := by
  refine hP.bind (hP.checkAll (hooks_like hooks h)) fun passed => ?_
  cases passed with
  | ok => exact hP.pure _
  | error e => exact hP.overrule result e

end Hooks

namespace Like

variable (h : op.Like P id op') (hP : Likeness id P)

include h hP

theorem beforeSerialization (input : S.Input) :
    P _ (op.beforeSerialization id input) (op'.beforeSerialization id input) := by
  refine hP.sequence (.cons (fun d => ?_) (.cons (fun d => ?_) (.cons (fun d => ?_) .nil))) input
  · exact readAll_like hP h.hooks (fun i i' hi d => hi.readBeforeExecution ⟨id, d⟩ rfl) d
  · exact modify_like hP h.hooks (fun i i' hi d => hi.modifyBeforeSerialization ⟨id, d⟩ rfl) d
  · exact read_like hP h.hooks (fun i i' hi d => hi.readBeforeSerialization ⟨id, d⟩ rfl) d

theorem afterSerialization (input : S.Input) (request : S.Request) :
    P _ (op.afterSerialization id input request) (op'.afterSerialization id input request) := by
  refine hP.sequence (.cons (fun d => ?_) (.cons (fun d => ?_) .nil)) request
  · exact read_like hP h.hooks (fun i i' hi d => hi.readAfterSerialization ⟨id, input, d⟩ rfl) d
  · exact modify_like hP h.hooks (fun i i' hi d => hi.modifyBeforeRetryLoop ⟨id, input, d⟩ rfl) d

theorem prepare (input : S.Input) : P _ (op.prepare id input) (op'.prepare id input) := by
  refine hP.bind (h.beforeSerialization hP input) fun ⟨input, passed⟩ => ?_
  cases passed with
  | error e => exact hP.pure _
  | ok =>
    refine hP.bind (h.serialize input) fun request => ?_
    cases request with
    | error e => exact hP.pure _
    | ok request =>
      exact hP.bind (h.afterSerialization hP input request) fun ⟨request, passed⟩ => hP.pure _

theorem beforeTransmission (input : S.Input) (base : S.Request) :
    P _ (op.beforeTransmission id input base) (op'.beforeTransmission id input base) := by
  refine hP.sequence (.cons (fun d => ?_) (.cons (fun d => ?_) (.cons (fun d => ?_)
    (.cons h.sign (.cons (fun d => ?_) (.cons (fun d => ?_) (.cons (fun d => ?_) .nil))))))) base
  · exact readAll_like hP h.hooks (fun i i' hi d => hi.readBeforeAttempt ⟨id, input, d⟩ rfl) d
  · exact modify_like hP h.hooks (fun i i' hi d => hi.modifyBeforeSigning ⟨id, input, d⟩ rfl) d
  · exact read_like hP h.hooks (fun i i' hi d => hi.readBeforeSigning ⟨id, input, d⟩ rfl) d
  · exact read_like hP h.hooks (fun i i' hi d => hi.readAfterSigning ⟨id, input, d⟩ rfl) d
  · exact modify_like hP h.hooks (fun i i' hi d => hi.modifyBeforeTransmit ⟨id, input, d⟩ rfl) d
  · exact read_like hP h.hooks (fun i i' hi d => hi.readBeforeTransmit ⟨id, input, d⟩ rfl) d

theorem afterTransmission (input : S.Input) (request : S.Request) (response : S.Response) :
    P _ (op.afterTransmission id input request response)
      (op'.afterTransmission id input request response) := by
  refine hP.sequence (.cons (fun d => ?_) (.cons (fun d => ?_) (.cons (fun d => ?_) .nil))) response
  · exact read_like hP h.hooks (fun i i' hi d => hi.readAfterTransmit ⟨id, input, request, d⟩ rfl) d
  · exact modify_like hP h.hooks
      (fun i i' hi d => hi.modifyBeforeDeserialization ⟨id, input, request, d⟩ rfl) d
  · exact read_like hP h.hooks
      (fun i i' hi d => hi.readBeforeDeserialization ⟨id, input, request, d⟩ rfl) d

theorem transmit (input : S.Input) (base : S.Request) :
    P _ (op.transmit id input base) (op'.transmit id input base) := by
  refine hP.bind (h.beforeTransmission hP input base) fun ⟨request, passed⟩ => ?_
  cases passed with
  | error e => exact hP.pure _
  | ok =>
    refine hP.bind (h.send request) fun response => ?_
    cases response with
    | error e => exact hP.pure _
    | ok response =>
      refine hP.bind (h.afterTransmission hP input request response) fun ⟨response, passed⟩ => ?_
      cases passed with
      | error e => exact hP.pure _
      | ok => exact hP.bind (h.deserialize response) fun _ => hP.pure _

section Views

variable {view : S.Result → ResultView S} (hview : ∀ result, (view result).execution = id)

include hview

theorem settle (result : S.Result) :
    P _ (op.settle id view result) (op'.settle id view result) := by
  have hread := read_like hP h.hooks
    (fun i i' hi d => hi.readAfterDeserialization (view d) (hview d)) result
  refine hP.bind hread fun ⟨_, passed⟩ => ?_
  cases passed with
  | error e => exact hP.overrule result e
  | ok =>
    exact revise_like hP h.hooks _
      (fun i i' hi d => hi.modifyBeforeAttemptCompletion (view d) (hview d)) result

theorem complete (result : S.Result) :
    P _ (op.complete id view result) (op'.complete id view result) := by
  have hrevise := revise_like hP h.hooks .modifyBeforeCompletion
    (fun i i' hi d => hi.modifyBeforeCompletion (view d) (hview d)) result
  refine hP.bind hrevise fun result => ?_
  exact conclude_like hP h.hooks _
    (fun i i' hi => hi.readAfterExecution (view result) (hview result)) result

end Views

theorem making (input : S.Input) (base : S.Request) :
    P _ (op.making id input base) (op'.making id input base) := by
  refine hP.bind (h.transmit hP input base) fun ⟨exchange, sent⟩ => ?_
  have finish (result : S.Result) := hP.bind
    (conclude_like hP h.hooks .readAfterAttempt (fun i i' hi => hi.readAfterAttempt
      ⟨id, input, some exchange.request, exchange.response, result⟩ rfl) result)
    fun result => hP.pure (result, exchange)
  cases sent with
  | error e => exact finish _
  | ok result => exact hP.bind (h.settle hP (fun _ => rfl) result) finish

end Like

end OperationExecution

/-- A likeness that holds of what an operation does by itself around its attempts as well. -/
structure FullLikeness (id : ExecutionId)
    (P : ∀ α : Type, Fiber (World η) α → Fiber (World η') α → Prop) : Prop
    extends Likeness id P where
  span : P _ (Fiber.gets fun w => (w.execution id).span)
    (Fiber.gets fun w => (w.execution id).span)
  beginAttempt : ∀ n, P _ (Fiber.modify (World.beginAttempt id n))
    (Fiber.modify (World.beginAttempt id n))
  createChild : ∀ name, P _ (Fiber.modifyGet fun w => w.createChild (w.execution id).span name)
    (Fiber.modifyGet fun w => w.createChild (w.execution id).span name)
  spanClosing : ∀ {α : Type} {m : Fiber (World η) α} {m' : Fiber (World η') α} (x : SpanId)
    (failed : α → Bool), P α m m' → P α (spanClosing x failed m) (spanClosing x failed m')
  emit : ∀ level (fields : Execution → List (String × LogValue)) message,
    P _ (Fiber.modify fun w => w.emit level (fields (w.execution id)) message)
      (Fiber.modify fun w => w.emit level (fields (w.execution id)) message)

namespace OperationExecution.Like

variable {op : OperationExecution η S} {op' : OperationExecution η' S} (h : op.Like P id op')
  (hP : FullLikeness id P)

include h hP

theorem attempt (input : S.Input) (base : S.Request) (n : Nat) :
    P _ (op.attempt id input base n) (op'.attempt id input base n) := by
  rw [attempt_eq, attempt_eq]
  refine hP.bind (hP.beginAttempt n) fun _ => hP.bind (hP.createChild _) fun span => ?_
  exact hP.spanClosing span _ (h.making hP.toLikeness input base)

/-- Executions are alike if what their strategies make of like attempts is. -/
theorem execute (input : S.Input)
    (hstrategy : ∀ span attempt attempt', (∀ n, P _ (attempt n) (attempt' n)) →
      P _ (op.strategy.retry op.judge span attempt) (op'.strategy.retry op'.judge span attempt')) :
    P _ (op.execute id input) (op'.execute id input) := by
  refine hP.bind hP.span fun span => hP.spanClosing span _ ?_
  refine hP.bind (h.prepare hP.toLikeness input) fun ⟨input, prepared⟩ => ?_
  have hretry : P _ (op.retry id input prepared) (op'.retry id input prepared) := by
    cases prepared with
    | error e => exact hP.pure _
    | ok request =>
      refine hP.bind hP.span fun span => ?_
      refine hP.bind (hstrategy span _ _ fun n => h.attempt hP input request n) fun retried => ?_
      exact hP.bind (hP.emit _ (fun e => [("operation", .text e.operation),
        ("attempts", .natural retried.outcome.attempts),
        ("success", .flag retried.outcome.isResponse)]) _) fun _ => hP.pure _
  exact hP.bind hretry fun ⟨result, last⟩ => h.complete hP.toLikeness (fun _ => rfl) result

end OperationExecution.Like

end ClientRuntime
