import ClientRuntime.Operation.Observers
import ClientRuntime.Proofs.Fiber.Stays
import ClientRuntime.Proofs.Operation.Likeness
import ClientRuntime.Proofs.Trace.Frame

/-!
Operations whose hooks and collaborators do only what others may do as well. Then so does every
stretch of the pipeline that lies between the creation and the end of a span.
-/

namespace ClientRuntime

open ClientRuntime.Fiber

variable {η δ : Type} {S : OperationShape} {R : World η → World η → Prop} {id : ExecutionId}
  {stage : Stage}

/-- At the stages of the execution, the hooks do only what others may do as well. -/
structure Interceptor.Harmless (R : World η → World η → Prop) (id : ExecutionId)
    (i : Interceptor η S) : Prop where
  readBeforeExecution : ∀ v, v.execution = id → (i.readBeforeExecution v).Stays R R
  modifyBeforeSerialization : ∀ v, v.execution = id → (i.modifyBeforeSerialization v).Stays R R
  readBeforeSerialization : ∀ v, v.execution = id → (i.readBeforeSerialization v).Stays R R
  readAfterSerialization : ∀ v, v.execution = id → (i.readAfterSerialization v).Stays R R
  modifyBeforeRetryLoop : ∀ v, v.execution = id → (i.modifyBeforeRetryLoop v).Stays R R
  readBeforeAttempt : ∀ v, v.execution = id → (i.readBeforeAttempt v).Stays R R
  modifyBeforeSigning : ∀ v, v.execution = id → (i.modifyBeforeSigning v).Stays R R
  readBeforeSigning : ∀ v, v.execution = id → (i.readBeforeSigning v).Stays R R
  readAfterSigning : ∀ v, v.execution = id → (i.readAfterSigning v).Stays R R
  modifyBeforeTransmit : ∀ v, v.execution = id → (i.modifyBeforeTransmit v).Stays R R
  readBeforeTransmit : ∀ v, v.execution = id → (i.readBeforeTransmit v).Stays R R
  readAfterTransmit : ∀ v, v.execution = id → (i.readAfterTransmit v).Stays R R
  modifyBeforeDeserialization : ∀ v, v.execution = id → (i.modifyBeforeDeserialization v).Stays R R
  readBeforeDeserialization : ∀ v, v.execution = id → (i.readBeforeDeserialization v).Stays R R
  readAfterDeserialization : ∀ v, v.execution = id → (i.readAfterDeserialization v).Stays R R
  modifyBeforeAttemptCompletion : ∀ v, v.execution = id →
    (i.modifyBeforeAttemptCompletion v).Stays R R
  readAfterAttempt : ∀ v, v.execution = id → (i.readAfterAttempt v).Stays R R
  modifyBeforeCompletion : ∀ v, v.execution = id → (i.modifyBeforeCompletion v).Stays R R
  readAfterExecution : ∀ v, v.execution = id → (i.readAfterExecution v).Stays R R

/-- Hooks and collaborators do only what others may do as well. -/
structure OperationExecution.Harmless (R : World η → World η → Prop) (id : ExecutionId)
    (op : OperationExecution η S) : Prop where
  serialize : ∀ input, (op.serialize id input).Stays R R
  sign : ∀ request, (op.sign id request).Stays R R
  send : ∀ request, (op.send id request).Stays R R
  deserialize : ∀ response, (op.deserialize id response).Stays R R
  hooks : ∀ i ∈ op.interceptors, i.Harmless R id

/-- Others may do what an operation does by itself between its calls: write to the log, post to the
span of the execution, and note what was suppressed. -/
structure World.Lenient (R : World η → World η → Prop) (id : ExecutionId) : Prop
    extends Composes R where
  emit : ∀ (w : World η) level fields message, R w (w.emit level fields message)
  message : ∀ (w : World η) text, R w (w.newMessage text).2
  post : ∀ (w : World η) e, R w (w.post (w.execution id).span e)
  note : ∀ (w : World η) text,
    R w (w.updateExecution id fun e => { e with suppressed := e.suppressed ++ [text] })

namespace World.Lenient

variable (hR : Lenient R id)

include hR

theorem say (w : World η) (level : TraceLevel) (component text : String) (error : Option String) :
    R w (w.say (w.execution id).span level component text error) :=
  hR.andThen (hR.message w text) (hR.post (w.newMessage text).2 _)

theorem suppress (w : World η) (stage error : String) : R w (w.suppress id stage error) :=
  hR.andThen (hR.say w _ _ _ _) (hR.note _ error)

end World.Lenient

theorem World.TracedTo.execution {w w' : World η} (h : w.TracedTo w') (i : ExecutionId) :
    w'.execution i = w.execution i := by
  simp [World.execution, h.executions]

namespace Interceptor

variable (hR : World.Lenient R id)

include hR

theorem stays_posting {post : Execution → World η → World η}
    (hpost : ∀ w, R w (post (w.execution id) w)) : (posting id post : Check η S).Stays R R :=
  .modify_bind hR.toComposes hpost (.pure hR.toComposes _)

theorem stays_message (level : TraceLevel) (text : Execution → String) :
    (message id level text : Check η S).Stays R R :=
  stays_posting hR fun w => hR.say w level _ _ none

theorem logging_harmless : (logging : Interceptor η S).Harmless R id := by
  constructor
  case readBeforeExecution | readAfterSerialization | readBeforeAttempt | readAfterTransmit |
      readAfterAttempt =>
    rintro v rfl
    dsimp only [logging]
    exact stays_message hR _ _
  case readAfterExecution =>
    rintro v rfl
    dsimp only [logging]
    refine stays_posting hR fun w => ?_
    have hsay := hR.say (w.emit .debug [("operation", .text (w.execution v.execution).operation),
      ("attempts", .natural (w.execution v.execution).attempt)] "Execution finished")
    exact hR.andThen (hR.emit w _ _ _) (hsay _ _ _ _)
  all_goals exact fun _ _ => .pure hR.toComposes _

theorem metrics_harmless : (metrics : Interceptor η S).Harmless R id := by
  constructor
  case readAfterExecution =>
    rintro v rfl
    dsimp only [metrics]
    refine stays_posting hR fun w => ?_
    let e := w.execution v.execution
    let counted := w.postCount e.span metricsComponent "attempts" e.attempt
    have hspan : counted.execution v.execution = e :=
      (World.post_traced w _ _).execution v.execution
    have hcount : R w counted := hR.post w _
    have htiming := hR.post counted (counted.event .info metricsComponent
      (.metric "execution_duration" (.duration (counted.clock.now.since e.startedAt))))
    rw [hspan] at htiming
    exact hR.andThen hcount htiming
  all_goals exact fun _ _ => .pure hR.toComposes _

end Interceptor

theorem stays_likeness {η' : Type} {T : World η → World η → Prop} (hT : World.Lenient T id) :
    Likeness id fun _ (m : Fiber (World η) _) (_ : Fiber (World η') _) => m.Stays R T where
  pure a := .pure hT.toComposes a
  bind h hk := h.bind hT.toComposes hk
  suppress stage error := .modify fun w => hT.suppress w stage error

theorem Interceptor.Harmless.like {i : Interceptor η S} (h : i.Harmless R id) :
    i.Like (fun _ (m _ : Fiber (World η) _) => m.Stays R R) id i where
  readBeforeExecution := h.readBeforeExecution
  modifyBeforeSerialization := h.modifyBeforeSerialization
  readBeforeSerialization := h.readBeforeSerialization
  readAfterSerialization := h.readAfterSerialization
  modifyBeforeRetryLoop := h.modifyBeforeRetryLoop
  readBeforeAttempt := h.readBeforeAttempt
  modifyBeforeSigning := h.modifyBeforeSigning
  readBeforeSigning := h.readBeforeSigning
  readAfterSigning := h.readAfterSigning
  modifyBeforeTransmit := h.modifyBeforeTransmit
  readBeforeTransmit := h.readBeforeTransmit
  readAfterTransmit := h.readAfterTransmit
  modifyBeforeDeserialization := h.modifyBeforeDeserialization
  readBeforeDeserialization := h.readBeforeDeserialization
  readAfterDeserialization := h.readAfterDeserialization
  modifyBeforeAttemptCompletion := h.modifyBeforeAttemptCompletion
  readAfterAttempt := h.readAfterAttempt
  modifyBeforeCompletion := h.modifyBeforeCompletion
  readAfterExecution := h.readAfterExecution

theorem OperationExecution.Harmless.like {op : OperationExecution η S} (h : op.Harmless R id) :
    op.Like (fun _ (m _ : Fiber (World η) _) => m.Stays R R) id op where
  serialize := h.serialize
  sign := h.sign
  send := h.send
  deserialize := h.deserialize
  hooks := List.forall₂_same.mpr fun i hi => (h.hooks i hi).like

end ClientRuntime
