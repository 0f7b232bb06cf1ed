import Mathlib
import ClientRuntime.Operation.Observers
import ClientRuntime.Proofs.Operation.Noted
import ClientRuntime.Proofs.Operation.WellBracketed
import ClientRuntime.Proofs.Retry.Unseeing

/-!
Executions behave alike however they are traced. They post to spans at every stage, and close them
in the end; but which probe hears of it, and whether a span was closed before, makes no difference
to what they call, what they hand over and what they come to.
-/

namespace ClientRuntime

open ClientRuntime.Fiber
open World (SameUntraced unwatched)

variable {η η' α : Type} {S : OperationShape} {id : ExecutionId}

/-- Hooks and collaborators do not look at the trace, though they may post to it. -/
structure OperationExecution.Unseeing (op : OperationExecution η S) : Prop where
  parts : ∀ id, op.Like (fun _ (m : Fiber (World η) _) (_ : Fiber (World η) _) => m.Unseeing) id op
  judge : op.judge.Unseeing

/-- What an operation does by itself never depends on the trace. -/
theorem unseeing_likeness : FullLikeness id
    fun _ (m : Fiber (World η) _) (_ : Fiber (World η') _) => m.Unseeing where
  pure _ := .pure trivial
  bind h hk := Blind.bind h fun a _ => hk a
  suppress stage error := .modify fun w w' h => by
    rw [SameUntraced, World.untraced_suppress, h, World.untraced_suppress]
  span := .gets (fun w w' h => by rw [h.execution]) fun _ => trivial
  beginAttempt n := .modify fun _ _ h => h.modify (f := World.beginAttempt id n) fun _ => rfl
  createChild name := unseeing_modifyGet (World.createChild_unseeing id name)
  spanClosing x failed h := unseeing_spanClosing h x failed
  emit _ _ _ := unseeing_tracing fun w => w.untraced_emit _ _ _

namespace OperationExecution

variable {op : OperationExecution η S} {retrying : Retrying η}

theorem execute_unseeing (hop : op.Unseeing) (hretrying : retrying.Unseeing) (id : ExecutionId)
    (input : S.Input) : ((op.retrying retrying).execute id input).Unseeing := by
  have hlike : (op.retrying retrying).Like
      (fun _ (m : Fiber (World η) _) (_ : Fiber (World η) _) => m.Unseeing) id
      (op.retrying retrying) := { hop.parts id with }
  exact hlike.execute unseeing_likeness input fun span attempt _ ha =>
    hretrying.retry span hop.judge ha

theorem noted_unseeing (hop : op.Unseeing) (hretrying : retrying.Unseeing) (id : ExecutionId)
    (input : S.Input) : ((op.noted retrying).execute id input).Unseeing := by
  have hlike := (hop.parts id).noted (Q := fun _ m _ => m.Unseeing)
    (fun c _ _ hm => (unseeing_record c).bind fun _ _ => hm.unwatched) retrying
  exact hlike.execute unseeing_likeness input fun span attempt _ ha =>
    hretrying.watched_retry span hop.judge ha

end OperationExecution

namespace Interceptor

theorem posting_unseeing {post : Execution → World η → World η}
    (hpost : ∀ e w, (post e w).untraced = w.untraced) :
    (posting id post : Check η S).Unseeing :=
  (unseeing_tracing fun w => hpost _ w).bind fun _ _ => .pure trivial

theorem message_unseeing (level : TraceLevel) (text : Execution → String) :
    (message id level text : Check η S).Unseeing :=
  posting_unseeing fun e w => w.untraced_say e.span level _ _ none

theorem logging_unseeing : (logging : Interceptor η S).Like
    (fun _ (m : Fiber (World η) _) (_ : Fiber (World η) _) => m.Unseeing) id logging := by
  constructor
  case readBeforeExecution | readAfterSerialization | readBeforeAttempt | readAfterTransmit |
      readAfterAttempt =>
    intro v _
    dsimp only [logging]
    exact message_unseeing _ _
  case readAfterExecution =>
    intro v _
    dsimp only [logging]
    refine posting_unseeing fun e w => ?_
    rw [World.untraced_say, World.untraced_emit]
  all_goals exact fun _ _ => .pure trivial

theorem metrics_unseeing : (metrics : Interceptor η S).Like
    (fun _ (m : Fiber (World η) _) (_ : Fiber (World η) _) => m.Unseeing) id metrics := by
  constructor
  case readAfterExecution =>
    intro v _
    dsimp only [metrics]
    refine posting_unseeing fun e w => ?_
    exact (World.untraced_post _ _ _).trans (World.untraced_post _ _ _)
  all_goals exact fun _ _ => .pure trivial

end Interceptor

/-- Two crowds of executions have behaved alike so far: each execution has made as many attempts as
its counterpart and suppressed the same errors, sleeps on the clock were the same, and all came to
the same. -/
structure Crowd.BehaveAlike (c c' : Crowd (World η) α) : Prop where
  attempts : ∀ id, (c.state.execution id).attempt = (c'.state.execution id).attempt
  suppressed : ∀ id, (c.state.execution id).suppressed = (c'.state.execution id).suppressed
  clock : c.state.clock = c'.state.clock
  endings : c.endings = c'.endings

theorem Crowd.Alike.behaveAlike {c c' : Crowd (World η) α}
    (h : c.Alike SameUntraced (fun a => a) c') : c.BehaveAlike c' where
  attempts id := by rw [h.state.execution]
  suppressed id := by rw [h.state.execution]
  clock := h.state.clock
  endings := by
    have hmap : Ending.map (fun a : α => a) = id := by
      funext e
      cases e <;> rfl
    simpa [hmap] using h.endings

/-- Others do to worlds that look the same what makes them look the same again. -/
def OthersUnseeing {χ : Type} (moves : List (Move χ (World η))) : Prop :=
  ∀ f, .others f ∈ moves → ∀ w w', w.SameUntraced w' → (f w).SameUntraced (f w')

/-- Fibers that do not look at the trace, polled and dropped in the same order, stay alike. -/
theorem Crowd.run_unseeing {χ : Type} {program : Nat → χ → Fiber (World η) α}
    (hprogram : ∀ i call, (program i call).Unseeing) {moves : List (Move χ (World η))}
    (hmoves : OthersUnseeing moves) {w w' : World η} (h : w.SameUntraced w') :
    (Crowd.run program moves ⟨w, []⟩).Alike SameUntraced (fun a => a)
      (Crowd.run program moves ⟨w', []⟩) := by
  refine Alike.run (.nobody h) fun m hm => ?_
  cases m with
  | join call => exact fun i v v' hv => (hprogram i call v v' hv).endAlike
  | poll | drop => trivial
  | others f => exact hmoves f hm

namespace OperationExecution

/-- What moves make of executions of the operation, each in its context and with its input. -/
def executions (op : OperationExecution η S) (moves : List (Move (ExecutionId × S.Input) (World η)))
    (w : World η) : Crowd (World η) S.Result :=
  Crowd.run (fun _ call => op.execute call.1 call.2) moves ⟨w, []⟩

theorem executions_alike {op : OperationExecution η S}
    (h : ∀ id input, (op.execute id input).Unseeing)
    {moves : List (Move (ExecutionId × S.Input) (World η))} (hmoves : OthersUnseeing moves)
    {w w' : World η} (hw : w.SameUntraced w') :
    (op.executions moves w).Alike SameUntraced (fun a => a) (op.executions moves w') := by
  have hprogram (i : Nat) (call : ExecutionId × S.Input) :
      (op.execute call.1 call.2).Unseeing := h call.1 call.2
  exact Crowd.run_unseeing hprogram hmoves hw

/-- From two worlds whose spans have other probes or are closed in one and open in the other,
executions that are polled and dropped in the same order make the same calls with the same
arguments, acquire and release tokens alike, sleep alike, and come to the same. So do executions by
themselves, which can be seen with their calls noted. -/
theorem executions_ignore_tracing (op : OperationExecution η S) (retrying : Retrying η)
    (hop : op.Unseeing) (hretrying : retrying.Unseeing) :
    (∀ (w : World η) (x : SpanId) (probe : Probe) (closed : Bool),
      w.SameUntraced (w.updateSpan x fun s => { s with probe, closed })) ∧
    (∀ (w w' : HandedWorld η S) moves, w.SameUntraced w' → OthersUnseeing moves →
      ((op.noted retrying).executions moves w).state.calls =
        ((op.noted retrying).executions moves w').state.calls ∧
      ((op.noted retrying).executions moves w).BehaveAlike
        ((op.noted retrying).executions moves w')) ∧
    (∀ (w w' : World η) moves, w.SameUntraced w' → OthersUnseeing moves →
      ((op.retrying retrying).executions moves w).BehaveAlike
        ((op.retrying retrying).executions moves w')) ∧
    ∀ (w : HandedWorld η S) id input result v', Run (fun _ _ => True)
        ((op.retrying retrying).execute id input) (unwatched.get w) (.returned result) v' →
      ∃ w', unwatched.get w' = v' ∧ Run World.SameCalls ((op.noted retrying).execute id input) w
        (.returned result) w' := by
  refine ⟨World.sameUntraced_probe, ?_, ?_, ?_⟩
  · intro w w' moves h hmoves
    have halike := executions_alike (noted_unseeing hop hretrying) hmoves h
    exact ⟨(World.sameUntraced_journaled.mp halike.state).2, halike.behaveAlike⟩
  · intro w w' moves h hmoves
    exact (executions_alike (execute_unseeing hop hretrying) hmoves h).behaveAlike
  · intro w id input result v' hrun
    have hR (w : HandedWorld η S) (v : World η) (_ : True) : w.SameCalls (unwatched.set v w) := rfl
    exact op.noted_covers hR retrying id input w result v' hrun

/-- Two attempts that are told to everybody. -/
def reported : OperationExecution Unit numberShape :=
  { echo with interceptors := [.logging, failsFirst, .metrics] }

theorem reported_unseeing : reported.Unseeing where
  parts id := by
    refine ⟨fun _ => .pure trivial, fun _ => .pure trivial, fun _ => ?_, fun _ => .pure trivial,
      .cons Interceptor.logging_unseeing (.cons ?_ (.cons Interceptor.metrics_unseeing .nil))⟩
    · exact Blind.suspend.bind fun _ _ => .pure trivial
    · constructor
      case readBeforeAttempt =>
        intro v _
        refine Blind.bind (P := fun _ => True) (.gets (fun w w' h => ?_) fun _ => trivial)
          fun _ _ => .pure trivial
        rw [h.execution]
      all_goals exact fun _ _ => .pure trivial
  judge result := by
    cases result <;> exact ⟨fun _ _ _ => rfl, fun _ _ h => h⟩

theorem twoAttempts_unseeing : StandardStrategy.twoAttempts.Unseeing :=
  ⟨TokenBucket.infinite_unseeing, DelayProvider.fixed_unseeing _, World.manualClock_unseeing⟩

/-- A world where all is recorded, -/
def recordedScene : HandedWorld Unit numberShape := recordedWorld.journaled

/-- and the same world where the span is silent, and closed before it is used. -/
def silentScene : HandedWorld Unit numberShape :=
  recordedScene.updateSpan 0 fun s => { s with probe := .silent, closed := true }

/-- One execution of two attempts that are watched. -/
def reportedOnce (w : HandedWorld Unit numberShape) :
    Crowd (HandedWorld Unit numberShape) numberShape.Result :=
  (reported.noted (.standard StandardStrategy.twoAttempts)).executions
    [.join (0, 7), .poll 0, .poll 0] w

theorem executions_ignore_tracing_reported :
    ((reportedOnce recordedScene).state.calls = (reportedOnce silentScene).state.calls ∧
      (reportedOnce recordedScene).BehaveAlike (reportedOnce silentScene)) ∧
    (reportedOnce silentScene).endings = [some (.returned (.ok 7))] ∧
    ((reportedOnce recordedScene).state.trace.recording 0).closed.toList =
      [("Echo/attempt-1", .error), ("Echo/attempt-2", .unset), ("Echo", .unset)] ∧
    ((reportedOnce silentScene).state.trace.recording 0).closed.toList = [] := by
  obtain ⟨-, hsame, -⟩ := executions_ignore_tracing reported
    (.standard StandardStrategy.twoAttempts) reported_unseeing (.standard twoAttempts_unseeing)
  have hscenes := World.sameUntraced_probe recordedScene 0 .silent true
  refine ⟨hsame recordedScene silentScene _ hscenes ?_, ?_, ?_, ?_⟩
  · intro f hf
    simp at hf
  · cbv
  · cbv
  · cbv

end OperationExecution

end ClientRuntime
