import ClientRuntime.Operation.Context
import ClientRuntime.Proofs.Fiber.Covers
import ClientRuntime.Trace.Scope

/-!
Tracing beside a journal. The rest of the world sees every tracing operation as it is without the
journal.
-/

namespace ClientRuntime.World

variable {κ η : Type} (w : World (Journaled κ η))

theorem get_forward (s : Span) (e : TraceEvent) :
    unwatched.get (Probe.forward s e w) = Probe.forward s e (unwatched.get w) := by
  unfold Probe.forward
  cases e.body with
  | message content error => rfl
  | metric name value => cases value <;> rfl

mutual

theorem get_created (s : Span) : (p : Probe) → (w : World (Journaled κ η)) →
    unwatched.get (p.created s w) = p.created s (unwatched.get w)
  | .recording _, _ => rfl
  | .silent, _ => rfl
  | .logging _, _ => rfl
  | .multi probes, w => get_createdEach s probes w

theorem get_createdEach (s : Span) : (ps : List Probe) → (w : World (Journaled κ η)) →
    unwatched.get (Probe.createdEach ps s w) = Probe.createdEach ps s (unwatched.get w)
  | [], _ => rfl
  | p :: ps, w => by
    rw [Probe.createdEach, get_createdEach s ps, get_created s p, ← Probe.createdEach]

end

mutual

theorem get_probePost (s : Span) (e : TraceEvent) : (p : Probe) → (w : World (Journaled κ η)) →
    unwatched.get (p.post s e w) = p.post s e (unwatched.get w)
  | .recording _, _ => rfl
  | .silent, _ => rfl
  | .logging least, w => by
    have hlog : (unwatched.get w).log = w.log := rfl
    simp only [Probe.post, hlog]
    split
    · exact get_forward w s e
    · rfl
  | .multi probes, w => get_probePostEach s e probes w

theorem get_probePostEach (s : Span) (e : TraceEvent) :
    (ps : List Probe) → (w : World (Journaled κ η)) →
      unwatched.get (Probe.postEach ps s e w) = Probe.postEach ps s e (unwatched.get w)
  | [], _ => rfl
  | p :: ps, w => by
    rw [Probe.postEach, get_probePostEach s e ps, get_probePost s e p, ← Probe.postEach]

end

mutual

theorem get_closed (s : Span) : (p : Probe) → (w : World (Journaled κ η)) →
    unwatched.get (p.closed s w) = p.closed s (unwatched.get w)
  | .recording _, _ => rfl
  | .silent, _ => rfl
  | .logging _, _ => rfl
  | .multi probes, w => get_closedEach s probes w

theorem get_closedEach (s : Span) : (ps : List Probe) → (w : World (Journaled κ η)) →
    unwatched.get (Probe.closedEach ps s w) = Probe.closedEach ps s (unwatched.get w)
  | [], _ => rfl
  | p :: ps, w => by
    rw [Probe.closedEach, get_closedEach s ps, get_closed s p, ← Probe.closedEach]

end

theorem get_createChild (parent : SpanId) (id : String) :
    unwatched.get (w.createChild parent id).2 = ((unwatched.get w).createChild parent id).2 :=
  get_created _ _ _

theorem get_post (i : SpanId) (e : TraceEvent) :
    unwatched.get (w.post i e) = (unwatched.get w).post i e := by
  have hspan : (unwatched.get w).span i = w.span i := rfl
  simp only [post, hspan]
  split
  · rfl
  · exact get_probePost _ e _ w

theorem get_say (i : SpanId) (level : TraceLevel) (component text : String)
    (error : Option String) :
    unwatched.get (w.say i level component text error) =
      (unwatched.get w).say i level component text error :=
  get_post _ i _

theorem get_setStatus (i : SpanId) (status : SpanStatus) :
    unwatched.get (w.setStatus i status).2 = ((unwatched.get w).setStatus i status).2 := by
  have hspan : (unwatched.get w).span i = w.span i := rfl
  simp only [setStatus, hspan]
  split <;> rfl

theorem get_close (i : SpanId) : unwatched.get (w.close i) = (unwatched.get w).close i := by
  have hspan : (unwatched.get w).span i = w.span i := rfl
  simp only [close, hspan]
  split
  · rfl
  · exact get_closed _ _ _

theorem get_finishSpan (i : SpanId) (failed : Bool) :
    unwatched.get (finishSpan i failed w) = finishSpan i failed (unwatched.get w) := by
  unfold finishSpan
  rw [get_close]
  cases failed with
  | true => exact congrArg (close · i) (get_setStatus w i _)
  | false => rfl

theorem get_suppress (i : ExecutionId) (stage error : String) :
    unwatched.get (w.suppress i stage error) = (unwatched.get w).suppress i stage error :=
  congrArg (fun v : World η => v.updateExecution i fun e =>
    { e with suppressed := e.suppressed ++ [error] }) (get_say w _ _ _ _ _)

end ClientRuntime.World

namespace ClientRuntime.Fiber.Covers

open World

variable {κ η α β : Type} {R : World (Journaled κ η) → World (Journaled κ η) → Prop}
  {R' : World η → World η → Prop} {f : α → β}

theorem say_bind {i : SpanId} {level : TraceLevel} {component text : String}
    {error : Option String} {k : Unit → Fiber (World (Journaled κ η)) β}
    {k' : Unit → Fiber (World η) α} (hk : (k ()).Covers unwatched R R' f (k' ())) :
    (Fiber.modify (·.say i level component text error) >>= k).Covers unwatched R R' f
      (Fiber.modify (·.say i level component text error) >>= k') :=
  .modify_bind (fun w => get_say w i level component text error) hk

theorem spanClosing {i : SpanId} {failed : α → Bool} {body : Fiber (World (Journaled κ η)) α}
    {body' : Fiber (World η) α} (h : body.Covers unwatched R R' (fun a => a) body') :
    (ClientRuntime.spanClosing i failed body).Covers unwatched R R' (fun a => a)
      (ClientRuntime.spanClosing i failed body') :=
  (h.bind fun a => .modify_bind (fun w => get_finishSpan w i (failed a)) (.pure a)).guarded

end ClientRuntime.Fiber.Covers
