import ClientRuntime.Operation.Context
import ClientRuntime.Proofs.Fiber.Blind
import ClientRuntime.Proofs.Trace.Frame

/-!
Worlds without what tracing leaves behind. Which probe a span reports to, whether it is closed and
what was posted to it makes no difference to the rest of the world, nor to fibers that do not look.
-/

namespace ClientRuntime

open ClientRuntime.Fiber

variable {η κ α : Type}

/-- The span by itself, as nobody watches it. -/
def Span.untraced (s : Span) : Span :=
  { s with probe := .silent, status := .unset, closed := false }

namespace World

variable {w w' : World η} {i : SpanId}

/-- The world with nothing in its log, no recordings, and no probe to tell. -/
def untraced (w : World η) : World η :=
  { w with
    log := .silent
    trace := { Trace.empty with spans := w.trace.spans.map Span.untraced } }

/-- The worlds look the same to whoever does not look at what tracing leaves behind. -/
def SameUntraced (w w' : World η) : Prop := w.untraced = w'.untraced

@[simp] theorem untraced_emit (w : World η) (level : LogLevel) (fields : List (String × LogValue))
    (message : String) : (w.emit level fields message).untraced = w.untraced := rfl

@[simp] theorem untraced_newMessage (w : World η) (text : String) :
    (w.newMessage text).2.untraced = w.untraced := rfl

theorem untraced_updateSpan {f : Span → Span} (hf : ∀ s, (f s).untraced = s.untraced)
    (w : World η) (i : SpanId) : (w.updateSpan i f).untraced = w.untraced := by
  have hspans : (w.trace.spans.modify i f).map Span.untraced = w.trace.spans.map Span.untraced := by
    refine List.ext_getElem? fun j => ?_
    rw [List.getElem?_map, List.getElem?_map, List.getElem?_modify]
    cases w.trace.spans[j]? with
    | none => rfl
    | some s => by_cases hij : i = j <;> simp [hij, hf]
  simp only [untraced, updateSpan, Trace.updateSpan, hspans]

/-- So a span may have another probe, and may be closed. -/
theorem sameUntraced_probe (w : World η) (i : SpanId) (probe : Probe) (closed : Bool) :
    w.SameUntraced (w.updateSpan i fun s => { s with probe, closed }) :=
  (untraced_updateSpan (by exact fun _ => rfl) w i).symm

theorem sameUntraced_unprobed : Unprobed (SameUntraced : World η → World η → Prop) where
  none _ := rfl
  andThen h h' := Eq.trans h h'
  emit _ _ _ _ := rfl
  record _ _ _ := rfl
  render _ _ := rfl

@[simp] theorem untraced_post (w : World η) (i : SpanId) (e : TraceEvent) :
    (w.post i e).untraced = w.untraced := by
  simp only [post]
  split
  · rfl
  · exact (sameUntraced_unprobed.post _ e _ w).symm

@[simp] theorem untraced_say (w : World η) (i : SpanId) (level : TraceLevel)
    (component text : String) (error : Option String) :
    (w.say i level component text error).untraced = w.untraced := untraced_post _ i _

@[simp] theorem untraced_setStatus (w : World η) (i : SpanId) (status : SpanStatus) :
    (w.setStatus i status).2.untraced = w.untraced := by
  unfold setStatus
  split
  · rfl
  · exact untraced_updateSpan (by exact fun _ => rfl) w i

@[simp] theorem untraced_close (w : World η) (i : SpanId) : (w.close i).untraced = w.untraced := by
  simp only [close]
  split
  · rfl
  · rw [← sameUntraced_unprobed.closed _ _ _]
    exact untraced_updateSpan (by exact fun _ => rfl) w i

@[simp] theorem untraced_finishSpan (w : World η) (i : SpanId) (failed : Bool) :
    (finishSpan i failed w).untraced = w.untraced := by
  cases failed <;> simp [finishSpan]

@[simp] theorem untraced_dropGuard (w : World η) (i : SpanId) :
    (dropGuard i w).untraced = w.untraced := by
  unfold dropGuard
  split <;> simp

@[simp] theorem untraced_unwindGuard (w : World η) (i : SpanId) :
    (unwindGuard i w).untraced = w.untraced := by
  unfold unwindGuard
  split <;> simp

@[simp] theorem untraced_updateExecution (w : World η) (id : ExecutionId)
    (f : Execution → Execution) :
    (w.updateExecution id f).untraced = w.untraced.updateExecution id f := rfl

@[simp] theorem execution_untraced (w : World η) (id : ExecutionId) :
    w.untraced.execution id = w.execution id := rfl

theorem path_untraced (w : World η) (i : SpanId) : (w.untraced.span i).path = (w.span i).path := by
  simp only [span, Trace.span, untraced, List.getD_eq_getElem?_getD, List.getElem?_map]
  cases w.trace.spans[i]? <;> rfl

/-- A child is created where it would be created if nobody watched. -/
theorem untraced_createChild (w : World η) (parent : SpanId) (id : String) :
    (w.createChild parent id).1 = (w.untraced.createChild parent id).1 ∧
      (w.createChild parent id).2.untraced = (w.untraced.createChild parent id).2.untraced := by
  refine ⟨by simp [createChild, createSpan, untraced], ?_⟩
  simp only [createChild, createSpan]
  rw [← sameUntraced_unprobed.created _ _ _, ← sameUntraced_unprobed.created _ _ _, path_untraced]
  simp [untraced, Span.untraced, Function.comp_def]

theorem untraced_suppress (w : World η) (id : ExecutionId) (stage error : String) :
    (w.suppress id stage error).untraced = w.untraced.updateExecution id fun e =>
      { e with suppressed := e.suppressed ++ [error] } := by
  simp [suppress]

namespace SameUntraced

theorem execution (h : w.SameUntraced w') (id : ExecutionId) :
    w.execution id = w'.execution id := by
  rw [← execution_untraced, h, execution_untraced]

theorem clock (h : w.SameUntraced w') : w.clock = w'.clock := by
  have hclock := congrArg World.clock (show w.untraced = w'.untraced from h)
  exact hclock

theorem systemTime (h : w.SameUntraced w') : w.systemTime = w'.systemTime := by
  have htime := congrArg World.systemTime (show w.untraced = w'.untraced from h)
  exact htime

theorem random (h : w.SameUntraced w') : w.random = w'.random := by
  have hrandom := congrArg World.random (show w.untraced = w'.untraced from h)
  exact hrandom

theorem host (h : w.SameUntraced w') : w.host = w'.host := by
  have hhost := congrArg World.host (show w.untraced = w'.untraced from h)
  exact hhost

/-- A change that has nothing to do with tracing. -/
theorem modify {f : World η → World η} (hf : ∀ w, (f w).untraced = f w.untraced)
    (h : w.SameUntraced w') : (f w).SameUntraced (f w') := by
  rw [SameUntraced, hf, h, hf]

end SameUntraced

section Journal

variable {w w' : World (Journaled κ η)}

theorem sameUntraced_journaled : w.SameUntraced w' ↔
    (unwatched.get w).SameUntraced (unwatched.get w') ∧ w.calls = w'.calls := by
  obtain ⟨clock, systemTime, log, trace, executions, random, calls, host⟩ := w
  obtain ⟨clock', systemTime', log', trace', executions', random', calls', host'⟩ := w'
  simp only [SameUntraced, untraced, unwatched, World.calls, World.mk.injEq, Journaled.mk.injEq]
  tauto

namespace SameUntraced

theorem set (h : w.SameUntraced w') {v v' : World η} (hv : v.SameUntraced v') :
    (unwatched.set v w).SameUntraced (unwatched.set v' w') :=
  sameUntraced_journaled.mpr ⟨by simpa only [unwatched.get_set], (sameUntraced_journaled.mp h).2⟩

theorem record (h : w.SameUntraced w') (c : κ) : (w.record c).SameUntraced (w'.record c) := by
  obtain ⟨hv, hcalls⟩ := sameUntraced_journaled.mp h
  exact sameUntraced_journaled.mpr ⟨hv, by rw [calls_record, calls_record, hcalls]⟩

end SameUntraced

end Journal

/-- Answers and goes on alike from worlds that look the same. -/
structure Unseeing (f : World η → α × World η) : Prop where
  value : ∀ w w', w.SameUntraced w' → (f w).1 = (f w').1
  world : ∀ w w', w.SameUntraced w' → (f w).2.SameUntraced (f w').2

theorem createChild_unseeing (id : ExecutionId) (name : String) :
    Unseeing fun w : World η => w.createChild (w.execution id).span name where
  value w w' h := by
    rw [(untraced_createChild w _ _).1, (untraced_createChild w' _ _).1, h, h.execution]
  world w w' h := by
    rw [SameUntraced, (untraced_createChild w _ _).2, (untraced_createChild w' _ _).2, h,
      h.execution]

end World

open World

/-- A part of the world that tracing has nothing to do with. -/
structure Lens.Unseeing (l : Lens (World η) α) : Prop where
  get : ∀ w w', w.SameUntraced w' → l.get w = l.get w'
  set : ∀ a w w', w.SameUntraced w' → (l.set a w).SameUntraced (l.set a w')

namespace Fiber

/-- The fiber does not look at what tracing leaves behind. It may leave something behind itself. -/
abbrev Unseeing (m : Fiber (World η) α) : Prop := m.Blind SameUntraced fun _ => True

theorem unseeing_tracing {f : World η → World η} (hf : ∀ w, (f w).untraced = w.untraced) :
    (Fiber.modify f).Unseeing :=
  .modify fun w w' h => (hf w).trans (h.trans (hf w').symm)

theorem unseeing_modifyGet {f : World η → α × World η} (hf : World.Unseeing f) :
    (Fiber.modifyGet f).Unseeing := .modifyGet hf.value hf.world fun _ => trivial

theorem unseeing_record (c : κ) :
    (Fiber.modify (World.record c) : Fiber (World (Journaled κ η)) Unit).Unseeing :=
  .modify fun _ _ h => h.record c

theorem Blind.unwatched {P : α → Prop} {m : Fiber (World η) α} (hm : m.Blind SameUntraced P) :
    (m.along World.unwatched : Fiber (World (Journaled κ η)) α).Blind SameUntraced P :=
  hm.along (fun _ _ h => (sameUntraced_journaled.mp h).1) fun _ _ _ _ h hv => h.set hv

theorem Blind.watched {P : α → Prop} {m : Fiber (World η) α} (hm : m.Blind SameUntraced P)
    (call : α → κ) : (m.watched call).Blind SameUntraced P :=
  hm.unwatched.bind fun a ha => (unseeing_record (call a)).bind fun _ _ => .pure ha

theorem unseeing_spanClosing {m : Fiber (World η) α} (hm : m.Unseeing) (i : SpanId)
    (failed : α → Bool) : (spanClosing i failed m).Unseeing := by
  have hfinished := hm.bind fun a _ => (unseeing_tracing fun w =>
    untraced_finishSpan w i (failed a)).bind fun _ _ => .pure (P := fun _ => True) (a := a) trivial
  exact hfinished.guarded
    (fun w w' h => by rw [SameUntraced, untraced_dropGuard, h, untraced_dropGuard])
    fun w w' h => by rw [SameUntraced, untraced_unwindGuard, h, untraced_unwindGuard]

end Fiber

end ClientRuntime
