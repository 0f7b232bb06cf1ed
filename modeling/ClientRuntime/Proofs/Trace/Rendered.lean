import Mathlib.Algebra.BigOperators.Group.List.Basic
import ClientRuntime.Proofs.Trace.Sessions

/-!
When messages are rendered. As an event is posted, its message is rendered once for each leaf that
takes it: a logging probe whose own level admits the event, in a log where the level of the event is
enabled. Nothing else that tracing does renders a message.
-/

namespace ClientRuntime

open TraceNote (allNews)

namespace TraceEvent

/-- Its message is the one of this number. -/
def carries (number : Nat) (e : TraceEvent) : Bool := e.message?.any (·.number == number)

theorem count_number (number : Nat) (e : TraceEvent) :
    (e.message?.map (·.number)).toList.count number = if e.carries number then 1 else 0 := by
  unfold carries
  cases e.message? <;> simp [List.count_singleton]

end TraceEvent

namespace Probe

/-- How many leaves take events of a severity. -/
def takers (levels : LogLevels) (level : TraceLevel) (p : Probe) : Nat :=
  p.leaves.countP (·.takes levels level)

/-- How often a message is rendered as a probe is told some news. -/
def renderings (levels : LogLevels) (number : Nat) (t : Probe × SpanNews) : Nat :=
  match t.2 with
  | .posted _ e => if e.carries number then t.1.takers levels e.level else 0
  | _ => 0

variable (levels : LogLevels) (number : Nat)

theorem count_renders (n : SpanNews) (p : Probe) :
    (p.leaves.flatMap fun leaf => leaf.renders levels n).count number =
      renderings levels number (p, n) := by
  cases n with
  | created | closed => simp [Leaf.renders, renderings, List.count_eq_zero]
  | posted span e =>
    have hleaf (leaf : Leaf) : (leaf.renders levels (.posted span e)).count number =
        if leaf.takes levels e.level && e.carries number then 1 else 0 := by
      have hnumber := e.count_number number
      by_cases htakes : leaf.takes levels e.level <;> simp [Leaf.renders, htakes, hnumber]
    simp only [renderings, takers]
    induction p.leaves with
    | nil => simp
    | cons leaf leaves ih =>
      rw [List.flatMap_cons, List.count_append, hleaf, ih, List.countP_cons]
      by_cases hcarries : e.carries number <;> simp [hcarries, Nat.add_comm]

theorem count_rendered (ns : List SpanNews) (p : Probe) :
    (p.leaves.flatMap fun leaf => ns.flatMap (leaf.renders levels)).count number =
      ((ns.map (p, ·)).map (renderings levels number)).sum := by
  induction ns with
  | nil => simp [List.count_eq_zero]
  | cons n ns ih =>
    have hfirst := count_renders levels number n p
    simp only [List.count_flatMap, Function.comp_def] at hfirst ih
    simp only [List.count_flatMap, Function.comp_def, List.flatMap_cons, List.count_append,
      List.sum_map_add, hfirst, ih, List.map_cons, List.sum_cons]

end Probe

/-- How often somebody read the message of this number. -/
def TraceNote.readings (number : Nat) : TraceNote → Nat
  | read m => if m.number = number then 1 else 0
  | told _ _ | late _ _ => 0

theorem TraceNote.count_rendered (levels : LogLevels) (number : Nat) (k : List TraceNote) :
    (k.flatMap (·.rendered levels)).count number =
      ((allNews k).map (Probe.renderings levels number)).sum +
        (k.map (·.readings number)).sum := by
  induction k with
  | nil => rfl
  | cons note k ih =>
    have hnote : (note.rendered levels).count number =
        (note.news.map (Probe.renderings levels number)).sum + note.readings number := by
      cases note with
      | told probe news => exact Probe.count_rendered levels number news probe
      | late => simp [rendered, news, readings]
      | read m => simp [rendered, news, readings, List.count_singleton]
    rw [List.flatMap_cons, List.count_append, hnote, ih]
    simp only [allNews, List.flatMap_cons, List.map_append, List.sum_append, List.map_cons,
      List.sum_cons]
    omega

/-- How often a message is rendered as an event is posted to a span. -/
def Span.renderings (levels : LogLevels) (number : Nat) (s : Span) (e : TraceEvent) : Nat :=
  if s.closed = false ∧ e.carries number then s.probe.takers levels e.level else 0

theorem World.sum_postings (levels : LogLevels) (number : Nat) (s : Span) (es : List TraceEvent) :
    ((World.postings s es).map (Probe.renderings levels number)).sum =
      (es.map (s.renderings levels number)).sum := by
  have hrenderings : s.renderings levels number = fun e =>
      if s.closed = false ∧ e.carries number then s.probe.takers levels e.level else 0 := rfl
  rw [hrenderings, World.postings]
  cases s.closed <;> simp [Probe.renderings, Function.comp_def]

/-- How often a call renders a message. -/
def SpanStep.renderings {η : Type} (w : World η) (number : Nat) : SpanStep η → Nat
  | .post i e => (w.span i).renderings w.log.levels number e
  | .postAll i es => (es.map ((w.span i).renderings w.log.levels number)).sum
  | _ => 0

namespace World

variable {η : Type} {v w : World η} {k : List TraceNote}

/-- How often the message of this number has been rendered. -/
def timesRendered (w : World η) (number : Nat) : Nat := w.trace.rendered.toList.count number

theorem Shows.timesRendered_eq (h : Shows k v w) (number : Nat) : w.timesRendered number =
    v.timesRendered number + ((allNews k).map (Probe.renderings v.log.levels number)).sum +
      (k.map (·.readings number)).sum := by
  unfold World.timesRendered
  rw [h.rendered, List.count_append, TraceNote.count_rendered, Nat.add_assoc]

theorem timesRendered_perform {s : SpanStep η} (hs : s.Quiet w) (number : Nat) :
    (s.perform w).timesRendered number = w.timesRendered number + s.renderings w number := by
  have hread : ((s.notes w).map (·.readings number)).sum = 0 := by
    cases s with
    | post i e => simp only [SpanStep.notes]; split <;> rfl
    | postAll i es =>
      simp only [SpanStep.notes]
      split
      · rfl
      split <;> rfl
    | close i => simp only [SpanStep.notes]; split <;> rfl
    | _ => rfl
  have hnews : ((allNews (s.notes w)).map (Probe.renderings w.log.levels number)).sum =
      s.renderings w number := by
    cases s with
    | post i e =>
      rw [allNews_post, sum_postings]
      simp [SpanStep.renderings]
    | postAll i es => rw [allNews_postAll, sum_postings, SpanStep.renderings]
    | close i => simp only [SpanStep.notes]; split <;> rfl
    | _ => rfl
  rw [(Shows.step hs).timesRendered_eq, hread, hnews, Nat.add_zero]

end World

open Simulation (SpanCommand SpanSession) in
/-- A call renders a message only as it posts it to an open span, and then once for each leaf that
takes the event. So in every run, and in every program, messages are rendered for these leaves and
for those who read them, and for nobody else. -/
theorem rendered_for_takers :
    (∀ {η : Type} (w : World η) (s : SpanStep η) (number : Nat), s.Quiet w →
      (s.perform w).timesRendered number = w.timesRendered number + s.renderings w number) ∧
    (∀ {η : Type} (v w : World η) (k : List TraceNote) (number : Nat), v.Notes k w →
      w.timesRendered number = v.timesRendered number +
        ((allNews k).map (Probe.renderings v.log.levels number)).sum +
          (k.map (·.readings number)).sum) ∧
    ∀ (program : List SpanCommand) (v : SpanSession.State),
      ∃ k, v.Notes k (SpanSession.finish program v) ∧
        ∀ number, (SpanSession.finish program v).timesRendered number = v.timesRendered number +
          ((allNews k).map (Probe.renderings v.log.levels number)).sum +
            (k.map (·.readings number)).sum := by
  refine ⟨fun w s number hs => World.timesRendered_perform hs number,
    fun v w k number h => h.shows.timesRendered_eq number, fun program v => ?_⟩
  obtain ⟨k, hk⟩ := SpanSession.exists_notes program v
  exact ⟨k, hk, hk.shows.timesRendered_eq⟩

/-- Errors and debugging are kept, and nothing in between. -/
def gappedLevels : LogLevels := ⟨fun level => level = .error ∨ level = .debug⟩

/-- A world with a root span, which three logging probes hear of. -/
def pickyWorld : World Unit :=
  (World.createRoot
    { World.start .epoch .epoch () with
      trace := .withRecordings 1
      log := ⟨gappedLevels, .empty⟩ }
    "root" (.multi [.logging .trace, .recording 0,
      .multi [.logging .info, .silent, .logging .debug]])).2

/-- A message under its number. -/
def numbered (level : TraceLevel) (number : Nat) : TraceEvent :=
  ⟨level, "Worker", .epoch, .message ⟨number, "text"⟩ none⟩

def mixedBatch : List TraceEvent := [numbered .debug 7, numbered .fatal 8, numbered .warning 9]

/-- Two of the three take debugging, all of them take what is fatal, and the log takes no warnings.
One message is read later on. -/
theorem rendered_for_takers_picky :
    (pickyWorld.postAll 0 mixedBatch).timesRendered 7 = 2 ∧
      (pickyWorld.postAll 0 mixedBatch).timesRendered 8 = 3 ∧
      (pickyWorld.postAll 0 mixedBatch).timesRendered 9 = 0 ∧
      ((pickyWorld.postAll 0 mixedBatch).render ⟨7, "text"⟩).2.timesRendered 7 = 3 := by
  obtain ⟨calls, runs, -⟩ := rendered_for_takers
  have hposted := calls pickyWorld (.postAll 0 mixedBatch)
  have hread := runs pickyWorld _ _ 7
    ((World.Notes.single (.postAll 0 mixedBatch) trivial).read ⟨7, "text"⟩)
  exact ⟨(hposted 7 trivial).trans (by cbv), (hposted 8 trivial).trans (by cbv),
    (hposted 9 trivial).trans (by cbv), hread.trans (by cbv)⟩

end ClientRuntime
