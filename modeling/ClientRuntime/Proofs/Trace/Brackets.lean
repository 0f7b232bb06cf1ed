import Mathlib.Data.List.Basic
import ClientRuntime.Proofs.Trace.Changes

/-!
How spans end. Of all that happens to a span, what tells how it ended is its marks: when it was
created, what its guard said, and with which status it closed.
-/

namespace ClientRuntime

inductive SpanMark where
  | opened
  | guardSaid (level : TraceLevel)
  | closed (status : SpanStatus)
  deriving DecidableEq

def SpanChange.mark? (c : SpanChange) : Option SpanMark :=
  match c.act with
  | .created => some .opened
  | .marked _ => none
  | .posted e => if e.component = World.guardComponent then some (.guardSaid e.level) else none
  | .closed => some (.closed c.seen.status)

/-- The marks of some spans, in order. -/
def outline (is : List SpanId) (k : List SpanChange) : List (SpanId × SpanMark) :=
  k.filterMap fun c => if c.span ∈ is then c.mark?.map (c.span, ·) else none

section Outline

variable {is is' : List SpanId} {k : List SpanChange} {i : SpanId}

theorem outline_append (k k' : List SpanChange) :
    outline is (k ++ k') = outline is k ++ outline is k' := List.filterMap_append

theorem outline_eq_nil (h : ∀ c ∈ k, c.span ∈ is → c.mark? = none) : outline is k = [] := by
  refine List.filterMap_eq_nil_iff.mpr fun c hc => ?_
  by_cases hin : c.span ∈ is
  · simp [hin, h c hc hin]
  · simp [hin]

theorem outline_congr (h : ∀ c ∈ k, c.mark? ≠ none → (c.span ∈ is ↔ c.span ∈ is')) :
    outline is k = outline is' k := by
  refine List.filterMap_congr fun c hc => ?_
  cases hmark : c.mark? with
  | none => simp
  | some m => simp [h c hc (by simp [hmark])]

theorem outline_of_span (hi : i ∈ is) (h : ∀ c ∈ k, c.span = i) :
    outline is k = (k.filterMap (·.mark?)).map (i, ·) := by
  rw [List.map_filterMap]
  refine List.filterMap_congr fun c hc => ?_
  simp [h c hc, hi]

end Outline

/-- The last marks of a span around something that ends so. -/
def Ending.lastMarks {α : Type} (failed : α → Bool) : Ending α → List SpanMark
  | .returned a => [.closed (if failed a then .error else .unset)]
  | .cut .dropped => [.guardSaid .warning, .closed .unset]
  | .cut (.unwound _) => [.guardSaid .error, .closed .error]

/-- All marks of a span that is created around something that ends so. -/
def Ending.marks {α : Type} (failed : α → Bool) (e : Ending α) : List SpanMark :=
  .opened :: e.lastMarks failed

/-- What becomes of a span around something that ends so. -/
def Ending.closeSpan {η α : Type} (i : SpanId) (failed : α → Bool) :
    Ending α → World η → World η
  | .returned a => World.finishSpan i (failed a)
  | .cut .dropped => World.dropGuard i
  | .cut (.unwound _) => World.unwindGuard i

open ClientRuntime.Fiber in
theorem run_spanClosing {η α : Type} {R : World η → World η → Prop} {i : SpanId}
    {failed : α → Bool} {body : Fiber (World η) α} {w w' : World η} {e : Ending α} :
    Run R (spanClosing i failed body) w e w' ↔
      ∃ w₁, Run R body w e w₁ ∧ w' = e.closeSpan i failed w₁ := by
  unfold spanClosing
  rw [run_guarded]
  constructor
  · rintro ⟨w₁, hrun, rfl⟩
    rcases run_bind.mp hrun with ⟨a, w₂, hbody, hrest⟩ | ⟨c, rfl, hcut⟩
    · rw [run_modify_bind, run_pure] at hrest
      obtain ⟨rfl, rfl⟩ := hrest
      exact ⟨w₂, hbody, rfl⟩
    · refine ⟨w₁, hcut, ?_⟩
      cases c <;> rfl
  · rintro ⟨w₁, hbody, rfl⟩
    cases e with
    | returned a =>
      refine ⟨_, run_bind.mpr (.inl ⟨a, w₁, hbody, ?_⟩), rfl⟩
      rw [run_modify_bind, run_pure]
      exact ⟨rfl, rfl⟩
    | cut c =>
      refine ⟨w₁, run_bind.mpr (.inr ⟨c, rfl, hbody⟩), ?_⟩
      cases c <;> rfl

namespace World

variable {η : Type} {w w' : World η} {i : SpanId}

theorem say_traces (w : World η) (i : SpanId) (level : TraceLevel) (component text : String)
    (error : Option String) :
    ∃ e : TraceEvent, e.level = level ∧ e.component = component ∧
      w.Traces (if (w.span i).closed then [] else [⟨i, w.span i, .posted e⟩])
        (w.say i level component text error) := by
  let written := (w.newMessage text).2
  let e := written.event level component (.message (w.newMessage text).1 error)
  have hwritten : w.Traces [] written := .aside rfl rfl
  have hspan : written.span i = w.span i := span_of_eq rfl i
  refine ⟨e, rfl, rfl, ?_⟩
  cases hclosed : (w.span i).closed with
  | true =>
    have hpost : w.say i level component text error = written.warnDropped i 1 := by
      show written.post i e = _
      simp [post, hspan, hclosed]
    rw [hpost]
    exact .aside rfl rfl
  | false =>
    have hpost := Traces.post (w := written) (i := i) e (by rw [hspan]; exact hclosed)
    rw [hspan] at hpost
    exact hwritten.append hpost

theorem setStatus_traces (w : World η) (i : SpanId) {status : SpanStatus}
    (hstatus : status ≠ .unset) :
    w.Traces (if (w.span i).status = .unset ∧ i < w.trace.spans.length
      then [⟨i, w.span i, .marked status⟩] else []) (w.setStatus i status).2 := by
  by_cases hunset : (w.span i).status = .unset
  · by_cases hi : i < w.trace.spans.length
    · simpa [hunset, hi] using Traces.mark hi hunset hstatus
    · have hset : (w.setStatus i status).2.trace.spans = w.trace.spans := by
        simp [setStatus, hunset, hstatus, updateSpan, Trace.updateSpan,
          List.modify_eq_self (Nat.le_of_not_lt hi)]
      rw [if_neg fun h => hi h.2]
      refine .aside hset ?_
      simp [setStatus, hunset, hstatus, updateSpan, Trace.updateSpan]
  · rw [if_neg fun h => hunset h.1]
    simpa [setStatus, hunset] using Traces.aside (w := w) rfl rfl

theorem close_traces (w : World η) (i : SpanId) :
    w.Traces (if (w.span i).closed then [] else [⟨i, { w.span i with closed := true }, .closed⟩])
      (w.close i) := by
  cases hclosed : (w.span i).closed with
  | true => simpa [close, hclosed] using Traces.aside (w := w) rfl rfl
  | false => simpa [hclosed] using Traces.close hclosed

theorem span_setStatus (hopen : (w.span i).closed = false) (hunset : (w.span i).status = .unset)
    {status : SpanStatus} (hstatus : status ≠ .unset) :
    (w.setStatus i status).2.span i = { w.span i with status } := by
  have hspans : (w.setStatus i status).2.trace.spans =
      w.trace.spans.modify i fun s => { s with status } := by
    simp [setStatus, hunset, hstatus, updateSpan, Trace.updateSpan]
  rw [span_of_modify hspans]
  simp [lt_of_open hopen]

theorem span_say (w : World η) (i j : SpanId) (level : TraceLevel) (component text : String)
    (error : Option String) : (w.say j level component text error).span i = w.span i :=
  span_of_eq (post_sameSpans (w.newMessage text).2 j _).spans i

theorem span_close_closed (w : World η) (i : SpanId) : ((w.close i).span i).closed = true := by
  cases hclosed : (w.span i).closed with
  | true => simp [close, hclosed]
  | false =>
    have h := (close_amounts hclosed).openings i
    have hopen : w.openings i = 1 := by simp [openings, hclosed]
    rw [hopen] at h
    refine openings_eq_zero.mp ?_
    simpa [SpanChange.closes, SpanChange.creates] using h

/-- Changes to one span. If it was open and had no status, they end it with these marks. -/
def Ends (i : SpanId) (marks : List SpanMark) (w w' : World η) : Prop :=
  ∃ k, w.Traces k w' ∧ (∀ c ∈ k, c.span = i) ∧
    ((w.span i).closed = false → (w.span i).status = .unset → k.filterMap (·.mark?) = marks)

theorem finishSpan_ends (i : SpanId) (failed : Bool) (w : World η) :
    Ends i [.closed (if failed then .error else .unset)] w (finishSpan i failed w) := by
  cases failed with
  | false =>
    refine ⟨_, close_traces w i, ?_, ?_⟩
    · intro c hc
      split at hc <;> simp_all
    · intro hopen hunset
      simp [hopen, SpanChange.mark?, hunset]
  | true =>
    refine ⟨_, (setStatus_traces w i (by decide)).append (close_traces _ i), ?_, ?_⟩
    · intro c hc
      rcases List.mem_append.mp hc with hc | hc <;> split at hc <;> simp_all
    · intro hopen hunset
      have hspan : (w.setStatus i .error).2.span i = { w.span i with status := .error } :=
        span_setStatus hopen hunset (by decide)
      simp [hopen, hunset, hspan, lt_of_open hopen, SpanChange.mark?]

theorem dropGuard_ends (i : SpanId) (w : World η) :
    Ends i [.guardSaid .warning, .closed .unset] w (dropGuard i w) := by
  cases hclosed : (w.span i).closed with
  | true =>
    have h : dropGuard i w = w := by simp [dropGuard, hclosed]
    rw [h]
    exact ⟨[], .aside rfl rfl, by simp, by simp [hclosed]⟩
  | false =>
    obtain ⟨e, hlevel, hcomponent, hsaid⟩ := say_traces w i .warning guardComponent
      "Span scope cancelled before completion" none
    have h : dropGuard i w = (w.say i .warning guardComponent
        "Span scope cancelled before completion" none).close i := by simp [dropGuard, hclosed]
    rw [h]
    refine ⟨_, hsaid.append (close_traces _ i), ?_, ?_⟩
    · simp [hclosed, span_say]
    · intro _ hunset
      simp [hclosed, span_say, SpanChange.mark?, hunset, hlevel, hcomponent]

theorem unwindGuard_ends (i : SpanId) (w : World η) :
    Ends i [.guardSaid .error, .closed .error] w (unwindGuard i w) := by
  cases hclosed : (w.span i).closed with
  | true =>
    have h : unwindGuard i w = w := by simp [unwindGuard, hclosed]
    rw [h]
    exact ⟨[], .aside rfl rfl, by simp, by simp [hclosed]⟩
  | false =>
    let marked := (w.setStatus i .error).2
    obtain ⟨e, hlevel, hcomponent, hsaid⟩ :=
      say_traces marked i .error guardComponent "Span scope panicked" none
    have h : unwindGuard i w =
        (marked.say i .error guardComponent "Span scope panicked" none).close i := by
      simp [unwindGuard, hclosed, marked]
    rw [h]
    refine ⟨_, ((setStatus_traces w i (by decide)).append hsaid).append (close_traces _ i), ?_, ?_⟩
    · intro c hc
      simp only [List.mem_append] at hc
      rcases hc with (hc | hc) | hc <;> split at hc <;> simp_all
    · intro hopen hunset
      have hspan : marked.span i = { w.span i with status := .error } :=
        span_setStatus hopen hunset (by decide)
      simp [hopen, hunset, hspan, lt_of_open hopen, span_say, SpanChange.mark?, hlevel, hcomponent]

theorem closeSpan_ends {α : Type} (i : SpanId) (failed : α → Bool) (e : Ending α) (w : World η) :
    Ends i (e.lastMarks failed) w (e.closeSpan i failed w) := by
  cases e with
  | returned a => exact finishSpan_ends i (failed a) w
  | cut c =>
    cases c with
    | unwound text => exact unwindGuard_ends i w
    | dropped => exact dropGuard_ends i w

theorem closeSpan_traced {α : Type} (i : SpanId) (failed : α → Bool) (e : Ending α)
    (w : World η) : w.TracedTo (e.closeSpan i failed w) := by
  cases e with
  | returned a => exact finishSpan_traced i _ w
  | cut c =>
    cases c with
    | unwound text =>
      simp only [Ending.closeSpan, unwindGuard]
      split
      · exact .refl w
      · exact ((setStatus_traced w i _).trans (say_traced _ i _ _ _ _)).trans (close_traced _ i)
    | dropped =>
      simp only [Ending.closeSpan, dropGuard]
      split
      · exact .refl w
      · exact (say_traced w i _ _ _ _).trans (close_traced _ i)

theorem closeSpan_closed {α : Type} (i : SpanId) (failed : α → Bool) (e : Ending α)
    (w : World η) : ((e.closeSpan i failed w).span i).closed = true := by
  cases e with
  | returned a => exact span_close_closed _ i
  | cut c =>
    cases hclosed : (w.span i).closed with
    | true => cases c <;> simp [Ending.closeSpan, dropGuard, unwindGuard, hclosed]
    | false =>
      cases c <;> simp [Ending.closeSpan, dropGuard, unwindGuard, hclosed, span_close_closed]

end World

end ClientRuntime
