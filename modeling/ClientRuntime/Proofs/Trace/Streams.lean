import Mathlib.Data.List.Basic
import ClientRuntime.Proofs.Trace.Brackets

/-!
What a recording shows of any number of spans. Whoever creates, marks, posts to and closes spans,
and in whatever order, changes them in an orderly way: a span comes after its parent and before
anything else of its own, nothing is posted to it and it does not close once it is closed, and it is
marked once. The recording shows these changes one by one and nothing besides.
-/

namespace ClientRuntime

/-- A call of a tracing operation, or something else that is none of tracing's business. -/
inductive SpanStep (η : Type) where
  | root (id : String) (probe : Probe)
  | child (parent : SpanId) (id : String)
  | setStatus (i : SpanId) (status : SpanStatus)
  | setAttribute (i : SpanId) (key : AttributeKey) (v : AttributeValue)
  | post (i : SpanId) (e : TraceEvent)
  | postAll (i : SpanId) (es : List TraceEvent)
  | close (i : SpanId)
  | aside (f : World η → World η)

namespace SpanStep

variable {η : Type}

def perform (w : World η) : SpanStep η → World η
  | root id probe => (w.createRoot id probe).2
  | child parent id => (w.createChild parent id).2
  | setStatus i status => (w.setStatus i status).2
  | setAttribute i key v => w.setSpanAttribute i key v
  | post i e => w.post i e
  | postAll i es => w.postAll i es
  | close i => w.close i
  | aside f => f w

/-- Roots report to the recording, and a handle is one of a span that was created. -/
def Ready (slot : Nat) (w : World η) : SpanStep η → Prop
  | root _ probe => probe = .recording slot
  | child i _ | setStatus i _ | setAttribute i _ _ | post i _ | postAll i _ | close i =>
    i < w.trace.spans.length
  | aside f => (f w).trace.spans = w.trace.spans ∧ (f w).trace.recordings = w.trace.recordings

/-- What a call changes. Those that come too late change nothing. -/
def changes (w : World η) : SpanStep η → List SpanChange
  | root id probe => [⟨w.trace.spans.length, .fresh id [] none probe, .created⟩]
  | child i id =>
    [⟨w.trace.spans.length, .fresh id (w.span i).path (some i) (w.span i).probe, .created⟩]
  | setStatus i status =>
    if (w.span i).status = .unset ∧ status ≠ .unset then [⟨i, w.span i, .marked status⟩] else []
  | post i e => if (w.span i).closed then [] else [⟨i, w.span i, .posted e⟩]
  | postAll i es => if (w.span i).closed then [] else es.map fun e => ⟨i, w.span i, .posted e⟩
  | close i => if (w.span i).closed then [] else [⟨i, { w.span i with closed := true }, .closed⟩]
  | setAttribute _ _ _ | aside _ => []

end SpanStep

namespace SpanChange

def marks (i : SpanId) (c : SpanChange) : Bool :=
  match c.act with
  | .marked _ => c.span == i
  | _ => false

theorem span_of_marks {c : SpanChange} {i : SpanId} (h : c.marks i = true) : c.span = i := by
  unfold marks at h
  split at h
  · simpa using h
  · cases h

/-- Whether a change may come after others. -/
def Follows (before : List SpanChange) (c : SpanChange) : Prop :=
  match c.act with
  | .created => (∀ c' ∈ before, c'.span ≠ c.span) ∧
      ∀ p, c.seen.parent = some p → ∃ c' ∈ before, c'.creates p
  | .marked status => status ≠ .unset ∧ (∃ c' ∈ before, c'.creates c.span) ∧
      ∀ c' ∈ before, ¬ c'.marks c.span
  | .posted _ | .closed => (∃ c' ∈ before, c'.creates c.span) ∧
      ∀ c' ∈ before, ¬ c'.closes c.span

/-- What a recording shows of it among the spans created. -/
def creation? (c : SpanChange) : Option String :=
  match c.act with
  | .created => some c.seen.qualifiedId
  | _ => none

def event? (c : SpanChange) : Option RecordedEvent :=
  match c.act with
  | .posted e => some ⟨c.seen.qualifiedId, e⟩
  | _ => none

def closing? (c : SpanChange) : Option (String × SpanStatus) :=
  match c.act with
  | .closed => some (c.seen.qualifiedId, c.seen.status)
  | _ => none

end SpanChange

/-- `r'` shows some changes more than `r`. -/
structure Recording.Adds (k : List SpanChange) (r r' : Recording) : Prop where
  created : r'.created.toList = r.created.toList ++ k.filterMap (·.creation?)
  events : r'.events.toList = r.events.toList ++ k.filterMap (·.event?)
  closed : r'.closed.toList = r.closed.toList ++ k.filterMap (·.closing?)

namespace Recording.Adds

variable {r r₁ r₂ : Recording} {k k' : List SpanChange}

theorem refl (r : Recording) : r.Adds [] r := by constructor <;> simp

theorem append (h : r.Adds k r₁) (h' : r₁.Adds k' r₂) : r.Adds (k ++ k') r₂ := by
  constructor
  · simp [h'.created, h.created]
  · simp [h'.events, h.events]
  · simp [h'.closed, h.closed]

end Recording.Adds

/-- Each change may come after those before it. -/
def Orderly (k : List SpanChange) : Prop := ∀ k₁ c k₂, k = k₁ ++ c :: k₂ → c.Follows k₁

namespace World

variable {η : Type} {slot : Nat} {v w w' : World η} {k : List SpanChange} {i : SpanId}

/-- Calls from one world to another, with what they changed. -/
inductive Performs (slot : Nat) : World η → List SpanChange → World η → Prop where
  | refl (w : World η) : Performs slot w [] w
  | step {v w : World η} {k : List SpanChange} (h : Performs slot v k w) (s : SpanStep η)
      (hs : s.Ready slot w) : Performs slot v (k ++ s.changes w) (s.perform w)

/-- A recording shows what changed, in order and under the names of the spans. -/
structure Recorded (slot : Nat) (k : List SpanChange) (w : World η) : Prop where
  created : (w.trace.recording slot).created.toList = k.filterMap (·.creation?)
  events : (w.trace.recording slot).events.toList = k.filterMap (·.event?)
  closed : (w.trace.recording slot).closed.toList = k.filterMap (·.closing?)
  names : ∀ c ∈ k, c.span < w.trace.spans.length ∧ c.seen.path = (w.span c.span).path
  creations : ∀ i < w.trace.spans.length, k.countP (·.creates i) = 1
  statuses : ∀ i < w.trace.spans.length,
    (w.span i).status = .unset ∧ (∀ c ∈ k, ¬ c.marks i) ∨
      ∃ c ∈ k, c.span = i ∧ c.act = .marked (w.span i).status

theorem recording_updateRecording (hslot : slot < w.trace.recordings.length)
    (h : w'.trace.recordings = w.trace.recordings) (f : Recording → Recording) :
    (w'.updateRecording slot f).trace.recording slot = f (w.trace.recording slot) := by
  simp [updateRecording, Trace.updateRecording, Trace.recording, h, hslot]

theorem setStatus_of_set {status : SpanStatus}
    (h : ¬ ((w.span i).status = .unset ∧ status ≠ .unset)) : (w.setStatus i status).2 = w := by
  unfold setStatus
  rw [if_pos (by tauto)]

theorem setStatus_of_unset {status : SpanStatus}
    (h : (w.span i).status = .unset ∧ status ≠ .unset) :
    (w.setStatus i status).2 = w.updateSpan i fun s => { s with status } := by
  unfold setStatus
  rw [if_neg (by tauto)]

theorem post_of_closed (hclosed : (w.span i).closed = true) (e : TraceEvent) :
    w.post i e = w.warnDropped i 1 := by
  simp [post, hclosed]

theorem postAll_of_open (hopen : (w.span i).closed = false)
    (hprobe : (w.span i).probe = .recording slot) (es : List TraceEvent) :
    w.postAll i es = es.foldl (fun w' e => (Probe.recording slot).post (w.span i) e w') w := by
  cases es with
  | nil => rfl
  | cons e es => simp [postAll, hopen, hprobe, Probe.postAll]

theorem postAll_of_closed (hclosed : (w.span i).closed = true) (es : List TraceEvent) :
    (w.postAll i es).trace = w.trace := by
  unfold postAll
  dsimp only
  split
  · rfl
  · rfl

theorem close_of_open (hopen : (w.span i).closed = false)
    (hprobe : (w.span i).probe = .recording slot) :
    w.close i = (w.updateSpan i fun s => { s with closed := true }).updateRecording slot fun r =>
      { r with closed := r.closed.push ((w.span i).qualifiedId, (w.span i).status) } := by
  have hi := lt_of_open hopen
  have hspan : (w.updateSpan i fun s => { s with closed := true }).span i =
      { w.span i with closed := true } := by
    rw [span_of_modify (w := w) rfl i, if_pos ⟨rfl, hi⟩]
  simp only [close, hopen, Bool.false_eq_true, if_false, hspan, hprobe, Probe.closed]
  rfl

theorem close_of_closed (hclosed : (w.span i).closed = true) : w.close i = w := by
  simp [close, hclosed]

theorem adds_createSpan (hslot : slot < w.trace.recordings.length) (id : String)
    (path : List String) (parent : Option SpanId) :
    (w.trace.recording slot).Adds
      [⟨w.trace.spans.length, .fresh id path parent (.recording slot), .created⟩]
      ((w.createSpan id path parent (.recording slot)).2.trace.recording slot) := by
  simp only [createSpan, Probe.created]
  rw [recording_updateRecording hslot]
  · constructor <;> simp [SpanChange.creation?, SpanChange.event?, SpanChange.closing?, Span.fresh]
  · rfl

theorem adds_reported (hslot : slot < w.trace.recordings.length) (s : Span) (e : TraceEvent) :
    (w.trace.recording slot).Adds [⟨i, s, .posted e⟩]
      (((Probe.recording slot).post s e w).trace.recording slot) := by
  simp only [Probe.post]
  rw [recording_updateRecording hslot]
  · constructor <;> simp [SpanChange.creation?, SpanChange.event?, SpanChange.closing?]
  · rfl

theorem adds_post (hopen : (w.span i).closed = false)
    (hprobe : (w.span i).probe = .recording slot) (hslot : slot < w.trace.recordings.length)
    (e : TraceEvent) : (w.trace.recording slot).Adds [⟨i, w.span i, .posted e⟩]
      ((w.post i e).trace.recording slot) := by
  have hpost : w.post i e = (Probe.recording slot).post (w.span i) e w := by
    simp [post, hopen, hprobe]
  rw [hpost]
  exact adds_reported hslot _ e

/-- A batch is recorded event by event. -/
theorem adds_postAll (hopen : (w.span i).closed = false)
    (hprobe : (w.span i).probe = .recording slot) (hslot : slot < w.trace.recordings.length)
    (es : List TraceEvent) :
    (w.trace.recording slot).Adds (es.map fun e => ⟨i, w.span i, .posted e⟩)
      ((w.postAll i es).trace.recording slot) := by
  rw [postAll_of_open hopen hprobe]
  generalize w.span i = s
  clear hopen hprobe
  induction es generalizing w with
  | nil => exact .refl _
  | cons e es ih =>
    have hfirst := adds_reported (i := i) hslot s e
    have hslot' : slot < ((Probe.recording slot).post s e w).trace.recordings.length := by
      rwa [(SameSpans.post s e (.recording slot) w).recordings]
    exact hfirst.append (ih hslot')

theorem adds_close (hopen : (w.span i).closed = false)
    (hprobe : (w.span i).probe = .recording slot) (hslot : slot < w.trace.recordings.length) :
    (w.trace.recording slot).Adds [⟨i, { w.span i with closed := true }, .closed⟩]
      ((w.close i).trace.recording slot) := by
  rw [close_of_open hopen hprobe, recording_updateRecording hslot]
  · constructor <;> simp [SpanChange.creation?, SpanChange.event?, SpanChange.closing?,
      Span.qualifiedId]
  · rfl

end World

namespace SpanStep

variable {η : Type} {slot : Nat} {w : World η} {s : SpanStep η}

/-- What is listed is what a call changes. -/
theorem traces (hs : s.Ready slot w) : w.Traces (s.changes w) (s.perform w) := by
  cases s with
  | root id probe => exact .create w id [] none probe
  | child i id => exact .create w id _ (some i) _
  | setStatus i status =>
    simp only [changes, perform]
    split
    · next h => exact .mark hs h.1 h.2
    · next h =>
      rw [World.setStatus_of_set h]
      exact .aside rfl rfl
  | setAttribute i key v => exact .decorate w i key v
  | post i e =>
    simp only [changes, perform]
    split
    · next h =>
      rw [World.post_of_closed h]
      exact .aside rfl rfl
    · next h => exact .post e (by simpa using h)
  | postAll i es =>
    simp only [changes, perform]
    split
    · next h => exact .aside (by rw [World.postAll_of_closed h]) (by rw [World.postAll_of_closed h])
    · next h => exact .postAll es (by simpa using h)
  | close i => exact World.close_traces w i
  | aside f => exact .aside hs.1 hs.2

/-- A call keeps the names of spans and where they report to, and marks a span only if its status is
unset. -/
theorem kept (hs : s.Ready slot w)
    (hprobes : ∀ i < w.trace.spans.length, (w.span i).probe = .recording slot) {i : SpanId}
    (hi : i < w.trace.spans.length) :
    ((s.perform w).span i).path = (w.span i).path ∧
      ((s.perform w).span i).probe = (w.span i).probe ∧
      (((s.perform w).span i).status = (w.span i).status ∧ (∀ c ∈ s.changes w, ¬ c.marks i) ∨
        (w.span i).status = .unset ∧
          ⟨i, w.span i, .marked ((s.perform w).span i).status⟩ ∈ s.changes w) := by
  have hsame (h : (s.perform w).span i = w.span i) (hquiet : ∀ c ∈ s.changes w, ¬ c.marks i) :
      ((s.perform w).span i).path = (w.span i).path ∧
        ((s.perform w).span i).probe = (w.span i).probe ∧
        (((s.perform w).span i).status = (w.span i).status ∧ (∀ c ∈ s.changes w, ¬ c.marks i) ∨
          (w.span i).status = .unset ∧
            ⟨i, w.span i, .marked ((s.perform w).span i).status⟩ ∈ s.changes w) := by
    rw [h]
    exact ⟨rfl, rfl, .inl ⟨rfl, hquiet⟩⟩
  cases s with
  | root id probe =>
    apply hsame (World.span_of_append (World.createSpan_spans ..) hi)
    simp [changes, SpanChange.marks]
  | child j id =>
    apply hsame (World.span_of_append (World.createSpan_spans ..) hi)
    simp [changes, SpanChange.marks]
  | setStatus j status =>
    simp only [perform, changes]
    by_cases h : (w.span j).status = .unset ∧ status ≠ .unset
    · rw [World.setStatus_of_unset h, World.span_of_modify (w := w) rfl i]
      by_cases hj : j = i
      · subst hj
        simp [hi, h]
      · simp [hj, h, SpanChange.marks]
    · rw [World.setStatus_of_set h]
      simp [h]
  | setAttribute j key v =>
    have hspan : (w.setSpanAttribute j key v).span i = _ := World.span_of_modify (w := w) rfl i
    simp only [perform, hspan]
    split <;> simp [changes]
  | post j e =>
    apply hsame (World.span_of_eq (World.post_sameSpans w j e).spans i)
    simp only [changes]
    split <;> simp [SpanChange.marks]
  | postAll j es =>
    apply hsame (World.span_of_eq (World.postAll_sameSpans w j es).spans i)
    simp only [changes]
    split <;> simp [SpanChange.marks]
  | close j =>
    cases hopen : (w.span j).closed with
    | true =>
      apply hsame (by rw [perform, World.close_of_closed hopen])
      simp [changes, hopen]
    | false =>
      have hspans : (w.close j).trace.spans =
          w.trace.spans.modify j fun s => { s with closed := true } := by
        rw [World.close_of_open hopen (hprobes j hs)]
        rfl
      simp only [perform, World.span_of_modify hspans i]
      split <;> simp [changes, hopen, SpanChange.marks]
  | aside f =>
    apply hsame (World.span_of_eq hs.1 i)
    simp [changes]

/-- A span that was not there before was created, and nothing is known of it yet. -/
theorem grows (hs : s.Ready slot w)
    (hprobes : ∀ i < w.trace.spans.length, (w.span i).probe = .recording slot) {i : SpanId}
    (hi : ¬ i < w.trace.spans.length) (hlt : i < (s.perform w).trace.spans.length) :
    ∃ id path parent,
      s.changes w = [⟨i, .fresh id path parent (.recording slot), .created⟩] ∧
        (s.perform w).span i = .fresh id path parent (.recording slot) := by
  have hpos : 0 < (s.changes w).countP (·.creates i) := by
    rw [(traces hs).amounts.creations i, if_pos ⟨Nat.le_of_not_lt hi, hlt⟩]
    exact Nat.one_pos
  obtain ⟨c, hc, hcreates⟩ := List.countP_pos_iff.mp hpos
  cases s with
  | root id probe =>
    obtain rfl : probe = .recording slot := hs
    obtain rfl := List.mem_singleton.mp hc
    obtain rfl : w.trace.spans.length = i := by simpa [SpanChange.creates] using hcreates
    exact ⟨id, [], none, rfl, World.span_of_append_self (World.createSpan_spans ..)⟩
  | child j id =>
    obtain rfl := List.mem_singleton.mp hc
    obtain rfl : w.trace.spans.length = i := by simpa [SpanChange.creates] using hcreates
    have hspan : (w.createChild j id).2.span w.trace.spans.length = _ :=
      World.span_of_append_self (World.createSpan_spans ..)
    rw [hprobes j hs] at hspan
    refine ⟨id, (w.span j).path, some j, ?_, hspan⟩
    rw [changes, hprobes j hs]
  | setStatus | post | close =>
    simp only [changes] at hc
    split at hc
    · simp_all [SpanChange.creates]
    · simp_all [SpanChange.creates]
  | postAll j es =>
    simp only [changes] at hc
    split at hc
    · simp at hc
    · obtain ⟨e, -, rfl⟩ := List.mem_map.mp hc
      cases hcreates
  | setAttribute | aside => simp [changes] at hc

/-- A probe sees a span under its name. -/
theorem seen_path {c : SpanChange} (hc : c ∈ s.changes w) (hi : c.span < w.trace.spans.length) :
    c.seen.path = (w.span c.span).path := by
  cases s with
  | root | child =>
    obtain rfl := List.mem_singleton.mp hc
    exact absurd hi (Nat.lt_irrefl _)
  | setStatus | post | close =>
    simp only [changes] at hc
    split at hc
    · simp_all
    · simp_all
  | postAll j es =>
    simp only [changes] at hc
    split at hc
    · simp at hc
    · obtain ⟨e, -, rfl⟩ := List.mem_map.mp hc
      rfl
  | setAttribute | aside => simp [changes] at hc

/-- The recording shows what a call changes. -/
theorem records (hs : s.Ready slot w)
    (hprobes : ∀ i < w.trace.spans.length, (w.span i).probe = .recording slot)
    (hslot : slot < w.trace.recordings.length) :
    (w.trace.recording slot).Adds (s.changes w) ((s.perform w).trace.recording slot) := by
  have hsame {w' : World η} (h : w'.trace.recordings = w.trace.recordings) :
      (w.trace.recording slot).Adds [] (w'.trace.recording slot) := by
    unfold Trace.recording
    rw [h]
    exact .refl _
  cases s with
  | root id probe =>
    obtain rfl : probe = .recording slot := hs
    exact World.adds_createSpan hslot id [] none
  | child j id =>
    simp only [perform, changes, World.createChild, hprobes j hs]
    exact World.adds_createSpan hslot id _ _
  | setStatus j status =>
    simp only [perform, changes]
    split
    · next h =>
      rw [World.setStatus_of_unset h]
      constructor <;> simp [SpanChange.creation?, SpanChange.event?, SpanChange.closing?,
        World.updateSpan, Trace.updateSpan, Trace.recording]
    · next h =>
      rw [World.setStatus_of_set h]
      exact hsame rfl
  | setAttribute j key v => exact hsame rfl
  | post j e =>
    simp only [perform, changes]
    split
    · next h =>
      rw [World.post_of_closed h]
      exact hsame rfl
    · next h => exact World.adds_post (by simpa using h) (hprobes j hs) hslot e
  | postAll j es =>
    simp only [perform, changes]
    split
    · next h => exact hsame (by rw [World.postAll_of_closed h])
    · next h => exact World.adds_postAll (by simpa using h) (hprobes j hs) hslot es
  | close j =>
    simp only [perform, changes]
    split
    · next h =>
      rw [World.close_of_closed h]
      exact hsame rfl
    · next h => exact World.adds_close (by simpa using h) (hprobes j hs) hslot
  | aside f => exact hsame hs.2

end SpanStep

namespace Orderly

variable {k : List SpanChange} {i : SpanId}

theorem nil : Orderly [] := by
  intro k₁ c k₂ h
  simp at h

theorem snoc (h : Orderly k) {c : SpanChange} (hc : c.Follows k) : Orderly (k ++ [c]) := by
  intro k₁ c' k₂ heq
  rcases List.append_eq_append_iff.mp heq with ⟨a, hk₁, ha⟩ | ⟨a, hk, ha⟩
  · obtain ⟨rfl, hc', -⟩ : a = [] ∧ c = c' ∧ k₂ = [] := by
      cases a <;> simp_all
    subst hk₁ hc'
    rwa [List.append_nil]
  · cases a with
    | nil =>
      obtain ⟨rfl, -⟩ : c = c' ∧ k₂ = [] := by simpa [eq_comm] using ha
      rw [List.append_nil] at hk
      rwa [← hk]
    | cons a as =>
      obtain ⟨rfl, -⟩ := List.cons.inj ha
      exact h k₁ _ as hk

theorem status_ne (h : Orderly k) {c : SpanChange} (hc : c ∈ k) {status : SpanStatus}
    (hact : c.act = .marked status) : status ≠ .unset := by
  obtain ⟨k₁, k₂, hk⟩ := List.append_of_mem hc
  have hfollows := h k₁ c k₂ hk
  unfold SpanChange.Follows at hfollows
  rw [hact] at hfollows
  exact hfollows.1

/-- A batch is posted in order. -/
theorem postAll (h : Orderly k) (hcreated : ∃ c ∈ k, c.creates i) (hopen : ∀ c ∈ k, ¬ c.closes i)
    (s : Span) (es : List TraceEvent) :
    Orderly (k ++ es.map fun e => ⟨i, s, .posted e⟩) := by
  induction es generalizing k with
  | nil => rwa [List.map_nil, List.append_nil]
  | cons e es ih =>
    have hfirst : Orderly (k ++ [⟨i, s, .posted e⟩]) := h.snoc ⟨hcreated, hopen⟩
    have hrest := ih hfirst
    rw [List.append_assoc] at hrest
    apply hrest
    · obtain ⟨c, hc, hcreates⟩ := hcreated
      exact ⟨c, List.mem_append_left _ hc, hcreates⟩
    · intro c hc
      rcases List.mem_append.mp hc with hc | hc
      · exact hopen c hc
      · rw [List.mem_singleton.mp hc]
        simp [SpanChange.closes]

end Orderly

namespace World.Performs

variable {η : Type} {slot : Nat} {v w w' : World η} {k k' : List SpanChange} {i : SpanId}

theorem traces (h : Performs slot v k w) : v.Traces k w := by
  induction h with
  | refl => exact .aside rfl rfl
  | step _ s hs ih => exact ih.append (s.traces hs)

theorem trans (h : Performs slot v k w) (h' : Performs slot w k' w') :
    Performs slot v (k ++ k') w' := by
  induction h' with
  | refl => rwa [List.append_nil]
  | step _ s hs ih =>
    rw [← List.append_assoc]
    exact ih.step s hs

theorem probes (h : Performs slot v k w) (hv : v.trace.spans = []) :
    ∀ i < w.trace.spans.length, (w.span i).probe = .recording slot := by
  induction h with
  | refl => simp [hv]
  | @step w k _ s hs ih =>
    intro i hlt
    by_cases hi : i < w.trace.spans.length
    · rw [(s.kept hs ih hi).2.1]
      exact ih i hi
    · obtain ⟨id, path, parent, -, hspan⟩ := s.grows hs ih hi hlt
      rw [hspan]
      rfl

theorem adds (h : Performs slot v k w) (hv : v.trace.spans = [])
    (hslot : slot < v.trace.recordings.length) :
    (v.trace.recording slot).Adds k (w.trace.recording slot) := by
  induction h with
  | refl => exact .refl _
  | @step w k h s hs ih =>
    have hslot' : slot < w.trace.recordings.length := by
      rwa [h.traces.amounts.recordings]
    exact ih.append (s.records hs (h.probes hv) hslot')

theorem names (h : Performs slot v k w) (hv : v.trace.spans = []) :
    ∀ c ∈ k, c.span < w.trace.spans.length ∧ c.seen.path = (w.span c.span).path := by
  induction h with
  | refl => simp
  | @step w k h s hs ih =>
    intro c hc
    obtain ⟨hlt, -⟩ := (h.step s hs).traces.amounts.seen c hc
    refine ⟨hlt, ?_⟩
    by_cases hi : c.span < w.trace.spans.length
    · rw [(s.kept hs (h.probes hv) hi).1]
      rcases List.mem_append.mp hc with hc | hc
      · exact (ih c hc).2
      · exact s.seen_path hc hi
    · obtain ⟨id, path, parent, hchanges, hspan⟩ := s.grows hs (h.probes hv) hi hlt
      rcases List.mem_append.mp hc with hc | hc
      · exact absurd (ih c hc).1 hi
      · rw [hspan]
        rw [hchanges] at hc
        rw [List.mem_singleton.mp hc]

theorem creates (h : Performs slot v k w) (hv : v.trace.spans = [])
    (hi : i < w.trace.spans.length) : k.countP (·.creates i) = 1 := by
  rw [h.traces.amounts.creations, hv, if_pos ⟨Nat.zero_le i, hi⟩]

theorem exists_creates (h : Performs slot v k w) (hv : v.trace.spans = [])
    (hi : i < w.trace.spans.length) : ∃ c ∈ k, c.creates i := by
  have hone := h.creates hv hi
  have hpos : 0 < k.countP (·.creates i) := by omega
  exact List.countP_pos_iff.mp hpos

/-- The spans that are open have not closed before. -/
theorem not_closes (h : Performs slot v k w) (hv : v.trace.spans = [])
    (hopen : (w.span i).closed = false) : ∀ c ∈ k, ¬ c.closes i := by
  have hsum := h.traces.amounts.openings i
  have hnone : v.openings i = 0 := openings_eq_zero.mpr (by rw [span_of_le (by simp [hv])]; rfl)
  have hone : w.openings i = 1 := by simp [openings, hopen]
  rw [h.creates hv (lt_of_open hopen), hnone, hone] at hsum
  have hzero : k.countP (·.closes i) = 0 := by omega
  exact List.countP_eq_zero.mp hzero

theorem statuses (h : Performs slot v k w) (hv : v.trace.spans = []) :
    ∀ i < w.trace.spans.length, (w.span i).status = .unset ∧ (∀ c ∈ k, ¬ c.marks i) ∨
      ∃ c ∈ k, c.span = i ∧ c.act = .marked (w.span i).status := by
  induction h with
  | refl => simp [hv]
  | @step w k h s hs ih =>
    intro i hlt
    by_cases hi : i < w.trace.spans.length
    · obtain ⟨-, -, ⟨hstatus, hquiet⟩ | ⟨-, hmarked⟩⟩ := s.kept hs (h.probes hv) hi
      · rw [hstatus]
        rcases ih i hi with ⟨hunset, hnone⟩ | ⟨c, hc, hmark⟩
        · refine .inl ⟨hunset, fun c hc => ?_⟩
          exact (List.mem_append.mp hc).elim (hnone c) (hquiet c)
        · exact .inr ⟨c, List.mem_append_left _ hc, hmark⟩
      · exact .inr ⟨_, List.mem_append_right _ hmarked, rfl, rfl⟩
    · obtain ⟨id, path, parent, hchanges, hspan⟩ := s.grows hs (h.probes hv) hi hlt
      refine .inl ⟨by rw [hspan]; rfl, fun c hc => ?_⟩
      rw [hchanges] at hc
      rcases List.mem_append.mp hc with hc | hc
      · intro hmarks
        have hlt' := (h.names hv c hc).1
        rw [SpanChange.span_of_marks hmarks] at hlt'
        exact hi hlt'
      · rw [List.mem_singleton.mp hc]
        simp [SpanChange.marks]

/-- What changes comes in order. -/
theorem orderly (h : Performs slot v k w) (hv : v.trace.spans = []) : Orderly k := by
  induction h with
  | refl => exact .nil
  | @step w k h s hs ih =>
    cases s with
    | root id probe =>
      refine ih.snoc ⟨fun c hc => ?_, nofun⟩
      exact Nat.ne_of_lt (h.names hv c hc).1
    | child i id =>
      refine ih.snoc ⟨fun c hc => ?_, fun p hp => ?_⟩
      · exact Nat.ne_of_lt (h.names hv c hc).1
      · obtain rfl := Option.some.inj hp
        exact h.exists_creates hv hs
    | setStatus i status =>
      simp only [SpanStep.changes]
      split
      · next hset =>
        refine ih.snoc ⟨hset.2, h.exists_creates hv hs, ?_⟩
        rcases h.statuses hv i hs with ⟨-, hnone⟩ | ⟨c, hc, -, hmarked⟩
        · exact hnone
        · exact absurd hset.1 (ih.status_ne hc hmarked)
      · rwa [List.append_nil]
    | post i e =>
      simp only [SpanStep.changes]
      split
      · rwa [List.append_nil]
      · next hopen =>
        exact ih.snoc ⟨h.exists_creates hv hs, h.not_closes hv (by simpa using hopen)⟩
    | postAll i es =>
      simp only [SpanStep.changes]
      split
      · rwa [List.append_nil]
      · next hopen =>
        exact ih.postAll (h.exists_creates hv hs) (h.not_closes hv (by simpa using hopen)) _ es
    | close i =>
      simp only [SpanStep.changes]
      split
      · rwa [List.append_nil]
      · next hopen =>
        exact ih.snoc ⟨h.exists_creates hv hs, h.not_closes hv (by simpa using hopen)⟩
    | setAttribute | aside => rwa [SpanStep.changes, List.append_nil]

/-- From a new trace the recording shows all changes and nothing else. -/
theorem recorded (h : Performs slot v k w) {n : Nat} (hv : v.trace = .withRecordings n)
    (hslot : slot < n) : Recorded slot k w := by
  have hspans : v.trace.spans = [] := by rw [hv]; rfl
  have hempty : v.trace.recording slot = default := by
    simp [hv, Trace.withRecordings, Trace.recording, hslot]
  have hadds := h.adds hspans (by simpa [hv, Trace.withRecordings] using hslot)
  rw [hempty] at hadds
  exact
    { created := hadds.created
      events := hadds.events
      closed := hadds.closed
      names := h.names hspans
      creations := fun i hi => h.creates hspans hi
      statuses := h.statuses hspans }

end World.Performs

end ClientRuntime
