import ClientRuntime.Operation.Context
import ClientRuntime.Proofs.Trace.Reports

/-!
What happens to spans between two worlds, in order and as tracing operations do it. A span never
goes away, it keeps its name and its parent, and it closes at most once.
-/

namespace ClientRuntime

inductive SpanAct where
  | created
  | marked (status : SpanStatus)
  | posted (e : TraceEvent)
  | closed

/-- Something that happens to a span, and the span as its probe sees it then. -/
structure SpanChange where
  span : SpanId
  seen : Span
  act : SpanAct

/-- A span that was just created. -/
def Span.fresh (id : String) (path : List String) (parent : Option SpanId) (probe : Probe) : Span :=
  ⟨id, path ++ [id], parent, probe, .empty, .unset, false⟩

namespace SpanChange

def creates (i : SpanId) (c : SpanChange) : Bool :=
  match c.act with
  | .created => c.span == i
  | _ => false

def closes (i : SpanId) (c : SpanChange) : Bool :=
  match c.act with
  | .closed => c.span == i
  | _ => false

/-- It changes what a span comes to, and not only what is known about it. -/
def Decides (c : SpanChange) : Prop :=
  match c.act with
  | .marked _ | .closed => True
  | .created | .posted _ => False

/-- What a recording shows of it among the spans that closed. -/
def closings (slot : Nat) (c : SpanChange) : List (String × SpanStatus) :=
  match c.act with
  | .closed => c.seen.closings c.seen.probe.slots slot
  | _ => []

end SpanChange

namespace World

variable {η : Type} {w w₁ w₂ w' : World η} {i : SpanId}

/-- The changes to spans from one world to another, each made by a tracing operation. What an
operation leaves as it is counts as nothing, and so do attributes. -/
inductive Traces : World η → List SpanChange → World η → Prop where
  | aside {w w' : World η} : w'.trace.spans = w.trace.spans →
      w'.trace.recordings = w.trace.recordings → Traces w [] w'
  | create (w : World η) (id : String) (path : List String) (parent : Option SpanId)
      (probe : Probe) :
      Traces w [⟨w.trace.spans.length, .fresh id path parent probe, .created⟩]
        (w.createSpan id path parent probe).2
  | mark {w : World η} {i : SpanId} {status : SpanStatus} : i < w.trace.spans.length →
      (w.span i).status = .unset → status ≠ .unset →
      Traces w [⟨i, w.span i, .marked status⟩] (w.setStatus i status).2
  | decorate (w : World η) (i : SpanId) (key : AttributeKey) (v : AttributeValue) :
      Traces w [] (w.setSpanAttribute i key v)
  | post {w : World η} {i : SpanId} (e : TraceEvent) : (w.span i).closed = false →
      Traces w [⟨i, w.span i, .posted e⟩] (w.post i e)
  | postAll {w : World η} {i : SpanId} (es : List TraceEvent) : (w.span i).closed = false →
      Traces w (es.map fun e => ⟨i, w.span i, .posted e⟩) (w.postAll i es)
  | close {w : World η} {i : SpanId} : (w.span i).closed = false →
      Traces w [⟨i, { w.span i with closed := true }, .closed⟩] (w.close i)
  | append {w w₁ w₂ : World η} {k k' : List SpanChange} : Traces w k w₁ → Traces w₁ k' w₂ →
      Traces w (k ++ k') w₂

theorem span_of_eq (h : w'.trace.spans = w.trace.spans) (i : SpanId) : w'.span i = w.span i := by
  simp [span, Trace.span, h]

theorem span_of_append {s : Span} (h : w'.trace.spans = w.trace.spans ++ [s])
    (hi : i < w.trace.spans.length) : w'.span i = w.span i := by
  simp [span, Trace.span, h, List.getElem?_append_left hi]

theorem span_of_append_self {s : Span} (h : w'.trace.spans = w.trace.spans ++ [s]) :
    w'.span w.trace.spans.length = s := by
  simp [span, Trace.span, h]

theorem span_of_modify {f : Span → Span} (h : w'.trace.spans = w.trace.spans.modify i f)
    (j : SpanId) :
    w'.span j = if i = j ∧ j < w.trace.spans.length then f (w.span j) else w.span j := by
  simp only [span, Trace.span, h, List.getD_eq_getElem?_getD, List.getElem?_modify]
  by_cases hj : j < w.trace.spans.length
  · by_cases hij : i = j <;> simp [hj, hij]
  · simp [hj]

theorem createSpan_spans (w : World η) (id : String) (path : List String) (parent : Option SpanId)
    (probe : Probe) : (w.createSpan id path parent probe).2.trace.spans =
      w.trace.spans ++ [.fresh id path parent probe] :=
  (SameSpans.created _ probe _).spans

theorem span_of_le (h : w.trace.spans.length ≤ i) : w.span i = default := by
  simp [span, Trace.span, h]

theorem lt_of_open (h : (w.span i).closed = false) : i < w.trace.spans.length := by
  refine Nat.lt_of_not_le fun hi => ?_
  rw [span_of_le hi] at h
  cases h

/-- How often a span can still close. What is not there is closed. -/
def openings (w : World η) (i : SpanId) : Nat := if (w.span i).closed then 0 else 1

theorem openings_eq_zero : w.openings i = 0 ↔ (w.span i).closed = true := by
  unfold openings
  split <;> simp_all

/-- What changes come to. -/
structure Amounts (k : List SpanChange) (w w' : World η) : Prop where
  length : w.trace.spans.length ≤ w'.trace.spans.length
  recordings : w'.trace.recordings.length = w.trace.recordings.length
  named : ∀ i < w.trace.spans.length,
    (w'.span i).id = (w.span i).id ∧ (w'.span i).parent = (w.span i).parent
  seen : ∀ c ∈ k, c.span < w'.trace.spans.length ∧
    c.seen.id = (w'.span c.span).id ∧ c.seen.parent = (w'.span c.span).parent
  undecided : ∀ i < w.trace.spans.length, (∀ c ∈ k, c.span = i → ¬ c.Decides) →
    (w'.span i).status = (w.span i).status ∧ (w'.span i).closed = (w.span i).closed
  creations : ∀ i, k.countP (·.creates i) =
    if w.trace.spans.length ≤ i ∧ i < w'.trace.spans.length then 1 else 0
  openings : ∀ i, k.countP (·.closes i) + w'.openings i =
    w.openings i + k.countP (·.creates i)
  closed : ∀ slot < w.trace.recordings.length, (w'.trace.recording slot).closed.toList =
    (w.trace.recording slot).closed.toList ++ k.flatMap (·.closings slot)

namespace Amounts

variable {k k' : List SpanChange}

theorem append (h : Amounts k w w₁) (h' : Amounts k' w₁ w₂) : Amounts (k ++ k') w w₂ := by
  have hlt {i : SpanId} (hi : i < w.trace.spans.length) : i < w₁.trace.spans.length :=
    Nat.lt_of_lt_of_le hi h.length
  constructor
  case length => exact Nat.le_trans h.length h'.length
  case recordings => exact h'.recordings.trans h.recordings
  case named =>
    intro i hi
    obtain ⟨hid, hparent⟩ := h.named i hi
    obtain ⟨hid', hparent'⟩ := h'.named i (hlt hi)
    exact ⟨hid'.trans hid, hparent'.trans hparent⟩
  case seen =>
    intro c hc
    rcases List.mem_append.mp hc with hc | hc
    · obtain ⟨hlength, hid, hparent⟩ := h.seen c hc
      obtain ⟨hid', hparent'⟩ := h'.named c.span hlength
      exact ⟨Nat.lt_of_lt_of_le hlength h'.length, hid.trans hid'.symm,
        hparent.trans hparent'.symm⟩
    · exact h'.seen c hc
  case undecided =>
    intro i hi hk
    have first := h.undecided i hi fun c hc => hk c (List.mem_append_left _ hc)
    have second := h'.undecided i (hlt hi) fun c hc => hk c (List.mem_append_right _ hc)
    exact ⟨second.1.trans first.1, second.2.trans first.2⟩
  case creations =>
    intro i
    have hle := h.length
    have hle' := h'.length
    rw [List.countP_append, h.creations, h'.creations]
    grind
  case openings =>
    intro i
    have first := h.openings i
    have second := h'.openings i
    rw [List.countP_append, List.countP_append]
    omega
  case closed =>
    intro slot hslot
    rw [h'.closed slot (by rw [h.recordings]; exact hslot), h.closed slot hslot]
    simp

/-- What is created was not there before. -/
theorem fresh (h : Amounts k w w') {c : SpanChange} (hc : c ∈ k) (hcreated : c.act = .created) :
    w.trace.spans.length ≤ c.span := by
  have hpos : 0 < k.countP (·.creates c.span) :=
    List.countP_pos_iff.mpr ⟨c, hc, by simp [SpanChange.creates, hcreated]⟩
  rw [h.creations] at hpos
  split at hpos
  · next hi => exact hi.1
  · cases hpos

theorem stays_closed (h : Amounts k w w') (hi : i < w.trace.spans.length)
    (hclosed : (w.span i).closed = true) : (w'.span i).closed = true := by
  have hsum := h.openings i
  rw [h.creations, if_neg fun hlt => Nat.not_lt.mpr hlt.1 hi, openings_eq_zero.mpr hclosed] at hsum
  exact openings_eq_zero.mp (by omega)

/-- A span that was open and is closed was closed once. -/
theorem closed_once (h : Amounts k w w') (hopen : (w.span i).closed = false)
    (hclosed : (w'.span i).closed = true) : k.countP (·.closes i) = 1 := by
  have hsum := h.openings i
  have hone : w.openings i = 1 := by simp [World.openings, hopen]
  rw [h.creations, if_neg fun hlt => Nat.not_lt.mpr hlt.1 (lt_of_open hopen),
    openings_eq_zero.mpr hclosed, hone] at hsum
  exact hsum

/-- A span that was created and is closed was closed once. -/
theorem created_closed_once (h : Amounts k w w') (hi : w.trace.spans.length ≤ i)
    (hlt : i < w'.trace.spans.length) (hclosed : (w'.span i).closed = true) :
    k.countP (·.closes i) = 1 := by
  have hsum := h.openings i
  have hnone : w.openings i = 0 := openings_eq_zero.mpr (by rw [span_of_le hi]; rfl)
  rw [h.creations, if_pos ⟨hi, hlt⟩, openings_eq_zero.mpr hclosed, hnone] at hsum
  exact hsum

/-- Spans stay as they are while there is only something posted. -/
theorem posted (h : w.SameSpans w')
    (hk : ∀ c ∈ k, c.span < w.trace.spans.length ∧ c.seen = w.span c.span ∧
      ∃ e, c.act = .posted e) : Amounts k w w' := by
  have hspan (i : SpanId) : w'.span i = w.span i := span_of_eq h.spans i
  have hclosings (slot : Nat) : k.flatMap (·.closings slot) = [] := by
    refine List.flatMap_eq_nil_iff.mpr fun c hc => ?_
    obtain ⟨-, -, e, he⟩ := hk c hc
    simp [SpanChange.closings, he]
  have hcloses (i : SpanId) : k.countP (·.closes i) = 0 := by
    refine List.countP_eq_zero.mpr fun c hc => ?_
    obtain ⟨-, -, e, he⟩ := hk c hc
    simp [SpanChange.closes, he]
  have hcreates (i : SpanId) : k.countP (·.creates i) = 0 := by
    refine List.countP_eq_zero.mpr fun c hc => ?_
    obtain ⟨-, -, e, he⟩ := hk c hc
    simp [SpanChange.creates, he]
  constructor
  case length => exact Nat.le_of_eq (congrArg List.length h.spans.symm)
  case recordings => exact h.recordings
  case named => intro i _; simp [hspan]
  case seen =>
    intro c hc
    obtain ⟨hlt, hseen, -⟩ := hk c hc
    exact ⟨by rw [h.spans]; exact hlt, by rw [hseen, hspan], by rw [hseen, hspan]⟩
  case undecided => intro i _ _; simp [hspan]
  case creations =>
    intro i
    rw [hcreates, h.spans, if_neg fun hi => Nat.not_lt.mpr hi.1 hi.2]
  case openings => intro i; simp [hcloses, hcreates, World.openings, hspan]
  case closed => intro slot hslot; rw [h.closed slot hslot, hclosings]

/-- One span changes, and keeps its name and its parent. -/
theorem modified {f : Span → Span} (hf : ∀ s, (f s).id = s.id ∧ (f s).parent = s.parent)
    (hspans : w'.trace.spans = w.trace.spans.modify i f)
    (hrecordings : w'.trace.recordings.length = w.trace.recordings.length)
    (hk : ∀ c ∈ k, c.span = i ∧ i < w.trace.spans.length ∧ c.seen.id = (w.span i).id ∧
      c.seen.parent = (w.span i).parent ∧ c.act ≠ .created)
    (hundecided : (∀ c ∈ k, ¬ c.Decides) →
      (f (w.span i)).status = (w.span i).status ∧ (f (w.span i)).closed = (w.span i).closed)
    (hopenings : i < w.trace.spans.length →
      k.countP (·.closes i) + (if (f (w.span i)).closed then 0 else 1) = w.openings i)
    (hclosed : ∀ slot < w.trace.recordings.length, (w'.trace.recording slot).closed.toList =
      (w.trace.recording slot).closed.toList ++ k.flatMap (·.closings slot)) :
    Amounts k w w' := by
  have hspan := span_of_modify hspans
  have hlength : w'.trace.spans.length = w.trace.spans.length := by simp [hspans]
  have hnamed (j : SpanId) :
      (w'.span j).id = (w.span j).id ∧ (w'.span j).parent = (w.span j).parent := by
    rw [hspan]
    split
    · exact hf _
    · exact ⟨rfl, rfl⟩
  have hcreates (j : SpanId) : k.countP (·.creates j) = 0 := by
    refine List.countP_eq_zero.mpr fun c hc => ?_
    obtain ⟨-, -, -, -, hcreated⟩ := hk c hc
    unfold SpanChange.creates
    split
    · contradiction
    · simp
  have hcloses {j : SpanId} (hj : i ≠ j ∨ ¬ j < w.trace.spans.length) :
      k.countP (·.closes j) = 0 := by
    refine List.countP_eq_zero.mpr fun c hc => ?_
    obtain ⟨rfl, hlt, -⟩ := hk c hc
    have hne : c.span ≠ j := by
      rintro rfl
      simp [hlt] at hj
    unfold SpanChange.closes
    cases c.act <;> simp [hne]
  constructor
  case length => omega
  case recordings => exact hrecordings
  case named => exact fun j _ => hnamed j
  case seen =>
    intro c hc
    obtain ⟨rfl, hlt, hid, hparent, -⟩ := hk c hc
    exact ⟨by rwa [hlength], hid.trans (hnamed _).1.symm, hparent.trans (hnamed _).2.symm⟩
  case undecided =>
    intro j hj hquiet
    by_cases hij : i = j
    · subst hij
      have := hundecided fun c hc => hquiet c hc (hk c hc).1
      simpa [hspan, hj] using this
    · simp [hspan, hij]
  case creations =>
    intro j
    rw [hcreates, hlength, if_neg fun hj => Nat.not_lt.mpr hj.1 hj.2]
  case openings =>
    intro j
    rw [hcreates, Nat.add_zero]
    by_cases hj : i = j ∧ j < w.trace.spans.length
    · obtain ⟨rfl, hi⟩ := hj
      rw [← hopenings hi]
      simp [World.openings, hspan, hi]
    · rw [hcloses (Decidable.not_and_iff_or_not.mp hj)]
      simp [World.openings, hspan, hj]
  case closed => exact hclosed

theorem created (id : String) (path : List String) (parent : Option SpanId) (probe : Probe) :
    Amounts [⟨w.trace.spans.length, .fresh id path parent probe, .created⟩] w
      (w.createSpan id path parent probe).2 := by
  let s := Span.fresh id path parent probe
  have told := SameSpans.created s probe
    { w with trace := { w.trace with spans := w.trace.spans ++ [s] } }
  have hspans := createSpan_spans w id path parent probe
  have hlength : (w.createSpan id path parent probe).2.trace.spans.length =
      w.trace.spans.length + 1 := by simp [hspans]
  have hspan {i : SpanId} (hi : i < w.trace.spans.length) := span_of_append hspans hi
  constructor
  case length => omega
  case recordings => exact told.recordings
  case named => intro i hi; simp [hspan hi]
  case seen =>
    intro c hc
    obtain rfl := List.mem_singleton.mp hc
    simp [hspans, span_of_append_self hspans]
  case undecided => intro i hi _; simp [hspan hi]
  case creations =>
    intro i
    rw [hlength]
    by_cases hi : w.trace.spans.length = i
    · simp [SpanChange.creates, hi]
    · have hne : ¬ (w.trace.spans.length ≤ i ∧ i < w.trace.spans.length + 1) :=
        fun h => hi (Nat.le_antisymm h.1 (Nat.le_of_lt_succ h.2))
      rw [if_neg hne]
      simp [SpanChange.creates, hi]
  case openings =>
    intro i
    rcases Nat.lt_trichotomy i w.trace.spans.length with hi | rfl | hi
    · have hne : w.trace.spans.length ≠ i := by omega
      simp [SpanChange.closes, SpanChange.creates, World.openings, hspan hi, hne]
    · have hnone := span_of_le (Nat.le_refl w.trace.spans.length)
      simp [SpanChange.closes, SpanChange.creates, World.openings, span_of_append_self hspans,
        hnone, Span.fresh, default]
    · have hne : w.trace.spans.length ≠ i := by omega
      have hnone : w.span i = default := span_of_le (Nat.le_of_lt hi)
      have hnone' : (w.createSpan id path parent probe).2.span i = default :=
        span_of_le (by rw [hlength]; exact hi)
      simp [SpanChange.closes, SpanChange.creates, World.openings, hne, hnone, hnone']
  case closed => exact told.closed

end Amounts

/-- An open span closes, and its probe is told so. -/
theorem close_amounts (h : (w.span i).closed = false) :
    Amounts [⟨i, { w.span i with closed := true }, .closed⟩] w (w.close i) := by
  have hi := lt_of_open h
  let s := { w.span i with closed := true }
  let opened := w.updateSpan i fun s => { s with closed := true }
  have hs : opened.span i = s := by
    have : opened.span i = if i = i ∧ i < w.trace.spans.length then s else w.span i :=
      span_of_modify (f := fun s => { s with closed := true }) rfl i
    simpa [hi] using this
  have hclose : w.close i = s.probe.closed s opened := by
    simp only [close, h, Bool.false_eq_true, if_false]
    show (opened.span i).probe.closed (opened.span i) opened = _
    rw [hs]
  have told : Reports (s.closings s.probe.slots) opened (w.close i) := hclose ▸ .probe s _ _
  refine .modified (f := fun s => { s with closed := true }) (fun _ => ⟨rfl, rfl⟩) told.spans
    told.recordings ?_ ?_ ?_ ?_
  · intro c hc
    obtain rfl := List.mem_singleton.mp hc
    exact ⟨rfl, hi, rfl, rfl, by simp⟩
  · intro hquiet
    exact (hquiet _ (List.mem_singleton_self _) trivial).elim
  · simp [SpanChange.closes, openings, h]
  · intro slot hslot
    rw [told.closed slot hslot]
    simp [SpanChange.closings, s]
    rfl

theorem Traces.amounts {k : List SpanChange} (h : Traces w k w') : Amounts k w w' := by
  induction h with
  | aside hspans hrecordings =>
    refine .posted ⟨hspans, congrArg List.length hrecordings, fun slot _ => ?_⟩ (by simp)
    simp [Trace.recording, hrecordings]
  | create w id path parent probe => exact .created id path parent probe
  | @mark w i status hi hunset hstatus =>
    have hset : (w.setStatus i status).2 = w.updateSpan i fun s => { s with status } := by
      simp [setStatus, hunset, hstatus]
    rw [hset]
    refine .modified (f := fun s => { s with status }) (fun _ => ⟨rfl, rfl⟩) rfl rfl ?_ ?_ ?_ ?_
    · intro c hc
      obtain rfl := List.mem_singleton.mp hc
      exact ⟨rfl, hi, rfl, rfl, by simp⟩
    · intro hquiet
      exact (hquiet _ (List.mem_singleton_self _) trivial).elim
    · simp [SpanChange.closes, openings]
    · intro slot _
      simp [SpanChange.closings, updateSpan, Trace.updateSpan, Trace.recording]
  | decorate w i key v =>
    refine .modified (f := fun s => { s with attributes := s.attributes.set key v })
      (fun _ => ⟨rfl, rfl⟩) rfl rfl (by simp) (fun _ => ⟨rfl, rfl⟩) ?_ ?_
    · simp [openings]
    · intro slot _
      simp [setSpanAttribute, updateSpan, Trace.updateSpan, Trace.recording]
  | post e hopen =>
    refine .posted (post_sameSpans _ _ e) fun c hc => ?_
    obtain rfl := List.mem_singleton.mp hc
    exact ⟨lt_of_open hopen, rfl, e, rfl⟩
  | postAll es hopen =>
    refine .posted (postAll_sameSpans _ _ es) fun c hc => ?_
    obtain ⟨e, -, rfl⟩ := List.mem_map.mp hc
    exact ⟨lt_of_open hopen, rfl, e, rfl⟩
  | close hopen => exact close_amounts hopen
  | append _ _ first second => exact first.append second

end World

end ClientRuntime
