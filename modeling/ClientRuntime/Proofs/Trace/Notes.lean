import ClientRuntime.Proofs.Trace.Leaves
import ClientRuntime.Proofs.Trace.Streams

/-!
Notes of what tracing tells others. Each call of tracing tells one probe something, or warns that it
came too late, or says nothing. The log, the recordings and the list of rendered messages show these
notes in order, and nothing else.
-/

namespace ClientRuntime

inductive TraceNote where
  /-- One call told a probe all this. -/
  | told (probe : Probe) (news : List SpanNews)
  /-- So many events came after the span had closed. -/
  | late (span : String) (count : Nat)
  /-- Somebody read a message. -/
  | read (m : Message)

namespace TraceNote

/-- The probe that is told, with each piece of news. -/
def news : TraceNote → List (Probe × SpanNews)
  | told probe news => news.map (probe, ·)
  | late _ _ | read _ => []

/-- What comes to the log. Each leaf of a probe is told in turn, and sends what it has to send. -/
def entries (levels : LogLevels) : TraceNote → List LogEntry
  | told probe news => probe.leaves.flatMap fun leaf => news.flatMap (leaf.sends levels)
  | late span count =>
    if levels.keeps .warn then
      [⟨.warn, [("span", .text span), ("count", .natural count)],
        "Dropping trace events posted after span close"⟩]
    else []
  | read _ => []

/-- Numbers of the messages rendered. -/
def rendered (levels : LogLevels) : TraceNote → List Nat
  | told probe news => probe.leaves.flatMap fun leaf => news.flatMap (leaf.renders levels)
  | late _ _ => []
  | read m => [m.number]

/-- Whom calls told what, piece by piece. -/
def allNews (k : List TraceNote) : List (Probe × SpanNews) := k.flatMap (·.news)

@[simp] theorem allNews_append (k k' : List TraceNote) :
    allNews (k ++ k') = allNews k ++ allNews k' :=
  List.flatMap_append

end TraceNote

namespace Leaf

/-- What a leaf hears, wherever in the trees it is. -/
def heard (leaf : Leaf) (news : List (Probe × SpanNews)) : List SpanNews :=
  news.filterMap fun t => if leaf ∈ t.1.leaves then some t.2 else none

theorem heard_append (leaf : Leaf) (news news' : List (Probe × SpanNews)) :
    leaf.heard (news ++ news') = leaf.heard news ++ leaf.heard news' := List.filterMap_append

theorem heard_told (leaf : Leaf) (probe : Probe) (news : List SpanNews) :
    leaf.heard (TraceNote.allNews [.told probe news]) =
      if leaf ∈ probe.leaves then news else [] := by
  by_cases h : leaf ∈ probe.leaves <;>
    simp [heard, TraceNote.allNews, TraceNote.news, List.filterMap_map, h]

end Leaf

namespace SpanStep

variable {η : Type}

/-- Something else leaves all that tracing keeps as it is. -/
def Quiet (w : World η) : SpanStep η → Prop
  | aside f => (f w).log = w.log ∧ (f w).trace.spans = w.trace.spans ∧
      (f w).trace.recordings = w.trace.recordings ∧ (f w).trace.rendered = w.trace.rendered
  | _ => True

/-- What others notice of a call. -/
def notes (w : World η) : SpanStep η → List TraceNote
  | root id probe => [.told probe [.created (Span.fresh id [] none probe).qualifiedId]]
  | child i id =>
    let s := Span.fresh id (w.span i).path (some i) (w.span i).probe
    [.told s.probe [.created s.qualifiedId]]
  | post i e =>
    let s := w.span i
    if s.closed then [.late s.qualifiedId 1] else [.told s.probe [.posted s.qualifiedId e]]
  | postAll i es =>
    let s := w.span i
    if es.isEmpty then []
    else if s.closed then [.late s.qualifiedId es.length]
    else [.told s.probe (es.map (.posted s.qualifiedId))]
  | close i =>
    let s := w.span i
    if s.closed then [] else [.told s.probe [.closed s.qualifiedId s.status]]
  | setStatus _ _ | setAttribute _ _ _ | aside _ => []

end SpanStep

namespace World

variable {η : Type} {v w w₁ w₂ w' : World η} {k k' : List TraceNote} {i : SpanId}

/-- The log, the recordings and the rendered messages show these notes and nothing else. -/
structure Shows (k : List TraceNote) (w w' : World η) : Prop where
  levels : w'.log.levels = w.log.levels
  sent : w'.log.entries.toList = w.log.entries.toList ++ k.flatMap (·.entries w.log.levels)
  rendered : w'.trace.rendered.toList =
    w.trace.rendered.toList ++ k.flatMap (·.rendered w.log.levels)
  recordings : w'.trace.recordings.length = w.trace.recordings.length
  /-- As long as no tree tells the recording anything twice. -/
  recorded : ∀ slot < w.trace.recordings.length,
    (∀ t ∈ TraceNote.allNews k, t.1.slots.count slot ≤ 1) →
      w'.trace.recording slot = ((Leaf.recording slot).heard (TraceNote.allNews k)).foldl
        Recording.hear (w.trace.recording slot)

namespace Shows

theorem nothing (hlog : w'.log = w.log) (hrecordings : w'.trace.recordings = w.trace.recordings)
    (hrendered : w'.trace.rendered = w.trace.rendered) : Shows [] w w' := by
  constructor <;>
    simp [hlog, hrecordings, hrendered, Trace.recording, TraceNote.allNews, Leaf.heard]

theorem append (h : Shows k w w₁) (h' : Shows k' w₁ w₂) : Shows (k ++ k') w w₂ := by
  constructor
  case levels => exact h'.levels.trans h.levels
  case sent => rw [h'.sent, h.sent, h.levels]; simp
  case rendered => rw [h'.rendered, h.rendered, h.levels]; simp
  case recordings => exact h'.recordings.trans h.recordings
  case recorded =>
    intro slot hslot honce
    have hfirst := h.recorded slot hslot fun t ht => honce t (by simp [ht])
    have hrest := h'.recorded slot (by rw [h.recordings]; exact hslot) fun t ht =>
      honce t (by simp [ht])
    rw [hrest, hfirst, TraceNote.allNews_append, Leaf.heard_append, List.foldl_append]

theorem told {probe : Probe} {news : List SpanNews} (h : Hears probe.leaves news w w') :
    Shows [.told probe news] w w' := by
  constructor
  case levels => exact h.levels
  case sent => rw [h.sent]; simp [TraceNote.entries]
  case rendered => rw [h.rendered]; simp [TraceNote.rendered]
  case recordings => exact h.recordings
  case recorded =>
    intro slot hslot honce
    rw [h.recorded slot hslot]
    cases news with
    | nil => simp [TraceNote.allNews, TraceNote.news, Leaf.heard]
    | cons n news =>
      have hcount : probe.slots.count slot ≤ 1 := honce (probe, n) (by
        simp [TraceNote.allNews, TraceNote.news])
      rw [Probe.count_slots] at hcount
      by_cases hleaf : Leaf.recording slot ∈ probe.leaves
      · have hone : probe.leaves.count (.recording slot) = 1 :=
          Nat.le_antisymm hcount (List.count_pos_iff.mpr hleaf)
        simp [Leaf.heard_told, hleaf, hone]
      · simp [Leaf.heard_told, hleaf, List.count_eq_zero_of_not_mem hleaf]

theorem late (w : World η) (i : SpanId) (count : Nat) :
    Shows [.late (w.span i).qualifiedId count] w (w.warnDropped i count) := by
  unfold World.warnDropped World.emit Log.emit Log.enabled
  constructor
  case recorded => intro slot _ _; simp [TraceNote.allNews, TraceNote.news, Leaf.heard]
  all_goals split <;> simp_all [TraceNote.entries, TraceNote.rendered]

theorem read (w : World η) (m : Message) : Shows [.read m] w (w.render m).2 := by
  constructor <;>
    simp [World.render, TraceNote.entries, TraceNote.rendered, TraceNote.allNews, TraceNote.news,
      Leaf.heard, Trace.recording]

theorem createSpan (w : World η) (id : String) (path : List String) (parent : Option SpanId)
    (probe : Probe) :
    Shows [.told probe [.created (Span.fresh id path parent probe).qualifiedId]] w
      (w.createSpan id path parent probe).2 := by
  let s := Span.fresh id path parent probe
  let grown := { w with trace := { w.trace with spans := w.trace.spans ++ [s] } }
  have hgrown : Shows [] w grown := nothing rfl rfl rfl
  exact hgrown.append (told (.created s probe grown))

theorem setStatus (w : World η) (i : SpanId) (status : SpanStatus) :
    Shows [] w (w.setStatus i status).2 := by
  unfold World.setStatus
  split <;> exact nothing rfl rfl rfl

theorem post (w : World η) (i : SpanId) (e : TraceEvent) :
    Shows ((SpanStep.post i e).notes w) w (w.post i e) := by
  simp only [SpanStep.notes, World.post]
  split
  · exact late w i 1
  · exact told (.post _ e _ w)

theorem postAll (w : World η) (i : SpanId) (es : List TraceEvent) :
    Shows ((SpanStep.postAll i es).notes w) w (w.postAll i es) := by
  simp only [SpanStep.notes, World.postAll]
  split
  · exact nothing rfl rfl rfl
  split
  · exact late w i es.length
  · exact told (.postAll _ es _ w)

theorem close (w : World η) (i : SpanId) :
    Shows ((SpanStep.close i).notes w) w (w.close i) := by
  simp only [SpanStep.notes]
  split
  · next h =>
    rw [close_of_closed h]
    exact nothing rfl rfl rfl
  · next h =>
    have hopen : (w.span i).closed = false := by simpa using h
    let marked := w.updateSpan i fun s => { s with closed := true }
    have hmarked : Shows [] w marked := nothing rfl rfl rfl
    have hspan : marked.span i = { w.span i with closed := true } := by
      rw [span_of_modify (w := w) rfl i, if_pos ⟨rfl, lt_of_open hopen⟩]
    have hclose : w.close i = (marked.span i).probe.closed (marked.span i) marked := by
      simp [World.close, hopen, marked]
    have htold := told (Hears.closed (marked.span i) (marked.span i).probe marked)
    rw [← hclose, hspan] at htold
    exact hmarked.append htold

/-- What is noted is what a call tells. -/
theorem step {s : SpanStep η} (hs : s.Quiet w) : Shows (s.notes w) w (s.perform w) := by
  cases s with
  | root id probe => exact createSpan w id [] none probe
  | child i id => exact createSpan w id _ (some i) _
  | setStatus i status => exact setStatus w i status
  | setAttribute i key v => exact nothing rfl rfl rfl
  | post i e => exact post w i e
  | postAll i es => exact postAll w i es
  | close i => exact close w i
  | aside f => exact nothing hs.1 hs.2.2.1 hs.2.2.2

end Shows

/-- Calls of tracing from one world to another, and readers in between, with what others noticed of
them. -/
inductive Notes : World η → List TraceNote → World η → Prop where
  | refl (w : World η) : Notes w [] w
  | step {v w : World η} {k : List TraceNote} (h : Notes v k w) (s : SpanStep η)
      (hs : s.Quiet w) : Notes v (k ++ s.notes w) (s.perform w)
  | read {v w : World η} {k : List TraceNote} (h : Notes v k w) (m : Message) :
      Notes v (k ++ [.read m]) (w.render m).2

namespace Notes

theorem trans (h : Notes v k w) (h' : Notes w k' w') : Notes v (k ++ k') w' := by
  induction h' with
  | refl => rwa [List.append_nil]
  | step _ s hs ih =>
    rw [← List.append_assoc]
    exact ih.step s hs
  | read _ m ih =>
    rw [← List.append_assoc]
    exact ih.read m

theorem single (s : SpanStep η) (hs : s.Quiet w) : Notes w (s.notes w) (s.perform w) :=
  (refl w).step s hs

/-- Nothing that tracing keeps is any different. -/
theorem aside (hlog : w'.log = w.log) (hspans : w'.trace.spans = w.trace.spans)
    (hrecordings : w'.trace.recordings = w.trace.recordings)
    (hrendered : w'.trace.rendered = w.trace.rendered) : Notes w [] w' :=
  single (.aside fun _ => w') ⟨hlog, hspans, hrecordings, hrendered⟩

theorem shows (h : Notes v k w) : Shows k v w := by
  induction h with
  | refl => exact .nothing rfl rfl rfl
  | step _ s hs ih => exact ih.append (.step hs)
  | read _ m ih => exact ih.append (.read _ m)

/-- A call changes spans as tracing does, whichever handle it is given. -/
theorem exists_changes {s : SpanStep η} (hs : s.Quiet w) : ∃ c, w.Traces c (s.perform w) := by
  cases s with
  | root id probe => exact ⟨_, .create w id [] none probe⟩
  | child i id => exact ⟨_, .create w id _ (some i) _⟩
  | setStatus i status =>
    by_cases hstatus : status = .unset
    · have hsame : (w.setStatus i status).2 = w := by simp [World.setStatus, hstatus]
      exact ⟨[], by rw [SpanStep.perform, hsame]; exact .aside rfl rfl⟩
    · exact ⟨_, setStatus_traces w i hstatus⟩
  | setAttribute i key v => exact ⟨_, .decorate w i key v⟩
  | post i e =>
    cases hclosed : (w.span i).closed with
    | true => exact ⟨[], by rw [SpanStep.perform, post_of_closed hclosed]; exact .aside rfl rfl⟩
    | false => exact ⟨_, .post e hclosed⟩
  | postAll i es =>
    cases hclosed : (w.span i).closed with
    | true =>
      have htrace : ((SpanStep.postAll i es).perform w).trace = w.trace :=
        postAll_of_closed hclosed es
      exact ⟨[], .aside (by rw [htrace]) (by rw [htrace])⟩
    | false => exact ⟨_, .postAll es hclosed⟩
  | close i => exact ⟨_, close_traces w i⟩
  | aside f => exact ⟨[], .aside hs.2.1 hs.2.2.1⟩

theorem traces (h : Notes v k w) : ∃ c, v.Traces c w := by
  induction h with
  | refl => exact ⟨[], .aside rfl rfl⟩
  | step _ s hs ih =>
    obtain ⟨c, hc⟩ := ih
    obtain ⟨c', hc'⟩ := exists_changes hs
    exact ⟨c ++ c', hc.append hc'⟩
  | @read w _ _ m ih =>
    obtain ⟨c, hc⟩ := ih
    have hread : w.Traces [] (w.render m).2 := .aside rfl rfl
    exact ⟨c ++ [], hc.append hread⟩

end Notes

end World

end ClientRuntime
