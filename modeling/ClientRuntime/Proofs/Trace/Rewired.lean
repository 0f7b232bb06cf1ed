import Mathlib.Data.List.Forall2
import ClientRuntime.Proofs.Trace.Notes
import ClientRuntime.Proofs.Trace.Scopes

/-!
Spans that report to other probes. The same calls, whoever makes them and in whatever order, tell
the other probes the same, and a batch of events is no different from its events one by one.
-/

namespace ClientRuntime

/-- The same span, which reports to a probe that may stand for its own. -/
def Span.Rewired (Q : Probe → Probe → Prop) (s s' : Span) : Prop :=
  ∃ probe, Q s.probe probe ∧ s' = { s with probe }

/-- The same news for a probe that may stand for the other. -/
def Probe.ToldAlike (Q : Probe → Probe → Prop) (t t' : Probe × SpanNews) : Prop :=
  Q t.1 t'.1 ∧ t'.2 = t.2

/-- The same call, with another probe for a root. -/
inductive SpanStep.Rewired {η η' : Type} (Q : Probe → Probe → Prop) :
    SpanStep η → SpanStep η' → Prop where
  | root (id : String) {probe probe' : Probe} (h : Q probe probe') :
      Rewired Q (.root id probe) (.root id probe')
  | child (i : SpanId) (id : String) : Rewired Q (.child i id) (.child i id)
  | setStatus (i : SpanId) (status : SpanStatus) :
      Rewired Q (.setStatus i status) (.setStatus i status)
  | setAttribute (i : SpanId) (key : AttributeKey) (v : AttributeValue) :
      Rewired Q (.setAttribute i key v) (.setAttribute i key v)
  | post (i : SpanId) (e : TraceEvent) : Rewired Q (.post i e) (.post i e)
  | postAll (i : SpanId) (es : List TraceEvent) : Rewired Q (.postAll i es) (.postAll i es)
  | close (i : SpanId) : Rewired Q (.close i) (.close i)

namespace World

variable {η η' : Type} {Q : Probe → Probe → Prop}

/-- What probes do aside, the table of spans changes by `f`. -/
structure Reshapes (f : List Span → List Span) (w w₁ : World η) : Prop where
  clock : w₁.clock = w.clock
  messages : w₁.trace.messages = w.trace.messages
  spans : w₁.trace.spans = f w.trace.spans

section Reshapes

variable (w : World η) (i : SpanId)

theorem reshapes_createSpan (id : String) (path : List String) (parent : Option SpanId)
    (probe : Probe) : Reshapes (· ++ [.fresh id path parent probe]) w
      (w.createSpan id path parent probe).2 where
  clock := (createSpan_traced ..).clock
  messages := (Hears.created (.fresh id path parent probe) probe _).messages
  spans := createSpan_spans ..

theorem reshapes_post (e : TraceEvent) : Reshapes id w (w.post i e) where
  clock := (post_traced w i e).clock
  messages := by
    simp only [post]
    split
    · rfl
    · exact (Hears.post _ e _ w).messages
  spans := (post_sameSpans w i e).spans

theorem reshapes_postAll (es : List TraceEvent) : Reshapes id w (w.postAll i es) where
  clock := (postAll_traced w i es).clock
  messages := by
    simp only [postAll]
    split
    · rfl
    split
    · rfl
    · exact (Hears.postAll _ es _ w).messages
  spans := (postAll_sameSpans w i es).spans

variable {w i}

theorem reshapes_setStatus {status : SpanStatus}
    (h : (w.span i).status = .unset ∧ status ≠ .unset) :
    Reshapes (·.modify i fun s => { s with status }) w (w.setStatus i status).2 := by
  rw [setStatus_of_unset h]
  exact ⟨rfl, rfl, rfl⟩

theorem reshapes_close (hopen : (w.span i).closed = false) :
    Reshapes (·.modify i fun s => { s with closed := true }) w (w.close i) where
  clock := (close_traced w i).clock
  messages := by
    simp only [close, hopen]
    exact (Hears.closed _ _ _).messages
  spans := close_spans hopen

end Reshapes

/-- The same spans at the same time, which report to probes that may stand for theirs. -/
structure Rewired (Q : Probe → Probe → Prop) (w : World η) (w' : World η') : Prop where
  clock : w'.clock = w.clock
  messages : w'.trace.messages = w.trace.messages
  length : w'.trace.spans.length = w.trace.spans.length
  spans : ∀ i, (w.span i).Rewired Q (w'.span i)

namespace Rewired

variable {w w₁ : World η} {w' w₁' : World η'}

/-- The table does not change. -/
theorem same (h : w.Rewired Q w') (hw : Reshapes id w w₁) (hw' : Reshapes id w' w₁') :
    w₁.Rewired Q w₁' where
  clock := by rw [hw.clock, hw'.clock, h.clock]
  messages := by rw [hw.messages, hw'.messages, h.messages]
  length := by rw [hw.spans, hw'.spans]; exact h.length
  spans i := by rw [span_of_eq hw.spans, span_of_eq hw'.spans]; exact h.spans i

/-- Hosts are not compared. -/
theorem mapHost (h : w.Rewired Q w') (f : η → η) (g : η' → η') :
    (w.mapHost f).Rewired Q (w'.mapHost g) :=
  ⟨h.clock, h.messages, h.length, h.spans⟩

/-- One span changes. -/
theorem modify (h : w.Rewired Q w') {i : SpanId} {f : Span → Span}
    (hf : ∀ s s', s.Rewired Q s' → (f s).Rewired Q (f s'))
    (hw : Reshapes (·.modify i f) w w₁) (hw' : Reshapes (·.modify i f) w' w₁') :
    w₁.Rewired Q w₁' where
  clock := by rw [hw.clock, hw'.clock, h.clock]
  messages := by rw [hw.messages, hw'.messages, h.messages]
  length := by rw [hw.spans, hw'.spans, List.length_modify, List.length_modify, h.length]
  spans j := by
    rw [span_of_modify hw.spans, span_of_modify hw'.spans, h.length]
    split
    · exact hf _ _ (h.spans j)
    · exact h.spans j

/-- A span comes to the table. -/
theorem append (h : w.Rewired Q w') {s s' : Span} (hs : s.Rewired Q s')
    (hw : Reshapes (· ++ [s]) w w₁) (hw' : Reshapes (· ++ [s']) w' w₁') : w₁.Rewired Q w₁' where
  clock := by rw [hw.clock, hw'.clock, h.clock]
  messages := by rw [hw.messages, hw'.messages, h.messages]
  length := by rw [hw.spans, hw'.spans]; simp [h.length]
  spans j := by
    rcases Nat.lt_trichotomy j w.trace.spans.length with hj | rfl | hj
    · have hj' : j < w'.trace.spans.length := by rwa [h.length]
      rw [span_of_append hw.spans hj, span_of_append hw'.spans hj']
      exact h.spans j
    · rw [span_of_append_self hw.spans, ← h.length, span_of_append_self hw'.spans]
      exact hs
    · -- what is not there yet looks as it did
      have hnone : w₁.span j = w.span j := by
        rw [span_of_le (by rw [hw.spans]; simpa using hj), span_of_le hj.le]
      have hnone' : w₁'.span j = w'.span j := by
        rw [span_of_le (by rw [hw'.spans]; simpa [h.length] using hj),
          span_of_le (by rw [h.length]; exact hj.le)]
      rw [hnone, hnone']
      exact h.spans j

theorem created (h : w.Rewired Q w') {probe probe' : Probe} (hprobe : Q probe probe') (id : String)
    (path : List String) (parent : Option SpanId) :
    (w.createSpan id path parent probe).2.Rewired Q (w'.createSpan id path parent probe').2 :=
  h.append ⟨probe', hprobe, rfl⟩ (reshapes_createSpan w id path parent probe)
    (reshapes_createSpan w' id path parent probe')

theorem perform (h : w.Rewired Q w') {s : SpanStep η} {s' : SpanStep η'} (hs : s.Rewired Q s') :
    (s.perform w).Rewired Q (s'.perform w') := by
  cases hs with
  | root id hprobe => exact h.created hprobe id [] none
  | child i id =>
    obtain ⟨probe, hprobe, hspan⟩ := h.spans i
    simp only [SpanStep.perform, createChild, hspan]
    exact h.created hprobe id _ _
  | setStatus i status =>
    obtain ⟨probe, -, hspan⟩ := h.spans i
    by_cases hset : (w.span i).status = .unset ∧ status ≠ .unset
    · have hset' : (w'.span i).status = .unset ∧ status ≠ .unset := by rwa [hspan]
      refine h.modify ?_ (reshapes_setStatus hset) (reshapes_setStatus hset')
      rintro s _ ⟨probe, hprobe, rfl⟩
      exact ⟨probe, hprobe, rfl⟩
    · have hset' : ¬ ((w'.span i).status = .unset ∧ status ≠ .unset) := by rwa [hspan]
      simpa only [SpanStep.perform, setStatus_of_set hset, setStatus_of_set hset'] using h
  | setAttribute i key v =>
    refine h.modify (f := fun s => { s with attributes := s.attributes.set key v }) ?_
      ⟨rfl, rfl, rfl⟩ ⟨rfl, rfl, rfl⟩
    rintro s _ ⟨probe, hprobe, rfl⟩
    exact ⟨probe, hprobe, rfl⟩
  | post i e => exact h.same (reshapes_post w i e) (reshapes_post w' i e)
  | postAll i es => exact h.same (reshapes_postAll w i es) (reshapes_postAll w' i es)
  | close i =>
    obtain ⟨probe, -, hspan⟩ := h.spans i
    cases hopen : (w.span i).closed with
    | true =>
      have hopen' : (w'.span i).closed = true := by rwa [hspan]
      simpa only [SpanStep.perform, close_of_closed hopen, close_of_closed hopen'] using h
    | false =>
      have hopen' : (w'.span i).closed = false := by rwa [hspan]
      refine h.modify ?_ (reshapes_close hopen) (reshapes_close hopen')
      rintro s _ ⟨probe, hprobe, rfl⟩
      exact ⟨probe, hprobe, rfl⟩

/-- A call tells both probes the same, or neither. -/
theorem news (h : w.Rewired Q w') {s : SpanStep η} {s' : SpanStep η'} (hs : s.Rewired Q s') :
    List.Forall₂ (Probe.ToldAlike Q) (TraceNote.allNews (s.notes w))
      (TraceNote.allNews (s'.notes w')) := by
  have told {probe probe' : Probe} (hprobe : Q probe probe') (ns : List SpanNews) :
      List.Forall₂ (Probe.ToldAlike Q) (TraceNote.allNews [.told probe ns])
        (TraceNote.allNews [.told probe' ns]) := by
    simp only [TraceNote.allNews, TraceNote.news, List.flatMap_singleton]
    induction ns with
    | nil => exact .nil
    | cons n ns ih => exact .cons ⟨hprobe, rfl⟩ ih
  cases hs with
  | root id hprobe => exact told hprobe _
  | child i id =>
    obtain ⟨probe, hprobe, hspan⟩ := h.spans i
    simp only [SpanStep.notes, hspan]
    exact told hprobe _
  | setStatus | setAttribute => exact .nil
  | post i e =>
    obtain ⟨probe, hprobe, hspan⟩ := h.spans i
    simp only [SpanStep.notes, hspan]
    split
    · exact .nil
    · exact told hprobe _
  | postAll i es =>
    obtain ⟨probe, hprobe, hspan⟩ := h.spans i
    simp only [SpanStep.notes, hspan]
    split
    · exact .nil
    split
    · exact .nil
    · exact told hprobe _
  | close i =>
    obtain ⟨probe, hprobe, hspan⟩ := h.spans i
    simp only [SpanStep.notes, hspan]
    split
    · exact .nil
    · exact told hprobe _

end Rewired

/-- Two runs in which the same is told, each time to a probe of its own. -/
def SameNews (Q : Probe → Probe → Prop) (v w : World η) (v' w' : World η') : Prop :=
  ∃ k k', v.Notes k w ∧ v'.Notes k' w' ∧
    List.Forall₂ (Probe.ToldAlike Q) (TraceNote.allNews k) (TraceNote.allNews k')

/-- Two runs in which the same is told, and which leave the same spans behind. -/
structure Echoes (Q : Probe → Probe → Prop) (v w : World η) (v' w' : World η') : Prop where
  news : SameNews Q v w v' w'
  rewired : w.Rewired Q w'

namespace Echoes

variable {v w w₁ : World η} {v' w' w₁' : World η'} {k k' : List TraceNote}

theorem refl (h : v.Rewired Q v') : Echoes Q v v v' v' :=
  ⟨⟨[], [], .refl v, .refl v', .nil⟩, h⟩

/-- Both runs go on for a while, and tell the same meanwhile. -/
theorem goOn (h : Echoes Q v w v' w') (hw : w.Notes k w₁) (hw' : w'.Notes k' w₁')
    (hk : List.Forall₂ (Probe.ToldAlike Q) (TraceNote.allNews k) (TraceNote.allNews k'))
    (hrewired : w₁.Rewired Q w₁') : Echoes Q v w₁ v' w₁' := by
  obtain ⟨⟨before, before', hbefore, hbefore', hnews⟩, -⟩ := h
  refine ⟨⟨before ++ k, before' ++ k', hbefore.trans hw, hbefore'.trans hw', ?_⟩, hrewired⟩
  rw [TraceNote.allNews_append, TraceNote.allNews_append]
  exact List.rel_append hnews hk

theorem step (h : Echoes Q v w v' w') {s : SpanStep η} {s' : SpanStep η'} (hs : s.Rewired Q s') :
    Echoes Q v (s.perform w) v' (s'.perform w') := by
  have hquiet : s.Quiet w := by cases hs <;> trivial
  have hquiet' : s'.Quiet w' := by cases hs <;> trivial
  exact h.goOn (.single s hquiet) (.single s' hquiet') (h.rewired.news hs) (h.rewired.perform hs)

theorem newMessage (h : Echoes Q v w v' w') (text : String) :
    Echoes Q v (w.newMessage text).2 v' (w'.newMessage text).2 := by
  have hnoted : w.Notes [] (w.newMessage text).2 := .aside rfl rfl rfl rfl
  have hnoted' : w'.Notes [] (w'.newMessage text).2 := .aside rfl rfl rfl rfl
  refine h.goOn hnoted hnoted' .nil ?_
  exact ⟨h.rewired.clock, congrArg (· + 1) h.rewired.messages, h.rewired.length, h.rewired.spans⟩

theorem say (h : Echoes Q v w v' w') (i : SpanId) (level : TraceLevel) (component text : String)
    (error : Option String) : Echoes Q v (w.say i level component text error) v'
      (w'.say i level component text error) := by
  have hmessage : (w'.newMessage text).1 = (w.newMessage text).1 := by
    simp [World.newMessage, h.rewired.messages]
  have hwritten := h.newMessage text
  simp only [World.say, World.event, hmessage, hwritten.rewired.clock]
  exact hwritten.step (.post i _)

theorem closed_eq (h : Echoes Q v w v' w') (i : SpanId) :
    (w'.span i).closed = (w.span i).closed := by
  obtain ⟨probe, -, hspan⟩ := h.rewired.spans i
  rw [hspan]

theorem finishSpan (h : Echoes Q v w v' w') (i : SpanId) (failed : Bool) :
    Echoes Q v (w.finishSpan i failed) v' (w'.finishSpan i failed) := by
  cases failed with
  | false => exact h.step (.close i)
  | true => exact (h.step (.setStatus i .error)).step (.close i)

theorem dropGuard (h : Echoes Q v w v' w') (i : SpanId) :
    Echoes Q v (w.dropGuard i) v' (w'.dropGuard i) := by
  unfold World.dropGuard
  rw [h.closed_eq]
  split
  · exact h
  · exact (h.say i _ _ _ _).step (.close i)

theorem unwindGuard (h : Echoes Q v w v' w') (i : SpanId) :
    Echoes Q v (w.unwindGuard i) v' (w'.unwindGuard i) := by
  unfold World.unwindGuard
  rw [h.closed_eq]
  split
  · exact h
  · exact ((h.step (.setStatus i .error)).say i _ _ _ _).step (.close i)

theorem closeSpan {α : Type} (h : Echoes Q v w v' w') (i : SpanId) (failed : α → Bool)
    (e : Ending α) : Echoes Q v (e.closeSpan i failed w) v' (e.closeSpan i failed w') := by
  cases e with
  | returned a => exact h.finishSpan i (failed a)
  | cut c =>
    cases c with
    | unwound text => exact h.unwindGuard i
    | dropped => exact h.dropGuard i

end Echoes

section Apart

variable {w w₁ w₂ : World η}

theorem Reshapes.trans (h : Reshapes id w w₁) (h' : Reshapes id w₁ w₂) : Reshapes id w w₂ :=
  ⟨h'.clock.trans h.clock, h'.messages.trans h.messages, h'.spans.trans h.spans⟩

/-- What probes hear of events on a span. -/
def postings (s : Span) (es : List TraceEvent) : List (Probe × SpanNews) :=
  if s.closed then [] else es.map fun e => (s.probe, .posted s.qualifiedId e)

theorem allNews_post (w : World η) (i : SpanId) (e : TraceEvent) :
    TraceNote.allNews ((SpanStep.post i e).notes w) = postings (w.span i) [e] := by
  simp only [SpanStep.notes, postings]
  split <;> rfl

theorem allNews_postAll (w : World η) (i : SpanId) (es : List TraceEvent) :
    TraceNote.allNews ((SpanStep.postAll i es).notes w) = postings (w.span i) es := by
  cases es with
  | nil => simp [SpanStep.notes, postings, TraceNote.allNews]
  | cons e es =>
    by_cases h : (w.span i).closed <;>
      simp [SpanStep.notes, postings, TraceNote.allNews, TraceNote.news, h]

theorem postings_cons (s : Span) (e : TraceEvent) (es : List TraceEvent) :
    postings s (e :: es) = postings s [e] ++ postings s es := by
  unfold postings
  split <;> simp

/-- Events one by one. -/
theorem notes_foldl_post (i : SpanId) (es : List TraceEvent) (w : World η) :
    ∃ k, w.Notes k (es.foldl (fun w e => w.post i e) w) ∧
      TraceNote.allNews k = postings (w.span i) es ∧
      Reshapes id w (es.foldl (fun w e => w.post i e) w) := by
  induction es generalizing w with
  | nil => exact ⟨[], .refl w, by simp [TraceNote.allNews, postings], ⟨rfl, rfl, rfl⟩⟩
  | cons e es ih =>
    have hposted := reshapes_post w i e
    obtain ⟨k, hk, hnews, hrest⟩ := ih (w.post i e)
    rw [span_of_eq hposted.spans] at hnews
    refine ⟨_, (Notes.single (.post i e) trivial).trans hk, ?_, hposted.trans hrest⟩
    rw [TraceNote.allNews_append, allNews_post, hnews, ← postings_cons]

end Apart

theorem postings_rewired {s s' : Span} (h : s.Rewired Q s') (es : List TraceEvent) :
    List.Forall₂ (Probe.ToldAlike Q) (postings s es) (postings s' es) := by
  obtain ⟨probe, hprobe, rfl⟩ := h
  unfold postings
  split
  · exact .nil
  · induction es with
    | nil => exact .nil
    | cons e es ih => exact .cons ⟨hprobe, rfl⟩ ih

/-- The same calls with other probes for roots, some batches taken apart. -/
inductive CallsAlike (Q : Probe → Probe → Prop) :
    List (SpanStep η) → List (SpanStep η') → Prop where
  | nil : CallsAlike Q [] []
  | cons {s : SpanStep η} {s' : SpanStep η'} {ss : List (SpanStep η)} {ss' : List (SpanStep η')} :
      s.Rewired Q s' → CallsAlike Q ss ss' → CallsAlike Q (s :: ss) (s' :: ss')
  | apart (i : SpanId) (es : List TraceEvent) {ss : List (SpanStep η)} {ss' : List (SpanStep η')} :
      CallsAlike Q ss ss' → CallsAlike Q (.postAll i es :: ss) (es.map (.post i) ++ ss')

/-- Whoever calls, and in whatever order. -/
theorem Echoes.calls {v w : World η} {v' w' : World η'} {ss : List (SpanStep η)}
    {ss' : List (SpanStep η')} (h : Echoes Q v w v' w') (hss : CallsAlike Q ss ss') :
    Echoes Q v (ss.foldl SpanStep.perform w) v' (ss'.foldl SpanStep.perform w') := by
  induction hss generalizing w w' with
  | nil => exact h
  | cons hs _ ih => exact ih (h.step hs)
  | apart i es _ ih =>
    rw [List.foldl_cons, List.foldl_append, List.foldl_map]
    apply ih
    obtain ⟨k', hk', hnews, hsame⟩ := notes_foldl_post i es w'
    have hposted := reshapes_postAll w i es
    refine h.goOn (.single (.postAll i es) trivial) hk' ?_ (h.rewired.same hposted hsame)
    rw [allNews_postAll, hnews]
    exact postings_rewired (h.rewired.spans i) es

end World

end ClientRuntime
