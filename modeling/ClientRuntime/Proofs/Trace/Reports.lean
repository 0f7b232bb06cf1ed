import ClientRuntime.Proofs.Trace.Frame

/-!
What recordings are told. Creating a span and posting to it tells them of no closing; a probe that
hears of a closing tells each recording that it writes to.
-/

namespace ClientRuntime

namespace Probe

mutual

/-- The recordings that a probe writes to, once for each report. -/
def slots : Probe → List Nat
  | recording slot => [slot]
  | silent => []
  | logging _ => []
  | multi probes => slotsEach probes

def slotsEach : List Probe → List Nat
  | [] => []
  | p :: ps => p.slots ++ slotsEach ps

end

end Probe

/-- What a span's probe tells its recordings when the span closes. -/
def Span.closings (s : Span) (slots : List Nat) (slot : Nat) : List (String × SpanStatus) :=
  List.replicate (slots.count slot) (s.qualifiedId, s.status)

theorem Span.closings_append (s : Span) (slots slots' : List Nat) :
    s.closings (slots ++ slots') = fun slot => s.closings slots slot ++ s.closings slots' slot := by
  funext slot
  simp [closings, List.count_append]

namespace World

variable {η : Type} {w w₁ w₂ w' : World η}

/-- Spans are as they were, and every recording has been told of these closings. -/
structure Reports (told : Nat → List (String × SpanStatus)) (w w' : World η) : Prop where
  spans : w'.trace.spans = w.trace.spans
  recordings : w'.trace.recordings.length = w.trace.recordings.length
  closed : ∀ slot < w.trace.recordings.length, (w'.trace.recording slot).closed.toList =
    (w.trace.recording slot).closed.toList ++ told slot

theorem Reports.append {told told' : Nat → List (String × SpanStatus)} (h : Reports told w w₁)
    (h' : Reports told' w₁ w₂) : Reports (fun slot => told slot ++ told' slot) w w₂ := by
  refine ⟨h'.spans.trans h.spans, h'.recordings.trans h.recordings, fun slot hslot => ?_⟩
  rw [h'.closed slot (by rw [h.recordings]; exact hslot), h.closed slot hslot, List.append_assoc]

/-- Spans are as they were, and no recording has been told of a closing. -/
abbrev SameSpans : World η → World η → Prop := Reports fun _ => []

namespace SameSpans

theorem refl (w : World η) : w.SameSpans w := ⟨rfl, rfl, fun _ _ => (List.append_nil _).symm⟩

theorem trans (h : w.SameSpans w₁) (h' : w₁.SameSpans w₂) : w.SameSpans w₂ := h.append h'

theorem emit (w : World η) (level : LogLevel) (fields : List (String × LogValue))
    (message : String) : w.SameSpans (w.emit level fields message) := ⟨rfl, rfl, (refl w).closed⟩

theorem updateRecording (w : World η) (slot : Nat) {f : Recording → Recording}
    (hf : ∀ r, (f r).closed = r.closed) : w.SameSpans (w.updateRecording slot f) := by
  refine ⟨rfl, by simp [World.updateRecording, Trace.updateRecording], fun slot' hslot => ?_⟩
  by_cases h : slot = slot'
  · subst h
    simp [World.updateRecording, Trace.updateRecording, Trace.recording, hslot, hf]
  · simp [World.updateRecording, Trace.updateRecording, Trace.recording, h]

theorem forward (s : Span) (e : TraceEvent) (w : World η) :
    w.SameSpans (Probe.forward s e w) := by
  unfold Probe.forward
  cases e.body with
  | message content error => exact ⟨rfl, rfl, (refl w).closed⟩
  | metric name value => cases value <;> exact ⟨rfl, rfl, (refl w).closed⟩

mutual

theorem created (s : Span) : (p : Probe) → (w : World η) → w.SameSpans (p.created s w)
  | .recording _, w => updateRecording w _ fun _ => rfl
  | .silent, w => refl w
  | .logging _, w => emit w _ _ _
  | .multi probes, w => createdEach s probes w

theorem createdEach (s : Span) :
    (ps : List Probe) → (w : World η) → w.SameSpans (Probe.createdEach ps s w)
  | [], w => refl w
  | p :: ps, w => (created s p w).trans (createdEach s ps _)

end

mutual

theorem post (s : Span) (e : TraceEvent) :
    (p : Probe) → (w : World η) → w.SameSpans (p.post s e w)
  | .recording _, w => updateRecording w _ fun _ => rfl
  | .silent, w => refl w
  | .logging _, w => by
    simp only [Probe.post]
    split
    · exact forward s e w
    · exact refl w
  | .multi probes, w => postEach s e probes w

theorem postEach (s : Span) (e : TraceEvent) :
    (ps : List Probe) → (w : World η) → w.SameSpans (Probe.postEach ps s e w)
  | [], w => refl w
  | p :: ps, w => (post s e p w).trans (postEach s e ps _)

end

theorem foldl_post (s : Span) (p : Probe) (es : List TraceEvent) (w : World η) :
    w.SameSpans (es.foldl (fun w e => p.post s e w) w) := by
  induction es generalizing w with
  | nil => exact refl w
  | cons e es ih => exact (post s e p w).trans (ih _)

mutual

theorem postAll (s : Span) (es : List TraceEvent) :
    (p : Probe) → (w : World η) → w.SameSpans (p.postAll s es w)
  | .recording slot, w => foldl_post s (.recording slot) es w
  | .silent, w => refl w
  | .logging least, w => foldl_post s (.logging least) es w
  | .multi probes, w => postAllEach s es probes w

theorem postAllEach (s : Span) (es : List TraceEvent) :
    (ps : List Probe) → (w : World η) → w.SameSpans (Probe.postAllEach ps s es w)
  | [], w => refl w
  | p :: ps, w => (postAll s es p w).trans (postAllEach s es ps _)

end

end SameSpans

theorem Reports.recording (s : Span) (w : World η) (slot : Nat) :
    Reports (s.closings [slot]) w ((Probe.recording slot).closed s w) := by
  refine ⟨rfl, by simp [Probe.closed, updateRecording, Trace.updateRecording], ?_⟩
  intro slot' hslot
  by_cases h : slot = slot'
  · subst h
    simp [Span.closings, Probe.closed, updateRecording, Trace.updateRecording, Trace.recording,
      hslot]
  · simp [Span.closings, Probe.closed, updateRecording, Trace.updateRecording, Trace.recording, h]

mutual

theorem Reports.probe (s : Span) :
    (p : Probe) → (w : World η) → Reports (s.closings p.slots) w (p.closed s w)
  | .recording slot, w => .recording s w slot
  | .silent, w => SameSpans.refl w
  | .logging _, w => SameSpans.emit w _ _ _
  | .multi probes, w => .probes s probes w

theorem Reports.probes (s : Span) : (ps : List Probe) → (w : World η) →
    Reports (s.closings (Probe.slotsEach ps)) w (Probe.closedEach ps s w)
  | [], w => SameSpans.refl w
  | p :: ps, w => by
    rw [Probe.slotsEach, Span.closings_append]
    exact (Reports.probe s p w).append (.probes s ps _)

end

theorem post_sameSpans (w : World η) (i : SpanId) (e : TraceEvent) : w.SameSpans (w.post i e) := by
  simp only [post]
  split
  · exact .emit w _ _ _
  · exact .post _ e _ w

theorem postAll_sameSpans (w : World η) (i : SpanId) (es : List TraceEvent) :
    w.SameSpans (w.postAll i es) := by
  simp only [postAll]
  split
  · exact .refl w
  split
  · exact .emit w _ _ _
  · exact .postAll _ es _ w

end World

end ClientRuntime
