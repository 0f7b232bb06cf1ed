import ClientRuntime.Proofs.Fiber.Stays
import ClientRuntime.Proofs.Fiber.Yields
import ClientRuntime.Trace.Scope

/-!
What tracing leaves alone. Whatever is created, posted or closed, only the log and the trace of the
world change.
-/

namespace ClientRuntime.World

variable {η : Type} {w w₁ w₂ : World η}

/-- The worlds differ in their log and trace at most. -/
structure TracedTo (w w' : World η) : Prop where
  clock : w'.clock = w.clock
  executions : w'.executions = w.executions
  host : w'.host = w.host

namespace TracedTo

theorem refl (w : World η) : w.TracedTo w := ⟨rfl, rfl, rfl⟩

theorem trans (h₁ : w.TracedTo w₁) (h₂ : w₁.TracedTo w₂) : w.TracedTo w₂ :=
  ⟨h₂.clock.trans h₁.clock, h₂.executions.trans h₁.executions, h₂.host.trans h₁.host⟩

end TracedTo

theorem emit_traced (w : World η) (level : LogLevel) (fields : List (String × LogValue))
    (message : String) : w.TracedTo (w.emit level fields message) := ⟨rfl, rfl, rfl⟩

theorem updateRecording_traced (w : World η) (slot : Nat) (f : Recording → Recording) :
    w.TracedTo (w.updateRecording slot f) := ⟨rfl, rfl, rfl⟩

theorem updateSpan_traced (w : World η) (i : SpanId) (f : Span → Span) :
    w.TracedTo (w.updateSpan i f) := ⟨rfl, rfl, rfl⟩

theorem newMessage_traced (w : World η) (text : String) : w.TracedTo (w.newMessage text).2 :=
  ⟨rfl, rfl, rfl⟩

/-- Probes write to the log and to recordings, and render messages. Nothing of that breaks the
relation. -/
structure Unprobed (R : World η → World η → Prop) : Prop extends Composes R where
  emit : ∀ w level fields message, R w (w.emit level fields message)
  record : ∀ w slot f, R w (w.updateRecording slot f)
  render : ∀ w m, R w (w.render m).2

namespace Unprobed

variable {R : World η → World η → Prop} (hR : Unprobed R) (s : Span) (e : TraceEvent)

include hR

theorem forward (w : World η) : R w (Probe.forward s e w) := by
  unfold Probe.forward
  cases e.body with
  | message content error => exact hR.andThen (hR.render w content) (hR.emit _ _ _ _)
  | metric name value => cases value <;> exact hR.emit w _ _ _

mutual

theorem created : (p : Probe) → (w : World η) → R w (p.created s w)
  | .recording _, w => hR.record w _ _
  | .silent, w => hR.none w
  | .logging _, w => hR.emit w _ _ _
  | .multi probes, w => createdEach probes w

theorem createdEach : (ps : List Probe) → (w : World η) → R w (Probe.createdEach ps s w)
  | [], w => hR.none w
  | p :: ps, w => hR.andThen (created p w) (createdEach ps _)

end

mutual

theorem post : (p : Probe) → (w : World η) → R w (p.post s e w)
  | .recording _, w => hR.record w _ _
  | .silent, w => hR.none w
  | .logging _, w => by
    simp only [Probe.post]
    split
    · exact hR.forward s e w
    · exact hR.none w
  | .multi probes, w => postEach probes w

theorem postEach : (ps : List Probe) → (w : World η) → R w (Probe.postEach ps s e w)
  | [], w => hR.none w
  | p :: ps, w => hR.andThen (post p w) (postEach ps _)

end

mutual

theorem closed : (p : Probe) → (w : World η) → R w (p.closed s w)
  | .recording _, w => hR.record w _ _
  | .silent, w => hR.none w
  | .logging _, w => hR.emit w _ _ _
  | .multi probes, w => closedEach probes w

theorem closedEach : (ps : List Probe) → (w : World η) → R w (Probe.closedEach ps s w)
  | [], w => hR.none w
  | p :: ps, w => hR.andThen (closed p w) (closedEach ps _)

end

theorem foldl_post (p : Probe) (es : List TraceEvent) (w : World η) :
    R w (es.foldl (fun w e => p.post s e w) w) := by
  induction es generalizing w with
  | nil => exact hR.none w
  | cons e es ih => exact hR.andThen (hR.post s e p w) (ih _)

mutual

theorem postAll (es : List TraceEvent) : (p : Probe) → (w : World η) → R w (p.postAll s es w)
  | .recording slot, w => hR.foldl_post s (.recording slot) es w
  | .silent, w => hR.none w
  | .logging least, w => hR.foldl_post s (.logging least) es w
  | .multi probes, w => postAllEach es probes w

theorem postAllEach (es : List TraceEvent) :
    (ps : List Probe) → (w : World η) → R w (Probe.postAllEach ps s es w)
  | [], w => hR.none w
  | p :: ps, w => hR.andThen (postAll es p w) (postAllEach es ps _)

end

end Unprobed

theorem tracedTo_unprobed : Unprobed (TracedTo : World η → World η → Prop) where
  none := .refl
  andThen := .trans
  emit := emit_traced
  record := updateRecording_traced
  render _ _ := ⟨rfl, rfl, rfl⟩

theorem closed_traced (s : Span) (p : Probe) (w : World η) : w.TracedTo (p.closed s w) :=
  tracedTo_unprobed.closed s p w

theorem createSpan_traced (w : World η) (id : String) (path : List String)
    (parent : Option SpanId) (probe : Probe) :
    w.TracedTo (w.createSpan id path parent probe).2 := by
  have h (s : Span) :
      w.TracedTo { w with trace := { w.trace with spans := w.trace.spans ++ [s] } } :=
    ⟨rfl, rfl, rfl⟩
  exact (h _).trans (tracedTo_unprobed.created _ probe _)

theorem createChild_traced (w : World η) (parent : SpanId) (id : String) :
    w.TracedTo (w.createChild parent id).2 := createSpan_traced w _ _ _ _

theorem post_traced (w : World η) (i : SpanId) (e : TraceEvent) : w.TracedTo (w.post i e) := by
  simp only [post]
  split
  · exact emit_traced w _ _ _
  · exact tracedTo_unprobed.post _ e _ w

theorem postAll_traced (w : World η) (i : SpanId) (es : List TraceEvent) :
    w.TracedTo (w.postAll i es) := by
  simp only [postAll]
  split
  · exact .refl w
  split
  · exact emit_traced w _ _ _
  · exact tracedTo_unprobed.postAll _ es _ w

theorem say_traced (w : World η) (i : SpanId) (level : TraceLevel) (component text : String)
    (error : Option String) : w.TracedTo (w.say i level component text error) :=
  (newMessage_traced w text).trans (post_traced _ i _)

theorem setStatus_traced (w : World η) (i : SpanId) (status : SpanStatus) :
    w.TracedTo (w.setStatus i status).2 := by
  unfold setStatus
  split
  · exact .refl w
  · exact updateSpan_traced w i _

theorem close_traced (w : World η) (i : SpanId) : w.TracedTo (w.close i) := by
  simp only [close]
  split
  · exact .refl w
  · exact (updateSpan_traced w i _).trans (closed_traced _ _ _)

theorem finishSpan_traced (i : SpanId) (failed : Bool) (w : World η) :
    w.TracedTo (finishSpan i failed w) := by
  unfold finishSpan
  refine TracedTo.trans ?_ (close_traced _ i)
  split
  · exact setStatus_traced w i _
  · exact .refl w

end ClientRuntime.World

namespace ClientRuntime.Fiber

variable {η α κ : Type} {R : World η → World η → Prop} {i : SpanId} {failed : α → Bool}
  {body : Fiber (World η) α}

/-- A span around a fiber leaves its run as it is, and then traces. -/
theorem Run.spanClosing_returned {w w' : World η} {a : α}
    (h : Run R (spanClosing i failed body) w (.returned a) w') :
    ∃ w₁, Run R body w (.returned a) w₁ ∧ w₁.TracedTo w' := by
  obtain ⟨_, h, rfl⟩ := run_guarded.mp h
  obtain ⟨_, w₁, hbody, h⟩ := run_bind_returned.mp h
  simp only [run_modify_bind, run_pure, Ending.returned.injEq] at h
  obtain ⟨rfl, rfl⟩ := h
  exact ⟨w₁, hbody, World.finishSpan_traced i _ w₁⟩

theorem Yields.spanClosing {G : Growth (World η) κ} (hG : ∀ w w', w.TracedTo w' → G.grew [] w w')
    {P : List κ → α → Prop} (h : body.Yields G R P) :
    (ClientRuntime.spanClosing i failed body).Yields G R P := by
  intro w a w' hrun
  obtain ⟨w₁, hbody, htraced⟩ := hrun.spanClosing_returned
  obtain ⟨k, hk, hP⟩ := h _ _ _ hbody
  exact ⟨k ++ [], G.append hk (hG _ _ htraced), by rwa [List.append_nil]⟩

end ClientRuntime.Fiber
