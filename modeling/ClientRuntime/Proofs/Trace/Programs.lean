import Mathlib
import ClientRuntime.Proofs.Fiber.Polls
import ClientRuntime.Proofs.Trace.Streams
import ClientRuntime.Simulation.Spans

/-!
Programs of span operations come down to calls of tracing. Guards, scopes and whatever runs inside
of them, finished, failed, unwound or given up, make no other changes to spans.
-/

namespace ClientRuntime

namespace World

variable {η : Type} {slot : Nat} {w w₁ w' : World η} {i : SpanId}

/-- One world comes from another by calls of tracing. -/
def Leads (slot : Nat) (w w' : World η) : Prop := ∃ k, Performs slot w k w'

namespace Leads

theorem refl (w : World η) : Leads slot w w := ⟨[], .refl w⟩

theorem trans (h : Leads slot w w₁) (h' : Leads slot w₁ w') : Leads slot w w' := by
  obtain ⟨k, hk⟩ := h
  obtain ⟨k', hk'⟩ := h'
  exact ⟨k ++ k', hk.trans hk'⟩

theorem step (s : SpanStep η) (hs : s.Ready slot w) : Leads slot w (s.perform w) :=
  ⟨_, (Performs.refl w).step s hs⟩

theorem aside (hspans : w'.trace.spans = w.trace.spans)
    (hrecordings : w'.trace.recordings = w.trace.recordings) : Leads slot w w' :=
  step (.aside fun _ => w') ⟨hspans, hrecordings⟩

theorem length_le (h : Leads slot w w') : w.trace.spans.length ≤ w'.trace.spans.length := by
  obtain ⟨k, hk⟩ := h
  exact hk.traces.amounts.length

/-- A handle stays good. -/
theorem lt (h : Leads slot w w') (hi : i < w.trace.spans.length) : i < w'.trace.spans.length :=
  Nat.lt_of_lt_of_le hi h.length_le

theorem say (hi : i < w.trace.spans.length) (level : TraceLevel) (component text : String)
    (error : Option String) : Leads slot w (w.say i level component text error) := by
  have hwritten : Leads slot w (w.newMessage text).2 := aside rfl rfl
  exact hwritten.trans (step (.post i _) (hwritten.lt hi))

theorem setStatus (hi : i < w.trace.spans.length) (status : SpanStatus) :
    Leads slot w (w.setStatus i status).2 := step (.setStatus i status) hi

theorem close (hi : i < w.trace.spans.length) : Leads slot w (w.close i) := step (.close i) hi

theorem finishSpan (hi : i < w.trace.spans.length) (failed : Bool) :
    Leads slot w (w.finishSpan i failed) := by
  unfold World.finishSpan
  split
  · have hmarked : Leads slot w (w.setStatus i .error).2 := setStatus hi .error
    exact hmarked.trans (close (hmarked.lt hi))
  · exact close hi

theorem dropGuard (hi : i < w.trace.spans.length) : Leads slot w (w.dropGuard i) := by
  unfold World.dropGuard
  split
  · exact refl w
  · have hsaid : Leads slot w _ :=
      say hi .warning guardComponent "Span scope cancelled before completion" none
    exact hsaid.trans (close (hsaid.lt hi))

theorem unwindGuard (hi : i < w.trace.spans.length) : Leads slot w (w.unwindGuard i) := by
  unfold World.unwindGuard
  split
  · exact refl w
  · have hmarked : Leads slot w (w.setStatus i .error).2 := setStatus hi .error
    have hsaid := hmarked.trans (say (hmarked.lt hi) .error guardComponent
      "Span scope panicked" none)
    exact hsaid.trans (close (hsaid.lt hi))

theorem closeSpan {α : Type} (hi : i < w.trace.spans.length) (failed : α → Bool)
    (e : Ending α) : Leads slot w (e.closeSpan i failed w) := by
  cases e with
  | returned a => exact finishSpan hi (failed a)
  | cut c =>
    cases c with
    | unwound text => exact unwindGuard hi
    | dropped => exact dropGuard hi

end Leads

theorem createSpan_lt (w : World η) (id : String) (path : List String) (parent : Option SpanId)
    (probe : Probe) :
    (w.createSpan id path parent probe).1 <
      (w.createSpan id path parent probe).2.trace.spans.length := by
  rw [createSpan_spans, List.length_append]
  exact Nat.lt_succ_self _

end World

namespace Simulation

namespace Names

variable {α : Type} {names : Names α} {name : String} {a : α} {P : α → Prop}

/-- Whatever is kept under a name is as `P` says. -/
def All (P : α → Prop) (names : Names α) : Prop := ∀ p ∈ names, P p.2

theorem All.of_at? (h : names.All P) (ha : names.at? name = some a) : P a := by
  obtain ⟨p, hp, rfl⟩ := Option.map_eq_some_iff.mp ha
  exact h p (List.mem_of_find?_eq_some hp)

theorem All.remove (h : names.All P) (name : String) : (names.remove name).All P :=
  fun p hp => h p (List.mem_filter.mp hp).1

theorem All.put (h : names.All P) (name : String) (ha : P a) : (names.put name a).All P := by
  intro p hp
  rcases List.mem_append.mp hp with hp | hp
  · exact h.remove name p hp
  · rwa [List.mem_singleton.mp hp]

theorem All.sorted (h : names.All P) : names.sorted.All P :=
  fun p hp => h p (List.mem_mergeSort.mp hp)

theorem All.imp {Q : α → Prop} (h : names.All P) (hPQ : ∀ a, P a → Q a) : names.All Q :=
  fun p hp => hPQ p.2 (h p hp)

end Names

mutual

/-- Roots that a program makes report to the recording. -/
def SpanCommand.ReportsTo (slot : Nat) : SpanCommand → Prop
  | .root _ _ probe => probe = .recording slot
  | .tracer _ probe _ => probe = .recording slot
  | .scope _ _ _ body _ => SpanCommand.AllReportTo slot body
  | _ => True

def SpanCommand.AllReportTo (slot : Nat) : List SpanCommand → Prop
  | [] => True
  | c :: cs => c.ReportsTo slot ∧ SpanCommand.AllReportTo slot cs

end

namespace SpanSession

open World (Leads)

/-- A tracer whose spans report to the recording. -/
def Traced (slot : Nat) (w : State) : Tracer → Prop
  | .root probe _ => probe = .recording slot
  | .nested parent _ => parent < w.trace.spans.length

/-- All handles that the session keeps are good. -/
structure Sound (slot : Nat) (w : State) : Prop where
  spans : w.host.spans.All (· < w.trace.spans.length)
  guards : w.host.guards.All (· < w.trace.spans.length)
  tracers : w.host.tracers.All (Traced slot w)

/-- What a command leaves behind. -/
structure Goes (slot : Nat) (w w' : State) : Prop where
  leads : Leads slot w w'
  sound : Sound slot w'

variable {slot : Nat} {w w₁ w' : State} {i : SpanId}

theorem Traced.later {t : Tracer} (h : Traced slot w t) (hw : Leads slot w w') :
    Traced slot w' t := by
  cases t with
  | root probe client => exact h
  | nested parent label => exact hw.lt h

theorem Sound.later (h : Sound slot w) (hw : Leads slot w w') (hhost : w'.host = w.host) :
    Sound slot w' := by
  constructor
  · rw [hhost]
    exact h.spans.imp fun _ hi => hw.lt hi
  · rw [hhost]
    exact h.guards.imp fun _ hi => hw.lt hi
  · rw [hhost]
    exact h.tracers.imp fun _ ht => ht.later hw

theorem Goes.refl (h : Sound slot w) : Goes slot w w := ⟨.refl w, h⟩

theorem Goes.trans (h : Goes slot w w₁) (h' : Goes slot w₁ w') : Goes slot w w' :=
  ⟨h.leads.trans h'.leads, h'.sound⟩

theorem Goes.of_leads (h : Sound slot w) (hw : Leads slot w w') (hhost : w'.host = w.host) :
    Goes slot w w' := ⟨hw, h.later hw hhost⟩

/-- The session changes, and the trace does not. -/
theorem Goes.mapHost (h : Goes slot w w₁) {f : SpanSession → SpanSession}
    (hspans : (f w₁.host).spans.All (· < w₁.trace.spans.length))
    (hguards : (f w₁.host).guards.All (· < w₁.trace.spans.length))
    (htracers : (f w₁.host).tracers.All (Traced slot w₁)) : Goes slot w (w₁.mapHost f) where
  leads := h.leads.trans (.aside rfl rfl)
  sound := ⟨hspans, hguards, htracers⟩

theorem Goes.nameSpan (h : Goes slot w w₁) (hi : i < w₁.trace.spans.length) (name : String) :
    Goes slot w (nameSpan name i w₁) :=
  h.mapHost (h.sound.spans.put name hi) h.sound.guards h.sound.tracers

theorem Goes.putTracer (h : Goes slot w w₁) {t : Tracer} (ht : Traced slot w₁ t) (name : String) :
    Goes slot w (w₁.mapHost fun h => { h with tracers := h.tracers.put name t }) :=
  h.mapHost h.sound.spans h.sound.guards (h.sound.tracers.put name ht)

theorem Goes.putGuard (h : Goes slot w w₁) (hi : i < w₁.trace.spans.length) (name : String) :
    Goes slot w (w₁.mapHost fun h => { h with guards := h.guards.put name i }) :=
  h.mapHost h.sound.spans (h.sound.guards.put name hi) h.sound.tracers

theorem goes_withSpanNamed (h : Sound slot w) (name : String) {f : SpanId → Json × State}
    (hf : ∀ i < w.trace.spans.length, Goes slot w (f i).2) :
    Goes slot w (withSpanNamed w name f).2 := by
  unfold withSpanNamed
  split
  · next i hi => exact hf i (h.spans.of_at? hi)
  · exact .refl h

theorem goes_takeGuard (h : Sound slot w) (name : String) {letGo : SpanId → State → State}
    (hf : ∀ i w', Sound slot w' → i < w'.trace.spans.length → Goes slot w' (letGo i w')) :
    Goes slot w (takeGuard w name letGo).2 := by
  unfold takeGuard
  split
  · next i hi =>
    have hremoved := (Goes.refl h).mapHost
      (f := fun h => { h with guards := h.guards.remove name })
      h.spans (h.guards.remove name) h.tracers
    exact hremoved.trans (hf i _ hremoved.sound (h.guards.of_at? hi))
  · exact .refl h

theorem goes_makeMessage (h : Sound slot w) (text : String) :
    Goes slot w (makeMessage w text).2 := by
  have hwritten : Goes slot w (w.newMessage text).2 := .of_leads h (.aside rfl rfl) rfl
  unfold makeMessage
  dsimp only
  apply hwritten.mapHost
  · exact hwritten.sound.spans
  · exact hwritten.sound.guards
  · exact hwritten.sound.tracers

theorem goes_makeEvent (h : Sound slot w) (plan : EventPlan) :
    Goes slot w (makeEvent w plan).2 := by
  unfold makeEvent
  dsimp only
  split
  · exact goes_makeMessage h _
  · exact .refl h

theorem goes_makeEvents (h : Sound slot w) (plans : List EventPlan) :
    Goes slot w (makeEvents w plans).2 := by
  induction plans generalizing w with
  | nil => exact .refl h
  | cons plan plans ih =>
    have hfirst := goes_makeEvent h plan
    exact hfirst.trans (ih hfirst.sound)

theorem goes_render (h : Sound slot w) (m : Message) : Goes slot w (w.render m).2 :=
  .of_leads h (.aside rfl rfl) rfl

theorem goes_renderEvents (h : Sound slot w) (es : List TraceEvent) :
    Goes slot w (renderEvents w es).2 := by
  induction es generalizing w with
  | nil => exact .refl h
  | cons e es ih =>
    unfold renderEvents
    split
    · next content _ _ =>
      have hfirst := goes_render h content
      exact hfirst.trans (ih hfirst.sound)
    · exact ih h

theorem goes_createRoot (h : Sound slot w) (id : String) :
    Goes slot w (w.createRoot id (.recording slot)).2 :=
  .of_leads h (.step (.root id _) rfl) (World.createSpan_traced ..).host

theorem goes_createChild (h : Sound slot w) (hi : i < w.trace.spans.length) (id : String) :
    Goes slot w (w.createChild i id).2 :=
  .of_leads h (.step (.child i id) hi) (World.createChild_traced w i id).host

theorem goes_tracer (h : Sound slot w) {t : Tracer} (ht : Traced slot w t) (id : String) :
    Goes slot w (t.createSpan id w).2 ∧
      (t.createSpan id w).1 < (t.createSpan id w).2.trace.spans.length := by
  cases t with
  | root probe client =>
    obtain rfl : probe = .recording slot := ht
    exact ⟨goes_createRoot h _, World.createSpan_lt ..⟩
  | nested parent label => exact ⟨goes_createChild h ht _, World.createSpan_lt ..⟩

theorem goes_chainFrom (h : Sound slot w) (hi : i < w.trace.spans.length) (id : String)
    (depth n : Nat) : Goes slot w (chainFrom i id depth n w).2 ∧
      (chainFrom i id depth n w).1 < (chainFrom i id depth n w).2.trace.spans.length := by
  induction depth generalizing i n w with
  | zero => exact ⟨.refl h, hi⟩
  | succ depth ih =>
    have hfirst := goes_createChild h hi (id ++ toString n)
    have hrest := ih hfirst.sound (World.createSpan_lt ..) (n + 1)
    exact ⟨hfirst.trans hrest.1, hrest.2⟩

/-- How the body of a scope ends. -/
def ending (ending : ScopeEnd) : Ending (Except Unit Unit) :=
  match ending with
  | .ok => .returned (.ok ())
  | .error => .returned (.error ())
  | .panic => .cut (.unwound "scope failed")
  | .hang => .cut .dropped

/-- A scope runs its body in one poll and then closes its span, whichever way it ends. -/
theorem runScope_spanScope (i : SpanId) (f : State → State) (e : ScopeEnd) (w : State) :
    (runScope (spanScope i (do Fiber.modify f; endScope e)) w).2 =
      (ending e).closeSpan i (fun result => !result.isOk) (f w) := by
  cases e <;> rfl

theorem runScope_withChildSpan (parent : SpanId) (id : String)
    (body : SpanId → Fiber State (Except Unit Unit)) (w : State) :
    runScope (withChildSpan parent id body) w =
      runScope (spanScope (w.createChild parent id).1 (body (w.createChild parent id).1))
        (w.createChild parent id).2 := by
  unfold runScope withChildSpan
  rw [Paused.poll_start_modifyGet_bind]

theorem runScope_withSpan (t : Tracer) (id : String)
    (body : SpanId → Fiber State (Except Unit Unit)) (w : State) :
    runScope (withSpan t id body) w =
      runScope (spanScope (t.createSpan id w).1 (body (t.createSpan id w).1))
        (t.createSpan id w).2 := by
  unfold runScope withSpan
  rw [Paused.poll_start_modifyGet_bind]

theorem goes_closeSpan {α : Type} (h : Sound slot w) (hi : i < w.trace.spans.length)
    (failed : α → Bool) (e : Ending α) : Goes slot w (e.closeSpan i failed w) :=
  .of_leads h (.closeSpan hi failed e) (World.closeSpan_traced i failed e w).host

theorem goes_dropGuard (h : Sound slot w) (hi : i < w.trace.spans.length) :
    Goes slot w (w.dropGuard i) :=
  goes_closeSpan h hi (fun _ : Unit => false) (.cut .dropped)

theorem goes_post (h : Sound slot w) (hi : i < w.trace.spans.length) (e : TraceEvent) :
    Goes slot w (w.post i e) :=
  .of_leads h (.step (.post i e) hi) (World.post_traced w i e).host

theorem goes_postAll (h : Sound slot w) (hi : i < w.trace.spans.length) (es : List TraceEvent) :
    Goes slot w (w.postAll i es) :=
  .of_leads h (.step (.postAll i es) hi) (World.postAll_traced w i es).host

theorem goes_scope (h : Goes slot w w₁) (hi : i < w₁.trace.spans.length) {f : State → State}
    (hf : Goes slot w₁ (f w₁)) (e : ScopeEnd) :
    Goes slot w (runScope (spanScope i (do Fiber.modify f; endScope e)) w₁).2 := by
  rw [runScope_spanScope]
  have hbody := h.trans hf
  exact hbody.trans (goes_closeSpan hbody.sound (hf.leads.lt hi) _ _)

mutual

theorem goes_run : (c : SpanCommand) → {w : State} → c.ReportsTo slot → Sound slot w →
    Goes slot w (run c w).2
  | .clock c, w, _, h => by
    cases c <;> exact .of_leads h (.aside rfl rfl) rfl
  | .root id name probe, w, hc, h => by
    obtain rfl : probe = .recording slot := hc
    exact (goes_createRoot h id).nameSpan (World.createSpan_lt ..) name
  | .tracer name probe client, w, hc, h => by
    have ht : Traced slot w (.root probe client) := hc
    exact (Goes.refl h).putTracer ht name
  | .nested name span label, w, _, h => by
    apply goes_withSpanNamed h
    intro i hi
    have ht : Traced slot w (.nested i label) := hi
    exact (Goes.refl h).putTracer ht name
  | .rootSpan tracer id name, w, _, h => by
    simp only [run]
    split
    · next t ht =>
      have hcreated := goes_tracer h (h.tracers.of_at? ht) id
      exact hcreated.1.nameSpan hcreated.2 name
    · exact .refl h
  | .child parent id name, w, _, h => by
    apply goes_withSpanNamed h
    intro i hi
    exact (goes_createChild h hi id).nameSpan (World.createSpan_lt ..) name
  | .chain parent id name depth, w, _, h => by
    apply goes_withSpanNamed h
    intro i hi
    have hcreated := goes_chainFrom h hi id depth 0
    exact hcreated.1.nameSpan hcreated.2 name
  | .copy span name, w, _, h => by
    apply goes_withSpanNamed h
    intro i hi
    exact (Goes.refl h).nameSpan hi name
  | .info span, w, _, h => goes_withSpanNamed h span fun _ _ => .refl h
  | .setStatus span status, w, _, h => by
    apply goes_withSpanNamed h
    intro i hi
    exact .of_leads h (.setStatus hi status) (World.setStatus_traced ..).host
  | .close span, w, _, h => by
    apply goes_withSpanNamed h
    intro i hi
    exact .of_leads h (.close hi) (World.close_traced ..).host
  | .setAttribute span key value, w, _, h => by
    apply goes_withSpanNamed h
    intro i hi
    exact .of_leads h (.step (.setAttribute i key value) hi) rfl
  | .readAttribute span key, w, _, h => goes_withSpanNamed h span fun _ _ => .refl h
  | .say span level component text error, w, _, h => by
    apply goes_withSpanNamed h
    intro i hi
    have hmade := goes_makeMessage h text
    exact hmade.trans (goes_post hmade.sound (hmade.leads.lt hi) _)
  | .post span plan, w, _, h => by
    apply goes_withSpanNamed h
    intro i hi
    have hmade := goes_makeEvent h plan
    exact hmade.trans (goes_post hmade.sound (hmade.leads.lt hi) _)
  | .postAll span plans, w, _, h => by
    apply goes_withSpanNamed h
    intro i hi
    have hmade := goes_makeEvents h plans
    exact hmade.trans (goes_postAll hmade.sound (hmade.leads.lt hi) _)
  | .count span component metric n, w, _, h =>
    goes_withSpanNamed h span fun _ hi => goes_post h hi _
  | .timing span component metric d, w, _, h =>
    goes_withSpanNamed h span fun _ hi => goes_post h hi _
  | .guard span name, w, _, h => by
    apply goes_withSpanNamed h
    intro i hi
    have hput := (Goes.refl h).putGuard hi name
    dsimp only
    split
    · next j hj => exact hput.trans (goes_dropGuard hput.sound (h.guards.of_at? hj))
    · exact hput
  | .finish guard, w, _, h =>
    goes_takeGuard h guard fun i _ h hi => .of_leads h (.close hi) (World.close_traced ..).host
  | .drop guard, w, _, h =>
    goes_takeGuard h guard fun i _ h hi => goes_dropGuard h hi
  | .unwind guard, w, _, h =>
    goes_takeGuard h guard fun i _ h hi =>
      goes_closeSpan h hi (fun _ : Unit => false) (.cut (.unwound ""))
  | .scope origin id name body ending, w, hc, h => by
    have hbody {i : SpanId} {w' : State} (h' : Sound slot w') (hi : i < w'.trace.spans.length) :
        Goes slot w' ((runAll body (SpanSession.nameSpan name i w')).2.mapHost fun h =>
          { h with answers := (runAll body (SpanSession.nameSpan name i w')).1 }) := by
      have hnamed := (Goes.refl h').nameSpan hi name
      have hran := hnamed.trans (goes_runAll body hc hnamed.sound)
      exact hran.mapHost hran.sound.spans hran.sound.guards hran.sound.tracers
    cases origin with
    | child parent =>
      apply goes_withSpanNamed h
      intro p hp
      have hcreated := goes_createChild h hp id
      have hlt := World.createSpan_lt w id (w.span p).path (some p) (w.span p).probe
      simp only [finishScope, runScope_withChildSpan]
      exact goes_scope hcreated hlt (hbody hcreated.sound hlt) ending
    | tracer tracer =>
      simp only [run]
      split
      · next t ht =>
        have hcreated := goes_tracer h (h.tracers.of_at? ht) id
        simp only [finishScope, runScope_withSpan]
        exact goes_scope hcreated.1 hcreated.2 (hbody hcreated.1.sound hcreated.2) ending
      · exact .refl h
  | .describeTracer name, w, _, h => by
    simp only [run]
    split <;> exact .refl h
  | .renderTwice text, w, _, h => by
    have hmade := goes_makeMessage h text
    have hfirst := goes_render hmade.sound (makeMessage w text).1
    have hsecond := goes_render hfirst.sound (makeMessage w text).1
    exact (hmade.trans hfirst).trans hsecond
  | .messages slot component, w, _, h => goes_renderEvents h _
  | .metrics slot, w, _, h => .refl h

theorem goes_runAll : (cs : List SpanCommand) → {w : State} →
    SpanCommand.AllReportTo slot cs → Sound slot w → Goes slot w (runAll cs w).2
  | [], _, _, h => .refl h
  | c :: cs, _, hcs, h => by
    have hfirst := goes_run c hcs.1 h
    exact hfirst.trans (goes_runAll cs hcs.2 hfirst.sound)

end

theorem goes_foldl_dropGuard (h : Sound slot w) {guards : Names SpanId}
    (hguards : guards.All (· < w.trace.spans.length)) :
    Goes slot w (guards.foldl (fun w g => World.dropGuard g.2 w) w) := by
  induction guards generalizing w with
  | nil => exact .refl h
  | cons g guards ih =>
    have hdropped := goes_dropGuard h (hguards g (List.mem_cons_self ..))
    have hrest := ih hdropped.sound fun g' hg' =>
      hdropped.leads.lt (hguards g' (List.mem_cons_of_mem _ hg'))
    exact hdropped.trans hrest

theorem goes_dropGuards (h : Sound slot w) : Goes slot w (dropGuards w) := by
  have hnone : Names.All (· < w.trace.spans.length) ([] : Names SpanId) := nofun
  have hemptied := (Goes.refl h).mapHost (f := fun h => { h with guards := [] })
    h.spans hnone h.tracers
  exact hemptied.trans (goes_foldl_dropGuard hemptied.sound h.guards.sorted)

theorem sound_empty (h : w.host = .empty) : Sound slot w := by
  constructor <;> rw [h] <;> exact nofun

end SpanSession

open SpanSession in
/-- Whoever calls tracing and in whatever order, all spans that report to a recording change in an
orderly way, and the recording shows just that. So it does for every program: whatever its guards
and scopes come to, they are such calls. -/
theorem streams_orderly (slot n : Nat) (hslot : slot < n) :
    (∀ {η : Type} (v w : World η) k, v.trace = .withRecordings n → World.Performs slot v k w →
      Orderly k ∧ World.Recorded slot k w) ∧
      ∀ (program : List SpanCommand) (v : State), v.trace = .withRecordings n →
        v.host = .empty → SpanCommand.AllReportTo slot program →
        ∃ k, World.Performs slot v k (dropGuards (runAll program v).2) ∧ Orderly k ∧
          World.Recorded slot k (dropGuards (runAll program v).2) := by
  have hlaw {η : Type} (v w : World η) (k : List SpanChange) (hv : v.trace = .withRecordings n)
      (h : World.Performs slot v k w) : Orderly k ∧ World.Recorded slot k w := by
    have hspans : v.trace.spans = [] := by rw [hv]; rfl
    exact ⟨h.orderly hspans, h.recorded hv hslot⟩
  refine ⟨hlaw, ?_⟩
  intro program v hv hhost hprogram
  have hran := goes_runAll program hprogram (sound_empty hhost)
  obtain ⟨k, hk⟩ := (hran.trans (goes_dropGuards hran.sound)).leads
  exact ⟨k, hk, hlaw v _ k hv hk⟩

open SpanSession in
/-- A request whose first part fails and whose second part unwinds, with a guard that is left
behind and handles that are used once more after their span has closed. -/
def smallProgram : List SpanCommand :=
  [.root "request" "r" (.recording 0), .guard "r" "g",
    .scope (.child "r") "first" "a"
      [.copy "a" "b", .say "b" .info "Worker" "begun" none,
        .postAll "a" [⟨.info, "Worker", none, .inr ("bytes", .count 3)⟩,
          ⟨.info, "Worker", none, .inr ("bytes", .count 4)⟩]] .error,
    .setStatus "b" .ok, .close "b", .count "b" "Worker" "late" 1,
    .scope (.child "r") "second" "c" [.scope (.child "c") "inner" "d" [.close "d"] .hang] .panic,
    .setStatus "r" .ok, .setStatus "r" .error]

open SpanSession in
theorem streams_orderly_smallProgram :
    let w := dropGuards (runAll smallProgram
      { World.start .epoch .epoch SpanSession.empty with trace := .withRecordings 1 }).2
    (w.trace.recording 0).events.toList.map (·.span) =
        ["request/first", "request/first", "request/first", "request/second", "request"] ∧
      (w.trace.recording 0).closed.toList =
        [("request/first", .error), ("request/second/inner", .unset),
          ("request/second", .error), ("request", .ok)] ∧
      ∃ k, Orderly k ∧ World.Recorded 0 k w := by
  have hreports : SpanCommand.AllReportTo 0 smallProgram := by
    simp [smallProgram, SpanCommand.AllReportTo, SpanCommand.ReportsTo]
  obtain ⟨k, -, hk⟩ := (streams_orderly 0 1 Nat.one_pos).2 smallProgram
    { World.start .epoch .epoch SpanSession.empty with trace := .withRecordings 1 } rfl rfl hreports
  exact ⟨by cbv, by cbv, k, hk⟩

end Simulation

end ClientRuntime
