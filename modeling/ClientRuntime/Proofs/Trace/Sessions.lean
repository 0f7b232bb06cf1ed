import Mathlib.Data.Option.Basic
import ClientRuntime.Proofs.Trace.Programs
import ClientRuntime.Proofs.Trace.Rewired

/-!
Programs whose roots report to other probes. Command by command they make the same calls, so what is
told in one run is told in the other, and a batch may as well be posted event by event.
-/

namespace ClientRuntime

inductive Tracer.Rewired (Q : Probe → Probe → Prop) : Tracer → Tracer → Prop where
  | root {probe probe' : Probe} (h : Q probe probe') (client : Option String) :
      Rewired Q (.root probe client) (.root probe' client)
  | nested (parent : SpanId) (label : Option String) :
      Rewired Q (.nested parent label) (.nested parent label)

namespace Simulation

theorem Names.at?_put {α : Type} (names : Names α) (name name' : String) (a : α) :
    (names.put name a).at? name' = if name = name' then some a else names.at? name' := by
  unfold put at? remove
  rw [List.find?_append, List.find?_filter]
  by_cases h : name = name'
  · subst h
    have hnone : names.find? (fun _ => false) = none := List.find?_eq_none.mpr (by simp)
    simp [hnone]
  · have hsame : (fun p : String × α => decide (decide (p.1 ≠ name) = true ∧
        decide (p.1 = name') = true)) = fun p => decide (p.1 = name') := by
      funext p
      by_cases hp : p.1 = name' <;> simp [hp, Ne.symm h]
    rw [hsame]
    simp [h]

/-- A command that makes no root and has no commands inside. -/
def SpanCommand.Simple : SpanCommand → Prop
  | .root _ _ _ | .tracer _ _ _ | .scope _ _ _ _ _ => False
  | _ => True

/-- The same program with other probes for roots, some batches taken apart. -/
inductive SpanCommand.Rewired (Q : Probe → Probe → Prop) :
    List SpanCommand → List SpanCommand → Prop where
  | nil : Rewired Q [] []
  | root (id name : String) {probe probe' : Probe} (h : Q probe probe')
      {cs cs' : List SpanCommand} : Rewired Q cs cs' →
      Rewired Q (.root id name probe :: cs) (.root id name probe' :: cs')
  | tracer (name : String) {probe probe' : Probe} (h : Q probe probe') (client : Option String)
      {cs cs' : List SpanCommand} : Rewired Q cs cs' →
      Rewired Q (.tracer name probe client :: cs) (.tracer name probe' client :: cs')
  | scope (origin : SpanOrigin) (id name : String) (ending : ScopeEnd)
      {body body' cs cs' : List SpanCommand} : Rewired Q body body' → Rewired Q cs cs' →
      Rewired Q (.scope origin id name body ending :: cs)
        (.scope origin id name body' ending :: cs')
  | apart (span : String) (plans : List EventPlan) {cs cs' : List SpanCommand} : Rewired Q cs cs' →
      Rewired Q (.postAll span plans :: cs) (plans.map (.post span) ++ cs')
  | same (c : SpanCommand) (hc : c.Simple) {cs cs' : List SpanCommand} : Rewired Q cs cs' →
      Rewired Q (c :: cs) (c :: cs')

namespace SpanSession

variable {Q : Probe → Probe → Prop} {v w w₁ v' w' w₁' : State} {i : SpanId}

/-- Sessions with the same handles under the same names. -/
structure Rewired (Q : Probe → Probe → Prop) (w w' : State) : Prop
    extends World.Rewired Q w w' where
  named : w'.host.spans = w.host.spans
  guards : w'.host.guards = w.host.guards
  tracers : ∀ name,
    Option.Rel (Tracer.Rewired Q) (w.host.tracers.at? name) (w'.host.tracers.at? name)

/-- The sessions are as before. -/
theorem Rewired.ofWorld (h : Rewired Q w w') (hw : World.Rewired Q w₁ w₁')
    (hhost : w₁.host = w.host) (hhost' : w₁'.host = w'.host) : Rewired Q w₁ w₁' :=
  { hw with
    named := by rw [hhost, hhost']; exact h.named
    guards := by rw [hhost, hhost']; exact h.guards
    tracers := by rw [hhost, hhost']; exact h.tracers }

/-- Two runs of sessions in which the same is told. -/
structure Echoes (Q : Probe → Probe → Prop) (v w v' w' : State) : Prop where
  news : World.SameNews Q v w v' w'
  rewired : Rewired Q w w'

/-- Readers change nothing that later commands depend on. -/
structure Reads (w w₁ : State) : Prop where
  notes : ∃ k, w.Notes k w₁ ∧ TraceNote.allNews k = []
  reshapes : World.Reshapes id w w₁
  host : w₁.host = w.host

theorem Reads.refl (w : State) : Reads w w := ⟨⟨[], .refl w, rfl⟩, ⟨rfl, rfl, rfl⟩, rfl⟩

theorem Reads.render (h : Reads w w₁) (m : Message) : Reads w (w₁.render m).2 := by
  obtain ⟨⟨k, hk, hnews⟩, hsame, hhost⟩ := h
  refine ⟨⟨_, hk.read m, ?_⟩, hsame.trans ⟨rfl, rfl, rfl⟩, hhost⟩
  rw [TraceNote.allNews_append, hnews]
  rfl

theorem Reads.renderEvents (h : Reads w w₁) (es : List TraceEvent) :
    Reads w (renderEvents w₁ es).2 := by
  induction es generalizing w₁ with
  | nil => exact h
  | cons e es ih =>
    unfold SpanSession.renderEvents
    split
    · exact ih (h.render _)
    · exact ih h

namespace Echoes

theorem world (h : Echoes Q v w v' w') : World.Echoes Q v w v' w' := ⟨h.news, h.rewired.toRewired⟩

theorem refl (h : Rewired Q v v') : Echoes Q v v v' v' :=
  ⟨(World.Echoes.refl h.toRewired).news, h⟩

theorem ofWorld (h : Echoes Q v w v' w') (hw : World.Echoes Q v w₁ v' w₁')
    (hhost : w₁.host = w.host) (hhost' : w₁'.host = w'.host) : Echoes Q v w₁ v' w₁' :=
  ⟨hw.news, h.rewired.ofWorld hw.rewired hhost hhost'⟩

/-- The sessions change, and the trace does not. -/
theorem mapHost (h : Echoes Q v w v' w') {f g : SpanSession → SpanSession}
    (hnamed : (g w'.host).spans = (f w.host).spans)
    (hguards : (g w'.host).guards = (f w.host).guards)
    (htracers : ∀ name, Option.Rel (Tracer.Rewired Q) ((f w.host).tracers.at? name)
      ((g w'.host).tracers.at? name)) : Echoes Q v (w.mapHost f) v' (w'.mapHost g) where
  news := by
    have hnotes : w.Notes [] (w.mapHost f) := .aside rfl rfl rfl rfl
    have hnotes' : w'.Notes [] (w'.mapHost g) := .aside rfl rfl rfl rfl
    exact (h.world.goOn hnotes hnotes' .nil (h.rewired.mapHost f g)).news
  rewired := ⟨h.rewired.mapHost f g, hnamed, hguards, htracers⟩

theorem reads (h : Echoes Q v w v' w') (hw : Reads w w₁) (hw' : Reads w' w₁') :
    Echoes Q v w₁ v' w₁' := by
  obtain ⟨⟨k, hk, hnews⟩, hsame, hhost⟩ := hw
  obtain ⟨⟨k', hk', hnews'⟩, hsame', hhost'⟩ := hw'
  refine h.ofWorld (h.world.goOn hk hk' ?_ (h.rewired.same hsame hsame')) hhost hhost'
  rw [hnews, hnews']
  exact .nil

theorem nameSpan (h : Echoes Q v w v' w') (name : String) (i : SpanId) :
    Echoes Q v (nameSpan name i w) v' (nameSpan name i w') :=
  h.mapHost (by rw [h.rewired.named]) h.rewired.guards h.rewired.tracers

theorem putTracer (h : Echoes Q v w v' w') (name : String) {t t' : Tracer} (ht : t.Rewired Q t') :
    Echoes Q v (w.mapHost fun h => { h with tracers := h.tracers.put name t }) v'
      (w'.mapHost fun h => { h with tracers := h.tracers.put name t' }) := by
  refine h.mapHost h.rewired.named h.rewired.guards fun name' => ?_
  rw [Names.at?_put, Names.at?_put]
  split
  · exact .some ht
  · exact h.rewired.tracers name'

theorem step (h : Echoes Q v w v' w') {s s' : SpanStep SpanSession} (hs : s.Rewired Q s') :
    Echoes Q v (s.perform w) v' (s'.perform w') := by
  have hhost : (s.perform w).host = w.host ∧ (s'.perform w').host = w'.host := by
    cases hs with
    | root | child =>
      exact ⟨(World.createSpan_traced ..).host, (World.createSpan_traced ..).host⟩
    | setStatus => exact ⟨(World.setStatus_traced ..).host, (World.setStatus_traced ..).host⟩
    | setAttribute => exact ⟨rfl, rfl⟩
    | post => exact ⟨(World.post_traced ..).host, (World.post_traced ..).host⟩
    | postAll => exact ⟨(World.postAll_traced ..).host, (World.postAll_traced ..).host⟩
    | close => exact ⟨(World.close_traced ..).host, (World.close_traced ..).host⟩
  exact h.ofWorld (h.world.step hs) hhost.1 hhost.2

theorem closeSpan {α : Type} (h : Echoes Q v w v' w') (i : SpanId) (failed : α → Bool)
    (e : Ending α) : Echoes Q v (e.closeSpan i failed w) v' (e.closeSpan i failed w') :=
  h.ofWorld (h.world.closeSpan i failed e) (World.closeSpan_traced i failed e w).host
    (World.closeSpan_traced i failed e w').host

theorem dropGuard (h : Echoes Q v w v' w') (i : SpanId) :
    Echoes Q v (w.dropGuard i) v' (w'.dropGuard i) :=
  h.closeSpan i (fun _ : Unit => false) (.cut .dropped)

/-- The next span has the same handle in both. -/
theorem next (h : Echoes Q v w v' w') : w'.trace.spans.length = w.trace.spans.length :=
  h.rewired.length

theorem makeMessage (h : Echoes Q v w v' w') (text : String) :
    (makeMessage w' text).1 = (makeMessage w text).1 ∧
      Echoes Q v (makeMessage w text).2 v' (makeMessage w' text).2 := by
  have hwritten := h.ofWorld (h.world.newMessage text) rfl rfl
  constructor
  · simp [SpanSession.makeMessage, World.newMessage, h.rewired.messages]
  · unfold SpanSession.makeMessage
    dsimp only
    apply hwritten.mapHost
    · exact h.rewired.named
    · exact h.rewired.guards
    · exact h.rewired.tracers

theorem makeEvent (h : Echoes Q v w v' w') (plan : EventPlan) :
    (makeEvent w' plan).1 = (makeEvent w plan).1 ∧
      Echoes Q v (makeEvent w plan).2 v' (makeEvent w' plan).2 := by
  unfold SpanSession.makeEvent
  rw [h.rewired.clock]
  cases plan.body with
  | inl message =>
    obtain ⟨hmessage, hmade⟩ := h.makeMessage message.1
    exact ⟨by simp [hmessage], hmade⟩
  | inr metric => exact ⟨rfl, h⟩

theorem makeEvents (h : Echoes Q v w v' w') (plans : List EventPlan) :
    (makeEvents w' plans).1 = (makeEvents w plans).1 ∧
      Echoes Q v (makeEvents w plans).2 v' (makeEvents w' plans).2 := by
  induction plans generalizing w w' with
  | nil => exact ⟨rfl, h⟩
  | cons plan plans ih =>
    obtain ⟨hevent, hmade⟩ := h.makeEvent plan
    obtain ⟨hevents, hall⟩ := ih hmade
    exact ⟨by simp [SpanSession.makeEvents, hevent, hevents], hall⟩

theorem createChild (h : Echoes Q v w v' w') (i : SpanId) (id : String) :
    (w'.createChild i id).1 = (w.createChild i id).1 ∧
      Echoes Q v (w.createChild i id).2 v' (w'.createChild i id).2 :=
  ⟨h.next, h.step (.child i id)⟩

theorem chainFrom (h : Echoes Q v w v' w') (i : SpanId) (id : String) (depth n : Nat) :
    (chainFrom i id depth n w').1 = (chainFrom i id depth n w).1 ∧
      Echoes Q v (chainFrom i id depth n w).2 v' (chainFrom i id depth n w').2 := by
  induction depth generalizing i n w w' with
  | zero => exact ⟨rfl, h⟩
  | succ depth ih =>
    obtain ⟨hspan, hcreated⟩ := h.createChild i (id ++ toString n)
    simp only [SpanSession.chainFrom]
    rw [hspan]
    exact ih hcreated _ _

theorem createSpan (h : Echoes Q v w v' w') {t t' : Tracer} (ht : t.Rewired Q t') (id : String) :
    (t'.createSpan id w').1 = (t.createSpan id w).1 ∧
      Echoes Q v (t.createSpan id w).2 v' (t'.createSpan id w').2 := by
  cases ht with
  | root hprobe client => exact ⟨h.next, h.step (.root _ hprobe)⟩
  | nested parent label => exact h.createChild parent _

theorem withSpanNamed (h : Echoes Q v w v' w') (name : String) {f f' : SpanId → Json × State}
    (hf : ∀ i, Echoes Q v (f i).2 v' (f' i).2) :
    Echoes Q v (withSpanNamed w name f).2 v' (withSpanNamed w' name f').2 := by
  unfold SpanSession.withSpanNamed
  rw [h.rewired.named]
  split
  · exact hf _
  · exact h

theorem takeGuard (h : Echoes Q v w v' w') (name : String) {letGo : SpanId → State → State}
    (hf : ∀ i {w w'}, Echoes Q v w v' w' → Echoes Q v (letGo i w) v' (letGo i w')) :
    Echoes Q v (takeGuard w name letGo).2 v' (takeGuard w' name letGo).2 := by
  unfold SpanSession.takeGuard
  rw [h.rewired.guards]
  split
  · exact hf _ (h.mapHost h.rewired.named (by rw [h.rewired.guards]) h.rewired.tracers)
  · exact h

/-- A name is known as a tracer in both, or in neither. -/
theorem tracer (h : Echoes Q v w v' w') (name : String) {f f' : Tracer → Json × State}
    (hf : ∀ {t t'}, t.Rewired Q t' → Echoes Q v (f t).2 v' (f' t').2) :
    Echoes Q v (match w.host.tracers.at? name with | some t => f t | none => (unknown, w)).2 v'
      (match w'.host.tracers.at? name with | some t => f' t | none => (unknown, w')).2 := by
  have htracer := h.rewired.tracers name
  generalize w.host.tracers.at? name = t at htracer
  generalize w'.host.tracers.at? name = t' at htracer
  cases htracer with
  | some ht => exact hf ht
  | none => exact h

/-- Commands that two such programs have in common. -/
theorem run {c : SpanCommand} (hc : c.Simple) (h : Echoes Q v w v' w') :
    Echoes Q v (run c w).2 v' (run c w').2 := by
  cases c with
  | root | tracer | scope => exact hc.elim
  | clock c =>
    have hw : World.Echoes Q v (c.run w).2 v' (c.run w').2 := by
      cases c <;>
        exact h.world.goOn (.aside rfl rfl rfl rfl) (.aside rfl rfl rfl rfl) .nil
          ⟨by simp [ClockCommand.run, World.advance, World.moveTo, h.rewired.clock],
            h.rewired.messages, h.rewired.length, h.rewired.spans⟩
    exact h.ofWorld hw (by cases c <;> rfl) (by cases c <;> rfl)
  | nested name span label =>
    exact h.withSpanNamed span fun i => h.putTracer name (.nested i label)
  | rootSpan tracer id name =>
    refine h.tracer tracer fun ht => ?_
    obtain ⟨hspan, hcreated⟩ := h.createSpan ht id
    dsimp only
    rw [hspan]
    exact hcreated.nameSpan name _
  | child parent id name =>
    refine h.withSpanNamed parent fun p => ?_
    obtain ⟨hspan, hcreated⟩ := h.createChild p id
    dsimp only
    rw [hspan]
    exact hcreated.nameSpan name _
  | chain parent id name depth =>
    refine h.withSpanNamed parent fun p => ?_
    obtain ⟨hspan, hcreated⟩ := h.chainFrom p id depth 0
    dsimp only
    rw [hspan]
    exact hcreated.nameSpan name _
  | copy span name => exact h.withSpanNamed span fun i => h.nameSpan name i
  | info span => exact h.withSpanNamed span fun _ => h
  | setStatus span status => exact h.withSpanNamed span fun i => h.step (.setStatus i status)
  | close span => exact h.withSpanNamed span fun i => h.step (.close i)
  | setAttribute span key value =>
    exact h.withSpanNamed span fun i => h.step (.setAttribute i key value)
  | readAttribute span key => exact h.withSpanNamed span fun _ => h
  | say span level component text error =>
    refine h.withSpanNamed span fun i => ?_
    obtain ⟨hmessage, hmade⟩ := h.makeMessage text
    dsimp only
    rw [hmessage, World.event, World.event, hmade.rewired.clock]
    exact hmade.step (.post i _)
  | post span plan =>
    refine h.withSpanNamed span fun i => ?_
    obtain ⟨hevent, hmade⟩ := h.makeEvent plan
    dsimp only
    rw [hevent]
    exact hmade.step (.post i _)
  | postAll span plans =>
    refine h.withSpanNamed span fun i => ?_
    obtain ⟨hevents, hmade⟩ := h.makeEvents plans
    dsimp only
    rw [hevents]
    exact hmade.step (.postAll i _)
  | count span component metric n =>
    refine h.withSpanNamed span fun i => ?_
    simp only [World.postCount, World.event, h.rewired.clock]
    exact h.step (.post i _)
  | timing span component metric d =>
    refine h.withSpanNamed span fun i => ?_
    simp only [World.postTiming, World.event, h.rewired.clock]
    exact h.step (.post i _)
  | guard span name =>
    refine h.withSpanNamed span fun i => ?_
    have hput := h.mapHost (f := fun h => { h with guards := h.guards.put name i })
      (g := fun h => { h with guards := h.guards.put name i }) h.rewired.named
      (by rw [h.rewired.guards]) h.rewired.tracers
    dsimp only
    rw [h.rewired.guards]
    split
    · exact hput.dropGuard _
    · exact hput
  | finish guard => exact h.takeGuard guard fun i _ _ h => h.step (.close i)
  | drop guard => exact h.takeGuard guard fun i _ _ h => h.dropGuard i
  | unwind guard =>
    exact h.takeGuard guard fun i _ _ h =>
      h.closeSpan i (fun _ : Unit => false) (.cut (.unwound ""))
  | describeTracer name => exact h.tracer name fun _ => h
  | renderTwice text =>
    obtain ⟨hmessage, hmade⟩ := h.makeMessage text
    exact hmade.reads (((Reads.refl _).render _).render _) (((Reads.refl _).render _).render _)
  | messages slot component =>
    exact h.reads ((Reads.refl w).renderEvents _) ((Reads.refl w').renderEvents _)
  | metrics slot => exact h

end Echoes

theorem notes_makeEvent (w : State) (plan : EventPlan) : w.Notes [] (makeEvent w plan).2 := by
  unfold makeEvent
  cases plan.body <;> exact .aside rfl rfl rfl rfl

theorem notes_makeEvents (w : State) (plans : List EventPlan) :
    w.Notes [] (makeEvents w plans).2 := by
  induction plans generalizing w with
  | nil => exact .refl w
  | cons plan plans ih => exact (notes_makeEvent w plan).trans (ih _)

theorem spans_makeEvents (w : State) (plans : List EventPlan) :
    (makeEvents w plans).2.trace.spans = w.trace.spans := by
  induction plans generalizing w with
  | nil => rfl
  | cons plan plans ih =>
    simp only [makeEvents]
    rw [ih]
    unfold makeEvent
    cases plan.body <;> rfl

theorem named_makeEvent (w : State) (plan : EventPlan) :
    (makeEvent w plan).2.host.spans = w.host.spans := by
  unfold makeEvent
  cases plan.body <;> rfl

theorem run_post {span : String} (hspan : w.host.spans.at? span = some i) (plan : EventPlan) :
    (run (.post span plan) w).2 = (makeEvent w plan).2.post i (makeEvent w plan).1 := by
  simp [run, withSpanNamed, hspan]

theorem run_postAll {span : String} (hspan : w.host.spans.at? span = some i)
    (plans : List EventPlan) :
    (run (.postAll span plans) w).2 = (makeEvents w plans).2.postAll i (makeEvents w plans).1 := by
  simp [run, withSpanNamed, hspan]

/-- Events that are made and posted one by one, beside a session that makes them all and posts none
so far. -/
theorem Rewired.posts {span : String} (plans : List EventPlan) (h : Rewired Q w w')
    (hspan : w'.host.spans.at? span = some i) :
    Rewired Q (makeEvents w plans).2 (runAll (plans.map (.post span)) w').2 ∧
      ∃ k', w'.Notes k' (runAll (plans.map (.post span)) w').2 ∧
        TraceNote.allNews k' = World.postings (w'.span i) (makeEvents w plans).1 := by
  induction plans generalizing w w' with
  | nil => exact ⟨h, [], .refl w', by simp [makeEvents, World.postings, TraceNote.allNews]⟩
  | cons plan plans ih =>
    obtain ⟨hevent, hmade⟩ := (Echoes.refl h).makeEvent plan
    let made' := (makeEvent w' plan).2
    let posted' := made'.post i (makeEvent w' plan).1
    have hposted := World.reshapes_post made' i (makeEvent w' plan).1
    have hhost : posted'.host = made'.host := (World.post_traced ..).host
    have hrewired : Rewired Q (makeEvent w plan).2 posted' :=
      hmade.rewired.ofWorld (hmade.rewired.same ⟨rfl, rfl, rfl⟩ hposted) rfl hhost
    have hspan' : posted'.host.spans.at? span = some i := by
      rw [hhost, named_makeEvent]
      exact hspan
    obtain ⟨hall, k', hk', hnews⟩ := ih hrewired hspan'
    have hmade' : made'.span i = w'.span i :=
      World.span_of_eq (by unfold made' makeEvent; cases plan.body <;> rfl) i
    simp only [List.map_cons, runAll, run_post hspan]
    refine ⟨hall, _, ((notes_makeEvent w' plan).trans (.single (.post i _) trivial)).trans hk', ?_⟩
    rw [TraceNote.allNews_append, hnews, List.nil_append, World.allNews_post, hevent,
      World.span_of_eq hposted.spans, hmade', ← World.postings_cons]
    rfl

theorem runAll_posts_unknown {span : String} (plans : List EventPlan)
    (hspan : w.host.spans.at? span = none) : (runAll (plans.map (.post span)) w).2 = w := by
  induction plans with
  | nil => rfl
  | cons plan plans ih =>
    have hrun : (run (.post span plan) w).2 = w := by simp [run, withSpanNamed, hspan]
    simp only [List.map_cons, runAll]
    rw [hrun]
    exact ih

/-- A batch in one run, and its events one by one in the other. -/
theorem echoes_apart (h : Echoes Q v w v' w') (span : String) (plans : List EventPlan) :
    Echoes Q v (run (.postAll span plans) w).2 v' (runAll (plans.map (.post span)) w').2 := by
  cases hspan : w'.host.spans.at? span with
  | none =>
    have hrun : (run (.postAll span plans) w).2 = w := by
      simp [run, withSpanNamed, ← h.rewired.named, hspan]
    rw [runAll_posts_unknown plans hspan, hrun]
    exact h
  | some i =>
    obtain ⟨hall, k', hk', hnews⟩ := h.rewired.posts plans hspan
    let made := (makeEvents w plans).2
    let es := (makeEvents w plans).1
    have hrun : (run (.postAll span plans) w).2 = made.postAll i es :=
      run_postAll (by rwa [← h.rewired.named]) plans
    have hmade : made.span i = w.span i := World.span_of_eq (spans_makeEvents w plans) i
    have hhost : (made.postAll i es).host = made.host := (World.postAll_traced ..).host
    have hrewired : (made.postAll i es).Rewired Q (runAll (plans.map (.post span)) w').2 :=
      hall.same (World.reshapes_postAll made i es) ⟨rfl, rfl, rfl⟩
    have hnotes := (notes_makeEvents w plans).trans (.single (.postAll i es) trivial)
    have htold : List.Forall₂ (Probe.ToldAlike Q)
        (TraceNote.allNews ([] ++ (SpanStep.postAll i es).notes made)) (TraceNote.allNews k') := by
      rw [List.nil_append, World.allNews_postAll, hnews, hmade]
      exact World.postings_rewired (h.rewired.spans i) es
    rw [hrun]
    exact ⟨(h.world.goOn hnotes hk' htold hrewired).news, hall.ofWorld hrewired hhost rfl⟩

theorem runAll_append (cs cs' : List SpanCommand) (w : State) :
    (runAll (cs ++ cs') w).2 = (runAll cs' (runAll cs w).2).2 := by
  induction cs generalizing w with
  | nil => rfl
  | cons c cs ih => exact ih _

/-- A scope, with what runs inside. -/
theorem Echoes.scope {f f' : State → State} (h : Echoes Q v (f w) v' (f' w')) (i : SpanId)
    (ending : ScopeEnd) :
    Echoes Q v (finishScope (runScope (spanScope i (do Fiber.modify f; endScope ending)) w)).2 v'
      (finishScope (runScope (spanScope i (do Fiber.modify f'; endScope ending)) w')).2 := by
  simp only [finishScope, runScope_spanScope]
  exact h.closeSpan i _ _

/-- The programs tell the same, command by command. -/
theorem Echoes.runAll {cs cs' : List SpanCommand} (hcs : SpanCommand.Rewired Q cs cs')
    (h : Echoes Q v w v' w') : Echoes Q v (runAll cs w).2 v' (runAll cs' w').2 := by
  induction hcs generalizing w w' with
  | nil => exact h
  | root id name hprobe _ ih =>
    have hcreated := h.step (.root id hprobe)
    simp only [SpanSession.runAll, SpanSession.run]
    apply ih
    rw [show (w'.createRoot id _).1 = (w.createRoot id _).1 from h.next]
    exact hcreated.nameSpan name _
  | tracer name hprobe client _ ih => exact ih (h.putTracer name (.root hprobe client))
  | @scope origin id name ending body body' _ _ _ _ ihbody ih =>
    have hinside {i : SpanId} {w w' : State} (h : Echoes Q v w v' w') :
        Echoes Q v ((SpanSession.runAll body (SpanSession.nameSpan name i w)).2.mapHost fun h =>
            { h with answers := (SpanSession.runAll body (SpanSession.nameSpan name i w)).1 }) v'
          ((SpanSession.runAll body' (SpanSession.nameSpan name i w')).2.mapHost fun h =>
            { h with
              answers := (SpanSession.runAll body' (SpanSession.nameSpan name i w')).1 }) := by
      have hran := ihbody (h.nameSpan name i)
      exact hran.mapHost hran.rewired.named hran.rewired.guards hran.rewired.tracers
    simp only [SpanSession.runAll]
    apply ih
    cases origin with
    | child parent =>
      refine h.withSpanNamed parent fun p => ?_
      obtain ⟨hspan, hcreated⟩ := h.createChild p id
      rw [runScope_withChildSpan, runScope_withChildSpan, hspan]
      exact scope (hinside hcreated) _ ending
    | tracer tracer =>
      refine h.tracer tracer fun ht => ?_
      obtain ⟨hspan, hcreated⟩ := h.createSpan ht id
      rw [runScope_withSpan, runScope_withSpan, hspan]
      exact scope (hinside hcreated) _ ending
  | apart span plans _ ih =>
    rw [runAll_append]
    exact ih (echoes_apart h span plans)
  | same c hc _ ih => exact ih (h.run hc)

theorem Echoes.foldl_dropGuard (h : Echoes Q v w v' w') (guards : Names SpanId) :
    Echoes Q v (guards.foldl (fun w g => World.dropGuard g.2 w) w) v'
      (guards.foldl (fun w g => World.dropGuard g.2 w) w') := by
  induction guards generalizing w w' with
  | nil => exact h
  | cons g guards ih => exact ih (h.dropGuard g.2)

theorem Echoes.dropGuards (h : Echoes Q v w v' w') :
    Echoes Q v (dropGuards w) v' (dropGuards w') := by
  have hemptied := h.mapHost (f := fun h => { h with guards := [] })
    (g := fun h => { h with guards := [] }) h.rewired.named rfl h.rewired.tracers
  unfold SpanSession.dropGuards
  rw [h.rewired.guards]
  exact hemptied.foldl_dropGuard _

/-- A program, and then the guards that it still holds are let go. -/
def finish (program : List SpanCommand) (v : State) : State := dropGuards (runAll program v).2

theorem Echoes.finish {program program' : List SpanCommand}
    (hprograms : SpanCommand.Rewired Q program program') (h : Rewired Q v v') :
    Echoes Q v (finish program v) v' (finish program' v') :=
  ((Echoes.refl h).runAll hprograms).dropGuards

end SpanSession

mutual

theorem SpanCommand.Rewired.cons {Q : Probe → Probe → Prop} (hQ : ∀ p, Q p p)
    {cs cs' : List SpanCommand} (h : SpanCommand.Rewired Q cs cs') :
    (c : SpanCommand) → SpanCommand.Rewired Q (c :: cs) (c :: cs') := by
  intro c
  cases c with
  | scope origin id name body ending =>
    exact .scope origin id name ending (SpanCommand.Rewired.refl hQ body) h
  | root id name probe => exact .root id name (hQ probe) h
  | tracer name probe client => exact .tracer name (hQ probe) client h
  | _ => exact .same _ (by trivial) h

theorem SpanCommand.Rewired.refl {Q : Probe → Probe → Prop} (hQ : ∀ p, Q p p) :
    (cs : List SpanCommand) → SpanCommand.Rewired Q cs cs
  | [] => .nil
  | c :: cs => .cons hQ (SpanCommand.Rewired.refl hQ cs) c

end

/-- What others notice of a program, whatever its roots report to. -/
theorem SpanSession.exists_notes (program : List SpanCommand) (v : SpanSession.State) :
    ∃ k, v.Notes k (SpanSession.finish program v) := by
  have hstart : SpanSession.Rewired Eq v v :=
    { clock := rfl
      messages := rfl
      length := rfl
      spans := fun i => ⟨(v.span i).probe, rfl, rfl⟩
      named := rfl
      guards := rfl
      tracers := fun name => by
        cases v.host.tracers.at? name with
        | none => exact .none
        | some t => exact .some (by cases t with
          | root probe client => exact .root rfl client
          | nested parent label => exact .nested parent label) }
  obtain ⟨k, -, hk, -⟩ := (SpanSession.Echoes.finish (.refl (fun _ => rfl) program) hstart).news
  exact ⟨k, hk⟩

end Simulation

end ClientRuntime
