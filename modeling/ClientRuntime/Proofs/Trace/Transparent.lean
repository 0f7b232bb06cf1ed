import ClientRuntime.Proofs.Trace.Sessions

/-!
Trees of probes are transparent. Each leaf records and sends what it would if the spans reported to
it alone, and whether events are posted in batches or one by one is the same to every leaf.
-/

namespace ClientRuntime

open TraceNote (allNews)

namespace Probe

/-- Each recording has one place among the leaves. -/
def IsTree (p : Probe) : Prop := p.slots.Nodup

/-- In place of a tree there is one of its leaves, or nobody if the leaf is not among them. -/
def Alone (leaf : Leaf) (p p' : Probe) : Prop :=
  p.IsTree ∧ p' = if leaf ∈ p.leaves then leaf.probe else .silent

/-- The same tree. -/
def Itself (p p' : Probe) : Prop := p.IsTree ∧ p' = p

/-- What a leaf keeps of it is the same, whichever of the two is told. -/
structure SameTo (leaf : Leaf) (p p' : Probe) : Prop where
  mem : leaf ∈ p'.leaves ↔ leaf ∈ p.leaves
  once : ∀ slot, leaf = .recording slot → p.slots.count slot ≤ 1 ∧ p'.slots.count slot ≤ 1

theorem Itself.sameTo {p p' : Probe} (h : Itself p p') (leaf : Leaf) : SameTo leaf p p' := by
  obtain ⟨htree, rfl⟩ := h
  have honce (slot : Nat) : p'.slots.count slot ≤ 1 := List.nodup_iff_count_le_one.mp htree slot
  exact ⟨.rfl, fun slot _ => ⟨honce slot, honce slot⟩⟩

theorem Alone.sameTo {leaf : Leaf} (hleaf : leaf ≠ .silent) {p p' : Probe} (h : Alone leaf p p') :
    SameTo leaf p p' := by
  obtain ⟨htree, rfl⟩ := h
  constructor
  · by_cases hmem : leaf ∈ p.leaves
    · simp [hmem, leaves_leaf]
    · simp [hmem, leaves, hleaf]
  · rintro slot rfl
    refine ⟨List.nodup_iff_count_le_one.mp htree slot, ?_⟩
    split <;> simp [slots, Leaf.probe]

end Probe

/-- What is true of all probes that may stand in is true of those that are told. -/
theorem Probe.ToldAlike.all {Q : Probe → Probe → Prop} {P P' : Probe → Prop}
    (hQ : ∀ p p', Q p p' → P p ∧ P' p') {news news' : List (Probe × SpanNews)}
    (h : List.Forall₂ (Probe.ToldAlike Q) news news') :
    (∀ t ∈ news, P t.1) ∧ ∀ t ∈ news', P' t.1 := by
  induction h with
  | nil => simp
  | cons ht _ ih =>
    obtain ⟨hp, hp'⟩ := hQ _ _ ht.1
    simpa [hp, hp'] using ih

/-- The leaf hears the same wherever the probes that are told are the same to it. -/
theorem Leaf.heard_eq {leaf : Leaf} {news news' : List (Probe × SpanNews)}
    (h : List.Forall₂ (Probe.ToldAlike (Probe.SameTo leaf)) news news') :
    leaf.heard news' = leaf.heard news := by
  induction h with
  | nil => rfl
  | @cons t t' _ _ ht _ ih =>
    have hmem : leaf ∈ t'.1.leaves ↔ leaf ∈ t.1.leaves := ht.1.mem
    simp only [Leaf.heard, List.filterMap_cons, hmem, ht.2] at ih ⊢
    rw [ih]

namespace TraceNote

/-- What one leaf sends to the log. -/
def sent (levels : LogLevels) (leaf : Leaf) : TraceNote → List LogEntry
  | told probe news => if leaf ∈ probe.leaves then news.flatMap (leaf.sends levels) else []
  | late _ _ | read _ => []

/-- What spans warn of, whoever they report to. -/
def warnings (levels : LogLevels) : TraceNote → List LogEntry
  | late span count => (late span count).entries levels
  | told _ _ | read _ => []

theorem flatMap_sent (levels : LogLevels) (leaf : Leaf) (k : List TraceNote) :
    k.flatMap (·.sent levels leaf) = (leaf.heard (allNews k)).flatMap (leaf.sends levels) := by
  induction k with
  | nil => rfl
  | cons note k ih =>
    rw [List.flatMap_cons, ih, show note :: k = [note] ++ k from rfl, allNews_append,
      Leaf.heard_append, List.flatMap_append]
    congr 1
    cases note with
    | told probe news =>
      rw [Leaf.heard_told, sent]
      split <;> rfl
    | late | read => rfl

/-- A probe that is a leaf sends what the leaf sends. -/
theorem entries_of_leaf (levels : LogLevels) (leaf : Leaf) (note : TraceNote)
    (h : ∀ t ∈ note.news, t.1 = leaf.probe ∨ t.1 = .silent) :
    note.entries levels = note.sent levels leaf ++ note.warnings levels := by
  cases note with
  | late | read => simp [sent, warnings, entries]
  | told probe news =>
    cases news with
    | nil => simp [entries, sent, warnings]
    | cons n news =>
      obtain rfl | rfl : probe = leaf.probe ∨ probe = .silent :=
        h (probe, n) (by simp [TraceNote.news])
      · simp [entries, sent, warnings, Probe.leaves_leaf]
      · by_cases hleaf : leaf = .silent <;> simp [entries, sent, warnings, Probe.leaves, hleaf]

end TraceNote

section Runs

variable {η : Type} {leaf : Leaf} {v w w' : World η} {k k' : List TraceNote}

/-- Two runs from `v`, with what is noted in them. In the log the leaves of a tree and the warnings
of spans take turns, but what the one leaf sends is the same in both, and so is what it records. -/
structure World.SameTo (leaf : Leaf) (v w w' : World η) (k k' : List TraceNote) : Prop where
  notes : v.Notes k w
  notes' : v.Notes k' w'
  log : w.log.entries.toList = v.log.entries.toList ++ k.flatMap (·.entries v.log.levels)
  log' : w'.log.entries.toList = v.log.entries.toList ++ k'.flatMap (·.entries v.log.levels)
  sent : k'.flatMap (·.sent v.log.levels leaf) = k.flatMap (·.sent v.log.levels leaf)
  recorded : ∀ slot, leaf = .recording slot → w'.trace.recording slot = w.trace.recording slot

/-- In the second run there is the leaf alone, and nothing else sends anything. -/
def World.SameAlone (leaf : Leaf) (v w w' : World η) : Prop :=
  ∃ k k', v.SameTo leaf w w' k k' ∧ w'.log.entries.toList = v.log.entries.toList ++
    k'.flatMap fun note => note.sent v.log.levels leaf ++ note.warnings v.log.levels

/-- No leaf can tell the runs apart. -/
def World.SameToAll (v w w' : World η) : Prop := ∃ k k', ∀ leaf, v.SameTo leaf w w' k k'

/-- What a leaf hears decides what it records. -/
theorem World.Notes.recording_eq (h : v.Notes k w) (h' : v.Notes k' w') {slot : Nat}
    (hnews : List.Forall₂ (Probe.ToldAlike (Probe.SameTo (.recording slot))) (allNews k)
      (allNews k')) : w'.trace.recording slot = w.trace.recording slot := by
  by_cases hslot : slot < v.trace.recordings.length
  · obtain ⟨honce, honce'⟩ := Probe.ToldAlike.all (fun _ _ hp => hp.once slot rfl) hnews
    rw [h.shows.recorded slot hslot honce, h'.shows.recorded slot hslot honce', Leaf.heard_eq hnews]
  · have hnone {u : World η} {k : List TraceNote} (h : v.Notes k u) :
        u.trace.recording slot = default := by
      have hle : u.trace.recordings.length ≤ slot := by
        rw [h.shows.recordings]
        exact Nat.le_of_not_lt hslot
      simp [Trace.recording, hle]
    rw [hnone h, hnone h']

theorem World.Notes.sameTo (h : v.Notes k w) (h' : v.Notes k' w')
    (hnews : List.Forall₂ (Probe.ToldAlike (Probe.SameTo leaf)) (allNews k) (allNews k')) :
    v.SameTo leaf w w' k k' where
  notes := h
  notes' := h'
  log := h.shows.sent
  log' := h'.shows.sent
  sent := by rw [TraceNote.flatMap_sent, TraceNote.flatMap_sent, Leaf.heard_eq hnews]
  recorded slot hleaf := h.recording_eq h' (hleaf ▸ hnews)

/-- The leaf alone in place of each tree. -/
theorem World.SameNews.alone (h : World.SameNews (Probe.Alone leaf) v w v w') :
    v.SameAlone leaf w w' := by
  obtain ⟨k, k', hk, hk', hnews⟩ := h
  have halone (p p' : Probe) (hp : Probe.Alone leaf p p') :
      True ∧ (p' = leaf.probe ∨ p' = .silent) := by
    rw [hp.2]
    split <;> simp
  have hleaf : ∀ t ∈ allNews k', t.1 = leaf.probe ∨ t.1 = .silent :=
    (Probe.ToldAlike.all halone hnews).2
  have hentries : k'.flatMap (·.entries v.log.levels) =
      k'.flatMap fun note => note.sent v.log.levels leaf ++ note.warnings v.log.levels :=
    List.flatMap_congr fun note hnote => note.entries_of_leaf _ leaf fun t ht =>
      hleaf t (List.mem_flatMap.mpr ⟨note, hnote, ht⟩)
  have hlog := hk'.shows.sent
  rw [hentries] at hlog
  refine ⟨k, k', ?_, hlog⟩
  by_cases hsilent : leaf = .silent
  · -- a leaf that does nothing with what it hears
    subst hsilent
    have hnone (k : List TraceNote) : k.flatMap (·.sent v.log.levels .silent) = [] := by
      simp [TraceNote.flatMap_sent]
    exact
      { notes := hk
        notes' := hk'
        log := hk.shows.sent
        log' := hk'.shows.sent
        sent := by rw [hnone, hnone]
        recorded := nofun }
  · exact hk.sameTo hk' (hnews.imp fun _ _ ht => ⟨ht.1.sameTo hsilent, ht.2⟩)

/-- No leaf minds whether a batch is posted as such. -/
theorem World.SameNews.toAll (h : World.SameNews Probe.Itself v w v w') : v.SameToAll w w' := by
  obtain ⟨k, k', hk, hk', hnews⟩ := h
  exact ⟨k, k', fun leaf => hk.sameTo hk' (hnews.imp fun _ _ ht => ⟨ht.1.sameTo leaf, ht.2⟩)⟩

theorem World.Rewired.fresh {Q : Probe → Probe → Prop} (hQ : Q .silent .silent)
    (h : v.trace.spans = []) : v.Rewired Q v where
  clock := rfl
  messages := rfl
  length := rfl
  spans i := by
    rw [World.span_of_le (by simp [h])]
    exact ⟨.silent, hQ, rfl⟩

end Runs

namespace Simulation

namespace SpanSession

/-- There is nothing under any name, and no span. -/
structure Fresh (v : State) : Prop where
  host : v.host = .empty
  spans : v.trace.spans = []

theorem Fresh.rewired {Q : Probe → Probe → Prop} (hQ : Q .silent .silent) {v : State}
    (h : Fresh v) : Rewired Q v v :=
  { World.Rewired.fresh hQ h.spans with
    named := rfl
    guards := rfl
    tracers := fun name => by rw [h.host]; exact .none }

end SpanSession

end Simulation

theorem Probe.alone_silent (leaf : Leaf) : Probe.Alone leaf .silent .silent := by
  refine ⟨List.nodup_nil, ?_⟩
  by_cases h : leaf = .silent <;> simp [leaves, h, Leaf.probe]

theorem Probe.itself_silent : Probe.Itself .silent .silent := ⟨List.nodup_nil, rfl⟩

open Simulation (SpanCommand SpanSession) in
/-- Whatever trees of probes the roots of a program report to, each leaf records what it would
record if it stood in their place, and sends to the log what it would send there. Posting the events
of any batches one by one instead changes this for no leaf. So it is for whoever calls tracing. -/
theorem trees_transparent :
    (∀ (leaf : Leaf) (program alone : List SpanCommand) (v : SpanSession.State),
      SpanSession.Fresh v → SpanCommand.Rewired (Probe.Alone leaf) program alone →
        v.SameAlone leaf (SpanSession.finish program v) (SpanSession.finish alone v)) ∧
    (∀ (program apart : List SpanCommand) (v : SpanSession.State),
      SpanSession.Fresh v → SpanCommand.Rewired Probe.Itself program apart →
        v.SameToAll (SpanSession.finish program v) (SpanSession.finish apart v)) ∧
    (∀ {η : Type} (leaf : Leaf) (calls alone : List (SpanStep η)) (v : World η),
      v.trace.spans = [] → World.CallsAlike (Probe.Alone leaf) calls alone →
        v.SameAlone leaf (calls.foldl SpanStep.perform v) (alone.foldl SpanStep.perform v)) ∧
    ∀ {η : Type} (calls apart : List (SpanStep η)) (v : World η),
      v.trace.spans = [] → World.CallsAlike Probe.Itself calls apart →
        v.SameToAll (calls.foldl SpanStep.perform v) (apart.foldl SpanStep.perform v) := by
  refine ⟨?_, ?_, ?_, ?_⟩
  · intro leaf program alone v hv hprograms
    exact (SpanSession.Echoes.finish hprograms
      (hv.rewired (Probe.alone_silent leaf))).news.alone
  · intro program apart v hv hprograms
    exact (SpanSession.Echoes.finish hprograms (hv.rewired Probe.itself_silent)).news.toAll
  · intro η leaf calls alone v hv hcalls
    have hstart := World.Echoes.refl (World.Rewired.fresh (Probe.alone_silent leaf) hv)
    exact (hstart.calls hcalls).news.alone
  · intro η calls apart v hv hcalls
    have hstart := World.Echoes.refl (World.Rewired.fresh Probe.itself_silent hv)
    exact (hstart.calls hcalls).news.toAll

/-- A tree of two recordings, and a log of what is not below info. -/
def spreadTree : Probe :=
  .multi [.recording 0, .multi [.logging .info, .silent, .recording 1]]

open Simulation (SpanCommand) in
/-- A scope that unwinds after a batch, and an event that comes too late. The batch is given as it
is posted. -/
def spreadProgram (probe : Probe) (batch : List SpanCommand) : List SpanCommand :=
  [.root "request" "r" probe, .scope (.child "r") "first" "a" batch .panic, .close "r",
    .count "r" "Worker" "late" 1]

/-- A metric, and a message of little importance. -/
def spreadBatch : List Simulation.EventPlan :=
  [⟨.info, "Worker", none, .inr ("bytes", .count 3)⟩,
    ⟨.debug, "Worker", none, .inl ("begun", none)⟩]

open Simulation (SpanSession) in
def spreadStart : SpanSession.State :=
  { World.start .epoch .epoch SpanSession.empty with
    trace := .withRecordings 2
    log := ⟨.downTo (some .info), .empty⟩ }

open Simulation (SpanCommand SpanSession) in
theorem trees_transparent_spread :
    let w := SpanSession.finish (spreadProgram spreadTree [.postAll "a" spreadBatch]) spreadStart
    let calls : List (SpanStep SpanSession) := [.root "r" spreadTree, .postAll 0 [], .close 0]
    (w.trace.recording 1).events.toList.map (·.span) =
        ["request/first", "request/first", "request/first"] ∧
      w.log.entries.toList.map (·.message) =
        ["metric", "Span scope panicked", "Dropping trace events posted after span close"] ∧
      spreadStart.SameAlone (.recording 1) w (SpanSession.finish
        (spreadProgram (.recording 1) [.postAll "a" spreadBatch]) spreadStart) ∧
      spreadStart.SameToAll w (SpanSession.finish
        (spreadProgram spreadTree (spreadBatch.map (.post "a"))) spreadStart) ∧
      spreadStart.SameAlone (.logging .info) (calls.foldl SpanStep.perform spreadStart)
        ([.root "r" (.logging .info), .postAll 0 [], .close 0].foldl SpanStep.perform
          spreadStart) ∧
      spreadStart.SameToAll (calls.foldl SpanStep.perform spreadStart)
        ([.root "r" spreadTree, .close 0].foldl SpanStep.perform spreadStart) := by
  have hv : SpanSession.Fresh spreadStart := ⟨rfl, rfl⟩
  have htree : spreadTree.IsTree := by
    simp [Probe.IsTree, spreadTree, Probe.slots, Probe.slotsEach]
  have hrecording : Probe.Alone (.recording 1) spreadTree (.recording 1) :=
    ⟨htree, by simp [spreadTree, Probe.leaves, Probe.leavesEach, Leaf.probe]⟩
  have hlogging : Probe.Alone (.logging .info) spreadTree (.logging .info) :=
    ⟨htree, by simp [spreadTree, Probe.leaves, Probe.leavesEach, Leaf.probe]⟩
  have hitself : Probe.Itself spreadTree spreadTree := ⟨htree, rfl⟩
  have after (Q : Probe → Probe → Prop) : SpanCommand.Rewired Q
      [.close "r", .count "r" "Worker" "late" 1] [.close "r", .count "r" "Worker" "late" 1] :=
    .same (.close "r") trivial (.same (.count "r" "Worker" "late" 1) trivial .nil)
  obtain ⟨programs, batches, calls, callsApart⟩ := trees_transparent
  refine ⟨by cbv, by cbv, ?_, ?_, ?_, ?_⟩
  · apply programs _ _ _ spreadStart hv
    exact .root _ _ hrecording (.scope _ _ _ _ (.same (.postAll "a" spreadBatch) trivial .nil)
      (after _))
  · apply batches _ _ spreadStart hv
    exact .root _ _ hitself (.scope _ _ _ _ (.apart "a" spreadBatch .nil) (after _))
  · exact calls (.logging .info) _ _ spreadStart rfl
      (.cons (.root "r" hlogging) (.cons (.postAll 0 []) (.cons (.close 0) .nil)))
  · exact callsApart _ _ spreadStart rfl
      (.cons (.root "r" hitself) (.apart 0 [] (.cons (.close 0) .nil)))

end ClientRuntime
