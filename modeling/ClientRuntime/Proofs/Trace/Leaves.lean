import ClientRuntime.Proofs.Trace.Reports

/-!
Probes leaf by leaf. A tree of probes does nothing of its own: whatever it is told, each of its
leaves hears in turn, and does with it what it would do alone.
-/

namespace ClientRuntime

/-- A probe that passes nothing on. -/
inductive Leaf where
  | recording (slot : Nat)
  | silent
  | logging (least : TraceLevel)
  deriving DecidableEq

def Leaf.probe : Leaf → Probe
  | recording slot => .recording slot
  | silent => .silent
  | logging least => .logging least

namespace Probe

mutual

/-- In the order in which they are told. -/
def leaves : Probe → List Leaf
  | recording slot => [.recording slot]
  | silent => [.silent]
  | logging least => [.logging least]
  | multi probes => leavesEach probes

def leavesEach : List Probe → List Leaf
  | [] => []
  | p :: ps => p.leaves ++ leavesEach ps

end

theorem leaves_leaf (leaf : Leaf) : leaf.probe.leaves = [leaf] := by
  cases leaf <;> rfl

mutual

/-- A probe writes to the recordings among its leaves. -/
theorem count_slots (slot : Nat) :
    (p : Probe) → p.slots.count slot = p.leaves.count (.recording slot)
  | recording _ => by simp [slots, leaves, List.count_singleton]
  | silent => by simp [slots, leaves]
  | logging _ => by simp [slots, leaves]
  | multi probes => count_slotsEach slot probes

theorem count_slotsEach (slot : Nat) :
    (ps : List Probe) → (slotsEach ps).count slot = (leavesEach ps).count (.recording slot)
  | [] => rfl
  | p :: ps => by
    rw [slotsEach, leavesEach, List.count_append, List.count_append, count_slots slot p,
      count_slotsEach slot ps]

end

end Probe

/-- What probes are told, under the name of a span. -/
inductive SpanNews where
  | created (span : String)
  | posted (span : String) (e : TraceEvent)
  | closed (span : String) (status : SpanStatus)

def Recording.hear (r : Recording) : SpanNews → Recording
  | .created span => { r with created := r.created.push span }
  | .posted span e => { r with events := r.events.push ⟨span, e⟩ }
  | .closed span status => { r with closed := r.closed.push (span, status) }

namespace TraceEvent

/-- The message of an event that has one. -/
def message? (e : TraceEvent) : Option Message :=
  match e.body with
  | .message content _ => some content
  | .metric _ _ => none

/-- What a log shows of an event. -/
def entry (e : TraceEvent) (span : String) : LogEntry :=
  let fields := [("span", .text span), ("component", LogValue.text e.component)]
  match e.body with
  | .message content error =>
    ⟨e.level.logLevel, fields ++ (error.map fun e => ("error", .text e)).toList, content.text⟩
  | .metric name (.count n) =>
    ⟨e.level.logLevel, fields ++ [("metric", .text name), ("count", .natural n)], "metric"⟩
  | .metric name (.duration d) =>
    ⟨e.level.logLevel,
      fields ++ [("metric", .text name), ("elapsed_ms", .float (d.toSeconds * 1000))], "metric"⟩

end TraceEvent

namespace Leaf

variable (levels : LogLevels)

/-- Both the leaf and the log take events of this severity. -/
def takes (leaf : Leaf) (level : TraceLevel) : Bool :=
  match leaf with
  | logging least => level.isEnabledFor least && levels.keeps level.logLevel
  | _ => false

/-- What a leaf sends to the log when it hears something. -/
def sends (leaf : Leaf) (n : SpanNews) : List LogEntry :=
  match leaf, n with
  | logging _, .created span =>
    if levels.keeps .trace then [⟨.trace, [("span", .text span)], "Span created"⟩] else []
  | leaf, .posted span e => if leaf.takes levels e.level then [e.entry span] else []
  | logging _, .closed span status =>
    if levels.keeps .debug then
      [⟨.debug, [("span", .text span), ("status", .text status.name)], "Span closed"⟩]
    else []
  | _, _ => []

/-- Numbers of the messages that a leaf renders when it hears something. -/
def renders (leaf : Leaf) (n : SpanNews) : List Nat :=
  match n with
  | .posted _ e => if leaf.takes levels e.level then (e.message?.map (·.number)).toList else []
  | _ => []

@[simp] theorem sends_silent (n : SpanNews) : silent.sends levels n = [] := by
  cases n <;> rfl

@[simp] theorem renders_silent (n : SpanNews) : silent.renders levels n = [] := by
  cases n <;> rfl

@[simp] theorem sends_recording (slot : Nat) (n : SpanNews) :
    (recording slot).sends levels n = [] := by
  cases n <;> rfl

@[simp] theorem renders_recording (slot : Nat) (n : SpanNews) :
    (recording slot).renders levels n = [] := by
  cases n <;> rfl

end Leaf

namespace World

variable {η : Type} {w w₁ w₂ w' : World η} {ls ls' : List Leaf} {ns ns' : List SpanNews}
  {leaf : Leaf}

/-- These leaves have heard this in turn, and nothing else has happened. -/
structure Hears (ls : List Leaf) (ns : List SpanNews) (w w' : World η) : Prop where
  spans : w'.trace.spans = w.trace.spans
  messages : w'.trace.messages = w.trace.messages
  levels : w'.log.levels = w.log.levels
  sent : w'.log.entries.toList =
    w.log.entries.toList ++ ls.flatMap fun leaf => ns.flatMap (leaf.sends w.log.levels)
  rendered : w'.trace.rendered.toList =
    w.trace.rendered.toList ++ ls.flatMap fun leaf => ns.flatMap (leaf.renders w.log.levels)
  recordings : w'.trace.recordings.length = w.trace.recordings.length
  recorded : ∀ slot < w.trace.recordings.length, w'.trace.recording slot =
    (List.replicate (ls.count (.recording slot)) ns).flatten.foldl Recording.hear
      (w.trace.recording slot)

namespace Hears

theorem nobody (ns : List SpanNews) (w : World η) : Hears [] ns w w := by
  constructor <;> simp

theorem nothing (ls : List Leaf) (w : World η) : Hears ls [] w w := by
  constructor <;> simp

theorem silent (ns : List SpanNews) (w : World η) : Hears [.silent] ns w w := by
  constructor <;> simp

/-- Some leaves, and then some more. -/
theorem append (h : Hears ls ns w w₁) (h' : Hears ls' ns w₁ w₂) : Hears (ls ++ ls') ns w w₂ := by
  constructor
  case spans => exact h'.spans.trans h.spans
  case messages => exact h'.messages.trans h.messages
  case levels => exact h'.levels.trans h.levels
  case sent => rw [h'.sent, h.sent, h.levels]; simp
  case rendered => rw [h'.rendered, h.rendered, h.levels]; simp
  case recordings => exact h'.recordings.trans h.recordings
  case recorded =>
    intro slot hslot
    rw [h'.recorded slot (by rw [h.recordings]; exact hslot), h.recorded slot hslot,
      List.count_append, ← List.replicate_append_replicate, List.flatten_append, List.foldl_append]

/-- One leaf hears something, and then some more. -/
theorem more (h : Hears [leaf] ns w w₁) (h' : Hears [leaf] ns' w₁ w₂) :
    Hears [leaf] (ns ++ ns') w w₂ := by
  constructor
  case spans => exact h'.spans.trans h.spans
  case messages => exact h'.messages.trans h.messages
  case levels => exact h'.levels.trans h.levels
  case sent => rw [h'.sent, h.sent, h.levels]; simp
  case rendered => rw [h'.rendered, h.rendered, h.levels]; simp
  case recordings => exact h'.recordings.trans h.recordings
  case recorded =>
    intro slot hslot
    rw [h'.recorded slot (by rw [h.recordings]; exact hslot), h.recorded slot hslot]
    by_cases hleaf : leaf = .recording slot <;> simp [hleaf]

theorem recording (slot : Nat) (n : SpanNews) (w : World η) :
    Hears [.recording slot] [n] w (w.updateRecording slot fun r => r.hear n) := by
  constructor
  case recorded =>
    intro slot' hslot
    by_cases h : slot = slot'
    · subst h
      simp [updateRecording, Trace.updateRecording, Trace.recording, hslot]
    · simp [updateRecording, Trace.updateRecording, Trace.recording, h]
  all_goals simp [updateRecording, Trace.updateRecording]

/-- A logging probe sends one entry of its own. -/
theorem emit {least : TraceLevel} {n : SpanNews} (w : World η) {level : LogLevel}
    {fields : List (String × LogValue)} {message : String}
    (hsends : (Leaf.logging least).sends w.log.levels n =
      if w.log.levels.keeps level then [⟨level, fields, message⟩] else [])
    (hrenders : (Leaf.logging least).renders w.log.levels n = []) :
    Hears [.logging least] [n] w (w.emit level fields message) := by
  unfold World.emit Log.emit Log.enabled
  constructor
  case recorded => intro slot _; simp
  all_goals split <;> simp_all

/-- An event that is taken is sent, and its message is rendered for that. -/
theorem forward {least : TraceLevel} {s : Span} {e : TraceEvent}
    (htakes : (Leaf.logging least).takes w.log.levels e.level = true) :
    Hears [.logging least] [.posted s.qualifiedId e] w (Probe.forward s e w) := by
  have hkeeps : w.log.levels.keeps e.level.logLevel = true := (Bool.and_eq_true_iff.mp htakes).2
  unfold Probe.forward
  constructor
  case recorded =>
    intro slot _
    cases e.body with
    | message content error => simp [World.emit, World.render, Trace.recording]
    | metric name value => cases value <;> simp [World.emit]
  all_goals
    cases hbody : e.body with
    | message content error =>
      simp [World.emit, World.render, Log.emit, Log.enabled, hkeeps, Leaf.sends, Leaf.renders,
        htakes, TraceEvent.entry, TraceEvent.message?, hbody]
    | metric name value =>
      cases value <;> simp [World.emit, Log.emit, Log.enabled, hkeeps, Leaf.sends, Leaf.renders,
        htakes, TraceEvent.entry, TraceEvent.message?, hbody]

theorem logging (least : TraceLevel) (s : Span) (e : TraceEvent) (w : World η) :
    Hears [.logging least] [.posted s.qualifiedId e] w ((Probe.logging least).post s e w) := by
  have htakes : (e.level.isEnabledFor least && w.log.enabled e.level.logLevel) =
      (Leaf.logging least).takes w.log.levels e.level := rfl
  rw [Probe.post, htakes]
  split
  · next h => exact forward h
  · next h => constructor <;> simp [Leaf.sends, Leaf.renders, h]

mutual

theorem created (s : Span) : (p : Probe) → (w : World η) →
    Hears p.leaves [.created s.qualifiedId] w (p.created s w)
  | .recording slot, w => recording slot (.created s.qualifiedId) w
  | .silent, w => silent _ w
  | .logging _, w => emit w rfl rfl
  | .multi probes, w => createdEach s probes w

theorem createdEach (s : Span) : (ps : List Probe) → (w : World η) →
    Hears (Probe.leavesEach ps) [.created s.qualifiedId] w (Probe.createdEach ps s w)
  | [], w => nobody _ w
  | p :: ps, w => (created s p w).append (createdEach s ps _)

end

mutual

theorem post (s : Span) (e : TraceEvent) : (p : Probe) → (w : World η) →
    Hears p.leaves [.posted s.qualifiedId e] w (p.post s e w)
  | .recording slot, w => recording slot (.posted s.qualifiedId e) w
  | .silent, w => silent _ w
  | .logging least, w => logging least s e w
  | .multi probes, w => postEach s e probes w

theorem postEach (s : Span) (e : TraceEvent) : (ps : List Probe) → (w : World η) →
    Hears (Probe.leavesEach ps) [.posted s.qualifiedId e] w (Probe.postEach ps s e w)
  | [], w => nobody _ w
  | p :: ps, w => (post s e p w).append (postEach s e ps _)

end

/-- A leaf takes a batch event by event. -/
theorem foldl_post (s : Span) (leaf : Leaf) (es : List TraceEvent) (w : World η) :
    Hears [leaf] (es.map (.posted s.qualifiedId)) w
      (es.foldl (fun w e => leaf.probe.post s e w) w) := by
  induction es generalizing w with
  | nil => exact nothing _ w
  | cons e es ih =>
    have hfirst := post s e leaf.probe w
    rw [Probe.leaves_leaf] at hfirst
    exact hfirst.more (ih _)

mutual

theorem postAll (s : Span) (es : List TraceEvent) : (p : Probe) → (w : World η) →
    Hears p.leaves (es.map (.posted s.qualifiedId)) w (p.postAll s es w)
  | .recording slot, w => foldl_post s (.recording slot) es w
  | .silent, w => silent _ w
  | .logging least, w => foldl_post s (.logging least) es w
  | .multi probes, w => postAllEach s es probes w

theorem postAllEach (s : Span) (es : List TraceEvent) : (ps : List Probe) → (w : World η) →
    Hears (Probe.leavesEach ps) (es.map (.posted s.qualifiedId)) w (Probe.postAllEach ps s es w)
  | [], w => nobody _ w
  | p :: ps, w => (postAll s es p w).append (postAllEach s es ps _)

end

mutual

theorem closed (s : Span) : (p : Probe) → (w : World η) →
    Hears p.leaves [.closed s.qualifiedId s.status] w (p.closed s w)
  | .recording slot, w => recording slot (.closed s.qualifiedId s.status) w
  | .silent, w => silent _ w
  | .logging _, w => emit w rfl rfl
  | .multi probes, w => closedEach s probes w

theorem closedEach (s : Span) : (ps : List Probe) → (w : World η) →
    Hears (Probe.leavesEach ps) [.closed s.qualifiedId s.status] w (Probe.closedEach ps s w)
  | [], w => nobody _ w
  | p :: ps, w => (closed s p w).append (closedEach s ps _)

end

end Hears

end World

end ClientRuntime
