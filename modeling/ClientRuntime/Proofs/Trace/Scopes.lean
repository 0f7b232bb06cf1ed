import Mathlib
import ClientRuntime.Proofs.Fiber.Polls
import ClientRuntime.Proofs.Trace.Bodies
import ClientRuntime.Proofs.Trace.Streams

/-!
Scopes close on every way out. The span of a scope closes once and after the spans of all scopes
inside, with the status that the body gave it, or else with one for the way the body ended. A scope
that is dropped or unwinds says so once, just before.
-/

namespace ClientRuntime

/-- A status that is set stays. -/
def SpanStatus.otherwise : SpanStatus → SpanStatus → SpanStatus
  | .unset, status => status
  | status, _ => status

theorem SpanStatus.otherwise_assoc (a b c : SpanStatus) :
    (a.otherwise b).otherwise c = a.otherwise (b.otherwise c) := by
  cases a <;> rfl

theorem SpanStatus.otherwise_unset (a : SpanStatus) : a.otherwise .unset = a := by
  cases a <;> rfl

theorem SpanStatus.otherwise_of_ne {a : SpanStatus} (h : a ≠ .unset) (b : SpanStatus) :
    a.otherwise b = a := by
  cases a <;> first | rfl | exact absurd rfl h

/-- The status that a change sets for a span. -/
def SpanChange.statusFor (i : SpanId) (c : SpanChange) : SpanStatus :=
  match c.act with
  | .marked status => if c.span = i then status else .unset
  | _ => .unset

/-- The status that changes set for a span, the first one if there are more. -/
def statusSet (i : SpanId) : List SpanChange → SpanStatus
  | [] => .unset
  | c :: k => (c.statusFor i).otherwise (statusSet i k)

section StatusSet

variable {i : SpanId} {k k' : List SpanChange}

theorem statusSet_append : statusSet i (k ++ k') = (statusSet i k).otherwise (statusSet i k') := by
  induction k with
  | nil => rfl
  | cons c k ih => rw [List.cons_append, statusSet, statusSet, ih, SpanStatus.otherwise_assoc]

theorem statusSet_eq_unset (h : ∀ c ∈ k, c.statusFor i = .unset) : statusSet i k = .unset := by
  induction k with
  | nil => rfl
  | cons c k ih =>
    rw [statusSet, h c (List.mem_cons_self ..), ih fun c hc => h c (List.mem_cons_of_mem _ hc)]
    rfl

end StatusSet

namespace World

variable {η : Type} {w w₁ w' : World η} {i : SpanId} {k k' : List SpanChange}

theorem close_spans (h : (w.span i).closed = false) :
    (w.close i).trace.spans = w.trace.spans.modify i fun s => { s with closed := true } := by
  let marked := w.updateSpan i fun s => { s with closed := true }
  have hclose : w.close i = (marked.span i).probe.closed (marked.span i) marked := by
    simp [close, h, marked]
  rw [hclose]
  exact (Reports.probe (marked.span i) _ marked).spans

/-- A span reports to where it did. Its status stays once it is set. -/
theorem Traces.kept (h : w.Traces k w') (hi : i < w.trace.spans.length) :
    (w'.span i).probe = (w.span i).probe ∧
      (w'.span i).status = (w.span i).status.otherwise (statusSet i k) := by
  have same {w w' : World η} {k : List SpanChange} (hspan : w'.span i = w.span i)
      (hk : ∀ c ∈ k, c.statusFor i = .unset) : (w'.span i).probe = (w.span i).probe ∧
        (w'.span i).status = (w.span i).status.otherwise (statusSet i k) := by
    rw [hspan, statusSet_eq_unset hk, SpanStatus.otherwise_unset]
    exact ⟨rfl, rfl⟩
  induction h with
  | aside hspans _ => exact same (span_of_eq hspans i) (by simp)
  | create w id path parent probe =>
    exact same (span_of_append (createSpan_spans ..) hi) (by simp [SpanChange.statusFor])
  | @mark w j status hj hunset hstatus =>
    have hspans : (w.setStatus j status).2.trace.spans =
        w.trace.spans.modify j fun s => { s with status } := by
      rw [setStatus_of_unset ⟨hunset, hstatus⟩]
      rfl
    rw [span_of_modify hspans]
    by_cases hij : j = i
    · subst hij
      simp [hj, hunset, statusSet, SpanChange.statusFor, SpanStatus.otherwise]
    · simp [hij, statusSet, SpanChange.statusFor, SpanStatus.otherwise_unset]
  | decorate w j key v =>
    have hspan : (w.setSpanAttribute j key v).span i = _ := span_of_modify rfl i
    rw [hspan]
    split <;> simp [statusSet, SpanStatus.otherwise_unset]
  | post e _ =>
    exact same (span_of_eq (post_sameSpans _ _ e).spans i) (by simp [SpanChange.statusFor])
  | postAll es _ =>
    exact same (span_of_eq (postAll_sameSpans _ _ es).spans i) (by simp [SpanChange.statusFor])
  | @close w j hopen =>
    rw [span_of_modify (close_spans hopen)]
    split <;> simp [statusSet, SpanChange.statusFor, SpanStatus.otherwise_unset]
  | append first _ ih ih' =>
    obtain ⟨hprobe, hstatus⟩ := ih hi
    obtain ⟨hprobe', hstatus'⟩ := ih' (Nat.lt_of_lt_of_le hi first.amounts.length)
    exact ⟨hprobe'.trans hprobe, by
      rw [hstatus', hstatus, statusSet_append, SpanStatus.otherwise_assoc]⟩

/-- Changes to one span, and the levels of what is said on it. If the span is recorded, the
recording shows them. -/
structure Tells (i : SpanId) (levels : List TraceLevel) (k : List SpanChange) (w w' : World η) :
    Prop where
  traces : w.Traces k w'
  own : ∀ c ∈ k, c.span = i
  said : (k.filterMap (·.event?)).map (·.event.level) = levels
  recorded : ∀ slot < w.trace.recordings.length, (w.span i).probe = .recording slot →
    (w.trace.recording slot).Adds k (w'.trace.recording slot)

namespace Tells

variable {levels levels' : List TraceLevel}

theorem aside (hspans : w'.trace.spans = w.trace.spans)
    (hrecordings : w'.trace.recordings = w.trace.recordings) : Tells i [] [] w w' where
  traces := .aside hspans hrecordings
  own := by simp
  said := rfl
  recorded slot _ _ := by
    unfold Trace.recording
    rw [hrecordings]
    exact .refl _

theorem append (hi : i < w.trace.spans.length) (h : Tells i levels k w w₁)
    (h' : Tells i levels' k' w₁ w') : Tells i (levels ++ levels') (k ++ k') w w' where
  traces := h.traces.append h'.traces
  own c hc := (List.mem_append.mp hc).elim (h.own c) (h'.own c)
  said := by rw [List.filterMap_append, List.map_append, h.said, h'.said]
  recorded slot hslot hprobe := by
    refine (h.recorded slot hslot hprobe).append (h'.recorded slot ?_ ?_)
    · rwa [h.traces.amounts.recordings]
    · rwa [(h.traces.kept hi).1]

theorem post (hopen : (w.span i).closed = false) (e : TraceEvent) :
    Tells i [e.level] [⟨i, w.span i, .posted e⟩] w (w.post i e) where
  traces := .post e hopen
  own := by simp
  said := by simp [SpanChange.event?]
  recorded _ hslot hprobe := adds_post hopen hprobe hslot e

theorem say (hopen : (w.span i).closed = false) (level : TraceLevel) (component text : String)
    (error : Option String) : ∃ k, Tells i [level] k w (w.say i level component text error) := by
  let written := (w.newMessage text).2
  have hwritten : Tells i [] [] w written := aside rfl rfl
  have hspan : written.span i = w.span i := span_of_eq rfl i
  have hposted := post (w := written) (i := i) (by rw [hspan]; exact hopen)
    (written.event level component (.message (w.newMessage text).1 error))
  exact ⟨_, hwritten.append (lt_of_open hopen) hposted⟩

theorem setStatus (hi : i < w.trace.spans.length) {status : SpanStatus}
    (hstatus : status ≠ .unset) : ∃ k, Tells i [] k w (w.setStatus i status).2 ∧
      ((w.setStatus i status).2.span i).closed = (w.span i).closed ∧
      ((w.setStatus i status).2.span i).status = (w.span i).status.otherwise status := by
  by_cases hunset : (w.span i).status = .unset
  · have hset := setStatus_of_unset ⟨hunset, hstatus⟩
    have hspan : (w.setStatus i status).2.span i = { w.span i with status } := by
      rw [hset, span_of_modify (w := w) rfl i, if_pos ⟨rfl, hi⟩]
    refine ⟨[⟨i, w.span i, .marked status⟩], ⟨.mark hi hunset hstatus, by simp, rfl, ?_⟩, ?_⟩
    · intro slot _ _
      rw [hset]
      constructor <;>
        simp [SpanChange.creation?, SpanChange.event?, SpanChange.closing?, updateSpan,
          Trace.updateSpan, Trace.recording]
    · rw [hspan, hunset]
      exact ⟨rfl, rfl⟩
  · rw [setStatus_of_set fun h => hunset h.1, SpanStatus.otherwise_of_ne hunset]
    exact ⟨[], aside rfl rfl, rfl, rfl⟩

end Tells

/-- Changes to one span that close it in the end, with this status. -/
structure Finishes (i : SpanId) (status : SpanStatus) (levels : List TraceLevel)
    (k : List SpanChange) (w w' : World η) : Prop extends Tells i levels k w w' where
  last : ∃ before seen, k = before ++ [⟨i, seen, .closed⟩] ∧ seen.status = status
  status : (w'.span i).status = status

theorem Tells.close {levels : List TraceLevel} (hi : i < w.trace.spans.length)
    (h : Tells i levels k w w₁) (hopen : (w₁.span i).closed = false) :
    ∃ k, Finishes i (w₁.span i).status levels k w (w₁.close i) := by
  have hclosing : Tells i [] [⟨i, { w₁.span i with closed := true }, .closed⟩] w₁ (w₁.close i) :=
    { traces := .close hopen
      own := by simp
      said := by simp [SpanChange.event?]
      recorded := fun _ hslot hprobe => adds_close hopen hprobe hslot }
  have hall := h.append hi hclosing
  rw [List.append_nil] at hall
  have hstatus := (hclosing.traces.kept (lt_of_open hopen)).2
  rw [statusSet_eq_unset (by simp [SpanChange.statusFor]), SpanStatus.otherwise_unset] at hstatus
  exact ⟨_, hall, ⟨k, _, rfl, rfl⟩, hstatus⟩

end World

namespace Ending

variable {ε α : Type}

/-- The status of a scope that ends so, if none was set. -/
def scopeStatus : Ending (Except ε α) → SpanStatus
  | .returned (.ok _) | .cut .dropped => .unset
  | .returned (.error _) | .cut (.unwound _) => .error

/-- The levels of what a scope says when it ends so. -/
def scopeLevels : Ending (Except ε α) → List TraceLevel
  | .returned _ => []
  | .cut .dropped => [.warning]
  | .cut (.unwound _) => [.error]

end Ending

namespace World

variable {η ε α : Type} {w : World η} {i : SpanId}

/-- What closing does to a span that is still open at the end of its scope. -/
theorem closeSpan_finishes (hopen : (w.span i).closed = false) (e : Ending (Except ε α)) :
    ∃ k, Finishes i ((w.span i).status.otherwise e.scopeStatus) e.scopeLevels k w
      (e.closeSpan i TraceBody.failed w) := by
  have hi := lt_of_open hopen
  obtain ⟨marking, hmarked, hclosed, hstatus⟩ :=
    Tells.setStatus hi (show SpanStatus.error ≠ .unset by decide)
  rw [hopen] at hclosed
  cases e with
  | returned result =>
    cases result with
    | ok a =>
      have hfinished := (Tells.aside rfl rfl : Tells i [] [] w w).close hi hopen
      rwa [← (w.span i).status.otherwise_unset] at hfinished
    | error x =>
      have hfinished := hmarked.close hi hclosed
      rwa [hstatus] at hfinished
  | cut c =>
    cases c with
    | dropped =>
      obtain ⟨saying, hsaid⟩ :=
        Tells.say hopen .warning guardComponent "Span scope cancelled before completion" none
      have hdropped := hsaid.close hi (by rw [span_say]; exact hopen)
      rw [span_say, ← (w.span i).status.otherwise_unset] at hdropped
      simpa [Ending.closeSpan, Ending.scopeStatus, Ending.scopeLevels, dropGuard, hopen]
        using hdropped
    | unwound text =>
      obtain ⟨saying, hsaid⟩ :=
        Tells.say hclosed .error guardComponent "Span scope panicked" none
      have hunwound := (hmarked.append hi hsaid).close hi (by rw [span_say]; exact hclosed)
      rw [span_say, hstatus] at hunwound
      simpa [Ending.closeSpan, Ending.scopeStatus, Ending.scopeLevels, unwindGuard, hopen]
        using hunwound

end World

theorem World.Amounts.stays_open {η : Type} {w w' : World η} {i : SpanId} {k : List SpanChange}
    (h : World.Amounts k w w') (hopen : (w.span i).closed = false)
    (hk : ∀ c ∈ k, ¬ c.closes i) : (w'.span i).closed = false := by
  cases hclosed : (w'.span i).closed with
  | false => rfl
  | true =>
    have hone := h.closed_once hopen hclosed
    rw [List.countP_eq_zero.mpr hk] at hone
    cases hone

/-- A run of a scope: its span `i` is created, the body runs until `w₁`, and then there is only the
span of the scope left. -/
structure ClosesScope {η ε α : Type} (R : World η → World η → Prop) (o : ScopeOrigin) (id : String)
    (body : SpanId → TraceBody η (Except ε α)) (w : World η) (e : Ending (Except ε α))
    (w' : World η) (i : SpanId) (created : SpanChange) (during after : List SpanChange)
    (nested : List SpanId) (w₁ : World η) : Prop where
  traces : w.Traces (created :: (during ++ after)) w'
  creates : created.creates i = true
  runs : (body i).Runs R (o.create id w).2 e w₁ during nested
  own : ∀ c ∈ after, c.span = i
  once : (created :: (during ++ after)).countP (·.creates i) = 1 ∧
    (created :: (during ++ after)).countP (·.closes i) = 1
  /-- The spans of scopes inside are created and closed by the end of the body. -/
  inside : ∀ j ∈ nested, j ≠ i ∧ during.countP (·.creates j) = 1 ∧ during.countP (·.closes j) = 1
  finishes : (∀ c ∈ during, ¬ c.closes i) →
    w₁.Finishes i ((statusSet i during).otherwise e.scopeStatus) e.scopeLevels after w'

open ClientRuntime.Fiber in
/-- Whatever a body does with spans, and however it ends, its scope creates one span and closes it
once, after those of all scopes inside. Unless the body closes that span itself, it ends with the
status that it was given, or else with that of the ending, and with a last word only if the scope
was dropped or unwound. -/
theorem scope_closes {η ε α : Type} {R : World η → World η → Prop}
    (hR : ∀ w w', R w w' → ∃ k, w.Traces k w') (o : ScopeOrigin) (id : String)
    (body : SpanId → TraceBody η (Except ε α)) {w w' : World η} {e : Ending (Except ε α)}
    (h : Run R (o.scope id fun i => (body i).fiber) w e w') :
    ∃ i created during after nested w₁,
      ClosesScope R o id body w e w' i created during after nested w₁ := by
  obtain ⟨w₁, hrun, rfl⟩ := TraceBody.run_scope.mp h
  obtain ⟨during, nested, hbody⟩ := TraceBody.exists_runs hR _ hrun
  obtain ⟨s, hcreated, hspan, hunset, hopen⟩ := o.create_opens id w
  set i := (o.create id w).1
  rw [← hspan] at hunset hopen
  have hi := World.lt_of_open hopen
  have hduring := hbody.traces.amounts
  have hend : ∃ after, w₁.Traces after (e.closeSpan i TraceBody.failed w₁) ∧
      (∀ c ∈ after, c.span = i) ∧ ((w₁.span i).closed = false →
        w₁.Finishes i ((w₁.span i).status.otherwise e.scopeStatus) e.scopeLevels after
          (e.closeSpan i TraceBody.failed w₁)) := by
    cases hclosed : (w₁.span i).closed with
    | true =>
      obtain ⟨after, htraces, hown, -⟩ := World.closeSpan_ends i TraceBody.failed e w₁
      exact ⟨after, htraces, hown, nofun⟩
    | false =>
      obtain ⟨after, hafter⟩ := World.closeSpan_finishes hclosed e
      exact ⟨after, hafter.traces, hafter.own, fun _ => hafter⟩
  obtain ⟨after, hafter, hown, hfinishes⟩ := hend
  have hall := hcreated.append (hbody.traces.append hafter)
  have hnew := hcreated.amounts.fresh (List.mem_singleton_self _) rfl
  have hthere := Nat.lt_of_lt_of_le hi (Nat.le_trans hduring.length hafter.amounts.length)
  refine ⟨i, ⟨i, s, .created⟩, during, after, nested, w₁, ?_⟩
  constructor
  case traces => exact hall
  case creates => simp [SpanChange.creates]
  case runs => exact hbody
  case own => exact hown
  case once =>
    constructor
    · rw [← List.singleton_append, hall.amounts.creations, if_pos ⟨hnew, hthere⟩]
    · exact hall.amounts.created_closed_once hnew hthere
        (World.closeSpan_closed i TraceBody.failed e w₁)
  case inside =>
    intro j hj
    obtain ⟨hlater, -⟩ := hbody.closed j hj
    exact ⟨Nat.ne_of_gt (Nat.lt_of_lt_of_le hi hlater), hbody.closed_once hj⟩
  case finishes =>
    intro hquiet
    have hstatus := (hbody.traces.kept hi).2
    rw [hunset] at hstatus
    have hfinished := hfinishes (hduring.stays_open hopen hquiet)
    rwa [hstatus] at hfinished

/-- Calls itself a success and waits in a scope inside. -/
def hopeful (i : SpanId) : TraceBody Unit (Except Unit Unit) :=
  .bind (.step (fun w => ((), (w.setStatus i .ok).2))
      fun w => ⟨_, w.setStatus_traces i (by decide)⟩)
    fun _ => .scope (.child i) "inner" fun _ =>
      .bind (.suspend fun _ => true) fun _ => .pure (.ok ())

/-- A world with a root span that is recorded. -/
def rootedWorld : World Unit :=
  (World.createRoot { World.start .epoch .epoch () with trace := .withRecordings 1 } "root"
    (.recording 0)).2

/-- Dropped in the scope inside, both spans are closed with a warning. The outer one keeps the
status that it had. -/
theorem scope_closes_hopeful : ∃ w' i created during after nested w₁,
    ClosesScope (fun w w' => w' = w) (.child 0) "outer" hopeful rootedWorld (.cut .dropped) w' i
      created during after nested w₁ ∧
    (w'.trace.recording 0).closed.toList = [("root/outer/inner", .unset), ("root/outer", .ok)] ∧
    (w'.trace.recording 0).events.toList.map (fun r => (r.span, r.event.level)) =
      [("root/outer/inner", .warning), ("root/outer", .warning)] := by
  obtain ⟨w', hrun, hseen⟩ : ∃ w', Fiber.Run (fun w w' => w' = w)
      ((ScopeOrigin.child 0).scope "outer" fun i => (hopeful i).fiber) rootedWorld (.cut .dropped)
        w' ∧
      ((w'.trace.recording 0).closed.toList,
        (w'.trace.recording 0).events.toList.map fun r => (r.span, r.event.level)) =
        ([("root/outer/inner", .unset), ("root/outer", .ok)],
          [("root/outer/inner", .warning), ("root/outer", .warning)]) :=
    Paused.exists_run_dropped (R := fun w w' => w' = w) (fun _ => rfl) 0 (by cbv)
  obtain ⟨hclosed, hevents⟩ := Prod.mk.inj hseen
  obtain ⟨i, created, during, after, nested, w₁, h⟩ :=
    scope_closes (fun w w' h => ⟨[], .aside (by rw [h]) (by rw [h])⟩) _ _ hopeful hrun
  exact ⟨w', i, created, during, after, nested, w₁, h, hclosed, hevents⟩

end ClientRuntime
