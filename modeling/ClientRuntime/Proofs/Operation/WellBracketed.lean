import Mathlib.Data.List.Basic
import ClientRuntime.Proofs.Operation.Order
import ClientRuntime.Proofs.Operation.Spans

/-!
Executions are well bracketed on every way out. Whether an execution returns, is dropped where it is
suspended or unwinds, every span of its own closes once, attempts before whatever follows them, and
the status tells how the attempt or the execution ended.
-/

namespace ClientRuntime

open ClientRuntime.Fiber

variable {η : Type} {S : OperationShape}

namespace OperationExecution

/-- What happens to the spans of an execution that ends so: first while it runs, and then to the
span `x` that it reports to. -/
structure WellBracketed (holds : η → SpanId → Prop) (op : OperationExecution η S)
    (id : ExecutionId) (x : SpanId) (strict : Bool) (w : World η) (e : Ending S.Result)
    (w' : World η) (made : List (AttemptMade S)) (during after : List SpanChange) : Prop where
  /-- Attempts come one after the other. `x` is closed after the last of them. -/
  rounds : ∃ w₁, Rounds (World.Others holds id x strict) op id w made during w₁ ∧
    w₁.Traces after w' ∧ w' = e.closeSpan x failed w₁ ∧ ∀ c ∈ after, c.span = x
  apart : (x :: made.map (·.span)).Pairwise (· < ·)
  /-- No other span of an attempt was created. -/
  complete : ∀ c ∈ during, c.act = .created → c.OnAttempt x → c.span ∈ made.map (·.span)
  /-- Every span is closed in the end, and was closed once. -/
  closed : ∀ i ∈ x :: made.map (·.span),
    (w'.span i).closed = true ∧ (during ++ after).countP (·.closes i) = 1
  /-- Recordings show these closings, in this order and no others. -/
  recorded : ∀ slot < w.trace.recordings.length, (w'.trace.recording slot).closed.toList =
    (w.trace.recording slot).closed.toList ++ (during ++ after).flatMap (·.closings slot)
  /-- Each attempt's span opens and closes before the next one opens. -/
  attempts : outline (made.map (·.span)) (during ++ after) = made.flatMap (·.marks)
  /-- If nobody else closes `x` or sets its status, it ends after all attempts as the execution
  does. -/
  execution : strict = true → (∀ c ∈ during, c.span = x → ¬ c.Decides) ∧
    outline [x] after = (e.lastMarks failed).map (x, ·)

/-- Others have a hold of no span of an attempt. All else is up to them: what they do with their own
spans, with the span `x` if they are not strict, and whether and how the execution ends. -/
theorem execute_brackets_spans (op : OperationExecution η S) (holds : η → SpanId → Prop)
    (id : ExecutionId) (input : S.Input) (x : SpanId) (strict : Bool)
    (hop : op.Harmless (World.Others holds id x strict) id)
    (hstrategy : op.strategy.Sequential (World.Others holds id x strict) op.judge x)
    {w w' : World η} {e : Ending S.Result} (hx : (w.execution id).span = x)
    (hheld : ∀ i, holds w.host i → i < w.trace.spans.length)
    (hopen : (w.span x).closed = false) (hunset : (w.span x).status = .unset)
    (hrun : Run (World.Others holds id x strict) (op.execute id input) w e w') :
    ∃ made during after, WellBracketed holds op id x strict w e w' made during after := by
  have hR := World.others_lenient holds id x strict
  have hT := advances_composes holds op id x strict
  have hle (w w' : World η) (h : World.Others holds id x strict w w') :
      Advances holds op id x strict w w' := advances_of_others op h
  have hw : w.Ready holds id x := ⟨hx, World.lt_of_open hopen, hheld⟩
  obtain ⟨w₁, hadvances, rfl⟩ := run_execute hR hop hT hle (fun _ _ h hw => h hw.reports hw)
    hstrategy (attempt_advances hop) hx hrun
  obtain ⟨-, made, during, hrounds, hb⟩ := hadvances hw
  obtain ⟨after, hafter, hspan, hmarks⟩ := World.closeSpan_ends x failed e w₁
  have hall := hb.amounts.append hafter.amounts
  have hlater {m : AttemptMade S} (hm : m ∈ made) : x < m.span :=
    Nat.lt_of_lt_of_le hw.there (hb.attempts m hm).1
  refine ⟨made, during, after, ?_⟩
  constructor
  case rounds => exact ⟨w₁, hrounds, hafter, rfl, hspan⟩
  case apart =>
    refine List.pairwise_cons.mpr ⟨fun i hi => ?_, hb.sorted⟩
    obtain ⟨m, hm, rfl⟩ := List.mem_map.mp hi
    exact hlater hm
  case complete => exact hb.complete
  case closed =>
    intro i hi
    rcases List.mem_cons.mp hi with rfl | hi
    · have hclosed := World.closeSpan_closed i failed e w₁
      exact ⟨hclosed, hall.closed_once hopen hclosed⟩
    · obtain ⟨m, hm, rfl⟩ := List.mem_map.mp hi
      obtain ⟨hge, hattempt⟩ := hb.attempts m hm
      have hclosed := hafter.amounts.stays_closed hattempt.there (hb.closed m hm)
      have hthere := (hattempt.later hafter.amounts).there
      exact ⟨hclosed, hall.created_closed_once hge hthere hclosed⟩
  case recorded => exact hall.closed
  case attempts =>
    have hnot : ∀ c ∈ after, c.span ∈ made.map (·.span) → c.mark? = none := by
      intro c hc hin
      obtain ⟨m, hm, heq⟩ := List.mem_map.mp hin
      exact absurd (heq.trans (hspan c hc)) (Nat.ne_of_gt (hlater hm))
    rw [outline_append, outline_eq_nil hnot, List.append_nil]
    exact hb.outline
  case execution =>
    intro hstrict
    have hcivil := hb.civil hstrict
    refine ⟨hcivil, ?_⟩
    -- What others do to `x` leaves it open and without a status until the execution ends.
    obtain ⟨hstatus, hclosed⟩ := hb.amounts.undecided x hw.there hcivil
    rw [outline_of_span (List.mem_singleton_self x) hspan,
      hmarks (hclosed.trans hopen) (hstatus.trans hunset)]

/-- Makes a success of whatever an execution came to. -/
def forgiving : Interceptor Unit numberShape where
  describe := "Forgiving"
  modifyBeforeCompletion _ := return (.ok 0, .ok ())

/-- No attempt comes through, and nobody minds in the end. -/
def forgiven : OperationExecution Unit numberShape :=
  { echo with
    send := fun _ _ => do
      Fiber.suspend
      return .error refusal
    interceptors := [.logging, forgiving]
    strategy := StandardStrategy.twoAttempts.strategy }

/-- A world in which one execution is about to start, on a span that is recorded. -/
def recordedWorld : World Unit :=
  let w : World Unit := { World.start .epoch .epoch () with trace := .withRecordings 1 }
  ((w.createRoot "Echo" (.recording 0)).2.startExecution "Echo" "1" 0).2

theorem forgiving_harmless {R : World Unit → World Unit → Prop} (hR : Composes R)
    (id : ExecutionId) : forgiving.Harmless R id := by
  constructor
  all_goals exact fun _ _ => .pure hR _

theorem forgiven_harmless {R : World Unit → World Unit → Prop} {id : ExecutionId}
    (hR : World.Lenient R id) : forgiven.Harmless R id where
  serialize _ := .pure hR.toComposes _
  sign _ := .pure hR.toComposes _
  send _ := (Stays.suspend fun _ _ h => h).bind hR.toComposes fun _ => .pure hR.toComposes _
  deserialize _ := .pure hR.toComposes _
  hooks i hi := by
    have hi : i = .logging ∨ i = forgiving := by simpa [forgiven] using hi
    rcases hi with rfl | rfl
    · exact Interceptor.logging_harmless hR
    · exact forgiving_harmless hR.toComposes id

theorem twoAttempts_lenient {R : World Unit → World Unit → Prop} {id : ExecutionId} {x : SpanId}
    (hR : World.Lenient R id)
    (hsay : ∀ w level component text error, R w (w.say x level component text error))
    (hclock : ∀ (w : World Unit) clock, R w { w with clock }) :
    StandardStrategy.twoAttempts.Harmless R
      (StandardStrategy.retryErrors : Judge _ _ ServiceError) x where
  emit := hR.emit
  say w level text error := hsay w level _ text error
  acquire _ _ := .pure hR.toComposes _
  granted n cause w answer w' h t ht := by
    obtain ⟨⟨⟩, rfl⟩ := run_pure.mp h
    obtain ⟨⟩ := ht
    exact ⟨hR.none, fun _ => hR.none⟩
  judge result w := by cases result <;> exact hR.none w
  backoff _ w := hR.none w
  sleep _ := .modify fun w => hclock w _

theorem twoAttempts_harmless (holds : Unit → SpanId → Prop) (id : ExecutionId) (x : SpanId)
    (strict : Bool) : StandardStrategy.twoAttempts.Harmless (World.Others holds id x strict)
      (StandardStrategy.retryErrors : Judge _ _ ServiceError) x :=
  twoAttempts_lenient (World.others_lenient holds id x strict) World.others_say
    fun _ _ => World.others_aside rfl rfl rfl rfl

/-- It returns at the third poll, or it is dropped in the second attempt. -/
theorem execute_brackets_spans_forgiven :
    (∃ w' made during after,
      WellBracketed (fun _ _ => False) forgiven 0 0 true recordedWorld (.returned (.ok 0)) w' made
        during after ∧
      (w'.trace.recording 0).closed.toList =
        [("Echo/attempt-1", .error), ("Echo/attempt-2", .error), ("Echo", .unset)]) ∧
    ∃ w' made during after,
      WellBracketed (fun _ _ => False) forgiven 0 0 true recordedWorld (.cut .dropped) w' made
        during after ∧
      (w'.trace.recording 0).closed.toList =
        [("Echo/attempt-1", .error), ("Echo/attempt-2", .unset), ("Echo", .unset)] := by
  have hR : World.Lenient (World.Others (fun (_ : Unit) _ => False) 0 0 true) 0 :=
    World.others_lenient _ 0 0 true
  have bracketed {e : Ending numberShape.Result} {w' : World Unit}
      (hrun : Run (World.Others (fun _ _ => False) 0 0 true) (forgiven.execute 0 7) recordedWorld e
        w') :=
    execute_brackets_spans forgiven (fun _ _ => False) 0 7 0 true (forgiven_harmless hR)
      (StandardStrategy.sequential (twoAttempts_harmless _ 0 0 true)) rfl (fun _ h => h.elim) rfl
      rfl hrun
  constructor
  · have hrun : Run (World.Others (fun _ _ => False) 0 0 true) (forgiven.execute 0 7) recordedWorld
        (.returned (.ok 0)) _ := Paused.run_of_ready hR.none 2 (by cbv)
    obtain ⟨made, during, after, h⟩ := bracketed hrun
    exact ⟨_, made, during, after, h, by cbv⟩
  · obtain ⟨w', hrun, hclosed⟩ : ∃ w', Run (World.Others (fun _ _ => False) 0 0 true)
        (forgiven.execute 0 7) recordedWorld (.cut .dropped) w' ∧
        (w'.trace.recording 0).closed.toList =
          [("Echo/attempt-1", .error), ("Echo/attempt-2", .unset), ("Echo", .unset)] :=
      Paused.exists_run_dropped hR.none 1 (by cbv)
    obtain ⟨made, during, after, h⟩ := bracketed hrun
    exact ⟨w', made, during, after, h, hclosed⟩

end OperationExecution

end ClientRuntime
