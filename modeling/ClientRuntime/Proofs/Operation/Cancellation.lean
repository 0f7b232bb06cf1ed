import ClientRuntime.Proofs.Operation.WellBracketed

/-!
What becomes of the span of an execution that is given up at a signal. Once the execution was
polled, its span closes in any case. If the signal has fired before, nobody closes the span.
-/

namespace ClientRuntime

open ClientRuntime.Fiber

variable {η : Type} {S : OperationShape} {id : ExecutionId} {x : SpanId}
  {op : OperationExecution η S}

namespace World

variable {w w' : World η}

/-- Spans only change through tracing operations, and the execution goes on reporting to `x`. -/
def Tracing (id : ExecutionId) (x : SpanId) (w w' : World η) : Prop :=
  (w.execution id).span = x → (w'.execution id).span = x ∧ ∃ k, w.Traces k w'

theorem tracing_composes (id : ExecutionId) (x : SpanId) :
    Composes (Tracing id x : World η → World η → Prop) where
  none w hx := ⟨hx, [], .aside rfl rfl⟩
  andThen h h' hx := by
    obtain ⟨hx₁, k, hk⟩ := h hx
    obtain ⟨hx₂, k', hk'⟩ := h' hx₁
    exact ⟨hx₂, k ++ k', hk.append hk'⟩

theorem tracing_lenient (id : ExecutionId) (x : SpanId) :
    Lenient (Tracing id x : World η → World η → Prop) id where
  toComposes := tracing_composes id x
  emit _ _ _ _ hx := ⟨hx, [], .aside rfl rfl⟩
  message _ _ hx := ⟨hx, [], .aside rfl rfl⟩
  post w e hx := by
    obtain ⟨k, hk, -⟩ := post_undecided w (w.execution id).span e
    exact ⟨by rw [(post_traced w _ e).execution, hx], k, hk⟩
  note w text hx := by
    refine ⟨?_, [], .aside rfl rfl⟩
    rw [execution_updateExecution (by exact fun _ => rfl), hx]

theorem closeSpan_tracing {α : Type} (i : SpanId) (failed : α → Bool) (e : Ending α)
    (w : World η) : w.Tracing id x (e.closeSpan i failed w) := by
  intro hx
  obtain ⟨k, hk, -⟩ := closeSpan_ends i failed e w
  exact ⟨by rw [(closeSpan_traced i failed e w).execution, hx], k, hk⟩

theorem createChild_tracing (w : World η) (parent : SpanId) (name : String) :
    w.Tracing id x (w.createChild parent name).2 := by
  intro hx
  exact ⟨by rw [(createChild_traced w parent name).execution, hx], _, .create w name _ _ _⟩

theorem beginAttempt_tracing (w : World η) (n : Nat) : w.Tracing id x (w.beginAttempt id n) := by
  intro hx
  exact ⟨by rw [execution_beginAttempt, hx], [], .aside rfl rfl⟩

theorem say_tracing (w : World η) (level : TraceLevel) (component text : String)
    (error : Option String) : w.Tracing id x (w.say x level component text error) := by
  rintro rfl
  exact (tracing_lenient id _).say w level component text error rfl

/-- A span is closed, and whoever listens was told so once. -/
structure ToldClosed (i : SpanId) (w w' : World η) : Prop where
  closed : (w'.span i).closed = true
  once : ∃ k, w.Traces k w' ∧ k.countP (·.closes i) = 1 ∧
    ∀ slot < w.trace.recordings.length, (w'.trace.recording slot).closed.toList =
      (w.trace.recording slot).closed.toList ++ k.flatMap (·.closings slot)

theorem ToldClosed.of_traces {i : SpanId} {k : List SpanChange} (hopen : (w.span i).closed = false)
    (hk : w.Traces k w') (hclosed : (w'.span i).closed = true) : w.ToldClosed i w' :=
  ⟨hclosed, k, hk, hk.amounts.closed_once hopen hclosed, hk.amounts.closed⟩

end World

namespace OperationExecution

variable {w w' : World η}

theorem attempt_tracing (h : op.Harmless (World.Tracing id x) id) (input : S.Input)
    (base : S.Request) (n : Nat) :
    (op.attempt id input base n).Stays (World.Tracing id x) (World.Tracing id x) := by
  have hT : Composes (World.Tracing id x : World η → World η → Prop) :=
    World.tracing_composes id x
  intro w e w' hrun hx
  obtain ⟨ended, hinside, rfl⟩ := run_attempt (World.tracing_lenient id x) h.like hx hrun
  let begun := w.beginAttempt id n
  let opened := (begun.createChild x (attemptName n)).2
  have hbegun : w.Tracing id x begun := World.beginAttempt_tracing w n
  have hopened : begun.Tracing id x opened := World.createChild_tracing begun x _
  have hclosed : ended.Tracing id x (e.closeSpan w.trace.spans.length _ ended) :=
    World.closeSpan_tracing w.trace.spans.length (fun made => failed made.1) e ended
  exact hT.andThen (hT.andThen (hT.andThen hbegun hopened) hinside) hclosed hx

/-- However an execution ends, its span is closed. -/
theorem execute_closes_span (h : op.Harmless (World.Tracing id x) id)
    (hstrategy : op.strategy.Sequential (World.Tracing id x) op.judge x) {input : S.Input}
    {e : Ending S.Result} (hx : (w.execution id).span = x)
    (hrun : Run (World.Tracing id x) (op.execute id input) w e w') :
    (∃ k, w.Traces k w') ∧ (w'.span x).closed = true := by
  have hT : Composes (World.Tracing id x : World η → World η → Prop) :=
    World.tracing_composes id x
  obtain ⟨w₁, hinside, rfl⟩ := run_execute (World.tracing_lenient id x) h hT (fun _ _ h => h)
    (fun _ _ h hx => h hx hx) hstrategy (attempt_tracing h) hx hrun
  have hclosed : w₁.Tracing id x (e.closeSpan x failed w₁) :=
    World.closeSpan_tracing x failed e w₁
  exact ⟨(hT.andThen hinside hclosed hx).2, World.closeSpan_closed x failed e w₁⟩

/-- Once an execution was polled, its span is closed, whether it ends or is given up, and whatever
hooks and collaborators do. If the signal has fired before the first poll, it is given up without
its span. -/
theorem executeUntil_closes_span (op : OperationExecution η S) (fired : World η → Bool)
    (id : ExecutionId) (input : S.Input) (x : SpanId) (hop : op.Harmless (World.Tracing id x) id)
    (hstrategy : op.strategy.Sequential (World.Tracing id x) op.judge x) {w w' : World η}
    {e : Ending S.Result} (hx : (w.execution id).span = x) (hopen : (w.span x).closed = false)
    (hrun : Run (World.Tracing id x) (op.executeUntil fired id input) w e w') :
    (fired w = false ∧ w.ToldClosed x w') ∨
      (fired w = true ∧ e = .returned (.error (OperationError.ofRetry .cancelled)) ∧
        w'.trace = w.trace) := by
  rcases hrun.giveUpWhen with ⟨hfired, hrun⟩ | ⟨hfired, hrun | ⟨w₁, hdropped, hrun⟩⟩
  · rw [run_modify_bind, run_pure] at hrun
    obtain ⟨rfl, rfl⟩ := hrun
    exact .inr ⟨hfired, rfl, rfl⟩
  · obtain ⟨⟨k, hk⟩, hclosed⟩ := execute_closes_span hop hstrategy hx hrun
    exact .inl ⟨hfired, .of_traces hopen hk hclosed⟩
  · obtain ⟨⟨k, hk⟩, hclosed⟩ := execute_closes_span hop hstrategy hx hdropped
    rw [run_modify_bind, run_pure] at hrun
    obtain ⟨rfl, rfl⟩ := hrun
    exact .inl ⟨hfired, .of_traces hopen (hk.append (.aside rfl rfl)) hclosed⟩

/-- Its transport never answers. -/
def unanswered : OperationExecution Unit numberShape :=
  { echo with
    send := fun _ _ => Fiber.hang
    interceptors := [] }

theorem unanswered_harmless {R : World Unit → World Unit → Prop} (hR : Composes R)
    (id : ExecutionId) : unanswered.Harmless R id where
  serialize _ := .pure hR _
  sign _ := .pure hR _
  send _ := .hang fun _ _ h => h
  deserialize _ := .pure hR _
  hooks i hi := by simp [unanswered] at hi

theorem unanswered_sequential (id : ExecutionId) (x : SpanId) :
    unanswered.strategy.Sequential (World.Tracing id x) unanswered.judge x := by
  refine RetryStrategy.single_sequential ?_ ?_
  · intro w level text error
    exact World.say_tracing w _ _ _ _
  · intro result w
    cases result <;> exact (World.tracing_composes id x).none w

/-- The signal fires while the first attempt is under way. -/
theorem executeUntil_closes_span_unanswered :
    ∃ w', Run (World.Tracing 0 0)
        (unanswered.executeUntil (fun w => (w.execution 0).attempt == 1) 0 7) recordedWorld
        (.returned (.error (OperationError.ofRetry .cancelled))) w' ∧
      recordedWorld.ToldClosed 0 w' ∧
      (w'.trace.recording 0).closed.toList = [("Echo/attempt-1", .unset), ("Echo", .unset)] := by
  have hT : Composes (World.Tracing 0 0 : World Unit → World Unit → Prop) :=
    World.tracing_composes 0 0
  have hrun : Run (World.Tracing 0 0)
      (unanswered.executeUntil (fun w => (w.execution 0).attempt == 1) 0 7) recordedWorld
      (.returned (.error (OperationError.ofRetry .cancelled))) _ :=
    Paused.run_of_ready hT.none 1 (by rfl)
  refine ⟨_, hrun, ?_, by rfl⟩
  rcases executeUntil_closes_span unanswered _ 0 7 0 (unanswered_harmless hT 0)
    (unanswered_sequential 0 0) rfl rfl hrun with ⟨-, h⟩ | ⟨hfired, -⟩
  · exact h
  · exact absurd hfired (by decide)

/-- A signal that has fired before the first poll leaves the span open, and nobody is told
anything. -/
theorem executeUntil_leaves_span_open :
    (recordedWorld.span 0).closed = false ∧
      ∃ w', Run (World.Tracing 0 0) (unanswered.executeUntil (fun _ => true) 0 7) recordedWorld
          (.returned (.error (OperationError.ofRetry .cancelled))) w' ∧
        (w'.span 0).closed = false ∧ (w'.trace.recording 0).closed.toList = [] := by
  have hT : Composes (World.Tracing 0 0 : World Unit → World Unit → Prop) :=
    World.tracing_composes 0 0
  exact ⟨rfl, _, Paused.run_of_ready hT.none 0 (by rfl), by rfl, by rfl⟩

end OperationExecution

end ClientRuntime
