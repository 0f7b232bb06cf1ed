import ClientRuntime.Proofs.Operation.Harmless
import ClientRuntime.Proofs.Trace.Brackets

/-!
What others may do about the spans of an execution while it runs. They never get at the spans around
its attempts. Whether they may close the span that it reports to, or set its status, is left open.
-/

namespace ClientRuntime

variable {η : Type} {holds : η → SpanId → Prop} {id : ExecutionId} {x : SpanId} {strict : Bool}

/-- The name of a span around an attempt. -/
def attemptName (n : Nat) : String := "attempt-" ++ toString n

/-- It is about a span that is named like one around an attempt, within the span `x`. -/
def SpanChange.OnAttempt (x : SpanId) (c : SpanChange) : Prop :=
  c.span ≠ x ∧ c.seen.parent = some x ∧ ∃ n, c.seen.id = attemptName n

/-- What others may do. Names of attempts are not for spans of their own, and spans with such a name
are left alone by whoever cannot reach them. If others are strict, they neither close `x` nor set
its status. -/
structure SpanChange.Permitted (x : SpanId) (strict : Bool) (reached : SpanId → Prop)
    (c : SpanChange) : Prop where
  attempt : c.OnAttempt x → c.act ≠ .created ∧ reached c.span
  execution : strict = true → c.span = x → ¬ c.Decides

theorem SpanChange.Permitted.mono {reached reached' : SpanId → Prop} {c : SpanChange}
    (h : c.Permitted x strict reached) (hreached : ∀ i, reached i → reached' i) :
    c.Permitted x strict reached' :=
  ⟨fun hc => (h.attempt hc).imp_right (hreached _), h.execution⟩

namespace World

variable {w w₁ w₂ w' : World η} {k k' : List SpanChange}

/-- Others can get at a span. Either what they have stored tells of it, or it is not there yet. -/
def Reached (holds : η → SpanId → Prop) (w : World η) (i : SpanId) : Prop :=
  holds w.host i ∨ w.trace.spans.length ≤ i

/-- Changes that others make. What `holds` says they know of spans comes from the spans that they
create. -/
structure Spares (holds : η → SpanId → Prop) (id : ExecutionId) (x : SpanId) (strict : Bool)
    (k : List SpanChange) (w w' : World η) : Prop where
  reports : (w'.execution id).span = x
  traces : w.Traces k w'
  held : ∀ i, holds w'.host i →
    holds w.host i ∨ w.trace.spans.length ≤ i ∧ i < w'.trace.spans.length
  permitted : ∀ c ∈ k, c.Permitted x strict (w.Reached holds)

theorem Spares.reached (h : w.Spares holds id x strict k w') {i : SpanId}
    (hi : w'.Reached holds i) : w.Reached holds i := by
  rcases hi with hi | hi
  · exact (h.held i hi).imp_right (·.1)
  · exact .inr (Nat.le_trans h.traces.amounts.length hi)

theorem Spares.append (h : w.Spares holds id x strict k w₁)
    (h' : w₁.Spares holds id x strict k' w₂) : w.Spares holds id x strict (k ++ k') w₂ := by
  have hle := h.traces.amounts.length
  have hle' := h'.traces.amounts.length
  constructor
  case reports => exact h'.reports
  case traces => exact h.traces.append h'.traces
  case held =>
    intro i hi
    rcases h'.held i hi with hi | ⟨hge, hlt⟩
    · rcases h.held i hi with hi | ⟨hge, hlt⟩
      · exact .inl hi
      · exact .inr ⟨hge, Nat.lt_of_lt_of_le hlt hle'⟩
    · exact .inr ⟨Nat.le_trans hle hge, hlt⟩
  case permitted =>
    intro c hc
    rcases List.mem_append.mp hc with hc | hc
    · exact h.permitted c hc
    · exact (h'.permitted c hc).mono fun _ => h.reached

/-- What others may do while an execution runs that reports to `x`. -/
def Others (holds : η → SpanId → Prop) (id : ExecutionId) (x : SpanId) (strict : Bool)
    (w w' : World η) : Prop :=
  (w.execution id).span = x → ∃ k, w.Spares holds id x strict k w'

theorem others_composes (holds : η → SpanId → Prop) (id : ExecutionId) (x : SpanId)
    (strict : Bool) : Composes (Others holds id x strict) where
  none w hx := ⟨[], hx, .aside rfl rfl, fun _ => .inl, by simp⟩
  andThen h h' hx := by
    obtain ⟨k, hk⟩ := h hx
    obtain ⟨k', hk'⟩ := h' hk.reports
    exact ⟨k ++ k', hk.append hk'⟩

theorem execution_updateExecution {f : Execution → Execution} (hf : ∀ e, (f e).span = e.span)
    (i j : ExecutionId) : ((w.updateExecution i f).execution j).span = (w.execution j).span := by
  simp only [updateExecution, execution, List.getD_eq_getElem?_getD, List.getElem?_modify]
  cases w.executions[j]? with
  | none => rfl
  | some e => by_cases h : i = j <;> simp [h, hf]

theorem execution_beginAttempt (w : World η) (n : Nat) (i j : ExecutionId) :
    ((w.beginAttempt i n).execution j).span = (w.execution j).span := by
  unfold beginAttempt
  exact execution_updateExecution (by exact fun _ => rfl) i j

/-- What leaves executions, the host part, spans and recordings alone. -/
theorem others_aside (hexecutions : w'.executions = w.executions) (hhost : w'.host = w.host)
    (hspans : w'.trace.spans = w.trace.spans)
    (hrecordings : w'.trace.recordings = w.trace.recordings) : w.Others holds id x strict w' := by
  intro hx
  refine ⟨[], ?_, .aside hspans hrecordings, ?_, by simp⟩
  · rwa [execution, hexecutions, ← execution]
  · rw [hhost]
    exact fun _ => .inl

theorem others_emit (w : World η) (level : LogLevel) (fields : List (String × LogValue))
    (message : String) : w.Others holds id x strict (w.emit level fields message) :=
  others_aside rfl rfl rfl rfl

/-- An event that is posted to a span leaves it open, and without a status if it has none. -/
theorem post_undecided (w : World η) (i : SpanId) (e : TraceEvent) :
    ∃ k, w.Traces k (w.post i e) ∧ ∀ c ∈ k, c.span = i ∧ ¬ c.Decides := by
  cases hclosed : (w.span i).closed with
  | true =>
    have hpost : w.post i e = w.warnDropped i 1 := by simp [post, hclosed]
    rw [hpost]
    exact ⟨[], .aside rfl rfl, by simp⟩
  | false =>
    refine ⟨_, .post e hclosed, fun c hc => ?_⟩
    obtain rfl := List.mem_singleton.mp hc
    exact ⟨rfl, fun h => h⟩

theorem others_lenient (holds : η → SpanId → Prop) (id : ExecutionId) (x : SpanId)
    (strict : Bool) : Lenient (Others holds id x strict) id where
  toComposes := others_composes holds id x strict
  emit := others_emit
  message _ _ := others_aside rfl rfl rfl rfl
  post w e := by
    rintro rfl
    have traced := post_traced w (w.execution id).span e
    obtain ⟨k, hk, hall⟩ := post_undecided w (w.execution id).span e
    refine ⟨k, ?_⟩
    constructor
    case reports => rw [traced.execution]
    case traces => exact hk
    case held =>
      rw [traced.host]
      exact fun _ => .inl
    case permitted =>
      intro c hc
      obtain ⟨hspan, hundecided⟩ := hall c hc
      exact ⟨fun hattempt => (hattempt.1 hspan).elim, fun _ _ => hundecided⟩
  note w text := by
    intro hx
    refine ⟨[], ?_, .aside rfl rfl, fun _ => .inl, by simp⟩
    rw [execution_updateExecution (by exact fun _ => rfl), hx]

theorem others_say (w : World η) (level : TraceLevel) (component text : String)
    (error : Option String) : w.Others holds id x strict (w.say x level component text error) := by
  rintro rfl
  exact (others_lenient holds id _ strict).say w level component text error rfl

end World

end ClientRuntime
