import ClientRuntime.Proofs.Operation.Spans

/-!
Where attempts begin. An execution keeps the number of its attempt, and there is a span for each
attempt that is named after it; both change as an attempt begins and at no other time.
-/

namespace ClientRuntime

variable {η : Type} {id : ExecutionId}

/-- The number of the attempt that a span with this name is around. -/
def attemptNumber? (name : String) : Option Nat :=
  let n := Nat.ofDigitChars 10 (name.toList.drop "attempt-".length) 0
  if name = attemptName n then some n else none

theorem attemptNumber?_eq_some {name : String} {n : Nat} :
    attemptNumber? name = some n ↔ name = attemptName n := by
  constructor
  · intro h
    simp only [attemptNumber?] at h
    split at h
    · rwa [← Option.some.inj h]
    · cases h
  · rintro rfl
    have hdigits : (attemptName n).toList.drop "attempt-".length = Nat.toDigits 10 n := by
      rw [attemptName, String.toList_append]
      exact List.drop_left.trans Nat.toList_repr
    simp [attemptNumber?, hdigits, Nat.ofDigitChars_toDigits]

/-- The attempt that a child of the span `x` is around. -/
def Span.attemptOf (x : SpanId) (s : Span) : Option Nat :=
  if s.parent = some x then attemptNumber? s.id else none

namespace World

variable {w w₁ w₂ w' : World η} {ns ns' : List Nat}

/-- The attempt under way or last made, if there is such an execution. -/
def attempt (w : World η) (id : ExecutionId) : Option Nat := w.executions[id]?.map (·.attempt)

/-- The attempts that there are spans around within the span `x`, in the order of their creation. -/
def attemptSpans (w : World η) (x : SpanId) : List Nat := w.trace.spans.filterMap (·.attemptOf x)

/-- The execution begins attempts with these numbers, in this order and no others. -/
structure Begins (id : ExecutionId) (ns : List Nat) (w w' : World η) : Prop where
  reports : (w'.execution id).span = (w.execution id).span
  number : w'.attempt id = (w.attempt id).map fun n => ns.getLast?.getD n
  spans : w'.attemptSpans (w.execution id).span = w.attemptSpans (w.execution id).span ++ ns

theorem Begins.append (h : w.Begins id ns w₁) (h' : w₁.Begins id ns' w₂) :
    w.Begins id (ns ++ ns') w₂ where
  reports := h'.reports.trans h.reports
  number := by
    rw [h'.number, h.number, Option.map_map]
    congr 1
    funext n
    rw [List.getLast?_append]
    cases ns'.getLast? <;> rfl
  spans := by
    have hspans := h'.spans
    rw [h.reports] at hspans
    rw [hspans, h.spans, List.append_assoc]

theorem begins_of_eq (hreports : (w'.execution id).span = (w.execution id).span)
    (hnumber : w'.attempt id = w.attempt id)
    (hspans : ∀ x, w'.attemptSpans x = w.attemptSpans x) : w.Begins id [] w' where
  reports := hreports
  number := by simp [hnumber]
  spans := by simp [hspans]

theorem begins_aside (hexecutions : w'.executions = w.executions)
    (hspans : w'.trace.spans = w.trace.spans) : w.Begins id [] w' :=
  begins_of_eq (by simp [execution, hexecutions]) (by simp [attempt, hexecutions])
    fun x => by simp [attemptSpans, hspans]

/-- A span changes that keeps its name and its parent. -/
theorem begins_modify {i : SpanId} {f : Span → Span}
    (hf : ∀ s, (f s).id = s.id ∧ (f s).parent = s.parent)
    (hexecutions : w'.executions = w.executions)
    (hspans : w'.trace.spans = w.trace.spans.modify i f) : w.Begins id [] w' := by
  refine begins_of_eq (by simp [execution, hexecutions]) (by simp [attempt, hexecutions])
    fun x => ?_
  have hattempt (s : Span) : (f s).attemptOf x = s.attemptOf x := by
    simp [Span.attemptOf, (hf s).1, (hf s).2]
  rw [attemptSpans, attemptSpans, hspans]
  clear hspans
  generalize w.trace.spans = spans
  induction spans generalizing i with
  | nil => cases i <;> rfl
  | cons s spans ih =>
    cases i with
    | zero => simp [List.filterMap_cons, hattempt]
    | succ i =>
      have hrest : (spans.modify i f).filterMap (·.attemptOf x) =
        spans.filterMap (·.attemptOf x) := ih
      simp only [List.modify_succ_cons, List.filterMap_cons, hrest]

theorem begins_composes (id : ExecutionId) :
    Composes (Begins id [] : World η → World η → Prop) where
  none _ := begins_aside rfl rfl
  andThen h h' := h.append h'

theorem begins_say (w : World η) (i : SpanId) (level : TraceLevel) (component text : String)
    (error : Option String) : w.Begins id [] (w.say i level component text error) :=
  begins_aside (say_traced w i level component text error).executions
    (post_sameSpans (w.newMessage text).2 i _).spans

theorem begins_setStatus (w : World η) (i : SpanId) (status : SpanStatus) :
    w.Begins id [] (w.setStatus i status).2 := by
  unfold setStatus
  split
  · exact begins_aside rfl rfl
  · exact begins_modify (f := fun s => { s with status }) (fun _ => ⟨rfl, rfl⟩) rfl rfl

theorem begins_close (w : World η) (i : SpanId) : w.Begins id [] (w.close i) := by
  simp only [close]
  split
  · exact begins_aside rfl rfl
  · let closed := w.updateSpan i fun s => { s with closed := true }
    have hclosed : w.Begins id [] closed :=
      begins_modify (f := fun s => { s with closed := true }) (fun _ => ⟨rfl, rfl⟩) rfl rfl
    have htold := Reports.probe (closed.span i) (closed.span i).probe closed
    have htraced := closed_traced (closed.span i) (closed.span i).probe closed
    exact hclosed.append (begins_aside htraced.executions htold.spans)

theorem begins_closeSpan {α : Type} (i : SpanId) (failed : α → Bool) (e : Ending α)
    (w : World η) : w.Begins id [] (e.closeSpan i failed w) := by
  have hnone := (begins_composes id).none w
  cases e with
  | returned a =>
    simp only [Ending.closeSpan, finishSpan]
    cases failed a with
    | true => exact (begins_setStatus w i _).append (begins_close _ i)
    | false => exact begins_close w i
  | cut c =>
    cases c with
    | dropped =>
      simp only [Ending.closeSpan, dropGuard]
      split
      · exact hnone
      · exact (begins_say w i _ _ _ _).append (begins_close _ i)
    | unwound text =>
      simp only [Ending.closeSpan, unwindGuard]
      split
      · exact hnone
      · exact ((begins_setStatus w i _).append (begins_say _ i _ _ _ _)).append (begins_close _ i)

theorem attempt_updateExecution (f : Execution → Execution) :
    (w.updateExecution id f).attempt id = w.executions[id]?.map fun e => (f e).attempt := by
  simp [attempt, updateExecution, Function.comp_def]

theorem begins_lenient (id : ExecutionId) :
    Lenient (Begins id [] : World η → World η → Prop) id where
  toComposes := begins_composes id
  emit _ _ _ _ := begins_aside rfl rfl
  message _ _ := begins_aside rfl rfl
  post w e := begins_aside (post_traced w _ e).executions (post_sameSpans w _ e).spans
  note w text := by
    refine begins_of_eq (execution_updateExecution (by exact fun _ => rfl) _ _) ?_ fun _ => rfl
    rw [attempt_updateExecution]
    rfl

/-- An attempt begins with its number and its span. -/
theorem begins_attempt (w : World η) (id : ExecutionId) (n : Nat) :
    w.Begins id [n]
      ((w.beginAttempt id n).createChild (w.execution id).span (attemptName n)).2 := by
  let begun := w.beginAttempt id n
  have hcreated := createChild_traced begun (w.execution id).span (attemptName n)
  have hspans := createSpan_spans begun (attemptName n) (begun.span (w.execution id).span).path
    (some (w.execution id).span) (begun.span (w.execution id).span).probe
  constructor
  case reports => rw [hcreated.execution, execution_beginAttempt]
  case number =>
    rw [attempt, hcreated.executions, ← attempt]
    show (w.beginAttempt id n).attempt id = _
    rw [beginAttempt, attempt_updateExecution, attempt, Option.map_map]
    rfl
  case spans =>
    have hnew : (Span.fresh (attemptName n) (begun.span (w.execution id).span).path
        (some (w.execution id).span) (begun.span (w.execution id).span).probe).attemptOf
        (w.execution id).span = some n := by
      simp [Span.fresh, Span.attemptOf, attemptNumber?_eq_some]
    rw [attemptSpans, createChild, hspans, List.filterMap_append, List.filterMap_cons_some hnew]
    rfl

end World

end ClientRuntime
