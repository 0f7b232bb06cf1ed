import ClientRuntime.Proofs.Operation.Others
import ClientRuntime.Proofs.Retry.Sequence

/-!
The spans of an execution, from its first poll to whatever end. The spans around its attempts open
and close one after the other, and then the span that it reports to closes.
-/

namespace ClientRuntime

open ClientRuntime.Fiber

variable {η : Type} {S : OperationShape} {holds : η → SpanId → Prop} {id : ExecutionId} {x : SpanId}
  {strict : Bool} {op : OperationExecution η S} {R : World η → World η → Prop}
  {w w₁ w₂ w' : World η}

/-- An attempt that was begun, its span, and how it ended. -/
structure AttemptMade (S : OperationShape) where
  number : Nat
  span : SpanId
  ending : Ending (S.Result × Exchange S)

namespace OperationExecution

/-- Attempts one after the other, each from where the ones before it and the steps in between have
led to. -/
inductive Rounds (R : World η → World η → Prop) (op : OperationExecution η S) (id : ExecutionId) :
    World η → List (AttemptMade S) → List SpanChange → World η → Prop where
  | rest {w k w'} : w.Traces k w' → Rounds R op id w [] k w'
  | next {w k w₁ input base n e k₁ w₂ made k₂ w'} : w.Traces k w₁ →
      Run R (op.attempt id input base n) w₁ e w₂ → w₁.Traces k₁ w₂ →
      Rounds R op id w₂ made k₂ w' →
      Rounds R op id w (⟨n, w₁.trace.spans.length, e⟩ :: made) (k ++ (k₁ ++ k₂)) w'

namespace Rounds

variable {made made' : List (AttemptMade S)} {k k' : List SpanChange}

theorem traces (h : Rounds R op id w made k w') : w.Traces k w' := by
  induction h with
  | rest hk => exact hk
  | next hk _ hk₁ _ ih => exact hk.append (hk₁.append ih)

theorem after (hk : w.Traces k w₁) (h : Rounds R op id w₁ made k' w') :
    Rounds R op id w made (k ++ k') w' := by
  cases h with
  | rest hk' => exact .rest (hk.append hk')
  | next hk' hrun hk₁ hrest =>
    rw [← List.append_assoc]
    exact .next (hk.append hk') hrun hk₁ hrest

theorem append (h : Rounds R op id w made k w₁) (h' : Rounds R op id w₁ made' k' w') :
    Rounds R op id w (made ++ made') (k ++ k') w' := by
  induction h with
  | rest hk => exact h'.after hk
  | next hk hrun hk₁ _ ih =>
    rw [List.append_assoc, List.append_assoc]
    exact .next hk hrun hk₁ (ih h')

end Rounds

end OperationExecution

/-- All marks of the attempt's span, in order. -/
def AttemptMade.marks (m : AttemptMade S) : List (SpanId × SpanMark) :=
  (m.ending.marks fun made => OperationExecution.failed made.1).map (m.span, ·)

namespace World

/-- There is a span around an attempt. -/
structure HasAttempt (x i : SpanId) (w : World η) : Prop where
  other : i ≠ x
  there : i < w.trace.spans.length
  parent : (w.span i).parent = some x
  name : ∃ n, (w.span i).id = attemptName n

theorem HasAttempt.later {i : SpanId} {k : List SpanChange} (h : w.HasAttempt x i)
    (hk : Amounts k w w') : w'.HasAttempt x i := by
  obtain ⟨hid, hparent⟩ := hk.named i h.there
  exact ⟨h.other, Nat.lt_of_lt_of_le h.there hk.length, hparent.trans h.parent,
    by rw [hid]; exact h.name⟩

/-- Nothing happens to a span around an attempt that others cannot reach. -/
theorem HasAttempt.untouched {i : SpanId} {k : List SpanChange} (h : w.HasAttempt x i)
    (hk : Amounts k w w') (hspared : ∀ c ∈ k, c.OnAttempt x → w.Reached holds c.span)
    (hhidden : ¬ w.Reached holds i) : ∀ c ∈ k, c.span ≠ i := by
  rintro c hc rfl
  obtain ⟨-, hid, hparent⟩ := hk.seen c hc
  have later := h.later hk
  have hattempt : c.OnAttempt x :=
    ⟨h.other, hparent.trans later.parent, by rw [hid]; exact later.name⟩
  exact hhidden (hspared c hc hattempt)

/-- The execution reports to a span that is there, and so are the spans that others have a hold
of. -/
structure Ready (holds : η → SpanId → Prop) (id : ExecutionId) (x : SpanId) (w : World η) :
    Prop where
  reports : (w.execution id).span = x
  there : x < w.trace.spans.length
  held : ∀ i, holds w.host i → i < w.trace.spans.length

/-- The span of an attempt was just created. -/
structure AttemptOpened (x : SpanId) (s : Span) (w opened : World η) : Prop where
  traces : w.Traces [⟨w.trace.spans.length, s, .created⟩] opened
  spans : opened.trace.spans = w.trace.spans ++ [s]
  host : opened.host = w.host
  parent : s.parent = some x
  name : ∃ n, s.id = attemptName n
  opened : s.closed = false
  unset : s.status = .unset

namespace AttemptOpened

variable {s : Span} {opened ended : World η} {k : List SpanChange}

theorem length (h : w.AttemptOpened x s opened) :
    opened.trace.spans.length = w.trace.spans.length + 1 := by simp [h.spans]

theorem span_self (h : w.AttemptOpened x s opened) : opened.span w.trace.spans.length = s :=
  span_of_append_self h.spans

theorem hasAttempt (h : w.AttemptOpened x s opened) (hw : w.Ready holds id x) :
    opened.HasAttempt x w.trace.spans.length where
  other := Nat.ne_of_gt hw.there
  there := by simp [h.length]
  parent := by rw [h.span_self, h.parent]
  name := by rw [h.span_self]; exact h.name

theorem hidden (h : w.AttemptOpened x s opened) (hw : w.Ready holds id x) :
    ¬ opened.Reached holds w.trace.spans.length := by
  rintro (hheld | hge)
  · rw [h.host] at hheld
    exact Nat.lt_irrefl _ (hw.held _ hheld)
  · rw [h.length] at hge
    omega

theorem untouched (h : w.AttemptOpened x s opened) (hw : w.Ready holds id x)
    (hinside : opened.Spares holds id x strict k ended) :
    ∀ c ∈ k, c.span ≠ w.trace.spans.length :=
  (h.hasAttempt hw).untouched hinside.traces.amounts
    (fun c hc hattempt => ((hinside.permitted c hc).attempt hattempt).2) (h.hidden hw)

theorem held (h : w.AttemptOpened x s opened) (hinside : opened.Spares holds id x strict k ended)
    {i : SpanId} (hi : holds ended.host i) : holds w.host i ∨
      w.trace.spans.length ≤ i ∧ i < ended.trace.spans.length ∧ i ≠ w.trace.spans.length := by
  rcases hinside.held i hi with hi | ⟨hge, hlt⟩
  · rw [h.host] at hi
    exact .inl hi
  · rw [h.length] at hge
    exact .inr ⟨Nat.le_of_succ_le hge, hlt, Nat.ne_of_gt hge⟩

/-- Nobody else knows the span, so that it is still open and without a status when it ends. -/
theorem outline_eq (h : w.AttemptOpened x s opened) (hw : w.Ready holds id x)
    (hinside : opened.Spares holds id x strict k ended) {k' : List SpanChange}
    {marks : List SpanMark} (hk' : ∀ c ∈ k', c.span = w.trace.spans.length)
    (hmarks : (ended.span w.trace.spans.length).closed = false →
      (ended.span w.trace.spans.length).status = .unset → k'.filterMap (·.mark?) = marks) :
    outline [w.trace.spans.length] (⟨w.trace.spans.length, s, .created⟩ :: (k ++ k')) =
      (SpanMark.opened :: marks).map (w.trace.spans.length, ·) := by
  have huntouched := h.untouched hw hinside
  obtain ⟨hstatus, hopen⟩ := hinside.traces.amounts.undecided _ (h.hasAttempt hw).there
    fun c hc hspan => (huntouched c hc hspan).elim
  rw [h.span_self] at hstatus hopen
  have hbetween : outline [w.trace.spans.length] k = [] :=
    outline_eq_nil fun c hc hin => (huntouched c hc (List.mem_singleton.mp hin)).elim
  have hend := outline_of_span (List.mem_singleton_self w.trace.spans.length) hk'
  have hfirst : outline [w.trace.spans.length]
      (⟨w.trace.spans.length, s, .created⟩ :: (k ++ k')) =
      (w.trace.spans.length, .opened) :: outline [w.trace.spans.length] (k ++ k') := by
    simp [outline, SpanChange.mark?]
  rw [hfirst, outline_append, hbetween, hend, hmarks (hopen.trans h.opened) (hstatus.trans h.unset)]
  rfl

end AttemptOpened

theorem beginAttempt_opens (w : World η) (id : ExecutionId) (x : SpanId) (n : Nat) :
    ∃ s, w.AttemptOpened x s ((w.beginAttempt id n).createChild x (attemptName n)).2 := by
  let begun := w.beginAttempt id n
  let p := begun.span x
  have hbegun : w.Traces [] begun := .aside rfl rfl
  have hcreated := Traces.create begun (attemptName n) p.path (some x) p.probe
  refine ⟨.fresh (attemptName n) p.path (some x) p.probe, ?_⟩
  constructor
  case traces => exact hbegun.append hcreated
  case spans => exact createSpan_spans begun (attemptName n) p.path (some x) p.probe
  case host => exact (createChild_traced begun x (attemptName n)).host
  case name => exact ⟨n, rfl⟩
  case parent | opened | unset => rfl

end World

/-- The spans around these attempts, and no others, were opened and closed again. Others did not
get a hold of them. -/
structure Bracketed (holds : η → SpanId → Prop) (x : SpanId) (strict : Bool)
    (made : List (AttemptMade S)) (k : List SpanChange) (w w' : World η) : Prop where
  amounts : w.Amounts k w'
  sorted : (made.map (·.span)).Pairwise (· < ·)
  attempts : ∀ m ∈ made, w.trace.spans.length ≤ m.span ∧ w'.HasAttempt x m.span
  complete : ∀ c ∈ k, c.act = .created → c.OnAttempt x → c.span ∈ made.map (·.span)
  closed : ∀ m ∈ made, (w'.span m.span).closed = true
  held : ∀ i, holds w'.host i → holds w.host i ∨
    w.trace.spans.length ≤ i ∧ i < w'.trace.spans.length ∧ i ∉ made.map (·.span)
  spared : ∀ c ∈ k, c.OnAttempt x → w.Reached holds c.span
  civil : strict = true → ∀ c ∈ k, c.span = x → ¬ c.Decides
  outline : outline (made.map (·.span)) k = made.flatMap (·.marks)

namespace Bracketed

variable {made made' : List (AttemptMade S)} {k k' : List SpanChange}

theorem of_spares (h : w.Spares holds id x strict k w') :
    Bracketed (S := S) holds x strict [] k w w' where
  amounts := h.traces.amounts
  sorted := .nil
  attempts := by simp
  complete c hc hcreated hattempt := (((h.permitted c hc).attempt hattempt).1 hcreated).elim
  closed := by simp
  held := by simpa using h.held
  spared c hc hattempt := ((h.permitted c hc).attempt hattempt).2
  civil hstrict c hc := (h.permitted c hc).execution hstrict
  outline := outline_eq_nil (by simp)

theorem ready (h : Bracketed holds x strict made k w w') (hw : w.Ready holds id x)
    (hreports : (w'.execution id).span = x) : w'.Ready holds id x where
  reports := hreports
  there := Nat.lt_of_lt_of_le hw.there h.amounts.length
  held i hi := by
    rcases h.held i hi with hi | ⟨-, hlt, -⟩
    · exact Nat.lt_of_lt_of_le (hw.held i hi) h.amounts.length
    · exact hlt

/-- Others cannot reach the spans of attempts. -/
theorem hidden (h : Bracketed holds x strict made k w w') (hw : w.Ready holds id x) :
    ∀ m ∈ made, ¬ w'.Reached holds m.span := by
  intro m hm hreached
  obtain ⟨hge, hattempt⟩ := h.attempts m hm
  rcases hreached with hheld | hge'
  · rcases h.held _ hheld with hheld | ⟨-, -, hnot⟩
    · exact Nat.not_lt.mpr hge (hw.held _ hheld)
    · exact hnot (List.mem_map_of_mem hm)
  · exact Nat.not_lt.mpr hge' hattempt.there

theorem append_held (h : Bracketed holds x strict made k w w₁)
    (h' : Bracketed holds x strict made' k' w₁ w') {i : SpanId} (hi : holds w'.host i) :
    holds w.host i ∨ w.trace.spans.length ≤ i ∧ i < w'.trace.spans.length ∧
      i ∉ (made ++ made').map (·.span) := by
  have hmem : i ∈ (made ++ made').map (·.span) ↔
      i ∈ made.map (·.span) ∨ i ∈ made'.map (·.span) := by simp
  rcases h'.held i hi with hi | ⟨hge, hlt, hnot⟩
  · rcases h.held i hi with hi | ⟨hge, hlt, hnot⟩
    · exact .inl hi
    · refine .inr ⟨hge, Nat.lt_of_lt_of_le hlt h'.amounts.length, fun hin => ?_⟩
      rcases hmem.mp hin with hin | hin
      · exact hnot hin
      · obtain ⟨m, hm, rfl⟩ := List.mem_map.mp hin
        exact Nat.not_lt.mpr (h'.attempts m hm).1 hlt
  · refine .inr ⟨Nat.le_trans h.amounts.length hge, hlt, fun hin => ?_⟩
    rcases hmem.mp hin with hin | hin
    · obtain ⟨m, hm, rfl⟩ := List.mem_map.mp hin
      exact Nat.not_lt.mpr hge (h.attempts m hm).2.there
    · exact hnot hin

/-- Earlier changes come before the later spans; later changes pass by the earlier spans. -/
theorem append_outline (h : Bracketed holds x strict made k w w₁)
    (h' : Bracketed holds x strict made' k' w₁ w') (hw : w.Ready holds id x) :
    ClientRuntime.outline ((made ++ made').map (·.span)) (k ++ k') =
      (made ++ made').flatMap (·.marks) := by
  have first : ∀ c ∈ k, c.span ∉ made'.map (·.span) := by
    intro c hc hin
    obtain ⟨m, hm, hspan⟩ := List.mem_map.mp hin
    have hlt := (h.amounts.seen c hc).1
    rw [← hspan] at hlt
    exact Nat.not_lt.mpr (h'.attempts m hm).1 hlt
  have second : ∀ c ∈ k', c.span ∉ made.map (·.span) := by
    intro c hc hin
    obtain ⟨m, hm, hspan⟩ := List.mem_map.mp hin
    exact (h.attempts m hm).2.untouched h'.amounts h'.spared (h.hidden hw m hm) c hc hspan.symm
  rw [List.flatMap_append, ← h.outline, ← h'.outline, List.map_append, outline_append]
  congr 1
  · exact outline_congr fun c hc _ => by simp [first c hc]
  · exact outline_congr fun c hc _ => by simp [second c hc]

theorem append (h : Bracketed holds x strict made k w w₁)
    (h' : Bracketed holds x strict made' k' w₁ w') (hw : w.Ready holds id x) :
    Bracketed holds x strict (made ++ made') (k ++ k') w w' := by
  have hle := h.amounts.length
  constructor
  case amounts => exact h.amounts.append h'.amounts
  case sorted =>
    rw [List.map_append]
    refine List.pairwise_append.mpr ⟨h.sorted, h'.sorted, ?_⟩
    simp only [List.mem_map]
    rintro _ ⟨m, hm, rfl⟩ _ ⟨m', hm', rfl⟩
    exact Nat.lt_of_lt_of_le (h.attempts m hm).2.there (h'.attempts m' hm').1
  case attempts =>
    intro m hm
    rcases List.mem_append.mp hm with hm | hm
    · exact ⟨(h.attempts m hm).1, (h.attempts m hm).2.later h'.amounts⟩
    · exact ⟨Nat.le_trans hle (h'.attempts m hm).1, (h'.attempts m hm).2⟩
  case complete =>
    intro c hc hcreated hattempt
    rw [List.map_append]
    rcases List.mem_append.mp hc with hc | hc
    · exact List.mem_append_left _ (h.complete c hc hcreated hattempt)
    · exact List.mem_append_right _ (h'.complete c hc hcreated hattempt)
  case closed =>
    intro m hm
    rcases List.mem_append.mp hm with hm | hm
    · exact h'.amounts.stays_closed (h.attempts m hm).2.there (h.closed m hm)
    · exact h'.closed m hm
  case held => exact fun i => h.append_held h'
  case spared =>
    intro c hc hattempt
    rcases List.mem_append.mp hc with hc | hc
    · exact h.spared c hc hattempt
    · rcases h'.spared c hc hattempt with hheld | hge
      · exact (h.held _ hheld).imp_right (·.1)
      · exact .inr (Nat.le_trans hle hge)
  case civil =>
    intro hstrict c hc
    rcases List.mem_append.mp hc with hc | hc
    · exact h.civil hstrict c hc
    · exact h'.civil hstrict c hc
  case outline => exact h.append_outline h' hw

/-- One attempt: its span is created, others do what they may, and the span ends. -/
theorem single {opened ended : World η} {n : Nat} {e : Ending (S.Result × Exchange S)} {s : Span}
    (hw : w.Ready holds id x) (hopened : w.AttemptOpened x s opened)
    (hinside : opened.Spares holds id x strict k ended)
    (hclose : w' =
      e.closeSpan w.trace.spans.length (fun r => OperationExecution.failed r.1) ended) :
    ∃ k', ended.Traces k' w' ∧ Bracketed (S := S) holds x strict [⟨n, w.trace.spans.length, e⟩]
      (⟨w.trace.spans.length, s, .created⟩ :: (k ++ k')) w w' := by
  subst hclose
  let failed (made : S.Result × Exchange S) := OperationExecution.failed made.1
  obtain ⟨k', hended, hk', hmarks⟩ := World.closeSpan_ends w.trace.spans.length failed e ended
  have hhost := (World.closeSpan_traced w.trace.spans.length failed e ended).host
  have hclosed := World.closeSpan_closed w.trace.spans.length failed e ended
  have hne : w.trace.spans.length ≠ x := Nat.ne_of_gt hw.there
  have hlater := ((hopened.hasAttempt hw).later hinside.traces.amounts).later hended.amounts
  have hmem {c : SpanChange} (hc : c ∈ (⟨w.trace.spans.length, s, .created⟩ :: (k ++ k'))) :
      c = ⟨w.trace.spans.length, s, .created⟩ ∨ c ∈ k ∨ c ∈ k' := by simpa using hc
  refine ⟨k', hended, ?_⟩
  constructor
  case amounts => exact (hopened.traces.append (hinside.traces.append hended)).amounts
  case sorted => simp
  case attempts => simpa using hlater
  case complete =>
    intro c hc hact hattempt
    rcases hmem hc with rfl | hc | hc
    · simp
    · exact (((hinside.permitted c hc).attempt hattempt).1 hact).elim
    · simp [hk' c hc]
  case closed => simpa using hclosed
  case held =>
    intro i hi
    rw [hhost] at hi
    rcases hopened.held hinside hi with hi | ⟨hge, hlt, hnew⟩
    · exact .inl hi
    · exact .inr ⟨hge, Nat.lt_of_lt_of_le hlt hended.amounts.length, by simpa using hnew⟩
  case spared =>
    intro c hc hattempt
    rcases hmem hc with rfl | hc | hc
    · exact .inr (Nat.le_refl _)
    · rcases ((hinside.permitted c hc).attempt hattempt).2 with hheld | hge
      · exact .inl (hopened.host ▸ hheld)
      · exact .inr (Nat.le_trans hopened.traces.amounts.length hge)
    · exact .inr (Nat.le_of_eq (hk' c hc).symm)
  case civil =>
    intro hstrict c hc hx
    rcases hmem hc with rfl | hc | hc
    · exact (hne hx).elim
    · exact (hinside.permitted c hc).execution hstrict hx
    · exact (hne ((hk' c hc).symm.trans hx)).elim
  case outline =>
    simpa [AttemptMade.marks, Ending.marks, failed] using hopened.outline_eq hw hinside hk' hmarks

end Bracketed

namespace OperationExecution

/-- An attempt opens a span, does what others may do, and closes the span as it ends. -/
theorem run_attempt {η' : Type} {op' : OperationExecution η' S} (hR : World.Lenient R id)
    (h : op.Like (fun _ (m : Fiber (World η) _) (_ : Fiber (World η') _) => m.Stays R R) id op')
    {input : S.Input}
    {base : S.Request} {n : Nat} {e : Ending (S.Result × Exchange S)}
    (hx : (w.execution id).span = x) (hrun : Run R (op.attempt id input base n) w e w') :
    ∃ ended, R ((w.beginAttempt id n).createChild x (attemptName n)).2 ended ∧
      w' = e.closeSpan w.trace.spans.length (fun made => failed made.1) ended := by
  rw [attempt_eq, run_modify_bind, run_modifyGet_bind, World.execution_beginAttempt, hx] at hrun
  obtain ⟨ended, hbody, hended⟩ := run_spanClosing.mp hrun
  exact ⟨ended, h.making (stays_likeness hR) input base _ _ _ hbody, hended⟩

section Loop

variable {T : World η → World η → Prop} (hR : World.Lenient R id) (h : op.Harmless R id)
  (hT : Composes T) (hle : ∀ w w', R w w' → T w w')
  (hguard : ∀ w w', ((w.execution id).span = x → T w w') → T w w')
  (hstrategy : op.strategy.Sequential R op.judge x)
  (hattempt : ∀ input base n, (op.attempt id input base n).Stays R T)

include hR hT hle hguard hstrategy hattempt

/-- The relation need not say anything of worlds where the execution does not report to `x`. -/
theorem stays_retry (input : S.Input) (prepared : Except S.Error S.Request) :
    (op.retry id input prepared).Stays R T := by
  cases prepared with
  | error e => exact .pure hT _
  | ok request =>
    intro w e w' hrun
    refine hguard w w' fun hx => ?_
    have hretry := hstrategy T hT hle _ (hattempt input request)
    rw [retry, run_gets_bind, hx] at hrun
    refine hretry.bind hT (fun retried => ?_) w e w' hrun
    exact .modify_bind hT (fun w => hle _ _ (hR.emit w _ _ _)) (.pure hT _)

include h

/-- An execution makes its attempts, with what others may do as well around them, and then closes
the span that it reports to. -/
theorem run_execute {input : S.Input} {e : Ending S.Result} (hx : (w.execution id).span = x)
    (hrun : Run R (op.execute id input) w e w') :
    ∃ w₁, T w w₁ ∧ w' = e.closeSpan x failed w₁ := by
  rw [execute, run_gets_bind, hx] at hrun
  obtain ⟨w₁, hbody, hended⟩ := run_spanClosing.mp hrun
  refine ⟨w₁, ?_, hended⟩
  have hprepare := (h.like.prepare (stays_likeness hR) input).mono hle
  refine Stays.bind hT hprepare (fun ⟨input, prepared⟩ => ?_) _ _ _ hbody
  have hretry := stays_retry hR hT hle hguard hstrategy hattempt input prepared
  exact hretry.bind hT fun ⟨result, last⟩ =>
    (h.like.complete (stays_likeness hR) (fun _ => rfl) result).mono hle

end Loop

section Runs

variable (h : op.Harmless (World.Others holds id x strict) id)

include h

theorem attempt_bracketed {input : S.Input} {base : S.Request} {n : Nat}
    {e : Ending (S.Result × Exchange S)} (hw : w.Ready holds id x)
    (hrun : Run (World.Others holds id x strict) (op.attempt id input base n) w e w') :
    (w'.execution id).span = x ∧ ∃ k, w.Traces k w' ∧
      Bracketed holds x strict [⟨n, w.trace.spans.length, e⟩] k w w' := by
  have hR := World.others_lenient holds id x strict
  obtain ⟨ended, hinside, rfl⟩ := run_attempt hR h.like hw.reports hrun
  obtain ⟨s, hopened⟩ := World.beginAttempt_opens w id x n
  have hopening := World.createChild_traced (w.beginAttempt id n) x (attemptName n)
  have hending := World.closeSpan_traced w.trace.spans.length (fun made => failed made.1) e ended
  obtain ⟨k, hk⟩ := hinside (by rw [hopening.execution, World.execution_beginAttempt, hw.reports])
  obtain ⟨k', hk', hbracketed⟩ := Bracketed.single hw hopened hk rfl
  exact ⟨by rw [hending.execution, hk.reports], _, hopened.traces.append (hk.traces.append hk'),
    hbracketed⟩

/-- So far attempts have come one after the other, and their spans are closed again. -/
def Advances (holds : η → SpanId → Prop) (op : OperationExecution η S) (id : ExecutionId)
    (x : SpanId) (strict : Bool) (w w' : World η) : Prop :=
  w.Ready holds id x → w'.Ready holds id x ∧
    ∃ made k, Rounds (World.Others holds id x strict) op id w made k w' ∧
      Bracketed holds x strict made k w w'

omit h in
theorem advances_of_others (op : OperationExecution η S) (h : w.Others holds id x strict w') :
    Advances holds op id x strict w w' := by
  intro hw
  obtain ⟨k, hk⟩ := h hw.reports
  have hbracketed : Bracketed (S := S) holds x strict [] k w w' := .of_spares hk
  exact ⟨hbracketed.ready hw hk.reports, [], k, .rest hk.traces, hbracketed⟩

omit h in
theorem advances_composes (holds : η → SpanId → Prop) (op : OperationExecution η S)
    (id : ExecutionId) (x : SpanId) (strict : Bool) :
    Composes (Advances holds op id x strict) where
  none w := advances_of_others op ((World.others_composes holds id x strict).none w)
  andThen := by
    intro w w₁ w₂ h h' hw
    obtain ⟨hw₁, made, k, hrounds, hbracketed⟩ := h hw
    obtain ⟨hw₂, made', k', hrounds', hbracketed'⟩ := h' hw₁
    exact ⟨hw₂, made ++ made', k ++ k', hrounds.append hrounds',
      hbracketed.append hbracketed' hw⟩

theorem attempt_advances (input : S.Input) (base : S.Request) (n : Nat) :
    (op.attempt id input base n).Stays (World.Others holds id x strict)
      (Advances holds op id x strict) := by
  intro w e w' hrun hw
  obtain ⟨hreports, k, hk, hbracketed⟩ := attempt_bracketed h hw hrun
  have hrest : Rounds (World.Others holds id x strict) op id w' [] [] w' := .rest (.aside rfl rfl)
  refine ⟨hbracketed.ready hw hreports, _, k, ?_, hbracketed⟩
  simpa using Rounds.next (.aside rfl rfl) hrun hk hrest

end Runs

end OperationExecution

end ClientRuntime
