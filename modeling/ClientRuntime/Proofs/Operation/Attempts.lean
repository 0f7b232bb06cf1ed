import Mathlib
import ClientRuntime.Operation.Observers
import ClientRuntime.Proofs.Operation.Counted
import ClientRuntime.Proofs.Operation.WellBracketed

/-!
The attempts of an execution are counted in many places: by the retry strategy, by the execution,
by the names of its spans, by the hooks around attempts and by the interceptor that posts metrics.
Whenever an execution returns, they all agree.
-/

namespace ClientRuntime

open ClientRuntime.Fiber RetryCall World Phase

variable {η α : Type} {S : OperationShape} {id : ExecutionId} {op : OperationExecution η S}
  {strategy : RetryStrategy (Journaled (CountedCall η S) η) S.Output S.Error (Exchange S)}

section Completion

/-- Calls are noted while the execution's attempt is the one that it was. -/
def World.Recalls (id : ExecutionId) (w w' : CountedWorld η S) : Prop :=
  w.Begins id [] w' ∧ ∃ calls, w'.calls = w.calls ++ calls ∧
    ∀ c before, .within (.called c before) ∈ calls → before.attempt id = w.attempt id

namespace World

variable {w w' : CountedWorld η S}

theorem recalls_silent (hcalls : w'.calls = w.calls) (h : w.Begins id [] w') : w.Recalls id w' :=
  ⟨h, [], by rw [hcalls, List.append_nil], by simp⟩

theorem recalls_lenient (id : ExecutionId) :
    Lenient (Recalls id : CountedWorld η S → CountedWorld η S → Prop) id where
  none w := recalls_silent rfl ((begins_composes id).none w)
  andThen := by
    rintro w w₁ w₂ ⟨h, calls, hcalls, hbefore⟩ ⟨h', calls', hcalls', hbefore'⟩
    have hnumber : w₁.attempt id = w.attempt id := by simpa using h.number
    rw [hnumber] at hbefore'
    refine ⟨h.append h', calls ++ calls', by rw [hcalls', hcalls, List.append_assoc], ?_⟩
    intro c before hc
    rcases List.mem_append.mp hc with hc | hc
    · exact hbefore c before hc
    · exact hbefore' c before hc
  emit w _ _ _ := recalls_silent rfl ((begins_lenient id).emit w _ _ _)
  message w _ := recalls_silent rfl ((begins_lenient id).message w _)
  post w e := recalls_silent (post_traced w _ e).calls ((begins_lenient id).post w e)
  note w text := recalls_silent rfl ((begins_lenient id).note w text)

end World

theorem counter_recalls {m : Fiber (World η) α} (hm : m.Stays (Begins id []) (Begins id []))
    (party : Party) (shown : Option S.Result) (error : α → Option S.Error) :
    (counter.watch party shown error m).Stays (Bystands id) (Recalls id) := by
  intro w e w' hrun
  have quiet {e : Ending α} {w₁ : CountedWorld η S}
      (hrun : Run (Bystands id) (m.along unwatched) w e w₁) :
      w₁.calls = w.calls ∧ w.Begins id [] w₁ := by
    have hown : Run (Begins id []) m (unwatched.get w) e (unwatched.get w₁) :=
      hrun.ofAlong fun _ _ h => begins_unwatched.mpr h.2
    exact ⟨hrun.along_calls fun _ _ h => h.1, begins_unwatched.mp (hm _ _ _ hown)⟩
  rcases run_bind.mp (run_gets_bind.mp hrun) with ⟨a, w₁, halong, hrest⟩ | ⟨c, rfl, halong⟩
  · obtain ⟨hcalls, hbegins⟩ := quiet halong
    simp only [run_modify_bind, run_pure] at hrest
    obtain ⟨rfl, rfl⟩ := hrest
    have hrecord : w₁.Begins id [] (w₁.record
        (.within (.called ⟨party, error a⟩ (unwatched.get w)))) := begins_aside rfl rfl
    refine ⟨hbegins.append hrecord, _, by rw [calls_record, hcalls], ?_⟩
    intro c before hc
    obtain ⟨-, rfl⟩ : c = ⟨party, error a⟩ ∧ before = unwatched.get w := by simpa using hc
    rfl
  · obtain ⟨hcalls, hbegins⟩ := quiet halong
    exact recalls_silent hcalls hbegins

namespace OperationExecution

theorem complete_recalls (hop : op.Harmless (Begins id []) id) {view : S.Result → ResultView S}
    (hview : ∀ result, (view result).execution = id) (result : S.Result) :
    ((op.observed counter strategy).complete id view result).Stays (Bystands id) (Recalls id) := by
  have hlike := hop.like.observed
    (Q := fun _ m _ => m.Stays (Bystands id) (Recalls id))
    (fun party shown error _ _ hm => counter_recalls hm party shown error) strategy
  exact hlike.complete (stays_likeness (recalls_lenient id)) hview result

end OperationExecution

end Completion

section Parts

variable {w w' w₁ : CountedWorld η S} {retrying : Retrying η}

namespace OperationExecution

/-- The loop makes `k` attempts, after an error none, and notes whatever it does. -/
structure LoopCounts (op : OperationExecution η S) (retrying : Retrying η) (id : ExecutionId)
    (error : Option S.Error) (loop : List (CountedCall η S)) (k : Nat) (w w' : CountedWorld η S) :
    Prop where
  journal : w'.calls = w.calls ++ loop
  begins : w.Begins id (List.range' 1 k) w'
  outcome : outcomes loop = [] ∧ k = 0 ∨ ∃ o, outcomes loop = [o] ∧ o.attempts = k
  /-- What is noted `m` times in each attempt is noted `m` times as often as there are attempts. -/
  tally : ∀ (p : CountNote η S → Bool) (m : Nat), (∀ o, p (.concluded o) = false) →
    (∀ notes : List (CountNote η S), AttemptOrder op.interceptors.length
      (notes.filterMap (·.call?)) → notes.countP p = m) → RetryCall.tally p loop = m * k
  unprepared : error ≠ none → k = 0
  refused : ∀ e, .refused 1 e ∈ loop → k = 0
  bounded : k ≤ (retrying.strategy : RetryStrategy η S.Output S.Error (Exchange S)).maxAttempts

/-- An attempt that is noted begins with its number. -/
theorem attempt_keeps (hop : op.Harmless (Begins id []) id) (input : S.Input) (base : S.Request)
    (n : Nat) : (Attempt.watched ((op.observed counter strategy).attempt id input base) n).Stays
      (Idles id) (Keeps id) := by
  intro w e w' hrun
  have hR := idles_lenient (η := η) (S := S) id
  have inner {e : Ending (S.Result × Exchange S)} {w₁ : CountedWorld η S}
      (hrun : Run (Idles id) ((op.observed counter strategy).attempt id input base n)
        (w.record (.started n)) e w₁) : w.Keeps id w₁ := by
    obtain ⟨ended, hinside, rfl⟩ := run_attempt hR (hop.counted strategy) rfl hrun
    let noted := w.record (.started n)
    let opened := ((noted.beginAttempt id n).createChild (noted.execution id).span
      (attemptName n)).2
    have hnoted : w.Begins id [] noted := begins_aside rfl rfl
    have hopened : w.Counts id [n] [.started n] opened :=
      ⟨hnoted.append (begins_attempt noted id n), (createChild_traced ..).calls, rfl, rfl⟩
    exact (keeps_composes id).andThen ⟨_, _, hopened⟩
      (keeps_of_idles _ _ (hR.andThen hinside (idles_closeSpan _ _ e ended)))
  rcases run_bind.mp (run_modify_bind.mp hrun) with ⟨made, w₁, hattempt, hrest⟩ | ⟨c, rfl, hattempt⟩
  · simp only [run_modify_bind, run_pure] at hrest
    obtain ⟨rfl, rfl⟩ := hrest
    exact (keeps_composes id).andThen (inner hattempt)
      (keeps_of_idles _ _ (idles_record rfl rfl w₁))
  · exact inner hattempt

variable (hop : op.Harmless (Begins id []) id)

/-- What is noted in a stretch where no attempt begins, if calls are all that is noted. -/
theorem counts_notes {notes : List (CountNote η S)} (h : w.Idles id w₁)
    (hnotes : w₁.calls = w.calls ++ notes.map .within) :
    w.Counts id [] (notes.map .within) w₁ := by
  obtain ⟨calls, h⟩ := h
  obtain rfl := List.append_cancel_left (h.journal.symm.trans hnotes)
  exact h

include hop

theorem prepare_counts {input : S.Input} {made : S.Input × Except S.Error S.Request}
    (hrun : Run (Bystands id) ((op.observed counter strategy).prepare id input) w
      (.returned made) w₁) :
    ∃ notes : List (CountNote η S), w.Counts id [] (notes.map .within) w₁ ∧
      preparation op.interceptors.length (notes.filterMap (·.call?)) (failure made.2) := by
  obtain ⟨_, ⟨notes, hnotes, rfl⟩, horder⟩ :=
    prepare_order (counter_notes fun _ _ h => h.1) input _ _ _ hrun
  have hidles := (hop.counted strategy).prepare (stays_likeness (idles_lenient id)) input _ _ _
    (hrun.mono idles_of_bystands)
  exact ⟨notes, counts_notes hidles hnotes, horder⟩

theorem complete_counts {view : S.Result → ResultView S}
    (hview : ∀ result, (view result).execution = id) {result result' : S.Result}
    (hrun : Run (Bystands id) ((op.observed counter strategy).complete id view result) w
      (.returned result') w₁) :
    ∃ notes : List (CountNote η S), w.Counts id [] (notes.map .within) w₁ ∧
      Completion op.interceptors.length (notes.filterMap (·.call?)) ∧
      ∀ c before, .called c before ∈ notes → before.attempt id = w.attempt id := by
  obtain ⟨_, ⟨notes, hnotes, rfl⟩, horder⟩ :=
    complete_order (counter_notes fun _ _ h => h.1) view result _ _ _ hrun
  have hidles :=
    (hop.counted strategy).complete (stays_likeness (idles_lenient id)) hview result _ _ _
    (hrun.mono idles_of_bystands)
  obtain ⟨-, calls, hcalls, hbefore⟩ := complete_recalls hop hview result _ _ _ hrun
  obtain rfl := List.append_cancel_left (hcalls.symm.trans hnotes)
  refine ⟨notes, counts_notes hidles hnotes, horder, fun c before hc => hbefore c before ?_⟩
  exact List.mem_map_of_mem hc

theorem retry_counts
    (hretrying : retrying.Harmless (Begins id []) op.judge (w.execution id).span)
    (hmax : 0 < (retrying.strategy : RetryStrategy η S.Output S.Error (Exchange S)).maxAttempts)
    {input : S.Input} {prepared : Except S.Error S.Request}
    {made : S.Result × Option (Exchange S)}
    (hrun : Run (Bystands id)
      ((op.observed counter retrying.watched.concluding).retry id input prepared) w
      (.returned made) w₁) :
    ∃ loop k, op.LoopCounts retrying id (failure prepared) loop k w w₁ := by
  have hcalls (w w' : CountedWorld η S) (h : w.Bystands id w') : w.SameCalls w' := h.1
  cases prepared with
  | error e =>
    obtain ⟨-, rfl⟩ := run_pure.mp hrun
    refine ⟨[], 0, (List.append_nil _).symm, (begins_composes id).none _, .inl ⟨rfl, rfl⟩,
      fun p m _ _ => (Nat.mul_zero m).symm, fun _ => rfl, by simp, Nat.zero_le _⟩
  | ok request =>
    rw [retry, run_gets_bind] at hrun
    obtain ⟨retried, w₂, hnoting, hrest⟩ := run_bind_returned.mp hrun
    obtain ⟨retried', w₃, hloop, hconclude⟩ := run_bind_returned.mp hnoting
    simp only [run_modify_bind, run_pure, Ending.returned.injEq] at hconclude hrest
    obtain ⟨rfl, rfl⟩ := hconclude
    obtain ⟨-, rfl⟩ := hrest
    obtain ⟨calls, hjournal, hcourse⟩ := retrying.course_of_run hcalls op.judge _
      (attempt_makes (counter_notes hcalls) input request) hloop
    obtain ⟨ns, calls, hcounts⟩ := hretrying.counted (attempt_keeps hop input request) _ _ _
      (hloop.mono idles_of_bystands)
    obtain rfl := List.append_cancel_left (hcounts.journal.symm.trans hjournal)
    obtain ⟨hlimit, hnumbers⟩ := hcourse.attempts_eq
    obtain rfl := hnumbers.symm.trans hcounts.numbers
    refine ⟨calls ++ [.within (.concluded retried.outcome)], retried.outcome.attempts, ?_⟩
    constructor
    case journal => rw [(emit_traced ..).calls, calls_record, hjournal, List.append_assoc]
    case begins =>
      rw [← List.append_nil (List.range' 1 _)]
      exact hcounts.begins.append (begins_aside rfl rfl)
    case outcome =>
      rw [outcomes_append, hcounts.unconcluded]
      exact .inr ⟨_, rfl, rfl⟩
    case tally =>
      intro p m hp hbody
      have hconcluded : RetryCall.tally p
          ([.within (.concluded retried.outcome)] : List (CountedCall η S)) = 0 :=
        tally_cons (hp _)
      have hcounted := hcourse.tally_eq (p := p) fun _ _ inner h => hbody inner (h rfl)
      rw [tally_append, hconcluded, hcounted, hnumbers, List.length_range', Nat.add_zero]
    case unprepared => exact fun h => absurd rfl h
    case refused => exact fun e he => hcourse.refused_first (by simpa using he)
    case bounded => exact hlimit.trans_eq (Retrying.limit_eq hmax)

omit hop in
/-- Notes of calls at one moment say nothing of parties that are called at another. -/
theorem countP_of_moment {notes : List (CountNote η S)} {m : Moment} {party : Party}
    (h : ∀ c ∈ notes.filterMap (·.call?), c.party.moment = m) (hparty : party.moment ≠ m) :
    notes.countP (·.isTo party) = 0 := by
  rw [CountNote.countP_isTo]
  refine countP_isTo_eq_zero fun c hc => ?_
  rintro rfl
  exact hparty (h c hc)

end OperationExecution

end Parts

/-- What the metrics interceptor posts about an execution that made so many attempts. -/
def World.postAttempts (id : ExecutionId) (k : Nat) (w : World η) : World η :=
  let e := w.execution id
  let counted := w.postCount e.span Interceptor.metricsComponent "attempts" k
  counted.postTiming e.span Interceptor.metricsComponent "execution_duration"
    (counted.clock.now.since e.startedAt)

theorem World.execution_attempt {w : World η} {k : Nat} (h : w.attempt id = some k) :
    (w.execution id).attempt = k := by
  obtain ⟨e, he, rfl⟩ := Option.map_eq_some_iff.mp h
  simp [execution, he]

theorem Interceptor.metrics_posts {w : World η} {k : Nat} (h : w.attempt id = some k)
    {view : ResultView S} (hview : view.execution = id) :
    (Interceptor.metrics.readAfterExecution view).poll w =
      (.ready (.ok ()), w.postAttempts id k) := by
  subst hview
  simp only [postAttempts, ← World.execution_attempt h]
  rfl

namespace OperationExecution

/-- An execution that made the calls has made `k` attempts, whoever counts them. -/
structure AttemptsAgree (op : OperationExecution η S) (retrying : Retrying η) (id : ExecutionId)
    (calls : List (CountedCall η S)) (k : Nat) (w w' : World η) : Prop where
  /-- The outcome of the loop counts them, if the loop was entered. -/
  outcome : outcomes calls = [] ∧ k = 0 ∨ ∃ o, outcomes calls = [o] ∧ o.attempts = k
  /-- The execution counts them. -/
  number : w'.attempt id = some k
  /-- Each has a span that is named after it, in order. -/
  spans : w'.attemptSpans (w.execution id).span =
    w.attemptSpans (w.execution id).span ++ List.range' 1 k
  /-- The first and the last hooks of each are called. -/
  hooks : ∀ place < op.interceptors.length,
    tally (·.isTo (.hook .readBeforeAttempt place)) calls = k ∧
      tally (·.isTo (.hook .readAfterAttempt place)) calls = k
  /-- An interceptor for metrics is called once at the end, and posts their number. -/
  metrics : ∀ place, op.interceptors[place]? = some .metrics → ∃ c before,
    calls.filter (isWithin (·.isTo (.hook .readAfterExecution place))) =
        [.within (.called c before)] ∧
      ∀ view : ResultView S, view.execution = id →
        (Interceptor.metrics.readAfterExecution view).poll before =
          (.ready (.ok ()), before.postAttempts id k)
  /-- There are none after an error before the loop. -/
  unprepared : ∀ c before, .within (.called c before) ∈ calls → c.party.moment = .before →
    c.failure ≠ none → k = 0
  /-- There are none if the first token is refused. -/
  refused : ∀ e, .refused 1 e ∈ calls → k = 0
  bounded : k ≤ (retrying.strategy : RetryStrategy η S.Output S.Error (Exchange S)).maxAttempts

section Agree

variable {retrying : Retrying η} {w w₁ w₂ w₃ : CountedWorld η S} {k : Nat}
  {before after : List (CountNote η S)} {loop : List (CountedCall η S)} {error : Option S.Error}

/-- The counts agree as those of the loop do. What comes before and after it is counted nowhere. -/
theorem agree_of_loop (hfresh : w.attempt id = some 0)
    (hbefore : w.Counts id [] (before.map .within) w₁)
    (hprepared : preparation op.interceptors.length (before.filterMap (·.call?)) error)
    (hloop : op.LoopCounts retrying id error loop k w₁ w₂)
    (hafter : w₂.Counts id [] (after.map .within) w₃)
    (hcompleted : Completion op.interceptors.length (after.filterMap (·.call?)))
    (hsees : ∀ c v, .called c v ∈ after → v.attempt id = w₂.attempt id) :
    op.AttemptsAgree retrying id (before.map .within ++ (loop ++ after.map .within)) k
      (unwatched.get w) (unwatched.get w₃) := by
  have hlast : (List.range' 1 k).getLast?.getD 0 = k := by
    cases k with
    | zero => rfl
    | succ k => simp [List.range'_1_concat, Nat.add_comm]
  have hall := (hbefore.begins.append hloop.begins).append hafter.begins
  have hnumber : w₂.attempt id = some k := by
    rw [hloop.begins.number, hbefore.begins.number, hfresh]
    simpa using hlast
  have hpre := preparation_moment _ _ hprepared
  have hpost := hcompleted.moment
  have parts (p : CountNote η S → Bool) :
      tally p (before.map .within ++ (loop ++ after.map .within)) =
        before.countP p + (tally p loop + after.countP p) := by simp
  constructor
  case outcome =>
    rw [outcomes_append, outcomes_append, hbefore.unconcluded, hafter.unconcluded,
      List.nil_append, List.append_nil]
    exact hloop.outcome
  case number =>
    show w₃.attempt id = _
    rw [hafter.begins.number, hnumber]
    rfl
  case spans =>
    have hspans := hall.spans
    rw [List.nil_append, List.append_nil] at hspans
    exact hspans
  case hooks =>
    intro place hplace
    have once {stage : Stage} (hstage : stage.moment = .within)
        (hone : ∀ calls : List (PipelineCall S), AttemptOrder op.interceptors.length calls →
          calls.countP (·.isTo (.hook stage place)) = 1) :
        tally (·.isTo (.hook stage place)) (before.map .within ++ (loop ++ after.map .within)) =
          k := by
      have hin := hloop.tally (·.isTo (.hook stage place)) 1 (fun _ => rfl)
        fun notes h => (CountNote.countP_isTo _ _).trans (hone _ h)
      rw [parts, hin,
        countP_of_moment hpre (by simp [Party.moment, hstage]),
        countP_of_moment hpost (by simp [Party.moment, hstage])]
      omega
    exact ⟨once rfl fun _ h => (h.once hplace).1, once rfl fun _ h => (h.once hplace).2⟩
  case metrics =>
    intro place hplace
    obtain ⟨hlt, -⟩ := List.getElem?_eq_some_iff.mp hplace
    let p (note : CountNote η S) : Bool := note.isTo (.hook .readAfterExecution place)
    have hlate : (Party.hook .readAfterExecution place).moment = .after := rfl
    have hnever : tally p loop = 0 := by
      rw [hloop.tally p 0 (fun _ => rfl) fun notes h => countP_of_moment h.moment (by simp [hlate]),
        Nat.zero_mul]
    have hearlier : before.countP p = 0 := countP_of_moment hpre (by simp [hlate])
    have honce : after.countP p = 1 := (CountNote.countP_isTo _ _).trans (hcompleted.once hlt)
    obtain ⟨note, hnote⟩ := List.length_eq_one_iff.mp (List.countP_eq_length_filter ▸ honce)
    obtain ⟨hmem, hp⟩ := List.mem_filter.mp (hnote ▸ List.mem_singleton_self note)
    cases note with
    | concluded o => cases hp
    | called c v =>
      refine ⟨c, v, ?_, fun view hview =>
        Interceptor.metrics_posts ((hsees c v hmem).trans hnumber) hview⟩
      rw [List.filter_append, List.filter_append, filter_within, filter_within, hnote,
        List.filter_eq_nil_iff.mpr (List.countP_eq_zero.mp hnever),
        List.filter_eq_nil_iff.mpr (List.countP_eq_zero.mp hearlier)]
      rfl
  case unprepared =>
    intro c v hmem hmoment hfailure
    simp only [List.mem_append, List.mem_map, RetryCall.within.injEq, exists_eq_right] at hmem
    rcases hmem with hmem | hmem | hmem
    · refine hloop.unprepared ?_
      rintro rfl
      exact hfailure (preparation_sound _ hprepared c (CountNote.mem_call? hmem))
    · have hnever : tally (·.isAt .before) loop = 0 := by
        rw [hloop.tally (·.isAt .before) 0 (fun _ => rfl) fun notes h =>
          CountNote.countP_isAt_eq_zero fun c hc => by simp [h.moment c hc], Nat.zero_mul]
      exact absurd (by simpa [isWithin, CountNote.isAt] using hmoment)
        (List.countP_eq_zero.mp hnever _ hmem)
    · rw [hpost c (CountNote.mem_call? hmem)] at hmoment
      cases hmoment
  case refused =>
    intro e he
    refine hloop.refused e ?_
    simpa using he
  case bounded => exact hloop.bounded

end Agree

end OperationExecution

section Unobserved

variable {R : CountedWorld η S → CountedWorld η S → Prop} {R' : World η → World η → Prop}

theorem bystands_set (w : CountedWorld η S) (v : World η) (h : (unwatched.get w).Begins id [] v) :
    w.Bystands id (unwatched.set v w) :=
  ⟨rfl, begins_unwatched.mp (by rwa [unwatched.get_set])⟩

theorem counter_covering (hR : ∀ w v, R' (unwatched.get w) v → R w (unwatched.set v w)) :
    (counter : Observer (CountedCall η S) η S).Covering R R' := by
  intro α party shown error m
  refine .looking fun before => (Covers.along hR m).followed fun a => ?_
  exact .beside (fun _ => rfl) (.pure a)

theorem RetryStrategy.concluding_covering
    {strategy' : RetryStrategy η S.Output S.Error (Exchange S)}
    (h : strategy.Covering R R' strategy') : strategy.concluding.Covering R R' strategy' := by
  intro judge span attempt attempt' ha
  exact (h judge span attempt attempt' ha).followed fun retried => .beside (fun _ => rfl) (.pure _)

end Unobserved

namespace OperationExecution

/-- Whenever an execution with a fresh context returns, all who count its attempts agree. So they
do for every execution by itself, which can be seen under count. -/
theorem execute_counts_attempts (op : OperationExecution η S) (retrying : Retrying η)
    (id : ExecutionId) (input : S.Input) {w : CountedWorld η S}
    (hop : op.Harmless (Begins id []) id)
    (hretrying : retrying.Harmless (Begins id []) op.judge (w.execution id).span)
    (hmax : 0 < (retrying.strategy : RetryStrategy η S.Output S.Error (Exchange S)).maxAttempts)
    (hfresh : w.attempt id = some 0) :
    (∀ result w', Run (Bystands id)
        ((op.observed counter retrying.watched.concluding).execute id input) w
        (.returned result) w' →
      ∃ calls k, w'.calls = w.calls ++ calls ∧
        op.AttemptsAgree retrying id calls k (unwatched.get w) (unwatched.get w')) ∧
    ∀ result v', Run (Begins id []) ((op.retrying retrying).execute id input) (unwatched.get w)
        (.returned result) v' →
      ∃ w', unwatched.get w' = v' ∧ Run (Bystands id)
        ((op.observed counter retrying.watched.concluding).execute id input) w
        (.returned result) w' := by
  constructor
  · intro result w' hrun
    rw [execute, run_gets_bind, run_spanClosing] at hrun
    obtain ⟨w₃, hrun, rfl⟩ := hrun
    obtain ⟨⟨input, prepared⟩, w₁, hprepare, hrun⟩ := run_bind_returned.mp hrun
    obtain ⟨⟨retried, last⟩, w₂, hretry, hcomplete⟩ := run_bind_returned.mp hrun
    obtain ⟨before, hbefore, hprepared⟩ := prepare_counts hop hprepare
    obtain ⟨after, hafter, hcompleted, hsees⟩ := complete_counts hop (fun _ => rfl) hcomplete
    let x := (w.execution id).span
    have hclosed : w₂.Counts id [] (after.map .within)
        ((Ending.returned result).closeSpan x failed w₃) := by
      have hclosing : w₃.Counts id [] [] ((Ending.returned result).closeSpan x failed w₃) :=
        ⟨begins_closeSpan .., by rw [(closeSpan_traced ..).calls, List.append_nil], rfl, rfl⟩
      simpa using hafter.append hclosing
    have hretrying₁ : retrying.Harmless (Begins id []) op.judge (w₁.execution id).span := by
      rwa [hbefore.begins.reports]
    obtain ⟨loop, k, hloop⟩ := retry_counts hop hretrying₁ hmax hretry
    refine ⟨_, k, ?_, agree_of_loop hfresh hbefore hprepared hloop hclosed hcompleted hsees⟩
    rw [hclosed.journal, hloop.journal, hbefore.journal, List.append_assoc, List.append_assoc]
  · intro result v' hrun
    exact (op.retrying retrying).execute_covers (counter_covering bystands_set)
      (RetryStrategy.concluding_covering (retrying.watched_covering bystands_set)) input w result v'
      hrun

/-- Its first attempt fails, and the attempts are reported in the end. -/
def measured : OperationExecution Unit numberShape :=
  { echo with interceptors := [failsFirst, .metrics] }

theorem measured_harmless {R : World Unit → World Unit → Prop} {id : ExecutionId}
    (hR : World.Lenient R id) : measured.Harmless R id where
  serialize _ := .pure hR.toComposes _
  sign _ := .pure hR.toComposes _
  send _ := (Stays.suspend fun _ _ h => h).bind hR.toComposes fun _ => .pure hR.toComposes _
  deserialize _ := .pure hR.toComposes _
  hooks i hi := by
    have hi : i = failsFirst ∨ i = .metrics := by simpa [measured] using hi
    rcases hi with rfl | rfl
    · constructor
      case readBeforeAttempt => exact fun _ _ => .gets_bind fun _ => .pure hR.toComposes _
      all_goals exact fun _ _ => .pure hR.toComposes _
    · exact Interceptor.metrics_harmless hR

theorem execute_counts_attempts_measured :
    ∃ (v' : World Unit) (w' : CountedWorld Unit numberShape) (calls : _),
      Run (Begins 0 []) ((measured.retrying (.standard StandardStrategy.twoAttempts)).execute 0 7)
        (unwatched.get (echoWorld : CountedWorld Unit numberShape)) (.returned (.ok 7)) v' ∧
      unwatched.get w' = v' ∧
      w'.calls = (echoWorld : CountedWorld Unit numberShape).calls ++ calls ∧
      measured.AttemptsAgree (.standard StandardStrategy.twoAttempts) 0 calls 2
        (unwatched.get (echoWorld : CountedWorld Unit numberShape)) v' := by
  have hR := begins_lenient (η := Unit) 0
  obtain ⟨agree, seen⟩ := execute_counts_attempts measured
    (.standard StandardStrategy.twoAttempts) 0 7
    (w := (echoWorld : CountedWorld Unit numberShape)) (measured_harmless hR)
    (.standard (twoAttempts_lenient hR (fun w _ _ _ _ => begins_say w _ _ _ _ _)
      fun _ _ => begins_aside rfl rfl)) (Nat.succ_pos 1) rfl
  have hrun : Run (Begins 0 [])
      ((measured.retrying (.standard StandardStrategy.twoAttempts)).execute 0 7)
      (unwatched.get (echoWorld : CountedWorld Unit numberShape)) (.returned (.ok 7)) _ :=
    Paused.run_of_ready hR.none 1 (by cbv)
  obtain ⟨w', hw', hobserved⟩ := seen _ _ hrun
  obtain ⟨calls, k, hcalls, hagree⟩ := agree _ _ hobserved
  rw [hw'] at hagree
  obtain rfl : 2 = k := Option.some.inj ((by cbv : _ = _).trans hagree.number)
  exact ⟨_, w', calls, hrun, hw', hcalls, hagree⟩

end OperationExecution

end ClientRuntime
