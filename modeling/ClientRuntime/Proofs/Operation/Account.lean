import ClientRuntime.Proofs.Operation.Errors
import ClientRuntime.Proofs.Operation.Order

/-!
The account of an execution's errors, from its start to its result. Attempts settle their errors
among themselves, nothing is suppressed between them, and the errors outside of them are settled
with the error that the attempts come to.
-/

namespace ClientRuntime

open ClientRuntime.Fiber ErrorEvent

variable {η ν : Type} {S : OperationShape} {id : ExecutionId}
  {R : AuditWorld η S → AuditWorld η S → Prop}

/-- Notes what is suppressed before and after an attempt. -/
def Attempt.audited (id : ExecutionId)
    (attempt : Attempt (Journaled (RetryCall S.Output S.Error (AuditNote S)) η) S.Output S.Error
      ν) : Attempt (Journaled (RetryCall S.Output S.Error (AuditNote S)) η) S.Output S.Error ν :=
  fun n => do
    let before ← Fiber.gets (World.suppressed · id)
    let made ← attempt n
    Fiber.modify fun w => w.record (.within (.attempted before (w.suppressed id)))
    return made

/-- An attempt with a result has settled its errors, and suppressed no others. -/
def AuditNote.body : AttemptBody S.Output S.Error (AuditNote S) := fun _ result inner =>
  ∀ r, result = some r → ∃ events before,
    inner = notes events ++ [.attempted before (before.map (· ++ texts events))] ∧
    Settles none events (failure r)

/-- What was suppressed before the calls, and after them. Only attempts suppress anything. -/
inductive Handover : Option (List String) → List (RetryCall S.Output S.Error (AuditNote S)) →
    Option (List String) → Prop where
  | nil {t} : Handover t [] t
  | attempted {t t' t'' calls} : Handover t' calls t'' →
      Handover t (.within (.attempted t t') :: calls) t''
  | other {t t' c calls} : (∀ before after, c ≠ .within (.attempted before after)) →
      Handover t calls t' → Handover t (c :: calls) t'

theorem Handover.append {t t' t'' : Option (List String)}
    {calls rest : List (RetryCall S.Output S.Error (AuditNote S))} (h : Handover t calls t')
    (h' : Handover t' rest t'') : Handover t (calls ++ rest) t'' := by
  induction h with
  | nil => exact h'
  | attempted _ ih => exact .attempted (ih h')
  | other hc _ ih => exact .other hc (ih h')

/-- Calls within an attempt are no attempt. -/
theorem Handover.notes {t t' : Option (List String)} {events : List (ErrorEvent S)}
    {rest : List (RetryCall S.Output S.Error (AuditNote S))} (h : Handover t rest t') :
    Handover t ((ErrorEvent.notes events).map .within ++ rest) t' := by
  induction events with
  | nil => exact h
  | cons event events ih =>
    cases event with
    | call c => exact .other (by nofun) ih
    | suppressed e => exact ih

/-- Components of the strategy suppress nothing. -/
structure StandardStrategy.Discreet (id : ExecutionId) (s : StandardStrategy η) : Prop where
  acquire : ∀ n cause w answer w',
    Run (World.SameSuppressed id) (s.bucket.acquire n cause) w (.returned answer) w' →
      w.SameSuppressed id w' ∧
        ∀ t, answer = .ok t → ∀ outcome v, World.SameSuppressed id v (t.release outcome v)
  backoff : ∀ n (w : World η), w.SameSuppressed id (s.delays.backoff n w).2
  sleep : ∀ d w u w', Run (World.SameSuppressed id) (s.clock.sleep d) w (.returned u) w' →
    w.SameSuppressed id w'

inductive Retrying.Discreet (id : ExecutionId) : Retrying η → Prop where
  | standard {s} : s.Discreet id → Retrying.Discreet id (.standard s)
  | single : Retrying.Discreet id .single

/-- Calls are added, and what is suppressed is handed over. -/
def HandedOver (id : ExecutionId) (w w' : AuditWorld η S) : Prop :=
  ∃ calls, w'.calls = w.calls ++ calls ∧ Handover (w.suppressed id) calls (w'.suppressed id)

namespace HandedOver

variable {w w₁ w₂ : AuditWorld η S}

theorem refl (w : AuditWorld η S) : HandedOver id w w := ⟨[], by simp, .nil⟩

theorem trans (h : HandedOver id w w₁) (h' : HandedOver id w₁ w₂) : HandedOver id w w₂ := by
  obtain ⟨calls, hcalls, h⟩ := h
  obtain ⟨calls', hcalls', h'⟩ := h'
  exact ⟨calls ++ calls', by rw [hcalls', hcalls, List.append_assoc], h.append h'⟩

theorem same (hcalls : w.SameCalls w₁) (h : w.SameSuppressed id w₁) : HandedOver id w w₁ := by
  refine ⟨[], ?_, ?_⟩
  · rw [List.append_nil]
    exact hcalls
  · rw [show w₁.suppressed id = w.suppressed id from h]
    exact .nil

theorem record {c : RetryCall S.Output S.Error (AuditNote S)}
    (hc : ∀ before after, c ≠ .within (.attempted before after)) (w : AuditWorld η S) :
    HandedOver id w (w.record c) :=
  ⟨[c], rfl, .other hc .nil⟩

end HandedOver

/-- Worlds that are handed over, as the growth of nothing. -/
def Growth.handover (id : ExecutionId) : Growth (AuditWorld η S) Empty :=
  .ofPreorder (HandedOver id) .refl .trans

section Loop

theorem handover_traced (w w' : AuditWorld η S) (h : w.TracedTo w') :
    (Growth.handover id).grew [] w w' :=
  HandedOver.same h.calls h.suppressed

/-- A fiber that suppresses nothing hands over, whoever watches. -/
theorem along_handedOver (hR : ∀ w w', R w w' → w.Undisturbed id w') {α : Type}
    {m : Fiber (World η) α} {P : α → Prop}
    (hm : ∀ w a w', Run (World.SameSuppressed id) m w (.returned a) w' →
      w.SameSuppressed id w' ∧ P a) :
    (m.along World.unwatched).Yields (.handover id) R fun _ a => P a := by
  intro w a w' h
  have hothers (v v' : AuditWorld η S) (h : R v v') :
      (World.unwatched.get v).SameSuppressed id (World.unwatched.get v') := (hR v v' h).2
  obtain ⟨hsame, hP⟩ := hm _ _ _ (h.ofAlong hothers)
  exact ⟨[], .same (h.along_calls fun _ _ h => (hR _ _ h).1) hsame, hP⟩

theorem release_handedOver {t : RetryToken η} {n : Nat}
    (ht : ∀ outcome v, World.SameSuppressed id v (t.release outcome v)) (outcome : TokenOutcome)
    (w : AuditWorld η S) : HandedOver id w ((t.watched n).release outcome w) := by
  have h : HandedOver id w (World.unwatched.modify (t.release outcome) w) :=
    .same rfl (ht outcome (World.unwatched.get w))
  rw [RetryToken.release_watched]
  exact h.trans (.record (by nofun) _)

theorem judge_handedOver {judge : Judge (World η) S.Output S.Error}
    (hjudge : ∀ result (w : World η), w.SameSuppressed id (judge result w).2) (result : S.Result)
    (w : AuditWorld η S) : HandedOver id w (judge.watched result w).2 := by
  let v := World.unwatched.get w
  have h : HandedOver id w (World.unwatched.set (judge result v).2 w) := .same rfl (hjudge result v)
  exact h.trans (.record (by nofun) _)

theorem attempt_watched_handedOver
    {attempt : Attempt (Journaled (RetryCall S.Output S.Error (AuditNote S)) η) S.Output S.Error ν}
    {n : Nat} (h : (attempt n).Yields (.handover id) R fun _ _ => True) :
    (attempt.watched n).Yields (.handover id) R fun _ _ => True := by
  refine .modify_bind (.record nofun) (h.bind fun _ _ _ => ?_)
  exact .modify_bind (.record nofun) (.pure trivial)

theorem StandardStrategy.Discreet.still (hR : ∀ w w', R w w' → w.Undisturbed id w')
    {s : StandardStrategy η} (hs : s.Discreet id) {judge : Judge (World η) S.Output S.Error}
    (hjudge : ∀ result (w : World η), w.SameSuppressed id (judge result w).2)
    {attempt : Attempt (Journaled (RetryCall S.Output S.Error (AuditNote S)) η) S.Output S.Error ν}
    (hattempt : ∀ n, (attempt n).Yields (.handover id) R fun _ _ => True) :
    s.watched.Still (.handover id) R judge.watched attempt.watched where
  traced := handover_traced
  acquire n cause := by
    have hacquire : ((s.bucket.acquire n cause).watched (.answer n)).Yields (.handover id) R
        fun _ answer => ∀ t, answer = .ok t → ∀ outcome v,
          World.SameSuppressed id v (t.release outcome v) :=
      (along_handedOver hR (hs.acquire n cause)).bind fun _ answer h =>
        .modify_bind (.record (by cases answer <;> nofun)) (.pure h)
    refine .modify_bind (.record nofun) (hacquire.bind fun _ answer h => .pure ?_)
    cases answer with
    | error e => nofun
    | ok t =>
      rintro _ ⟨⟩
      exact release_handedOver (h t rfl)
  attempt n := attempt_watched_handedOver (hattempt n)
  judge := judge_handedOver hjudge
  backoff n w := by
    let v := World.unwatched.get w
    have h : HandedOver id w (World.unwatched.set (s.delays.backoff n v).2 w) :=
      .same rfl (hs.backoff n v)
    exact h.trans (.record (by nofun) _)
  sleep d := by
    refine .modify_bind (.record nofun) ?_
    exact along_handedOver hR fun w a w' h => ⟨hs.sleep d w a w' h, trivial⟩

end Loop

def Retrying.audited (id : ExecutionId) (retrying : Retrying η) :
    RetryStrategy (Journaled (RetryCall S.Output S.Error (AuditNote S)) η) S.Output S.Error ν :=
  { (retrying.watched : RetryStrategy _ S.Output S.Error ν) with
    retry := fun judge span attempt =>
      retrying.watched.retry judge span (attempt.audited id) }

section Unobserved

variable (hR : ∀ (w : AuditWorld η S) (v : World η), (World.unwatched.get w).SameSuppressed id v →
  R w (World.unwatched.set v w))

include hR

theorem auditor_covering :
    (auditor id : Observer _ η S).Covering R (World.SameSuppressed id) := by
  intro α party shown error m
  exact .looking fun before =>
    (Covers.along hR m).followed fun a => .beside (fun _ => rfl) (.pure a)

theorem Retrying.audited_covering (retrying : Retrying η) :
    (retrying.audited id : RetryStrategy _ S.Output S.Error ν).Covering R
      (World.SameSuppressed id) retrying.strategy := by
  intro judge span attempt attempt' ha
  refine retrying.watched_covering hR judge span _ _ fun n => .looking fun before => ?_
  exact (ha n).followed fun made => .beside (fun _ => rfl) (.pure made)

end Unobserved

/-- The error that attempts come to; without attempts there is none. -/
def outcomeError (outcome : Option (Outcome S.Output S.Error)) : Option S.Error :=
  outcome.bind fun o => failure o.toResult

/-- The account of an execution: what happens before the attempts and after them, the calls from
the first attempt to the last and what they come to, and the result in the end. -/
structure ErrorAccount (retrying : Retrying η) (before after : List (ErrorEvent S))
    (loop : List (RetryCall S.Output S.Error (AuditNote S)))
    (outcome : Option (Outcome S.Output S.Error)) (result : S.Result) : Prop where
  /-- The errors of every attempt are settled. -/
  attempts : match outcome with
    | none => loop = []
    | some o => retrying.Course AuditNote.body loop o
  /-- So are those outside of attempts. -/
  kept : (raised before ++ (outcomeError outcome).toList ++ raised after).Perm
    (lost before ++ lost after ++ (failure result).toList)
  /-- There are attempts unless an error is in force before them. -/
  latest : ∃ f, (f = none ↔ outcome.isSome = true) ∧ InForce none before f ∧
    InForce (f.or (outcomeError outcome)) after (failure result)

/-- From one world to another the journal tells of all errors of an execution, and what was
suppressed for it grows accordingly. -/
def AccountsForErrors (id : ExecutionId) (retrying : Retrying η) (w w' : AuditWorld η S)
    (result : S.Result) : Prop :=
  ∃ before loop after outcome t,
    w'.calls = w.calls ++ (notes before).map .within ++ loop ++ (notes after).map .within ∧
    Handover ((w.suppressed id).map (· ++ texts before)) loop t ∧
    w'.suppressed id = t.map (· ++ texts after) ∧
    ErrorAccount retrying before after loop outcome result

namespace OperationExecution

variable {op : OperationExecution η S} {retrying : Retrying η} {w w' : AuditWorld η S}
  {strategy : RetryStrategy (Journaled (RetryCall S.Output S.Error (AuditNote S)) η) S.Output
    S.Error (Exchange S)}

section Runs

variable (hR : ∀ w w', R w w' → w.Undisturbed id w') (hop : op.Auditable id)

include hR hop

theorem audited_attempt {input : S.Input} {base : S.Request} {n : Nat}
    {made : S.Result × Exchange S}
    (h : Run R (Attempt.audited id
      ((op.observed (auditor id) strategy).attempt id input base) n) w (.returned made) w') :
    ∃ events,
      w'.calls = w.calls ++ (notes events ++
        [AuditNote.attempted (w.suppressed id) (w'.suppressed id)]).map .within ∧
      w'.suppressed id = (w.suppressed id).map (· ++ texts events) ∧
      Settles none events (failure made.1) := by
  obtain ⟨_, w₁, hattempt, h⟩ := run_bind_returned.mp (run_gets_bind.mp h)
  simp only [run_modify_bind, run_pure, Ending.returned.injEq] at h
  obtain ⟨rfl, rfl⟩ := h
  obtain ⟨events, ⟨hcalls, htexts⟩, hsettles⟩ := attempt_settles hR hop input base n _ _ _ hattempt
  refine ⟨events, ?_, htexts, hsettles⟩
  rw [World.calls_record, hcalls, List.map_append, List.append_assoc]
  rfl

theorem attempt_makes_body {input : S.Input} {base : S.Request} (made : S.Result × Exchange S) :
    (Attempt.audited id ((op.observed (auditor id) strategy).attempt id input base)).Makes R
      AuditNote.body (.returned made) := by
  intro n w w' h
  obtain ⟨events, hcalls, htexts, hsettles⟩ := audited_attempt hR hop h
  refine ⟨_, hcalls, fun r hr => ⟨events, w.suppressed id, by rw [htexts], ?_⟩⟩
  obtain rfl : made.1 = r := by simpa [Ending.value?] using hr
  exact hsettles

theorem attempt_handedOver (input : S.Input) (base : S.Request) (n : Nat) :
    (Attempt.audited id ((op.observed (auditor id) strategy).attempt id input base) n).Yields
      (.handover id) R fun _ _ => True := by
  intro w made w' h
  obtain ⟨events, hcalls, -⟩ := audited_attempt hR hop h
  refine ⟨[], ⟨_, hcalls, ?_⟩, trivial⟩
  rw [List.map_append]
  exact .notes (.attempted .nil)

/-- The attempts of an execution, and what is suppressed by the time they end. -/
theorem loop_settles (hretrying : retrying.Discreet id) {span : SpanId} {input : S.Input}
    {base : S.Request} {out : Retried S.Output S.Error (Exchange S)}
    (h : Run R ((retrying.audited id).retry op.judge.watched span
      ((op.observed (auditor id) strategy).attempt id input base)) w (.returned out) w') :
    ∃ loop, w'.calls = w.calls ++ loop ∧ retrying.Course AuditNote.body loop out.outcome ∧
      Handover (w.suppressed id) loop (w'.suppressed id) := by
  obtain ⟨loop, hloop, hcourse⟩ := retrying.course_of_run (fun _ _ h => (hR _ _ h).1) op.judge span
    (attempt_makes_body hR hop) h
  have hattempt (n : Nat) :
      (Attempt.audited id ((op.observed (auditor id) strategy).attempt id input base) n).Yields
        (.handover id) R fun _ _ => True := attempt_handedOver hR hop input base n
  have hhanded : HandedOver id w w' := by
    cases hretrying with
    | standard hs =>
      obtain ⟨_, hhanded, -⟩ := (hs.still hR hop.judge hattempt).retry _ _ _ h
      exact hhanded
    | single =>
      have hstill := RetryStrategy.retryOnce_still span handover_traced
        (attempt_watched_handedOver (hattempt 1)) (judge_handedOver hop.judge)
      obtain ⟨_, hhanded, -⟩ := hstill _ _ _ h
      exact hhanded
  obtain ⟨loop', hloop', hhandover⟩ := hhanded
  obtain rfl : loop' = loop := List.append_cancel_left (hloop'.symm.trans hloop)
  exact ⟨loop', hloop, hcourse, hhandover⟩

theorem execute_account (hretrying : retrying.Discreet id) {input : S.Input} {result : S.Result}
    (h : Run R ((op.observed (auditor id) (retrying.audited id)).execute id input) w
      (.returned result) w') :
    AccountsForErrors id retrying w w' result := by
  obtain ⟨w₃, hbody, htraced⟩ := (run_gets_bind.mp h).spanClosing_returned
  obtain ⟨⟨input, prepared⟩, w₁, hprepare, hbody⟩ := run_bind_returned.mp hbody
  obtain ⟨⟨attempted, last⟩, w₂, hretry, hcomplete⟩ := run_bind_returned.mp hbody
  obtain ⟨before, ⟨hcalls₁, htexts₁⟩, hbefore⟩ := prepare_settles hR hop _ _ _ _ hprepare
  obtain ⟨after, ⟨hcalls₃, htexts₃⟩, hafter⟩ :=
    complete_settles hR hop (fun _ => rfl) attempted _ _ _ hcomplete
  cases prepared with
  | error e =>
    obtain ⟨⟨⟩, rfl⟩ := run_pure.mp hretry
    refine ⟨before, [], after, none, w₂.suppressed id, ?_, ?_, ?_, rfl, ?_, some e, ?_, ?_, ?_⟩
    · rw [htraced.calls, hcalls₃, hcalls₁, List.append_nil]
    · rw [htexts₁]
      exact .nil
    · rw [htraced.suppressed, htexts₃]
    · simpa [outcomeError] using (hbefore.append hafter).kept
    · simp
    · exact hbefore.latest
    · exact hafter.latest
  | ok request =>
    replace hretry := run_gets_bind.mp hretry
    obtain ⟨out, w₀, hattempts, hrest⟩ := run_bind_returned.mp hretry
    simp only [run_modify_bind, run_pure, Ending.returned.injEq, Prod.mk.injEq] at hrest
    obtain ⟨⟨rfl, rfl⟩, rfl⟩ := hrest
    obtain ⟨loop, hloop, hcourse, hhandover⟩ := loop_settles hR hop hretrying hattempts
    refine ⟨before, loop, after, some out.outcome, w₀.suppressed id, ?_, ?_, ?_, hcourse, ?_,
      none, ?_, ?_, ?_⟩
    · rw [htraced.calls, hcalls₃, (World.emit_traced ..).calls, hloop, hcalls₁]
    · rwa [← htexts₁]
    · rw [htraced.suppressed, htexts₃, (World.emit_traced ..).suppressed]
    · have hboth := hbefore.kept.append hafter.kept
      simpa [outcomeError] using hboth
    · simp
    · exact hbefore.latest
    · exact hafter.latest

end Runs

/-- An execution that returns accounts for its errors: none is lost or counted twice. So does every
execution by itself, which can be seen under audit. -/
theorem execute_accounts_for_errors (op : OperationExecution η S) (retrying : Retrying η)
    (id : ExecutionId) (input : S.Input) (hop : op.Auditable id) (hretrying : retrying.Discreet id)
    (w : AuditWorld η S) :
    (∀ result w', Run (World.Undisturbed id)
        ((op.observed (auditor id) (retrying.audited id)).execute id input) w
        (.returned result) w' →
      AccountsForErrors id retrying w w' result) ∧
    ∀ result v', Run (World.SameSuppressed id) ((op.retrying retrying).execute id input)
        (World.unwatched.get w) (.returned result) v' →
      ∃ w', World.unwatched.get w' = v' ∧ Run (World.Undisturbed id)
        ((op.observed (auditor id) (retrying.audited id)).execute id input) w
        (.returned result) w' := by
  refine ⟨?_, ?_⟩
  · intro result w' h
    exact execute_account (fun _ _ h => h) hop hretrying h
  · intro result v' h
    have hR (w : AuditWorld η S) (v : World η) (hv : (World.unwatched.get w).SameSuppressed id v) :
        w.Undisturbed id (World.unwatched.set v w) := ⟨rfl, hv⟩
    exact (op.retrying retrying).execute_covers (auditor_covering hR)
      (retrying.audited_covering hR) input w result v' h

/-- Fails after every attempt. -/
def refusing : Interceptor Unit numberShape where
  describe := "Refusing"
  readAfterAttempt _ := return .error refusal

/-- Two interceptors that fail after every attempt. -/
def refused : OperationExecution Unit numberShape :=
  { echo with interceptors := [refusing, refusing] }

theorem refusing_appends : refusing.Appends id := by
  constructor
  all_goals exact fun _ => .pure _

theorem refused_auditable : refused.Auditable id where
  serialize _ := .pure _
  sign _ := .pure _
  send _ := Appends.suspend.bind fun _ => .pure _
  deserialize _ := .pure _
  hooks i hi := by
    obtain rfl : i = refusing := by simpa [refused] using hi
    exact refusing_appends
  attemptResult i hi v := by
    obtain rfl : i = refusing := by simpa [refused] using hi
    intro w made w' h
    obtain ⟨⟨⟩, -⟩ := run_pure.mp h
    rfl
  result i hi v := by
    obtain rfl : i = refusing := by simpa [refused] using hi
    intro w made w' h
    obtain ⟨⟨⟩, -⟩ := run_pure.mp h
    rfl
  judge result w := by cases result <;> rfl

theorem twoAttempts_discreet : StandardStrategy.twoAttempts.Discreet id where
  acquire n cause w answer w' h := by
    obtain ⟨⟨⟩, rfl⟩ := run_pure.mp h
    refine ⟨rfl, ?_⟩
    rintro _ ⟨⟩ _ _
    rfl
  backoff _ _ := rfl
  sleep d w u w' h := by
    obtain ⟨-, rfl⟩ := run_modify.mp h
    rfl

theorem execute_accounts_for_errors_refused :
    ∃ (v' : World Unit) (w' : AuditWorld Unit numberShape), Run (World.SameSuppressed 0)
        ((refused.retrying (.standard StandardStrategy.twoAttempts)).execute 0 7)
        (World.unwatched.get (echoWorld : AuditWorld Unit numberShape)) (.returned (.error refusal))
        v' ∧
      World.unwatched.get w' = v' ∧
      AccountsForErrors 0 (.standard StandardStrategy.twoAttempts) echoWorld w'
        (.error refusal : numberShape.Result) := by
  obtain ⟨account, seen⟩ :=
    execute_accounts_for_errors refused (.standard StandardStrategy.twoAttempts) 0 7
      refused_auditable (.standard twoAttempts_discreet) echoWorld
  have run : Run (World.SameSuppressed 0)
      ((refused.retrying (.standard StandardStrategy.twoAttempts)).execute 0 7)
      (World.unwatched.get (echoWorld : AuditWorld Unit numberShape)) (.returned (.error refusal))
      _ :=
    Paused.run_of_ready (World.sameSuppressed_refl 0) 2 (by cbv)
  obtain ⟨w', hw', audited⟩ := seen _ _ run
  exact ⟨_, w', run, hw', account _ _ audited⟩

end OperationExecution

end ClientRuntime
