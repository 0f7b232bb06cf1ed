import ClientRuntime.Proofs.Operation.Audit
import ClientRuntime.Proofs.Retry.Still

/-!
No error of an operation is lost, and none counts twice. The errors that calls end with are those
that the operation suppresses and the one that it ends with, within every attempt and outside of
them, and the last error is always the one in force.
-/

namespace ClientRuntime

open ClientRuntime.Fiber ErrorEvent

variable {η δ : Type} {S : OperationShape} {id : ExecutionId} {stage : Stage} {place : Nat}
  {R : AuditWorld η S → AuditWorld η S → Prop} {is : List (Interceptor η S)}
  {f : Option S.Error}

/-- Each hook may suppress further errors by itself. -/
structure Interceptor.Appends (id : ExecutionId) (i : Interceptor η S) : Prop where
  readBeforeExecution : ∀ v, (i.readBeforeExecution v).Appends id
  modifyBeforeSerialization : ∀ v, (i.modifyBeforeSerialization v).Appends id
  readBeforeSerialization : ∀ v, (i.readBeforeSerialization v).Appends id
  readAfterSerialization : ∀ v, (i.readAfterSerialization v).Appends id
  modifyBeforeRetryLoop : ∀ v, (i.modifyBeforeRetryLoop v).Appends id
  readBeforeAttempt : ∀ v, (i.readBeforeAttempt v).Appends id
  modifyBeforeSigning : ∀ v, (i.modifyBeforeSigning v).Appends id
  readBeforeSigning : ∀ v, (i.readBeforeSigning v).Appends id
  readAfterSigning : ∀ v, (i.readAfterSigning v).Appends id
  modifyBeforeTransmit : ∀ v, (i.modifyBeforeTransmit v).Appends id
  readBeforeTransmit : ∀ v, (i.readBeforeTransmit v).Appends id
  readAfterTransmit : ∀ v, (i.readAfterTransmit v).Appends id
  modifyBeforeDeserialization : ∀ v, (i.modifyBeforeDeserialization v).Appends id
  readBeforeDeserialization : ∀ v, (i.readBeforeDeserialization v).Appends id
  readAfterDeserialization : ∀ v, (i.readAfterDeserialization v).Appends id
  modifyBeforeAttemptCompletion : ∀ v, (i.modifyBeforeAttemptCompletion v).Appends id
  readAfterAttempt : ∀ v, (i.readAfterAttempt v).Appends id
  modifyBeforeCompletion : ∀ v, (i.modifyBeforeCompletion v).Appends id
  readAfterExecution : ∀ v, (i.readAfterExecution v).Appends id

/-- The fiber hands on the result that it was given. -/
def Change.Leaves (id : ExecutionId) (m : Change η S.Result S) (result : S.Result) : Prop :=
  ∀ w made w', Run (World.SameSuppressed id) m w (.returned made) w' → made.1 = result

/-- What an audit takes for granted: hooks and collaborators only add to what was suppressed, the
judge leaves it alone, and hooks leave results alone. -/
structure OperationExecution.Auditable (id : ExecutionId) (op : OperationExecution η S) :
    Prop where
  serialize : ∀ input, (op.serialize id input).Appends id
  sign : ∀ request, (op.sign id request).Appends id
  send : ∀ request, (op.send id request).Appends id
  deserialize : ∀ response, (op.deserialize id response).Appends id
  hooks : ∀ i ∈ op.interceptors, i.Appends id
  attemptResult : ∀ i ∈ op.interceptors, ∀ v,
    Change.Leaves id (i.modifyBeforeAttemptCompletion v) v.result
  result : ∀ i ∈ op.interceptors, ∀ v, Change.Leaves id (i.modifyBeforeCompletion v) v.result
  judge : ∀ result (w : World η), w.SameSuppressed id (op.judge result w).2

theorem Raises.call {c : AuditedCall S} (h : ∀ r, c.shown = some r → failure r = f) :
    Raises f [.call c] c.error :=
  ⟨by simp, .call (fun _ _ r _ _ hr => h r hr) .nil⟩

theorem Fiber.Audited.raises {α : Type} {m : Fiber (AuditWorld η S) α} {party : Party}
    {shown : Option S.Result} {error : α → Option S.Error} {P : α → Prop}
    (hm : Audited id R m party shown error P) (h : ∀ r, shown = some r → failure r = f) :
    m.Yields (.errors id) R fun events a => Raises f events (error a) := by
  refine hm.imp fun events a ⟨⟨own, hcall⟩, _⟩ => ?_
  obtain rfl := hcall
  exact .call h

/-- While `f` is in force, the step raises errors, of which the last makes it fail. -/
def Step.Raising (id : ExecutionId) (R : AuditWorld η S → AuditWorld η S → Prop)
    (f : Option S.Error)
    (step : Step (Journaled (RetryCall S.Output S.Error (AuditNote S)) η) δ S) : Prop :=
  ∀ d, (step d).Yields (.errors id) R fun events made => Raises f events (failure made.2)

namespace Step

theorem nil_raising : Raising id R f (sequence ([] : List (Step _ δ S))) := fun _ => .pure .nil

theorem cons_raising {step : Step _ δ S} {steps : List (Step _ δ S)}
    (hstep : step.Raising id R f) (hsteps : (sequence steps).Raising id R f) :
    (sequence (step :: steps)).Raising id R f := by
  intro d
  refine (hstep d).bind fun events ⟨d', passed⟩ h => ?_
  cases passed with
  | error e => exact .pure (by simpa using h)
  | ok => exact (hsteps d').imp fun _ _ h' => h.append h'

theorem ofCheck_raising {check : δ → Check _ S}
    (h : ∀ d, (check d).Yields (.errors id) R
      fun events passed => Raises f events (failure passed)) :
    (ofCheck check).Raising id R f := by
  intro d
  exact (h d).bind fun _ _ h => .pure (by simpa using h)

end Step

theorem hooks_raising {hook : Interceptor _ S → Step _ δ S}
    (h : ∀ place, ∀ i ∈ is, (hook (i.observed (auditor id) place)).Raising id R f) :
    (Step.sequence (((auditor id).interceptors place is).map hook)).Raising id R f := by
  induction is generalizing place with
  | nil => exact Step.nil_raising
  | cons i is ih =>
    exact Step.cons_raising (h place i List.mem_cons_self)
      (ih fun place j hj => h place j (List.mem_cons_of_mem i hj))

/-- Hooks that read a draft leave it to each other as it is. -/
theorem reads_raise {hook : Interceptor _ S → δ → Check _ S} {d : δ}
    (h : ∀ place, ∀ i ∈ is, (hook (i.observed (auditor id) place) d).Yields (.errors id) R
      fun events passed => Raises f events (failure passed)) :
    (Step.sequence (((auditor id).interceptors place is).map fun i => .ofCheck (hook i)) d).Yields
      (.errors id) R fun events made => Raises f events (failure made.2) := by
  induction is generalizing place with
  | nil => exact .pure .nil
  | cons i is ih =>
    have rest := @ih (place + 1) fun place j hj => h place j (List.mem_cons_of_mem i hj)
    have first : (Step.ofCheck (hook (i.observed (auditor id) place)) d).Yields (.errors id) R
        fun events made => made.1 = d ∧ Raises f events (failure made.2) :=
      (h place i List.mem_cons_self).bind fun _ _ h => .pure ⟨rfl, by simpa using h⟩
    refine first.bind fun events ⟨d', passed⟩ ⟨hd, hpassed⟩ => ?_
    obtain rfl := hd
    cases passed with
    | error e => exact .pure (by simpa using hpassed)
    | ok => exact rest.imp fun _ _ h' => hpassed.append h'

theorem suppressError_grows (e : S.Error) :
    (suppressError id stage e).Yields (.errors id) R fun events _ => events = [.suppressed e] :=
  .modify fun w => ⟨by
    have h : (w.suppress id stage.name (OperationError.message e)).calls = w.calls :=
      (World.say_traced w _ _ _ _ _).calls
    rw [h]
    exact (List.append_nil _).symm, World.suppressed_suppress _ _⟩

/-- Of the errors of checks that all run, each but the last is suppressed. -/
theorem lastError_raises {hook : Interceptor _ S → Check _ S} {shown : Option S.Result}
    {latest : Option S.Error} (hstage : stage.revises = false)
    (hfirst : place = 0 → latest = none) (hshown : ∀ r, shown = some r → failure r = f)
    (h : ∀ place, ∀ i ∈ is, Audited id R (hook (i.observed (auditor id) place))
      (.hook stage place) shown failure fun _ => True) :
    (lastError id stage latest (((auditor id).interceptors place is).map hook)).Yields
      (.errors id) R fun events last =>
        (latest.toList ++ raised events).Perm (lost events ++ last.toList) ∧
          InForce (latest.or f) events (last.or f) := by
  induction is generalizing place latest with
  | nil => exact .pure ⟨by simp, .nil⟩
  | cons i is ih =>
    refine (h place i List.mem_cons_self).bind fun events passed ⟨⟨own, hcall⟩, _⟩ => ?_
    obtain rfl := hcall
    have rest (latest : Option S.Error) :=
      @ih (place + 1) latest nofun fun place j hj => h place j (List.mem_cons_of_mem i hj)
    -- All hooks of such a stage are shown the same result; only the first sees the error in force.
    have now : ∀ stage' place' r, Party.hook stage place = .hook stage' place' →
        (place' = 0 ∨ stage'.revises = true) → shown = some r → failure r = latest.or f := by
      rintro _ _ r ⟨rfl, rfl⟩ hor hr
      obtain hplace | hrevises := hor
      · rw [hfirst hplace]
        exact hshown r hr
      · rw [hstage] at hrevises
        cases hrevises
    cases passed with
    | ok =>
      refine (rest latest).imp fun events last ⟨hkept, hlatest⟩ => ?_
      exact ⟨by simpa using hkept, .call now hlatest⟩
    | error e =>
      cases latest with
      | none =>
        refine (rest (some e)).imp fun events last ⟨hkept, hlatest⟩ => ?_
        exact ⟨by simpa using hkept, .call now hlatest⟩
      | some previous =>
        refine (suppressError_grows previous).bind fun _ _ hcall => ?_
        obtain rfl := hcall
        refine (rest (some e)).imp fun events last ⟨hkept, hlatest⟩ => ?_
        exact ⟨by simpa using hkept, .call now (.suppressed hlatest)⟩

theorem checkAll_raises {hook : Interceptor _ S → Check _ S} (shown : Option S.Result)
    (hstage : stage.revises = false) (hshown : ∀ r, shown = some r → failure r = f)
    (h : ∀ place, ∀ i ∈ is, Audited id R (hook (i.observed (auditor id) place))
      (.hook stage place) shown failure fun _ => True) :
    (checkAll id stage (((auditor id).interceptors 0 is).map hook)).Yields (.errors id) R
      fun events passed => Raises f events (failure passed) := by
  refine (lastError_raises hstage (fun _ => rfl) hshown h).bind fun events last h => ?_
  obtain ⟨hkept, hlatest⟩ := h
  cases last with
  | none => exact .pure ⟨by simpa using hkept, by simpa using hlatest⟩
  | some e => exact .pure ⟨by simpa using hkept, by simpa using hlatest⟩

theorem overrule_grows (result : S.Result) (e : S.Error) :
    (overrule id stage result e).Yields (.errors id) R fun events result' =>
      events = (failure result).toList.map .suppressed ∧ result' = .error e := by
  cases result with
  | ok => exact .pure ⟨rfl, rfl⟩
  | error previous =>
    refine (suppressError_grows previous).bind fun events _ hcall => .pure ?_
    exact ⟨by simpa using hcall, rfl⟩

/-- Every error of a hook that revises a result overrules the result at once. -/
theorem reviseAll_settles {hook : Interceptor _ S → Step _ S.Result S} {result : S.Result}
    (h : ∀ place, ∀ i ∈ is, ∀ result, Audited id R (hook (i.observed (auditor id) place) result)
      (.hook stage place) (some result) (fun made => failure made.2) fun made => made.1 = result) :
    (reviseAll id stage (((auditor id).interceptors place is).map hook) result).Yields (.errors id)
      R fun events result' => Settles (failure result) events (failure result') := by
  induction is generalizing place result with
  | nil => exact .pure .nil
  | cons i is ih =>
    have rest {place : Nat} {result : S.Result} := @ih place result
      fun place j hj => h place j (List.mem_cons_of_mem i hj)
    have hcall := h place i List.mem_cons_self result
    refine hcall.bind fun events ⟨draft, passed⟩ ⟨⟨own, hevents⟩, hdraft⟩ => ?_
    obtain rfl : draft = result := hdraft
    obtain rfl := hevents
    have raised : Raises (failure draft)
        [.call ⟨.hook stage place, some draft, failure passed, own⟩] (failure passed) :=
      .call (by rintro r ⟨⟩; rfl)
    cases passed with
    | ok => exact rest.imp fun _ _ h => raised.passed.append h
    | error e =>
      refine (overrule_grows draft e).bind fun events result' ⟨hevents, hresult'⟩ => ?_
      obtain rfl := hresult'
      obtain rfl := hevents
      refine rest.imp fun _ _ h => ?_
      simpa using raised.overruled.append h

/-- A call of which no result is shown. -/
theorem auditor_raises {α : Type} (hR : ∀ w w', R w w' → w.Undisturbed id w') (party : Party)
    (error : α → Option S.Error) {m : Fiber (World η) α} (hm : m.Appends id) :
    ((auditor id).watch party none error m).Yields (.errors id) R
      fun events a => Raises f events (error a) :=
  (auditor_audited hR party none error hm fun _ _ _ _ => trivial).raises nofun

namespace OperationExecution

open Step

variable {op : OperationExecution η S}
  {strategy : RetryStrategy (Journaled (RetryCall S.Output S.Error (AuditNote S)) η) S.Output
    S.Error (Exchange S)}

theorem conclude_settles {hook : Interceptor _ S → Check _ S} {result : S.Result}
    (hstage : stage.revises = false)
    (h : ∀ place, ∀ i ∈ op.interceptors, Audited id R (hook (i.observed (auditor id) place))
      (.hook stage place) (some result) failure fun _ => True) :
    ((op.observed (auditor id) strategy).conclude id stage hook result).Yields (.errors id) R
      fun events result' => Settles (failure result) events (failure result') := by
  have hshown : ∀ r, some result = some r → failure r = failure result := by
    rintro r ⟨⟩
    rfl
  refine (checkAll_raises _ hstage hshown h).bind fun events passed hraises => ?_
  cases passed with
  | ok =>
    refine .pure ?_
    rw [List.append_nil]
    exact hraises.passed
  | error e =>
    refine (overrule_grows result e).imp fun events' result' ⟨hevents, hresult⟩ => ?_
    obtain rfl := hevents
    obtain rfl := hresult
    exact hraises.overruled

variable (hR : ∀ w w', R w w' → w.Undisturbed id w') (hop : op.Auditable id)

include hR hop

theorem beforeSerialization_raising :
    ((op.observed (auditor id) strategy).beforeSerialization id).Raising id R none := by
  refine cons_raising (ofCheck_raising fun d => checkAll_raises none rfl nofun fun place i hi => ?_)
    (cons_raising (hooks_raising fun place i hi d => ?_)
    (cons_raising (fun d => reads_raise fun place i hi => ?_) nil_raising))
  · exact auditor_audited hR _ none _ ((hop.hooks i hi).readBeforeExecution _)
      fun _ _ _ _ => trivial
  · exact auditor_raises hR _ _ ((hop.hooks i hi).modifyBeforeSerialization _)
  · exact auditor_raises hR _ _ ((hop.hooks i hi).readBeforeSerialization _)

theorem afterSerialization_raising (input : S.Input) :
    ((op.observed (auditor id) strategy).afterSerialization id input).Raising id R none := by
  refine cons_raising (fun d => reads_raise fun place i hi => ?_)
    (cons_raising (hooks_raising fun place i hi d => ?_) nil_raising)
  · exact auditor_raises hR _ _ ((hop.hooks i hi).readAfterSerialization _)
  · exact auditor_raises hR _ _ ((hop.hooks i hi).modifyBeforeRetryLoop _)

theorem prepare_settles (input : S.Input) :
    ((op.observed (auditor id) strategy).prepare id input).Yields (.errors id) R
      fun events made => Settles none events (failure made.2) := by
  refine (beforeSerialization_raising hR hop input).bind fun before ⟨input, passed⟩ hbefore => ?_
  cases passed with
  | error e => exact .pure (by simpa using hbefore.settles)
  | ok =>
    have hserialize := auditor_raises (f := none) hR .serializer failure (hop.serialize input)
    refine hserialize.bind fun during request hduring => ?_
    cases request with
    | error e => exact .pure (by simpa using (hbefore.append hduring).settles)
    | ok request =>
      refine (afterSerialization_raising hR hop input request).bind
        fun after ⟨request, passed⟩ hafter => .pure ?_
      rw [failure_map, List.append_nil]
      exact (hbefore.append (hduring.append hafter)).settles

theorem beforeTransmission_raising (input : S.Input) :
    ((op.observed (auditor id) strategy).beforeTransmission id input).Raising id R none := by
  refine cons_raising (ofCheck_raising fun d => checkAll_raises none rfl nofun fun place i hi => ?_)
    (cons_raising (hooks_raising fun place i hi d => ?_)
    (cons_raising (fun d => reads_raise fun place i hi => ?_)
    (cons_raising (fun d => ?_)
    (cons_raising (fun d => reads_raise fun place i hi => ?_)
    (cons_raising (hooks_raising fun place i hi d => ?_)
    (cons_raising (fun d => reads_raise fun place i hi => ?_) nil_raising))))))
  · exact auditor_audited hR _ none _ ((hop.hooks i hi).readBeforeAttempt _)
      fun _ _ _ _ => trivial
  · exact auditor_raises hR _ _ ((hop.hooks i hi).modifyBeforeSigning _)
  · exact auditor_raises hR _ _ ((hop.hooks i hi).readBeforeSigning _)
  · exact auditor_raises hR _ _ (hop.sign d)
  · exact auditor_raises hR _ _ ((hop.hooks i hi).readAfterSigning _)
  · exact auditor_raises hR _ _ ((hop.hooks i hi).modifyBeforeTransmit _)
  · exact auditor_raises hR _ _ ((hop.hooks i hi).readBeforeTransmit _)

theorem afterTransmission_raising (input : S.Input) (request : S.Request) :
    ((op.observed (auditor id) strategy).afterTransmission id input request).Raising id R none := by
  refine cons_raising (fun d => reads_raise fun place i hi => ?_)
    (cons_raising (hooks_raising fun place i hi d => ?_)
    (cons_raising (fun d => reads_raise fun place i hi => ?_) nil_raising))
  · exact auditor_raises hR _ _ ((hop.hooks i hi).readAfterTransmit _)
  · exact auditor_raises hR _ _ ((hop.hooks i hi).modifyBeforeDeserialization _)
  · exact auditor_raises hR _ _ ((hop.hooks i hi).readBeforeDeserialization _)

/-- Whether transmission fails or deserialization does, its error is the one in force. -/
theorem transmit_settles (input : S.Input) (base : S.Request) :
    ((op.observed (auditor id) strategy).transmit id input base).Yields (.errors id) R
      fun events made => Settles none events (failure (made.2.bind fun result => result)) := by
  refine (beforeTransmission_raising hR hop input base).bind
    fun before ⟨request, passed⟩ hbefore => ?_
  cases passed with
  | error e =>
    refine .pure ?_
    rw [List.append_nil]
    exact hbefore.settles
  | ok =>
    have hsend := auditor_raises (f := none) hR .transport failure (hop.send request)
    refine hsend.bind fun during response hduring => ?_
    cases response with
    | error e =>
      refine .pure ?_
      rw [List.append_nil]
      exact (hbefore.append hduring).settles
    | ok response =>
      refine (afterTransmission_raising hR hop input request response).bind
        fun after ⟨response, passed⟩ hafter => ?_
      cases passed with
      | error e =>
        refine .pure ?_
        rw [List.append_nil]
        exact (hbefore.append (hduring.append hafter)).settles
      | ok =>
        have hdeserialize :=
          auditor_raises (f := none) hR .deserializer failure (hop.deserialize response)
        refine hdeserialize.bind fun last result hlast => .pure ?_
        rw [List.append_nil]
        exact (hbefore.append (hduring.append (hafter.append hlast))).settles

theorem settle_settles {view : S.Result → ResultView S} (hview : ∀ r, (view r).result = r)
    (result : S.Result) :
    ((op.observed (auditor id) strategy).settle id view result).Yields (.errors id) R
      fun events result' => Settles (failure result) events (failure result') := by
  have hread : ((op.observed (auditor id) strategy).read
      (fun i d => i.readAfterDeserialization (view d)) result).Yields (.errors id) R
      fun events made => Raises (failure result) events (failure made.2) := by
    refine reads_raise fun place i hi => ?_
    have hcall := auditor_audited hR (.hook .readAfterDeserialization place)
      (some (view result).result) failure ((hop.hooks i hi).readAfterDeserialization (view result))
      fun _ _ _ _ => trivial
    exact hcall.raises (by rw [hview]; rintro r ⟨⟩; rfl)
  refine hread.bind fun events ⟨_, passed⟩ hraises => ?_
  cases passed with
  | error e =>
    refine (overrule_grows result e).imp fun events' result' ⟨hevents, hresult⟩ => ?_
    obtain rfl := hevents
    obtain rfl := hresult
    exact hraises.overruled
  | ok =>
    refine (reviseAll_settles fun place i hi r => ?_).imp fun _ _ h => hraises.passed.append h
    have hcall : Audited id R
        ((i.observed (auditor id) place).modifyBeforeAttemptCompletion (view r))
        (.hook .modifyBeforeAttemptCompletion place) (some (view r).result)
        (fun made => failure made.2) fun made => made.1 = (view r).result :=
      auditor_audited hR _ _ _ ((hop.hooks i hi).modifyBeforeAttemptCompletion (view r))
        (hop.attemptResult i hi (view r))
    rwa [hview] at hcall

theorem attempt_settles (input : S.Input) (base : S.Request) (n : Nat) :
    ((op.observed (auditor id) strategy).attempt id input base n).Yields (.errors id) R
      fun events made => Settles none events (failure made.1) := by
  have hbegin (w : AuditWorld η S) : (Growth.errors id).grew [] w (w.beginAttempt id n) := by
    refine ⟨(List.append_nil _).symm, ?_⟩
    simp [World.suppressed_beginAttempt, texts]
  refine .modify_bind hbegin (.modifyGet_bind (fun w => ?_) fun span =>
    .spanClosing (fun _ _ => Growth.errors_traced) ?_)
  · exact Growth.errors_traced (World.createChild_traced ..)
  have hlast (view : ResultView S) : ∀ place, ∀ i ∈ op.interceptors, Audited id R
      ((i.observed (auditor id) place).readAfterAttempt view) (.hook .readAfterAttempt place)
      (some view.result) failure fun _ => True := fun place i hi =>
    auditor_audited hR _ _ _ ((hop.hooks i hi).readAfterAttempt view) fun _ _ _ _ => trivial
  refine (transmit_settles hR hop input base).bind fun sent ⟨exchange, transmitted⟩ hsent => ?_
  cases transmitted with
  | error e =>
    refine (conclude_settles rfl (hlast _)).bind fun ended result hended => .pure ?_
    rw [List.append_nil]
    exact hsent.append hended
  | ok result =>
    refine (settle_settles hR hop (fun _ => rfl) result).bind fun settled result hsettled => ?_
    refine (conclude_settles rfl (hlast _)).bind fun ended result hended => .pure ?_
    rw [List.append_nil]
    exact hsent.append (hsettled.append hended)

theorem complete_settles {view : S.Result → ResultView S} (hview : ∀ r, (view r).result = r)
    (result : S.Result) :
    ((op.observed (auditor id) strategy).complete id view result).Yields (.errors id) R
      fun events result' => Settles (failure result) events (failure result') := by
  refine (reviseAll_settles fun place i hi r => ?_).bind fun revised result' hrevised => ?_
  · have hcall : Audited id R ((i.observed (auditor id) place).modifyBeforeCompletion (view r))
        (.hook .modifyBeforeCompletion place) (some (view r).result) (fun made => failure made.2)
        fun made => made.1 = (view r).result :=
      auditor_audited hR _ _ _ ((hop.hooks i hi).modifyBeforeCompletion (view r))
        (hop.result i hi (view r))
    rwa [hview] at hcall
  · refine (conclude_settles rfl fun place i hi => ?_).imp fun _ _ h => hrevised.append h
    have hcall : Audited id R ((i.observed (auditor id) place).readAfterExecution (view result'))
        (.hook .readAfterExecution place) (some (view result').result) failure fun _ => True :=
      auditor_audited hR _ _ _ ((hop.hooks i hi).readAfterExecution (view result'))
        fun _ _ _ _ => trivial
    rwa [hview] at hcall

end OperationExecution

end ClientRuntime
