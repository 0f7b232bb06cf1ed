import ClientRuntime.Proofs.Operation.Beginnings
import ClientRuntime.Proofs.Operation.Moments
import ClientRuntime.Proofs.Retry.Counting

/-!
Operations under count. What retrying comes to is noted beside the calls, and every call with the
world in which it is made. The attempts that are noted as started are those that the execution
begins, whatever the parts of the operation do, as long as they begin none themselves.
-/

namespace ClientRuntime

open ClientRuntime.Fiber RetryCall

variable {η ν α : Type} {S : OperationShape} {id : ExecutionId}

inductive CountNote (η : Type) (S : OperationShape) where
  | called (c : PipelineCall S) (before : World η)
  | concluded (o : Outcome S.Output S.Error)

namespace CountNote

def call? : CountNote η S → Option (PipelineCall S)
  | called c _ => some c
  | concluded _ => none

def isTo (party : Party) : CountNote η S → Bool
  | called c _ => c.isTo party
  | concluded _ => false

def isAt (m : Moment) : CountNote η S → Bool
  | called c _ => c.party.moment = m
  | concluded _ => false

theorem countP_isTo (party : Party) (notes : List (CountNote η S)) :
    notes.countP (·.isTo party) = (notes.filterMap call?).countP (·.isTo party) := by
  rw [List.countP_filterMap]
  refine List.countP_congr fun note _ => ?_
  cases note <;> simp [isTo, call?]

theorem mem_call? {notes : List (CountNote η S)} {c : PipelineCall S} {before : World η}
    (h : .called c before ∈ notes) : c ∈ notes.filterMap call? :=
  List.mem_filterMap.mpr ⟨_, h, rfl⟩

theorem countP_isAt_eq_zero {m : Moment} {notes : List (CountNote η S)}
    (h : ∀ c ∈ notes.filterMap call?, c.party.moment ≠ m) : notes.countP (·.isAt m) = 0 := by
  refine List.countP_eq_zero.mpr fun note hnote => ?_
  cases note with
  | concluded o => simp [isAt]
  | called c v => simpa [isAt] using h c (mem_call? hnote)

end CountNote

/-- The world of an operation under count. -/
abbrev CountedWorld (η : Type) (S : OperationShape) := ObservedWorld η S (CountNote η S)

/-- What is noted of an execution under count. -/
abbrev CountedCall (η : Type) (S : OperationShape) :=
  RetryCall S.Output S.Error (CountNote η S)

/-- Notes every call with its error, and the world from which it was made. -/
def counter : Observer (CountedCall η S) η S where
  watch party _ error m := do
    let before ← Fiber.gets World.unwatched.get
    let a ← m.along World.unwatched
    Fiber.modify (·.record (.within (.called ⟨party, error a⟩ before)))
    return a

/-- Notes what retrying comes to. -/
def RetryStrategy.concluding
    (s : RetryStrategy (Journaled (CountedCall η S) η) S.Output S.Error ν) :
    RetryStrategy (Journaled (CountedCall η S) η) S.Output S.Error ν :=
  { s with
    retry := fun judge span attempt => do
      let retried ← s.retry judge span attempt
      Fiber.modify (·.record (.within (.concluded retried.outcome)))
      return retried }

def RetryCall.outcome? : CountedCall η S → Option (Outcome S.Output S.Error)
  | .within (.concluded o) => some o
  | _ => none

/-- What retrying came to, each time that it was noted. -/
def outcomes (calls : List (CountedCall η S)) : List (Outcome S.Output S.Error) :=
  calls.filterMap RetryCall.outcome?

@[simp] theorem outcomes_append (calls calls' : List (CountedCall η S)) :
    outcomes (calls ++ calls') = outcomes calls ++ outcomes calls' := List.filterMap_append

namespace World

variable {w w₁ w₂ w' : CountedWorld η S} {ns ns' : List Nat}

/-- The execution begins these attempts, they are noted, and no retrying is concluded. -/
structure Counts (id : ExecutionId) (ns : List Nat) (calls : List (CountedCall η S))
    (w w' : CountedWorld η S) : Prop where
  begins : w.Begins id ns w'
  journal : w'.calls = w.calls ++ calls
  numbers : numbers calls = ns
  unconcluded : outcomes calls = []

theorem Counts.append {calls calls' : List (CountedCall η S)} (h : w.Counts id ns calls w₁)
    (h' : w₁.Counts id ns' calls' w₂) : w.Counts id (ns ++ ns') (calls ++ calls') w₂ where
  begins := h.begins.append h'.begins
  journal := by rw [h'.journal, h.journal, List.append_assoc]
  numbers := by rw [numbers_append, h.numbers, h'.numbers]
  unconcluded := by rw [outcomes_append, h.unconcluded, h'.unconcluded]; rfl

theorem begins_unwatched : (unwatched.get w).Begins id ns (unwatched.get w') ↔ w.Begins id ns w' :=
  ⟨fun h => ⟨h.reports, h.number, h.spans⟩, fun h => ⟨h.reports, h.number, h.spans⟩⟩

/-- No attempt begins. -/
def Idles (id : ExecutionId) (w w' : CountedWorld η S) : Prop := ∃ calls, w.Counts id [] calls w'

/-- Attempts begin, and are noted. -/
def Keeps (id : ExecutionId) (w w' : CountedWorld η S) : Prop :=
  ∃ ns calls, w.Counts id ns calls w'

/-- Others neither begin attempts nor write to the journal. -/
def Bystands (id : ExecutionId) (w w' : CountedWorld η S) : Prop :=
  w.SameCalls w' ∧ w.Begins id [] w'

theorem idles_silent (hcalls : w'.calls = w.calls) (h : w.Begins id [] w') : w.Idles id w' :=
  ⟨[], h, by rw [hcalls, List.append_nil], rfl, rfl⟩

theorem idles_of_bystands (w w' : CountedWorld η S) (h : w.Bystands id w') : w.Idles id w' :=
  idles_silent h.1 h.2

theorem idles_record {c : CountedCall η S} (hnumber : c.number? = none)
    (houtcome : c.outcome? = none) (w : CountedWorld η S) : w.Idles id (w.record c) :=
  ⟨[c], begins_aside rfl rfl, rfl, numbers_cons hnumber, List.filterMap_cons_none houtcome⟩

theorem idles_composes (id : ExecutionId) :
    Composes (Idles id : CountedWorld η S → CountedWorld η S → Prop) where
  none w := idles_silent rfl ((begins_composes id).none w)
  andThen := by
    rintro w w₁ w₂ ⟨calls, h⟩ ⟨calls', h'⟩
    exact ⟨calls ++ calls', h.append h'⟩

theorem keeps_of_idles (w w' : CountedWorld η S) (h : w.Idles id w') : w.Keeps id w' := ⟨[], h⟩

theorem keeps_composes (id : ExecutionId) :
    Composes (Keeps id : CountedWorld η S → CountedWorld η S → Prop) where
  none w := keeps_of_idles _ _ ((idles_composes id).none w)
  andThen := by
    rintro w w₁ w₂ ⟨ns, calls, h⟩ ⟨ns', calls', h'⟩
    exact ⟨ns ++ ns', calls ++ calls', h.append h'⟩

theorem idles_lenient (id : ExecutionId) :
    Lenient (Idles id : CountedWorld η S → CountedWorld η S → Prop) id where
  toComposes := idles_composes id
  emit w _ _ _ := idles_silent rfl ((begins_lenient id).emit w _ _ _)
  message w _ := idles_silent rfl ((begins_lenient id).message w _)
  post w e := idles_silent (post_traced w _ e).calls ((begins_lenient id).post w e)
  note w text := idles_silent rfl ((begins_lenient id).note w text)

theorem idles_say (w : CountedWorld η S) (i : SpanId) (level : TraceLevel)
    (component text : String) (error : Option String) :
    w.Idles id (w.say i level component text error) :=
  idles_silent (say_traced w i level component text error).calls (begins_say w i _ _ _ _)

theorem idles_closeSpan {β : Type} (i : SpanId) (failed : β → Bool) (e : Ending β)
    (w : CountedWorld η S) : w.Idles id (e.closeSpan i failed w) :=
  idles_silent (closeSpan_traced i failed e w).calls (begins_closeSpan i failed e w)

end World

open World

section Parts

/-- Notes of nothing that counts. -/
def World.Mentions (w w' : CountedWorld η S) : Prop :=
  ∃ calls, w'.calls = w.calls ++ calls ∧ numbers calls = [] ∧ outcomes calls = []

theorem World.mentions_composes : Composes (Mentions : CountedWorld η S → CountedWorld η S → Prop)
    where
  none w := ⟨[], (List.append_nil _).symm, rfl, rfl⟩
  andThen := by
    rintro w w₁ w₂ ⟨calls, hcalls, hn, ho⟩ ⟨calls', hcalls', hn', ho'⟩
    exact ⟨calls ++ calls', by rw [hcalls', hcalls, List.append_assoc],
      by rw [numbers_append, hn, hn']; rfl, by rw [outcomes_append, ho, ho']; rfl⟩

variable {m : Fiber (World η) α}

/-- Who begins no attempt begins none beside a journal either. -/
theorem along_idles (hm : m.Stays (Begins id []) (Begins id [])) :
    (m.along unwatched : Fiber (CountedWorld η S) α).Stays (Idles id) (Idles id) := by
  intro w e w' hrun
  have mentions (w w' : CountedWorld η S) (h : w.Idles id w') : w.Mentions w' := by
    obtain ⟨calls, h⟩ := h
    exact ⟨calls, h.journal, h.numbers, h.unconcluded⟩
  have hset (v : World η) (w : CountedWorld η S) : w.Mentions (unwatched.set v w) :=
    mentions_composes.none w
  obtain ⟨calls, hcalls, hnumbers, houtcomes⟩ :=
    Stays.along mentions_composes mentions hset m _ _ _ hrun
  have hbegins : w.Begins id [] w' := by
    refine begins_unwatched.mp (hm _ _ _ (hrun.ofAlong fun v v' h => ?_))
    obtain ⟨_, h⟩ := h
    exact begins_unwatched.mpr h.begins
  exact ⟨calls, hbegins, hcalls, hnumbers, houtcomes⟩

theorem counter_idles (hm : m.Stays (Begins id []) (Begins id [])) (party : Party)
    (shown : Option S.Result) (error : α → Option S.Error) :
    (counter.watch party shown error m).Stays (Idles id) (Idles id) := by
  have hT := idles_composes (η := η) (S := S) id
  refine .gets_bind fun before => (along_idles hm).bind hT fun a => ?_
  exact .modify_bind hT (idles_record rfl rfl) (.pure hT a)

theorem counter_notes {R : CountedWorld η S → CountedWorld η S → Prop}
    (hR : ∀ w w', R w w' → w.SameCalls w') : counter.Notes CountNote.call? R := by
  intro α party shown error m w a w' h
  obtain ⟨a', w₁, hrun, h⟩ := run_bind_returned.mp (run_gets_bind.mp h)
  simp only [run_modify_bind, run_pure, Ending.returned.injEq] at h
  obtain ⟨rfl, rfl⟩ := h
  exact ⟨_, ⟨[.called ⟨party, error a⟩ (unwatched.get w)],
    by rw [calls_record, hrun.along_calls hR]; rfl, rfl⟩, rfl⟩

theorem OperationExecution.Harmless.counted {op : OperationExecution η S}
    (h : op.Harmless (Begins id []) id)
    (strategy : RetryStrategy (Journaled (CountedCall η S) η) S.Output S.Error (Exchange S)) :
    (op.observed counter strategy).Like
      (fun _ (m : Fiber (CountedWorld η S) _) (_ : Fiber (World η) _) =>
        m.Stays (Idles id) (Idles id)) id op :=
  h.like.observed (fun party shown error _ _ hm => counter_idles hm party shown error) strategy

section Strategy

variable {R : World η → World η → Prop} {s : StandardStrategy η} {span : SpanId}
  {judge : Judge (World η) S.Output S.Error}

theorem idles_set {v : World η} {w : CountedWorld η S} (h : (unwatched.get w).Begins id [] v) :
    w.Idles id (unwatched.set v w) :=
  idles_silent rfl (begins_unwatched.mp (by rwa [unwatched.get_set]))

theorem RetryToken.Harmless.counted {t : RetryToken η} (h : t.Harmless (Begins id [])) (n : Nat) :
    (t.watched n : RetryToken (Journaled (CountedCall η S) η)).Harmless (Idles id) := by
  have hT := idles_composes (η := η) (S := S) id
  have hrelease (outcome : TokenOutcome) (w : CountedWorld η S) :
      w.Idles id ((t.watched n).release outcome w) := by
    rw [RetryToken.release_watched]
    exact hT.andThen (idles_set (h.release outcome _)) (idles_record rfl rfl _)
  exact ⟨fun w => hT.andThen ((idles_lenient id).emit w _ _ _) (hrelease _ _), hrelease⟩

theorem acquire_idles {b : TokenBucket η} {n : Nat} {cause : Option RetryCause}
    (h : (b.acquire n cause).Stays (Begins id []) (Begins id [])) :
    (b.watched.acquire n cause : Fiber (CountedWorld η S) _).Stays (Idles id) (Idles id) := by
  have hT := idles_composes (η := η) (S := S) id
  refine .modify_bind hT (idles_record rfl rfl) ?_
  refine Stays.bind hT ((along_idles h).bind hT fun answer => ?_) fun _ => .pure hT _
  refine .modify_bind hT (idles_record ?_ ?_) (.pure hT _)
  all_goals cases answer <;> rfl

theorem acquire_granted {b : TokenBucket η} {n : Nat} {cause : Option RetryCause}
    (h : ∀ v answer v', Run (Begins id []) (b.acquire n cause) v (.returned answer) v' →
      ∀ t, answer = .ok t → t.Harmless (Begins id []))
    {w w' : CountedWorld η S} {answer}
    (hrun : Run (Idles id) (b.watched.acquire n cause) w (.returned answer) w') :
    ∀ t, answer = .ok t → t.Harmless (Idles id) := by
  obtain ⟨granted, w₁, hfirst, hrest⟩ := run_bind_returned.mp (run_modify_bind.mp hrun)
  obtain ⟨granted', w₂, halong, hnoted⟩ := run_bind_returned.mp hfirst
  simp only [run_modify_bind, run_pure, Ending.returned.injEq] at hnoted hrest
  obtain ⟨rfl, -⟩ := hnoted
  obtain ⟨rfl, -⟩ := hrest
  have hplain := h _ _ _ (halong.ofAlong fun v v' hv => begins_unwatched.mpr hv.choose_spec.begins)
  intro t ht
  cases granted with
  | error e => cases ht
  | ok t' =>
    obtain rfl := Except.ok.inj ht
    exact (hplain t' rfl).counted n

theorem StandardStrategy.Harmless.counted (h : s.Harmless (Begins id []) judge span) :
    (s.watched : StandardStrategy (Journaled (CountedCall η S) η)).Harmless (Idles id)
      judge.watched span where
  emit := (idles_lenient id).emit
  say w _ _ _ := idles_say w _ _ _ _ _
  acquire n cause := acquire_idles (h.acquire n cause)
  granted n cause _ _ _ hrun := acquire_granted (h.granted n cause) hrun
  judge result _ :=
    (idles_composes id).andThen (idles_set (h.judge result _)) (idles_record rfl rfl _)
  backoff n _ := (idles_composes id).andThen (idles_set (h.backoff n _)) (idles_record rfl rfl _)
  sleep d := .modify_bind (idles_composes id) (idles_record rfl rfl) (along_idles (h.sleep d))

/-- Every part of a way to retry does only what others may do as well. -/
inductive Retrying.Harmless (R : World η → World η → Prop)
    (judge : Judge (World η) S.Output S.Error) (span : SpanId) : Retrying η → Prop where
  | standard {strategy : StandardStrategy η} : strategy.Harmless R judge span →
      Retrying.Harmless R judge span (.standard strategy)
  | single : (∀ result w, R w (judge result w).2) → Retrying.Harmless R judge span .single

/-- Runs of the strategy keep count if the attempts do. -/
theorem Retrying.Harmless.counted {retrying : Retrying η}
    (h : retrying.Harmless (Begins id []) judge span)
    {attempt : Attempt (Journaled (CountedCall η S) η) S.Output S.Error ν}
    (hattempt : ∀ n, (attempt.watched n).Stays (Idles id) (Keeps id)) :
    (retrying.watched.retry judge.watched span attempt).Stays (Idles id) (Keeps id) := by
  have hT := keeps_composes (η := η) (S := S) id
  cases h with
  | standard h =>
    exact StandardStrategy.sequential h.counted _ hT keeps_of_idles attempt.watched hattempt
  | single h =>
    refine RetryStrategy.single_sequential (fun w _ _ _ => idles_say w _ _ _ _ _)
      (fun result _ => ?_) _ hT keeps_of_idles attempt.watched hattempt
    exact (idles_composes id).andThen (idles_set (h result _)) (idles_record rfl rfl _)

end Strategy

end Parts

end ClientRuntime
