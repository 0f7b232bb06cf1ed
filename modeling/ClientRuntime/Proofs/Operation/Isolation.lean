import Mathlib
import ClientRuntime.Proofs.Operation.Followed
import ClientRuntime.Proofs.Operation.WellBracketed
import ClientRuntime.Proofs.Retry.InTurn

/-!
Attempts are isolated from one another. Each starts from the request that was prepared, whatever
attempts before it did to theirs; and in the end the request and the response are those of the last
attempt, or absent if there was none.
-/

namespace ClientRuntime

open ClientRuntime.Fiber
open World (unwatched Aside)
open FollowedCall (handed)

variable {η δ α : Type} {S : OperationShape}

/-- The request prepared for attempts, and the exchange of the attempt that started last. -/
structure Transit (S : OperationShape) where
  prepared : Option S.Request
  exchange : Option (Exchange S)

namespace Transit

def start : Transit S := ⟨none, none⟩

def request (t : Transit S) : Option S.Request :=
  match t.exchange with
  | some x => some x.request
  | none => t.prepared

/-- An attempt starts with a copy of the prepared request and no response. What is handed on later
belongs to it. -/
def next (t : Transit S) : FollowedCall S → Transit S
  | .started _ => { t with exchange := t.prepared.map fun request => ⟨request, none⟩ }
  | .within (.request (some request)) =>
    match t.exchange with
    | some x => { t with exchange := some { x with request } }
    | none => { t with prepared := some request }
  | .within (.response (some response)) =>
    { t with exchange := t.exchange.map fun x => { x with response := some response } }
  | _ => t

def after (t : Transit S) (calls : List (FollowedCall S)) : Transit S := calls.foldl next t

/-- What is handed over is what there is. -/
def Hands (t : Transit S) : Handed S → Prop
  | .serializer _ _ | .hook _ _ (.input _) => True
  | .hook stage _ (.request v) =>
    t.request = some v.request ∧ (stage = .readBeforeAttempt → t.prepared = some v.request)
  | .hook _ _ (.response v) => t.exchange = some ⟨v.request, some v.response⟩
  | .hook _ _ (.result v) =>
    v.request = t.exchange.map (·.request) ∧ v.response = t.exchange.bind (·.response)
  | .signer _ request => t.request = some request
  | .transport _ request => t.exchange = some ⟨request, none⟩
  | .deserializer _ response => t.exchange.bind (·.response) = some response

/-- No attempt starts without a request. -/
def Shows (t : Transit S) : FollowedCall S → Prop
  | .started _ => t.prepared.isSome
  | .within (.handed c) => t.Hands c
  | _ => True

/-- Every call fits what is in transit before it. -/
def Trail : Transit S → List (FollowedCall S) → Prop
  | _, [] => True
  | t, c :: calls => t.Shows c ∧ (t.next c).Trail calls

variable {t : Transit S} {c : FollowedCall S} {calls calls' : List (FollowedCall S)}

@[simp] theorem after_cons : t.after (c :: calls) = (t.next c).after calls := rfl

@[simp] theorem after_append : t.after (calls ++ calls') = (t.after calls).after calls' :=
  List.foldl_append

theorem trail_append :
    t.Trail (calls ++ calls') ↔ t.Trail calls ∧ (t.after calls).Trail calls' := by
  induction calls generalizing t with
  | nil => simp [Trail, after]
  | cons c calls ih => simp only [List.cons_append, Trail, ih, and_assoc, after_cons]

theorem Trail.shows {past rest : List (FollowedCall S)} (h : t.Trail (past ++ c :: rest)) :
    (t.after past).Shows c :=
  (trail_append.mp h).2.1

/-- Whoever stands aside hands nothing over and leaves nothing. -/
theorem aside (hc : c.Aside) : t.Shows c ∧ t.next c = t := by
  cases c with
  | started | within => exact hc.elim
  | _ => exact ⟨trivial, rfl⟩

theorem trail_aside (h : ∀ c ∈ calls, c.Aside) : t.Trail calls ∧ t.after calls = t := by
  induction calls with
  | nil => exact ⟨trivial, rfl⟩
  | cons c calls ih =>
    obtain ⟨hc, hcalls⟩ := List.forall_mem_cons.mp h
    obtain ⟨hshows, hnext⟩ := t.aside hc
    obtain ⟨htrail, hafter⟩ := ih hcalls
    refine ⟨⟨hshows, by rwa [hnext]⟩, ?_⟩
    rw [after_cons, hnext, hafter]

theorem next_exchange (hc : t.Shows c) :
    (t.next c).exchange.isSome ↔ t.exchange.isSome ∨ ∃ n, .started n = c := by
  obtain ⟨prepared, exchange⟩ := t
  cases c with
  | started n =>
    have hprepared : prepared.isSome := hc
    simp [next, hprepared]
  | within c =>
    cases c with
    | handed c => simp [next]
    | request left => cases left <;> cases exchange <;> simp [next]
    | response left => cases left <;> simp [next]
  | _ => simp [next]

/-- There is an exchange if and only if an attempt has started. -/
theorem Trail.exchange_isSome (h : t.Trail calls) :
    (t.after calls).exchange.isSome ↔ t.exchange.isSome ∨ ∃ n, .started n ∈ calls := by
  induction calls generalizing t with
  | nil => simp [after]
  | cons c calls ih =>
    obtain ⟨hc, hcalls⟩ := h
    have hlater : ((t.next c).after calls).exchange.isSome ↔ _ := ih hcalls
    rw [next_exchange hc] at hlater
    simpa only [after_cons, List.mem_cons, exists_or, or_assoc] using hlater

theorem next_prepared (h : t.exchange.isSome) : (t.next c).prepared = t.prepared := by
  obtain ⟨prepared, _ | x⟩ := t
  · cases h
  · cases c with
    | within c => cases c with
      | handed c => rfl
      | request left => cases left <;> rfl
      | response left => cases left <;> rfl
    | _ => rfl

/-- Once an attempt has started, the prepared request stays as it is. -/
theorem Trail.prepared_after (h : t.Trail calls) (hx : t.exchange.isSome) :
    (t.after calls).prepared = t.prepared := by
  induction calls generalizing t with
  | nil => rfl
  | cons c calls ih =>
    obtain ⟨hc, hcalls⟩ := h
    have hlater : ((t.next c).after calls).prepared = _ :=
      ih hcalls ((next_exchange hc).mpr (.inl hx))
    exact hlater.trans (next_prepared hx)

end Transit

/-- From the world `w₀` on, every call that was noted fits what was in transit before it, which is
now `t`. -/
def World.Follows (w₀ : FollowedWorld η S) (t : Transit S) (w : FollowedWorld η S) : Prop :=
  ∃ calls, w.calls = w₀.calls ++ calls ∧ Transit.start.Trail calls ∧ Transit.start.after calls = t

namespace World.Follows

variable {w₀ w w' : FollowedWorld η S} {t : Transit S}

theorem nothing (w : FollowedWorld η S) : w.Follows .start w :=
  ⟨[], (List.append_nil _).symm, trivial, rfl⟩

theorem record {c : FollowedCall S} (h : w₀.Follows t w) (hc : t.Shows c) :
    w₀.Follows (t.next c) (w.record c) := by
  obtain ⟨calls, hcalls, htrail, rfl⟩ := h
  refine ⟨calls ++ [c], by rw [World.calls_record, hcalls, List.append_assoc], ?_, ?_⟩
  · exact Transit.trail_append.mpr ⟨htrail, hc, trivial⟩
  · rw [Transit.after_append]
    rfl

theorem aside (h : w.Aside w') (hw : w₀.Follows t w) : w₀.Follows t w' := by
  obtain ⟨calls, hcalls, htrail, rfl⟩ := hw
  obtain ⟨more, hmore, haside⟩ := h
  obtain ⟨hmoretrail, hafter⟩ := Transit.trail_aside haside
  refine ⟨calls ++ more, by rw [hmore, hcalls, List.append_assoc], ?_, ?_⟩
  · exact Transit.trail_append.mpr ⟨htrail, hmoretrail⟩
  · rw [Transit.after_append, hafter]

theorem same (h : w'.calls = w.calls) (hw : w₀.Follows t w) : w₀.Follows t w' :=
  hw.aside (World.aside_same h)

end World.Follows

section Calls

variable {w₀ : FollowedWorld η S} {t : Transit S} {m : Fiber (World η) α} {c : FollowedCall S}

theorem along_follows : (m.along unwatched).Carries Aside w₀.Follows t fun _ now => now = t :=
  .of_stays (fun _ _ _ h => World.Follows.aside h) (stays_unwatched m)

/-- A call that leaves nothing leaves what is in transit as it is. -/
theorem noted_follows {c : Handed S} (hc : t.Hands c) :
    (m.noted (handed c)).Carries Aside w₀.Follows t fun _ now => now = t :=
  .modify_bind (fun _ hw => World.Follows.record hw hc) along_follows

theorem followed_follows {c : Handed S} {left : α → FollowedCall S} (hc : t.Hands c)
    (hleft : ∀ a, t.Shows (left a)) :
    (m.followed (handed c) left).Carries Aside w₀.Follows t
      fun a now => now = t.next (left a) := by
  refine .modify_bind (fun _ hw => World.Follows.record hw hc) ?_
  refine along_follows.bind fun a now hnow => ?_
  obtain rfl := hnow
  exact .modify_bind (fun _ hw => World.Follows.record hw (hleft a)) (.pure rfl)

end Calls

section Loops

variable {w₀ : FollowedWorld η S} {t : Transit S} {id : ExecutionId} {stage : Stage}

/-- The step leads from what goes with a draft to what goes with the next. -/
def Step.Follows (w₀ : FollowedWorld η S) (scene : δ → Transit S)
    (step : Step (Journaled (FollowedCall S) η) δ S) : Prop :=
  ∀ d, (step d).Carries Aside w₀.Follows (scene d) fun made now => now = scene made.1

section Sequence

variable {scene : δ → Transit S} {step : Step (Journaled (FollowedCall S) η) δ S}
  {steps : List (Step (Journaled (FollowedCall S) η) δ S)}

theorem Step.Follows.cons {d : δ}
    (hstep : (step d).Carries Aside w₀.Follows (scene d) fun made now => now = scene made.1)
    (hsteps : (Step.sequence steps).Follows w₀ scene) :
    (Step.sequence (step :: steps) d).Carries Aside w₀.Follows (scene d)
      fun made now => now = scene made.1 := by
  refine hstep.bind fun ⟨d, passed⟩ now hnow => ?_
  obtain rfl := hnow
  cases passed with
  | ok => exact hsteps d
  | error e => exact .pure rfl

theorem Step.Follows.sequence (h : ∀ step ∈ steps, step.Follows w₀ scene) :
    (Step.sequence steps).Follows w₀ scene := by
  induction steps with
  | nil => exact fun d => .pure rfl
  | cons step steps ih =>
    obtain ⟨hstep, hsteps⟩ := List.forall_mem_cons.mp h
    exact fun d => Step.Follows.cons (hstep d) (ih hsteps)

theorem Step.ofCheck_follows {check : δ → Check (Journaled (FollowedCall S) η) S} {d : δ}
    (h : (check d).Carries Aside w₀.Follows (scene d) fun _ now => now = scene d) :
    (Step.ofCheck check d).Carries Aside w₀.Follows (scene d)
      fun made now => now = scene made.1 :=
  h.bind fun _ _ hnow => .pure hnow

end Sequence

theorem suppressError_follows (e : S.Error) :
    (suppressError id stage e : Fiber (FollowedWorld η S) Unit).Carries Aside w₀.Follows t
      fun _ now => now = t :=
  .of_stays (fun _ _ _ h => World.Follows.aside h) <| .modify fun w =>
    World.aside_same (World.say_traced w _ _ _ _ _).calls

theorem lastError_follows {checks : List (Check (Journaled (FollowedCall S) η) S)}
    (h : ∀ check ∈ checks, check.Carries Aside w₀.Follows t fun _ now => now = t)
    (latest : Option S.Error) :
    (lastError id stage latest checks).Carries Aside w₀.Follows t fun _ now => now = t := by
  induction checks generalizing latest with
  | nil => exact .pure rfl
  | cons check checks ih =>
    obtain ⟨hcheck, hchecks⟩ := List.forall_mem_cons.mp h
    refine hcheck.bind fun r now hnow => ?_
    obtain rfl := hnow
    cases r with
    | ok => exact ih hchecks latest
    | error e =>
      cases latest with
      | none => exact ih hchecks (some e)
      | some previous =>
        refine (suppressError_follows previous).bind fun _ now hnow => ?_
        obtain rfl := hnow
        exact ih hchecks (some e)

theorem checkAll_follows {checks : List (Check (Journaled (FollowedCall S) η) S)}
    (h : ∀ check ∈ checks, check.Carries Aside w₀.Follows t fun _ now => now = t) :
    (checkAll id stage checks).Carries Aside w₀.Follows t fun _ now => now = t := by
  refine (lastError_follows h none).bind fun latest now hnow => ?_
  cases latest <;> exact .pure hnow

theorem overrule_follows (result : S.Result) (e : S.Error) :
    (overrule id stage result e : Fiber (FollowedWorld η S) S.Result).Carries Aside w₀.Follows t
      fun _ now => now = t := by
  cases result with
  | ok => exact .pure rfl
  | error previous => exact (suppressError_follows previous).bind fun _ now hnow => .pure hnow

theorem reviseAll_follows {steps : List (Step (Journaled (FollowedCall S) η) S.Result S)}
    (h : ∀ step ∈ steps, step.Follows w₀ fun _ => t) (result : S.Result) :
    (reviseAll id stage steps result).Carries Aside w₀.Follows t fun _ now => now = t := by
  induction steps generalizing result with
  | nil => exact .pure rfl
  | cons step steps ih =>
    obtain ⟨hstep, hsteps⟩ := List.forall_mem_cons.mp h
    refine (hstep result).bind fun ⟨result, passed⟩ now hnow => ?_
    obtain rfl := hnow
    cases passed with
    | ok => exact ih hsteps result
    | error e =>
      refine (overrule_follows result e).bind fun result now hnow => ?_
      obtain rfl := hnow
      exact ih hsteps result

end Loops

namespace OperationExecution

variable {w₀ : FollowedWorld η S} {t : Transit S} {id : ExecutionId} {op : OperationExecution η S}
  {strategy : FollowedStrategy η S}

section Hooks

theorem forall_hooks {β : Type} {P : β → Prop}
    {hook : Interceptor (Journaled (FollowedCall S) η) S → β}
    (h : ∀ (i : Interceptor η S) place, P (hook (i.followed place))) :
    ∀ b ∈ (op.followed strategy).interceptors.map hook, P b := by
  have places (place : Nat) (is : List (Interceptor η S)) :
      ∀ i ∈ Interceptor.followedFrom place is, P (hook i) := by
    induction is generalizing place with
    | nil => exact fun i hi => nomatch hi
    | cons i is ih => exact List.forall_mem_cons.mpr ⟨h i place, ih (place + 1)⟩
  simpa [OperationExecution.followed] using places 0 op.interceptors

variable {scene : δ → Transit S}

theorem modify_follows {hook : Interceptor (Journaled (FollowedCall S) η) S → Step _ δ S}
    (h : ∀ (i : Interceptor η S) place, (hook (i.followed place)).Follows w₀ scene) :
    ((op.followed strategy).modify hook).Follows w₀ scene :=
  .sequence (forall_hooks h)

theorem read_follows {hook : Interceptor (Journaled (FollowedCall S) η) S → δ → Check _ S}
    (h : ∀ (i : Interceptor η S) place d, (hook (i.followed place) d).Carries Aside w₀.Follows
      (scene d) fun _ now => now = scene d) :
    ((op.followed strategy).read hook).Follows w₀ scene :=
  modify_follows fun i place d => Step.ofCheck_follows (h i place d)

theorem readAll_follows (scene : δ → Transit S) {stage : Stage} {d : δ}
    {hook : Interceptor (Journaled (FollowedCall S) η) S → δ → Check _ S}
    (h : ∀ (i : Interceptor η S) place, (hook (i.followed place) d).Carries Aside w₀.Follows
      (scene d) fun _ now => now = scene d) :
    ((op.followed strategy).readAll id stage hook d).Carries Aside w₀.Follows (scene d)
      fun made now => now = scene made.1 :=
  Step.ofCheck_follows (checkAll_follows (forall_hooks h))

theorem conclude_follows {stage : Stage}
    {hook : Interceptor (Journaled (FollowedCall S) η) S → Check _ S}
    (h : ∀ (i : Interceptor η S) place, (hook (i.followed place)).Carries Aside w₀.Follows t
      fun _ now => now = t) (result : S.Result) :
    ((op.followed strategy).conclude id stage hook result).Carries Aside w₀.Follows t
      fun _ now => now = t := by
  refine (checkAll_follows (forall_hooks h)).bind fun r now hnow => ?_
  obtain rfl := hnow
  cases r with
  | ok => exact .pure rfl
  | error e => exact overrule_follows result e

end Hooks

section Pipeline

/-- Until there is a request, nothing passes. -/
theorem beforeSerialization_follows :
    ((op.followed strategy).beforeSerialization id).Follows w₀ fun _ => .start := by
  refine .sequence (List.forall_mem_cons.mpr ⟨fun d => ?_, List.forall_mem_cons.mpr
    ⟨?_, List.forall_mem_singleton.mpr ?_⟩⟩)
  · exact readAll_follows (fun _ => .start) fun i place => noted_follows trivial
  · exact modify_follows fun i place d => noted_follows trivial
  · exact read_follows fun i place d => noted_follows trivial

/-- The request that will be prepared. -/
theorem afterSerialization_follows (input : S.Input) :
    ((op.followed strategy).afterSerialization id input).Follows w₀
      fun request => ⟨some request, none⟩ := by
  refine .sequence (List.forall_mem_cons.mpr ⟨?_, List.forall_mem_singleton.mpr ?_⟩)
  · exact read_follows fun i place d => noted_follows ⟨rfl, nofun⟩
  · exact modify_follows fun i place d => followed_follows ⟨rfl, nofun⟩ fun _ => trivial

theorem prepare_follows (input : S.Input) :
    ((op.followed strategy).prepare id input).Carries Aside w₀.Follows .start fun made now =>
      now.exchange = none ∧ ∀ request, made.2 = .ok request → now.prepared = some request := by
  refine (beforeSerialization_follows input).bind fun ⟨input, passed⟩ now hnow => ?_
  obtain rfl := hnow
  cases passed with
  | error e => exact .pure ⟨rfl, nofun⟩
  | ok =>
    refine (followed_follows (by trivial) fun _ => by trivial).bind fun answer now hnow => ?_
    obtain rfl := hnow
    cases answer with
    | error e => exact .pure ⟨rfl, nofun⟩
    | ok request =>
      refine (afterSerialization_follows input request).bind fun ⟨request, passed⟩ now hnow => ?_
      obtain rfl := hnow
      refine .pure ⟨rfl, fun r hr => ?_⟩
      cases passed with
      | error e => cases hr
      | ok => cases hr; rfl

variable {base : S.Request}

/-- Every hook before an attempt starts from what was prepared. -/
theorem beforeTransmission_follows (input : S.Input) :
    ((op.followed strategy).beforeTransmission id input base).Carries Aside w₀.Follows
      ⟨some base, some ⟨base, none⟩⟩ fun made now => now = ⟨some base, some ⟨made.1, none⟩⟩ := by
  let scene (request : S.Request) : Transit S := ⟨some base, some ⟨request, none⟩⟩
  refine Step.Follows.cons (readAll_follows scene fun i place => ?_) (.sequence ?_)
  · exact noted_follows ⟨rfl, fun _ => rfl⟩
  · simp only [List.forall_mem_cons]
    refine ⟨?_, ?_, ?_, ?_, ?_, ?_, nofun⟩
    · exact modify_follows fun i place d => followed_follows ⟨rfl, nofun⟩ fun _ => trivial
    · exact read_follows fun i place d => noted_follows ⟨rfl, nofun⟩
    · exact fun d => followed_follows rfl fun _ => trivial
    · exact read_follows fun i place d => noted_follows ⟨rfl, nofun⟩
    · exact modify_follows fun i place d => followed_follows ⟨rfl, nofun⟩ fun _ => trivial
    · exact read_follows fun i place d => noted_follows ⟨rfl, nofun⟩

theorem afterTransmission_follows (input : S.Input) (request : S.Request) :
    ((op.followed strategy).afterTransmission id input request).Follows w₀
      fun response => ⟨some base, some ⟨request, some response⟩⟩ := by
  refine .sequence ?_
  simp only [List.forall_mem_cons]
  refine ⟨?_, ?_, ?_, nofun⟩
  · exact read_follows fun i place d => noted_follows rfl
  · exact modify_follows fun i place d => followed_follows rfl fun _ => trivial
  · exact read_follows fun i place d => noted_follows rfl

theorem transmit_follows (input : S.Input) :
    ((op.followed strategy).transmit id input base).Carries Aside w₀.Follows
      ⟨some base, some ⟨base, none⟩⟩ fun made now => now = ⟨some base, some made.1⟩ := by
  refine (beforeTransmission_follows input).bind fun ⟨request, passed⟩ now hnow => ?_
  obtain rfl := hnow
  cases passed with
  | error e => exact .pure rfl
  | ok =>
    refine (followed_follows (by rfl) fun _ => by trivial).bind fun answer now hnow => ?_
    obtain rfl := hnow
    cases answer with
    | error e => exact .pure rfl
    | ok response =>
      refine (afterTransmission_follows input request response).bind
        fun ⟨response, passed⟩ now hnow => ?_
      obtain rfl := hnow
      cases passed with
      | error e => exact .pure rfl
      | ok =>
        exact (noted_follows (by rfl)).bind fun result now hnow => .pure hnow

/-- Hooks that see a result see the exchange that goes with it. -/
theorem settle_follows {view : S.Result → ResultView S}
    (hview : ∀ result, (view result).request = t.exchange.map (·.request) ∧
      (view result).response = t.exchange.bind (·.response)) (result : S.Result) :
    ((op.followed strategy).settle id view result).Carries Aside w₀.Follows t
      fun _ now => now = t := by
  have hread : ((op.followed strategy).read
      fun i d => i.readAfterDeserialization (view d)).Follows w₀ fun _ => t :=
    read_follows fun i place d => noted_follows (hview d)
  refine (hread result).bind fun ⟨d, passed⟩ now hnow => ?_
  obtain rfl := hnow
  cases passed with
  | ok =>
    refine reviseAll_follows (forall_hooks fun i place d => ?_) result
    exact noted_follows (hview d)
  | error e => exact overrule_follows result e

theorem complete_follows {view : S.Result → ResultView S}
    (hview : ∀ result, (view result).request = t.exchange.map (·.request) ∧
      (view result).response = t.exchange.bind (·.response)) (result : S.Result) :
    ((op.followed strategy).complete id view result).Carries Aside w₀.Follows t
      fun _ now => now = t := by
  refine (reviseAll_follows (forall_hooks fun i place d => ?_) result).bind
    fun result now hnow => ?_
  · exact noted_follows (hview d)
  · obtain rfl := hnow
    refine conclude_follows (fun i place => ?_) result
    exact noted_follows (hview result)

theorem spanClosing_follows {x : SpanId} {failed : α → Bool} {body : Fiber (FollowedWorld η S) α}
    {P : α → Transit S → Prop} (h : body.Carries Aside w₀.Follows t P) :
    (spanClosing x failed body).Carries Aside w₀.Follows t P := by
  intro w e w' hw hrun
  obtain ⟨w₁, hbody, rfl⟩ := run_spanClosing.mp hrun
  obtain ⟨now, hnow, hP⟩ := h w e w₁ hw hbody
  exact ⟨now, hnow.same (World.closeSpan_traced x failed e w₁).calls, hP⟩

theorem attempt_follows (input : S.Input) (n : Nat) :
    ((op.followed strategy).attempt id input base n).Carries Aside w₀.Follows
      ⟨some base, some ⟨base, none⟩⟩ fun made now => now = ⟨some base, some made.2⟩ := by
  refine .modify_bind (fun w hw => hw.same rfl) ?_
  refine .modifyGet_bind (fun w hw => hw.same (World.createChild_traced ..).calls) fun x => ?_
  refine spanClosing_follows ?_
  refine (transmit_follows input).bind fun ⟨exchange, sent⟩ now hnow => ?_
  obtain rfl := hnow
  let view (result : S.Result) : ResultView S :=
    ⟨id, input, some exchange.request, exchange.response, result⟩
  have finished (result : S.Result) : Carries Aside w₀.Follows ⟨some base, some exchange⟩
      (do
        let result ← (op.followed strategy).conclude id .readAfterAttempt
          (fun i => i.readAfterAttempt (view result)) result
        return (result, exchange)) fun made now => now = ⟨some base, some made.2⟩ := by
    refine (conclude_follows (fun i place => ?_) result).bind fun _ _ hnow => .pure hnow
    exact noted_follows ⟨rfl, rfl⟩
  cases sent with
  | ok result =>
    refine (settle_follows (fun _ => ⟨rfl, rfl⟩) result).bind fun result now hnow => ?_
    obtain rfl := hnow
    exact finished result
  | error e => exact finished (.error e)

theorem watched_attempt_follows (input : S.Input) (n : Nat) (last : Option (Exchange S)) :
    (Attempt.watched ((op.followed strategy).attempt id input base) n).Carries Aside w₀.Follows
      ⟨some base, last⟩ fun made now => now = ⟨some base, some made.2⟩ := by
  refine .modify_bind (fun w hw => World.Follows.record hw rfl) ?_
  refine (attempt_follows input n).bind fun made now hnow => ?_
  exact .modify_bind (fun w hw => hw.aside (World.aside_noted rfl trivial)) (.pure hnow)

/-- Attempts in turn, each from the prepared request. -/
theorem retry_follows (hturns : ∀ x, strategy.InTurn Aside op.judge.watched x) (input : S.Input)
    {prepared : Except S.Error S.Request} (hexchange : t.exchange = none)
    (hprepared : ∀ request, prepared = .ok request → t.prepared = some request) :
    ((op.followed strategy.watchingAttempts).retry id input prepared).Carries Aside w₀.Follows t
      fun made now => now.exchange = made.2 := by
  cases prepared with
  | error e => exact .pure hexchange
  | ok base =>
    obtain ⟨_, _⟩ := t
    obtain rfl : _ = none := hexchange
    obtain rfl := hprepared base rfl
    refine .gets_bind fun x => ?_
    refine Carries.bind (hturns x (Transit S) w₀.Follows (fun last => ⟨some base, last⟩)
      (fun _ _ _ h => World.Follows.aside h) _ (watched_attempt_follows input))
      fun retried now hnow => ?_
    obtain rfl := hnow
    exact .modify_bind (fun w hw => hw.same (World.emit_traced ..).calls) (.pure rfl)

theorem execute_follows (hturns : ∀ x, strategy.InTurn Aside op.judge.watched x)
    (input : S.Input) :
    ((op.followed strategy.watchingAttempts).execute id input).Carries Aside w₀.Follows .start
      fun _ _ => True := by
  refine .gets_bind fun x => spanClosing_follows ?_
  refine (prepare_follows input).bind fun ⟨input, prepared⟩ now ⟨hexchange, hprepared⟩ => ?_
  refine (retry_follows hturns input hexchange hprepared).bind fun ⟨result, last⟩ now hnow => ?_
  obtain rfl : now.exchange = last := hnow
  exact (complete_follows (fun _ => ⟨rfl, rfl⟩) result).imp fun _ _ _ => trivial

end Pipeline

/-- What has been noted of a run in which attempts keep to their own requests and responses. -/
structure Isolated (calls : List (FollowedCall S)) : Prop where
  /-- Once an attempt has started, nobody changes what was prepared, -/
  prepared : ∀ past rest, calls = past ++ rest → (∃ n, .started n ∈ past) →
    (Transit.start.after calls).prepared = (Transit.start.after past).prepared
  /-- and every attempt begins with it. -/
  begins : ∀ past place v rest,
    calls = past ++ handed (.hook .readBeforeAttempt place (.request v)) :: rest →
    (Transit.start.after past).prepared = some v.request
  /-- If an attempt has started, the hooks after the attempts see the exchange of the last one as it
  was last. -/
  completes : ∀ past stage place v rest,
    stage = .modifyBeforeCompletion ∨ stage = .readAfterExecution →
    calls = past ++ handed (.hook stage place (.result v)) :: rest → (∃ n, .started n ∈ past) →
    ∃ x, (Transit.start.after past).exchange = some x ∧ v.request = some x.request ∧
      v.response = x.response

theorem isolated_of_trail {calls : List (FollowedCall S)} (h : Transit.start.Trail calls) :
    Isolated calls := by
  have exchange {past rest} (hcalls : calls = past ++ rest) :
      (Transit.start.after past).exchange.isSome ↔ ∃ n, .started n ∈ past := by
    rw [hcalls] at h
    simpa [Transit.start] using (Transit.trail_append.mp h).1.exchange_isSome
  constructor
  case prepared =>
    rintro past rest rfl hstarted
    rw [Transit.after_append]
    exact (Transit.trail_append.mp h).2.prepared_after ((exchange rfl).mpr hstarted)
  case begins =>
    rintro past place v rest rfl
    exact h.shows.2 rfl
  case completes =>
    rintro past stage place v rest - rfl hstarted
    obtain ⟨x, hx⟩ := Option.isSome_iff_exists.mp ((exchange rfl).mpr hstarted)
    obtain ⟨hrequest, hresponse⟩ := h.shows
    exact ⟨x, hx, by simpa [hx] using hrequest, by simpa [hx] using hresponse⟩

/-- Every execution by a strategy that makes attempts in turn keeps them isolated from one another,
however it ends. So it is with both ways to retry, and every execution by itself that returns can be
seen with its requests and responses followed. -/
theorem execute_isolates_attempts (op : OperationExecution η S) (strategy : FollowedStrategy η S)
    (hturns : ∀ x, strategy.InTurn Aside op.judge.watched x) (id : ExecutionId) (input : S.Input)
    (w : FollowedWorld η S) :
    (∀ e w', Run Aside ((op.followed strategy.watchingAttempts).execute id input) w e w' →
      ∃ calls, w'.calls = w.calls ++ calls ∧ Isolated calls) ∧
    (∀ bare, strategy.watchingAttempts.Covering Aside (fun _ _ => True) bare → ∀ result v',
      Run (fun _ _ => True) ({ op with strategy := bare }.execute id input) (unwatched.get w)
        (.returned result) v' →
      ∃ w', unwatched.get w' = v' ∧
        Run Aside ((op.followed strategy.watchingAttempts).execute id input) w
          (.returned result) w') ∧
    ∀ retrying : Retrying η, ∃ strategy : FollowedStrategy η S,
      strategy.watchingAttempts = retrying.watched ∧
      (∀ x, strategy.InTurn Aside op.judge.watched x) ∧
      strategy.watchingAttempts.Covering Aside (fun _ _ => True) retrying.strategy := by
  have hR (w : FollowedWorld η S) (v : World η) (_ : True) : w.Aside (unwatched.set v w) :=
    World.aside_same rfl
  refine ⟨?_, ?_, fun retrying => ?_⟩
  · intro e w' hrun
    obtain ⟨t, ⟨calls, hcalls, htrail, -⟩, -⟩ :=
      execute_follows hturns input w e w' (.nothing w) hrun
    exact ⟨calls, hcalls, isolated_of_trail htrail⟩
  · intro bare hcovering result v' hrun
    exact followed_covers hR { op with strategy := bare } hcovering id input w result v' hrun
  · refine ⟨retrying.watchedBetween, retrying.watched_eq.symm, retrying.watched_inTurn op.judge, ?_⟩
    rw [← retrying.watched_eq]
    exact retrying.watched_covering hR

/-- Rewrites the request and the response of every attempt. -/
def rewriting : Interceptor Unit numberShape where
  describe := "Rewriting"
  modifyBeforeTransmit v := return (2 * v.request, .ok ())
  modifyBeforeDeserialization v := return (100 + v.response, .ok ())

/-- Signs by adding to the request. The first response is refused. -/
def restless : OperationExecution Unit numberShape :=
  { echo with
    sign := fun _ request => return (1 + request, .ok ())
    deserialize := fun id response => do
      let n ← Fiber.gets fun w => (w.execution id).attempt
      return if n = 1 then .error refusal else .ok response
    interceptors := [rewriting] }

theorem execute_isolates_attempts_restless :
    ∃ (w' : FollowedWorld Unit numberShape) (calls : List (FollowedCall numberShape)),
      Run Aside ((restless.followed (Retrying.watchedBetween
        (.standard StandardStrategy.twoAttempts)).watchingAttempts).execute 0 7) echoWorld
        (.returned (.ok 116)) w' ∧
      w'.calls = (echoWorld : FollowedWorld Unit numberShape).calls ++ calls ∧ Isolated calls ∧
      .started 2 ∈ calls ∧ handed (S := numberShape)
        (.hook .readAfterExecution 0 (.result ⟨0, 7, some 16, some 116, .ok 116⟩)) ∈ calls := by
  have hrun : Run Aside ((restless.followed (Retrying.watchedBetween
        (.standard StandardStrategy.twoAttempts)).watchingAttempts).execute 0 7) echoWorld
        (.returned (.ok 116)) _ :=
    Paused.run_of_ready World.aside_composes.none 2 (by cbv)
  obtain ⟨isolated, -⟩ := execute_isolates_attempts restless _
    (Retrying.watched_inTurn (.standard StandardStrategy.twoAttempts) restless.judge) 0 7 echoWorld
  obtain ⟨calls, hcalls, hisolated⟩ := isolated _ _ hrun
  obtain rfl : _ = calls := hcalls
  refine ⟨_, _, hrun, rfl, hisolated, ?_, ?_⟩
  · exact List.mem_of_getElem? (i := 38) (by cbv)
  · exact List.mem_of_getElem? (i := 63) (by cbv)

/-- The hooks after the attempts see a request if and only if an attempt has started. That the
serializer has returned one is not enough. Every execution by itself that returns can be seen with
its requests and responses followed. -/
theorem completion_sees_request_of_attempt (op : OperationExecution η S) (retrying : Retrying η)
    (id : ExecutionId) (input : S.Input) (w : FollowedWorld η S) :
    (∀ e w', Run Aside ((op.followed retrying.watched).execute id input) w e w' →
      ∃ calls, w'.calls = w.calls ++ calls ∧ ∀ past stage place v rest,
        stage = .modifyBeforeCompletion ∨ stage = .readAfterExecution →
        calls = past ++ handed (.hook stage place (.result v)) :: rest →
        (v.request.isSome ↔ ∃ n, .started n ∈ past)) ∧
    ∀ result v', Run (fun _ _ => True) ((op.retrying retrying).execute id input) (unwatched.get w)
        (.returned result) v' →
      ∃ w', unwatched.get w' = v' ∧
        Run Aside ((op.followed retrying.watched).execute id input) w (.returned result) w' := by
  constructor
  · intro e w' hrun
    rw [retrying.watched_eq] at hrun
    obtain ⟨t, ⟨calls, hcalls, htrail, -⟩, -⟩ :=
      execute_follows (retrying.watched_inTurn op.judge) input w e w' (.nothing w) hrun
    refine ⟨calls, hcalls, ?_⟩
    rintro past stage place v rest - rfl
    rw [htrail.shows.1, Option.isSome_map, (Transit.trail_append.mp htrail).1.exchange_isSome]
    simp [Transit.start]
  · intro result v' hrun
    have hR (w : FollowedWorld η S) (v : World η) (_ : True) : w.Aside (unwatched.set v w) :=
      World.aside_same rfl
    exact followed_covers hR (op.retrying retrying) (retrying.watched_covering hR) id input w result
      v' hrun

theorem completion_sees_request_of_attempt_restless :
    ∃ (w' : FollowedWorld Unit numberShape) (calls : List (FollowedCall numberShape)),
      Run Aside ((restless.followed (Retrying.watched
        (.standard StandardStrategy.twoAttempts))).execute 0 7) echoWorld
        (.returned (.ok 116)) w' ∧
      w'.calls = (echoWorld : FollowedWorld Unit numberShape).calls ++ calls ∧
      ∃ n, .started n ∈ calls.take 63 := by
  have hrun : Run Aside ((restless.followed (Retrying.watched
        (.standard StandardStrategy.twoAttempts))).execute 0 7) echoWorld
        (.returned (.ok 116)) _ :=
    Paused.run_of_ready World.aside_composes.none 2 (by cbv)
  obtain ⟨sees, -⟩ := completion_sees_request_of_attempt restless
    (.standard StandardStrategy.twoAttempts) 0 7 echoWorld
  obtain ⟨calls, hcalls, hsees⟩ := sees _ _ hrun
  refine ⟨_, calls, hrun, hcalls, ?_⟩
  let v : ResultView numberShape := ⟨0, 7, some 16, some 116, .ok 116⟩
  have hlast : calls[63]? = some (handed (.hook .readAfterExecution 0 (.result v))) := by
    rw [← hcalls.trans (List.nil_append calls)]
    cbv
  obtain ⟨hlt, hlast⟩ := List.getElem?_eq_some_iff.mp hlast
  have hsplit : calls = calls.take 63 ++
      handed (.hook .readAfterExecution 0 (.result v)) :: calls.drop 64 := by
    rw [← hlast, List.getElem_cons_drop, List.take_append_drop]
  exact (hsees _ _ _ _ _ (.inr rfl) hsplit).mp rfl

/-- Fails right after serialization. -/
def failsEarly : Interceptor Unit numberShape where
  describe := "FailsEarly"
  readAfterSerialization _ := return .error refusal

/-- The serializer returns a request, and the hooks at the end see none. -/
theorem completion_misses_request :
    ∃ w' : FollowedWorld Unit numberShape,
      Run Aside (({ echo with interceptors := [failsEarly] }.followed
        (Retrying.watched .single)).execute 0 7) echoWorld (.returned (.error refusal)) w' ∧
      .within (.request (some 7)) ∈ w'.calls ∧
      handed (S := numberShape) (.hook .modifyBeforeCompletion 0
        (.result ⟨0, 7, none, none, .error refusal⟩)) ∈ w'.calls ∧
      handed (S := numberShape) (.hook .readAfterExecution 0
        (.result ⟨0, 7, none, none, .error refusal⟩)) ∈ w'.calls := by
  refine ⟨_, Paused.run_of_ready World.aside_composes.none 0 (by cbv), ?_, ?_, ?_⟩
  · exact List.mem_of_getElem? (i := 4) (by cbv)
  · exact List.mem_of_getElem? (i := 6) (by cbv)
  · exact List.mem_of_getElem? (i := 7) (by cbv)

end OperationExecution

end ClientRuntime
