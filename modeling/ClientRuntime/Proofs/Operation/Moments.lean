import ClientRuntime.Proofs.Operation.Order

/-!
When an operation makes its calls, and how often. Every party is called before the attempts, within
them or after them; hooks that run whatever the others do are called once each.
-/

namespace ClientRuntime

variable {S : OperationShape}

/-- Before the attempts of an execution, within one of them, or after them. -/
inductive Moment where
  | before
  | within
  | after
  deriving DecidableEq

def Stage.moment : Stage → Moment
  | readBeforeExecution | modifyBeforeSerialization | readBeforeSerialization
  | readAfterSerialization | modifyBeforeRetryLoop => .before
  | modifyBeforeCompletion | readAfterExecution => .after
  | _ => .within

namespace Party

def moment : Party → Moment
  | hook stage _ => stage.moment
  | serializer => .before
  | signer | transport | deserializer => .within

def stage? : Party → Option Stage
  | hook stage _ => some stage
  | _ => none

/-- Called within attempts, but neither first nor last. -/
def Between (party : Party) : Prop :=
  party.moment = .within ∧ party.stage? ≠ some .readBeforeAttempt ∧
    party.stage? ≠ some .readAfterAttempt

end Party

def PipelineCall.isTo (party : Party) (c : PipelineCall S) : Bool := c.party = party

namespace Phase

variable {P : Party → Prop} {stage : Stage} {place left count : Nat} {ps : List (Phase S)}
  {p : Phase S} {calls : List (PipelineCall S)} {latest error : Option S.Error}

/-- Only such parties are called. -/
def About (P : Party → Prop) (p : Phase S) : Prop :=
  ∀ calls error, p calls error → ∀ c ∈ calls, P c.party

/-- Where no error is in force in the end, no call ended with one. -/
def Sound (p : Phase S) : Prop := ∀ calls, p calls none → ∀ c ∈ calls, c.failure = none

theorem single_about {party : Party} (h : P party) : (single party : Phase S).About P := by
  rintro _ _ rfl c hc
  obtain rfl := List.mem_singleton.mp hc
  exact h

theorem EveryoneFrom.party (h : EveryoneFrom stage place left latest calls error) :
    ∀ c ∈ calls, ∃ i, c.party = .hook stage i := by
  induction h with
  | done => simp
  | passed _ ih | failed _ ih => exact List.forall_mem_cons.mpr ⟨⟨_, rfl⟩, ih⟩

theorem UntilErrorFrom.party (h : UntilErrorFrom stage place left calls error) :
    ∀ c ∈ calls, ∃ i, c.party = .hook stage i := by
  induction h with
  | done => simp
  | passed _ ih => exact List.forall_mem_cons.mpr ⟨⟨_, rfl⟩, ih⟩
  | failed => simp

theorem everyone_about (h : ∀ place, P (.hook stage place)) :
    (everyone count stage : Phase S).About P := by
  intro calls error hp c hc
  obtain ⟨i, hi⟩ := EveryoneFrom.party hp c hc
  exact hi ▸ h i

theorem untilError_about (h : ∀ place, P (.hook stage place)) :
    (untilError count stage : Phase S).About P := by
  intro calls error hp c hc
  obtain ⟨i, hi⟩ := UntilErrorFrom.party hp c hc
  exact hi ▸ h i

theorem Chain.about (h : ∀ p ∈ ps, p.About P) : Phase.About P (Chain ps : Phase S) := by
  intro calls error hp
  induction hp with
  | nil => simp
  | stopped hp => exact h _ List.mem_cons_self _ _ hp
  | next hp _ ih =>
    refine List.forall_mem_append.mpr ⟨h _ List.mem_cons_self _ _ hp, ih fun p hmem => ?_⟩
    exact h p (List.mem_cons_of_mem _ hmem)

theorem single_sound (party : Party) : (single party : Phase S).Sound := by
  rintro _ rfl c hc
  obtain rfl := List.mem_singleton.mp hc
  rfl

/-- An error that is in force once stays in force, itself or a later one. -/
theorem EveryoneFrom.sound (h : EveryoneFrom stage place left latest calls error)
    (herror : error = none) : latest = none ∧ ∀ c ∈ calls, c.failure = none := by
  induction h with
  | done => exact ⟨herror, by simp⟩
  | passed _ ih =>
    obtain ⟨hlatest, hcalls⟩ := ih herror
    exact ⟨hlatest, List.forall_mem_cons.mpr ⟨rfl, hcalls⟩⟩
  | failed _ ih => cases (ih herror).1

theorem UntilErrorFrom.sound (h : UntilErrorFrom stage place left calls error)
    (herror : error = none) : ∀ c ∈ calls, c.failure = none := by
  induction h with
  | done => simp
  | passed _ ih => exact List.forall_mem_cons.mpr ⟨rfl, ih herror⟩
  | failed => cases herror

theorem everyone_sound : (everyone count stage : Phase S).Sound :=
  fun _ h => (EveryoneFrom.sound h rfl).2

theorem untilError_sound : (untilError count stage : Phase S).Sound :=
  fun _ h => UntilErrorFrom.sound h rfl

theorem Chain.sound (h : Chain ps calls error) (hps : ∀ p ∈ ps, p.Sound) (herror : error = none) :
    ∀ c ∈ calls, c.failure = none := by
  induction h with
  | nil => simp
  | stopped => cases herror
  | next hp _ ih =>
    have hrest := ih (fun p hmem => hps p (List.mem_cons_of_mem _ hmem)) herror
    exact List.forall_mem_append.mpr ⟨hps _ List.mem_cons_self _ hp, hrest⟩

theorem EveryoneFrom.countP_isTo (h : EveryoneFrom stage place left latest calls error)
    (i : Nat) : calls.countP (·.isTo (.hook stage i)) =
      if place ≤ i ∧ i < place + left then 1 else 0 := by
  induction h with
  | done => simp
  | passed _ ih | failed _ ih =>
    rw [List.countP_cons, ih]
    simp only [PipelineCall.isTo, Party.hook.injEq, true_and, decide_eq_true_eq]
    grind

theorem everyone_once {i : Nat} (hi : i < count) (h : everyone count stage calls error) :
    calls.countP (·.isTo (.hook stage i)) = 1 := by
  rw [EveryoneFrom.countP_isTo h]
  simp [hi]

theorem preparation_moment : (preparation count : Phase S).About (·.moment = .before) := by
  refine Chain.about ?_
  simp only [List.forall_mem_cons, List.not_mem_nil, false_implies, implies_true, and_true]
  exact ⟨everyone_about fun _ => rfl, untilError_about fun _ => rfl, untilError_about fun _ => rfl,
    single_about rfl, untilError_about fun _ => rfl, untilError_about fun _ => rfl⟩

theorem preparation_sound : (preparation count : Phase S).Sound := by
  refine fun calls h => Chain.sound h ?_ rfl
  simp only [List.forall_mem_cons, List.not_mem_nil, false_implies, implies_true, and_true]
  exact ⟨everyone_sound, untilError_sound, untilError_sound, single_sound _, untilError_sound,
    untilError_sound⟩

theorem untilError_between (hmoment : stage.moment = .within)
    (hfirst : stage ≠ .readBeforeAttempt) (hlast : stage ≠ .readAfterAttempt) :
    (untilError count stage : Phase S).About Party.Between :=
  untilError_about fun _ => ⟨hmoment, by simpa [Party.stage?], by simpa [Party.stage?]⟩

theorem transmission_between (h : transmission count calls error) : ∃ first rest e,
    everyone count .readBeforeAttempt first e ∧ calls = first ++ rest ∧
      ∀ c ∈ rest, c.party.Between := by
  cases h with
  | stopped hp => exact ⟨_, [], _, hp, (List.append_nil _).symm, by simp⟩
  | next hp hrest =>
    refine ⟨_, _, _, hp, rfl, Chain.about ?_ _ _ hrest⟩
    simp only [List.forall_mem_cons, List.not_mem_nil, false_implies, implies_true, and_true]
    refine ⟨?_, ?_, ?_, ?_, ?_, ?_, ?_, ?_, ?_, ?_⟩
    case refine_3 | refine_7 =>
      exact single_about (by simp [Party.Between, Party.moment, Party.stage?])
    all_goals exact untilError_between rfl (by decide) (by decide)

end Phase

open Phase

variable {count : Nat} {calls : List (PipelineCall S)}

/-- The first hooks of an attempt, what comes between, and the last hooks. -/
theorem AttemptOrder.split (h : AttemptOrder count calls) : ∃ first between last e e',
    everyone count .readBeforeAttempt first e ∧ everyone count .readAfterAttempt last e' ∧
      calls = first ++ (between ++ last) ∧ ∀ c ∈ between, c.party.Between := by
  cases h with
  | jumped hsent hlast =>
    obtain ⟨first, rest, e, hfirst, rfl, hrest⟩ := transmission_between hsent
    exact ⟨first, rest, _, e, _, hfirst, hlast, List.append_assoc .., hrest⟩
  | @overruled _ deserialized read _ last _ hsent hread hlast =>
    obtain ⟨first, rest, e, hfirst, rfl, hrest⟩ := transmission_between hsent
    have hread := untilError_between rfl (by decide) (by decide) _ _ hread
    refine ⟨first, rest ++ ⟨.deserializer, deserialized⟩ :: read, last, e, _, hfirst, hlast,
      by simp, List.forall_mem_append.mpr ⟨hrest, List.forall_mem_cons.mpr ⟨?_, hread⟩⟩⟩
    simp [Party.Between, Party.moment, Party.stage?]
  | @completed _ deserialized read revised _ last _ hsent hread hrevised hlast =>
    obtain ⟨first, rest, e, hfirst, rfl, hrest⟩ := transmission_between hsent
    have hread := untilError_between rfl (by decide) (by decide) _ _ hread
    have hrevised := everyone_about (P := Party.Between)
      (fun _ => by simp [Party.Between, Party.moment, Party.stage?, Stage.moment]) _ _ hrevised
    refine ⟨first, rest ++ ⟨.deserializer, deserialized⟩ :: (read ++ revised), last, e, _, hfirst,
      hlast, by simp, List.forall_mem_append.mpr ⟨hrest, List.forall_mem_cons.mpr ⟨?_,
        List.forall_mem_append.mpr ⟨hread, hrevised⟩⟩⟩⟩
    simp [Party.Between, Party.moment, Party.stage?]

theorem AttemptOrder.moment (h : AttemptOrder count calls) :
    ∀ c ∈ calls, c.party.moment = .within := by
  obtain ⟨first, between, last, e, e', hfirst, hlast, rfl, hbetween⟩ := h.split
  have hfirst := everyone_about (P := (·.moment = .within)) (fun _ => rfl) _ _ hfirst
  have hlast := everyone_about (P := (·.moment = .within)) (fun _ => rfl) _ _ hlast
  exact List.forall_mem_append.mpr
    ⟨hfirst, List.forall_mem_append.mpr ⟨fun c hc => (hbetween c hc).1, hlast⟩⟩

theorem countP_isTo_eq_zero {party : Party} (h : ∀ c ∈ calls, c.party ≠ party) :
    calls.countP (·.isTo party) = 0 :=
  List.countP_eq_zero.mpr fun c hc => by simpa [PipelineCall.isTo] using h c hc

/-- Every interceptor is called once at the start of an attempt, and once at its end. -/
theorem AttemptOrder.once (h : AttemptOrder count calls) {i : Nat} (hi : i < count) :
    calls.countP (·.isTo (.hook .readBeforeAttempt i)) = 1 ∧
      calls.countP (·.isTo (.hook .readAfterAttempt i)) = 1 := by
  obtain ⟨first, between, last, e, e', hfirst, hlast, rfl, hbetween⟩ := h.split
  have nowhere {stage : Stage} {list : List (PipelineCall S)}
      (hlist : ∀ c ∈ list, c.party.stage? ≠ some stage) :
      list.countP (·.isTo (.hook stage i)) = 0 :=
    countP_isTo_eq_zero fun c hc heq => hlist c hc (by rw [heq]; rfl)
  have hfirst' := everyone_about (P := fun party => party.stage? ≠ some .readAfterAttempt)
    (by simp [Party.stage?]) _ _ hfirst
  have hlast' := everyone_about (P := fun party => party.stage? ≠ some .readBeforeAttempt)
    (by simp [Party.stage?]) _ _ hlast
  constructor
  · rw [List.countP_append, List.countP_append, everyone_once hi hfirst, nowhere hlast',
      nowhere fun c hc => (hbetween c hc).2.1]
  · rw [List.countP_append, List.countP_append, everyone_once hi hlast, nowhere hfirst',
      nowhere fun c hc => (hbetween c hc).2.2]

theorem Phase.Completion.moment (h : Completion count calls) :
    ∀ c ∈ calls, c.party.moment = .after := by
  obtain ⟨hrevised, hread⟩ := h
  have hrevised := everyone_about (P := (·.moment = .after)) (fun _ => rfl) _ _ hrevised
  have hread := everyone_about (P := (·.moment = .after)) (fun _ => rfl) _ _ hread
  exact List.forall_mem_append.mpr ⟨hrevised, hread⟩

/-- Every interceptor is called once at the very end. -/
theorem Phase.Completion.once (h : Completion count calls) {i : Nat} (hi : i < count) :
    calls.countP (·.isTo (.hook .readAfterExecution i)) = 1 := by
  obtain ⟨hrevised, hread⟩ := h
  have hrevised := everyone_about (P := fun party => party ≠ .hook .readAfterExecution i)
    (by simp) _ _ hrevised
  rw [List.countP_append, countP_isTo_eq_zero hrevised, everyone_once hi hread]

end ClientRuntime
