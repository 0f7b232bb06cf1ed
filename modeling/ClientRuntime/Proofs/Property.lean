import ClientRuntime.Property
import Mathlib.Data.List.Induction
import Mathlib.Data.List.TakeWhile

/-!
What the calls on a part of a configuration come to. Whether the part is built from what was given,
from the builder, or by default can be read off the calls, and so can the functions that run: those
that reach the builder, each once and in order. A refused call leaves no trace.
-/

namespace ClientRuntime

variable {α β : Type} {m : Type → Type}

/-- What is done to a part before it is built. Functions may have effects. -/
inductive PropertyCall (m : Type → Type) (α β : Type) where
  | give (a : α)
  | configure (name : String) (f : β → m β)
  | edit (f : β → m β)

inductive PropertyAnswer where
  | done
  | refused (e : SettingError)
  /-- There is no builder to edit. -/
  | missing
  deriving DecidableEq

namespace PropertyCall

/-! ### Runs -/

section Runs

variable [Monad m]

/-- A call on a part whose builder starts as `start`. -/
def perform (start : β) : PropertyCall m α β → StateT (Property α β) m PropertyAnswer
  | give a => fun p => return (.done, p.give a)
  | configure name f => fun p => do
    match ← p.configureM name start f with
    | (.ok (), p) => return (.done, p)
    | (.error e, p) => return (.refused e, p)
  | edit f => fun p =>
    return (if p.builder?.isSome then .done else .missing, ← p.editM f)

/-- Calls on a part of which nothing is known, and then the build: what the calls come to, and the
finished part. -/
def build (start : β) (finish : β → m α) (default : m α) (calls : List (PropertyCall m α β)) :
    m (List PropertyAnswer × α) := do
  let (answers, p) ← (calls.mapM (perform start)).run .unset
  return (answers, ← p.buildM finish default)

end Runs

/-! ### What can be read off the calls -/

def given? : PropertyCall m α β → Option α
  | give a => some a
  | _ => none

def configures : PropertyCall m α β → Bool
  | configure .. => true
  | _ => false

def function? : PropertyCall m α β → Option (β → m β)
  | give _ => none
  | configure _ f => some f
  | edit f => some f

def lastGiven (calls : List (PropertyCall m α β)) : Option α := (calls.filterMap given?).getLast?

/-- The functions that run: those from the first call that configures the part, up to the first one
that gives it. -/
def reaching (calls : List (PropertyCall m α β)) : List (β → m β) :=
  ((calls.takeWhile (·.given?.isNone)).dropWhile (!·.configures)).filterMap function?

/-- The builder that these functions make, one after another. -/
def configured [Monad m] (start : β) (calls : List (PropertyCall m α β)) : m β :=
  (reaching calls).foldlM (fun b f => f b) start

/-- What becomes of the part if its functions make `b`. -/
def outcome (calls : List (PropertyCall m α β)) (b : β) : Property α β :=
  match lastGiven calls with
  | some a => .given a
  | none => if calls.any configures then .configured b else .unset

/-- A part that was given is not configured, and only a part that is configured can be edited. -/
def answerAfter (past : List (PropertyCall m α β)) : PropertyCall m α β → PropertyAnswer
  | give _ => .done
  | configure name _ =>
    if (lastGiven past).isSome then .refused (.propertyConflict name) else .done
  | edit _ => if (lastGiven past).isNone && past.any configures then .done else .missing

/-- The answer to each call after those before it. -/
def answers (calls : List (PropertyCall m α β)) : List PropertyAnswer :=
  calls.mapIdx fun i c => c.answerAfter (calls.take i)

section Calls

variable {calls before after : List (PropertyCall m α β)} {c : PropertyCall m α β} {a : α} {b : β}

theorem lastGiven_eq_none_iff : lastGiven calls = none ↔ ∀ c ∈ calls, c.given? = none := by
  rw [lastGiven, List.getLast?_eq_none_iff, List.filterMap_eq_nil_iff]

theorem isSome_lastGiven_iff : (lastGiven calls).isSome = true ↔ ∃ a, give a ∈ calls := by
  rw [Option.isSome_iff_ne_none, Ne, lastGiven_eq_none_iff]
  constructor
  · intro h
    push Not at h
    obtain ⟨c, hc, hgiven⟩ := h
    cases c with
    | give a => exact ⟨a, hc⟩
    | configure | edit => exact absurd rfl hgiven
  · rintro ⟨a, ha⟩ hnone
    cases hnone _ ha

/-- Calls that are part of something larger. -/
theorem isSome_lastGiven_filterMap {σ : Type} {call? : σ → Option (PropertyCall m α β)}
    {settings : List σ} :
    (lastGiven (settings.filterMap call?)).isSome = true ↔
      ∃ a, ∃ s ∈ settings, call? s = some (give a) := by
  rw [isSome_lastGiven_iff]
  exact exists_congr fun a => List.mem_filterMap

theorem lastGiven_snoc : lastGiven (calls ++ [c]) = c.given?.or (lastGiven calls) := by
  rw [lastGiven, List.filterMap_append, List.getLast?_append, lastGiven]
  cases c <;> rfl

theorem answers_at :
    (answers (before ++ c :: after))[before.length]? = some (c.answerAfter before) := by
  simp [answers]

theorem answers_snoc : answers (calls ++ [c]) = answers calls ++ [c.answerAfter calls] := by
  rw [answers, List.mapIdx_concat, List.take_left, answers]
  congr 1
  rw [List.mapIdx_eq_mapIdx_iff]
  intro i hi
  rw [List.take_append_of_le_length (Nat.le_of_lt hi)]

/-- After a part was given no function runs any more. -/
theorem reaching_append_of_given (h : lastGiven before ≠ none) :
    reaching (before ++ after) = reaching before := by
  have hstop : (before.takeWhile (·.given?.isNone)).length ≠ before.length := by
    intro hlength
    have hall := List.takeWhile_eq_self_iff.mp ((List.takeWhile_prefix _).eq_of_length hlength)
    exact h (lastGiven_eq_none_iff.mpr fun c hc => Option.isNone_iff_eq_none.mp (hall c hc))
  rw [reaching, List.takeWhile_append, if_neg hstop, reaching]

/-- The functions of a call that run after other calls. -/
def reachingAfter (past : List (PropertyCall m α β)) : PropertyCall m α β → List (β → m β)
  | give _ => []
  | configure _ f => if (lastGiven past).isSome then [] else [f]
  | edit f => if (lastGiven past).isNone && past.any configures then [f] else []

theorem reaching_snoc : reaching (calls ++ [c]) = reaching calls ++ c.reachingAfter calls := by
  cases hgiven : lastGiven calls with
  | some a =>
    rw [reaching_append_of_given (by simp [hgiven])]
    cases c <;> simp [reachingAfter, hgiven]
  | none =>
    have hall : ∀ c ∈ calls, c.given?.isNone = true := fun c hc =>
      Option.isNone_iff_eq_none.mpr (lastGiven_eq_none_iff.mp hgiven c hc)
    have hself : calls.takeWhile (·.given?.isNone) = calls := List.takeWhile_eq_self_iff.mpr hall
    rw [reaching, List.takeWhile_append_of_pos hall, List.dropWhile_append, reaching, hself]
    cases hany : calls.any configures with
    -- The builder is there, and the call reaches it.
    | true =>
      have hsome : ¬ (calls.dropWhile (!·.configures)).isEmpty = true := by
        obtain ⟨c, hc, hconfigures⟩ := List.any_eq_true.mp hany
        rw [List.isEmpty_iff, List.dropWhile_eq_nil_iff]
        intro hnone
        simpa [hconfigures] using hnone c hc
      rw [if_neg hsome, List.filterMap_append]
      congr 1
      cases c with
      | give a => rfl
      | configure name f => rw [reachingAfter, hgiven]; rfl
      | edit f => rw [reachingAfter, hgiven, hany]; rfl
    -- So far there is none, and only a call that configures makes one.
    | false =>
      have hnone : calls.dropWhile (!·.configures) = [] := by
        rw [List.dropWhile_eq_nil_iff]
        intro c hc
        simpa using List.any_eq_false.mp hany c hc
      rw [hnone]
      cases c with
      | give a => rfl
      | configure name f => rw [reachingAfter, hgiven]; rfl
      | edit f => rw [reachingAfter, hgiven, hany]; rfl

end Calls

/-! ### Runs come to what can be read off -/

section Runs

variable [Monad m] {start b : β} {calls before after : List (PropertyCall m α β)}

/-- As long as nothing configures the part, the builder is where it starts. -/
theorem configured_of_unconfigured (h : calls.any configures = false) :
    configured start calls = pure start := by
  have hnone : ∀ c ∈ calls.takeWhile (·.given?.isNone), (!c.configures) = true := by
    intro c hc
    simpa using List.any_eq_false.mp h c (List.takeWhile_subset _ hc)
  rw [configured, reaching, List.dropWhile_eq_nil_iff.mpr hnone]
  rfl

variable [LawfulMonad m]

theorem configured_snoc (c : PropertyCall m α β) :
    configured start (calls ++ [c]) =
      configured start calls >>= fun b => (c.reachingAfter calls).foldlM (fun b f => f b) b := by
  rw [configured, reaching_snoc, List.foldlM_append, configured]

/-- What goes on from the builder may rely on where it starts. -/
theorem configured_bind_congr {γ : Type} {k k' : β → m γ}
    (h : ∀ b, (calls.any configures = false → b = start) → k b = k' b) :
    configured start calls >>= k = configured start calls >>= k' := by
  cases hany : calls.any configures with
  | true => exact bind_congr fun b => h b (by simp [hany])
  | false =>
    rw [configured_of_unconfigured hany, pure_bind, pure_bind]
    exact h start fun _ => rfl

/-- A call after other calls: it is answered, and its functions run, by what was done before. -/
theorem perform_outcome (c : PropertyCall m α β) (hb : calls.any configures = false → b = start) :
    (c.perform start).run (outcome calls b) =
      (c.reachingAfter calls).foldlM (fun b f => f b) b >>= fun b' =>
        pure (c.answerAfter calls, outcome (calls ++ [c]) b') := by
  simp only [StateT.run, outcome, lastGiven_snoc, List.any_append, List.any_cons, List.any_nil,
    Bool.or_false]
  cases hgiven : lastGiven calls with
  | some a =>
    cases c <;> simp [perform, Property.give, Property.configureM, Property.editM,
      Property.builder?, reachingAfter, answerAfter, given?, hgiven]
  | none =>
    cases hany : calls.any configures with
    | true =>
      cases c <;> simp [perform, Property.give, Property.configureM, Property.editM,
        Property.builder?, reachingAfter, answerAfter, given?, hgiven, hany]
    | false =>
      obtain rfl := hb hany
      cases c <;> simp [perform, Property.give, Property.configureM, Property.editM,
        Property.builder?, reachingAfter, answerAfter, given?, configures, hgiven, hany]

/-- The functions that run are those that reach the builder, and nothing else has effects. -/
theorem run_calls (start : β) (calls : List (PropertyCall m α β)) :
    (calls.mapM (perform start)).run .unset =
      configured start calls >>= fun b => pure (answers calls, outcome calls b) := by
  induction calls using List.reverseRecOn with
  | nil => simp [configured, reaching, answers, outcome, lastGiven]
  | append_singleton calls c ih =>
    rw [List.mapM_append, StateT.run_bind, ih, configured_snoc, answers_snoc, bind_assoc,
      bind_assoc]
    refine configured_bind_congr fun b hb => ?_
    simp [c.perform_outcome hb]

/-- The finished part is what was given last, else what the builder makes, else the default. -/
theorem build_eq (start : β) (finish : β → m α) (default : m α)
    (calls : List (PropertyCall m α β)) :
    build start finish default calls = do
      let b ← configured start calls
      let a ← match lastGiven calls with
        | some a => pure a
        | none => if calls.any configures then finish b else default
      return (answers calls, a) := by
  rw [build, run_calls, bind_assoc]
  refine bind_congr fun b => ?_
  rw [pure_bind, outcome]
  cases lastGiven calls with
  | some a => rfl
  | none => cases calls.any configures <;> rfl

/-- A part that was given is built as if it had not been configured afterwards. -/
theorem build_refused (start : β) (finish : β → m α) (default : m α) (name : String) (f : β → m β)
    (h : lastGiven before ≠ none) :
    Prod.snd <$> build start finish default (before ++ configure name f :: after) =
      Prod.snd <$> build start finish default (before ++ after) := by
  have hconfigured : configured start (before ++ configure name f :: after) =
      configured start (before ++ after) := by
    rw [configured, reaching_append_of_given h, configured, reaching_append_of_given h]
  have hlast : lastGiven (before ++ configure name f :: after) = lastGiven (before ++ after) := by
    rw [lastGiven, List.filterMap_append, List.filterMap_cons_none rfl, lastGiven,
      List.filterMap_append]
  have hgiven : lastGiven (before ++ after) ≠ none := fun hnone =>
    h (lastGiven_eq_none_iff.mpr fun c hc =>
      lastGiven_eq_none_iff.mp hnone c (List.mem_append_left _ hc))
  obtain ⟨a, ha⟩ := Option.ne_none_iff_exists'.mp hgiven
  rw [build_eq, build_eq, hconfigured, hlast, ha]
  simp

end Runs

/-! ### Calls without effects -/

section Pure

variable {start : β} {calls : List (PropertyCall Id α β)}

/-- What calls make of a part of which nothing is known. -/
def made (start : β) (calls : List (PropertyCall Id α β)) : Property α β :=
  outcome calls (configured start calls).run

theorem perform_made (c : PropertyCall Id α β) :
    ((c.perform start).run (made start calls)).run =
      (c.answerAfter calls, made start (calls ++ [c])) := by
  have hb : calls.any configures = false → (configured start calls).run = start := fun hany =>
    congrArg Id.run (configured_of_unconfigured hany)
  rw [made, c.perform_outcome hb, made, configured_snoc]
  rfl

theorem give_made (a : α) : (made start calls).give a = made start (calls ++ [give a]) :=
  congrArg Prod.snd (perform_made (give a))

def configurePure (name : String) (f : β → β) : PropertyCall Id α β :=
  configure name fun b => pure (f b)

theorem configure_eq (p : Property α β) (name : String) (f : β → β) :
    p.configure name start f =
      match (((configurePure name f).perform start).run p).run with
      | (.refused e, _) => .error e
      | (_, p) => .ok p := by
  cases p <;> rfl

/-- What was given is not configured; what was configured is configured further. -/
theorem configure_made (name : String) (f : β → β) :
    (made start calls).configure name start f =
      if (lastGiven calls).isSome then .error (.propertyConflict name)
      else .ok (made start (calls ++ [configurePure name f])) := by
  rw [configure_eq, perform_made, configurePure, answerAfter]
  cases lastGiven calls <;> rfl

/-- What was given last, else what finishing makes of the builder. -/
def builtFrom [Monad m] (start : β) (calls : List (PropertyCall Id α β)) (finish : β → m α) : m α :=
  match lastGiven calls with
  | some a => pure a
  | none => finish (configured start calls).run

/-- The builder may be edited once more, if the default is made of a builder that was edited so. -/
theorem buildM_edit_made [Monad m] (start : β) (calls : List (PropertyCall Id α β)) (g : β → β)
    (finish : β → m α) :
    ((made start calls).edit g).buildM finish (finish (g start)) =
      builtFrom start calls fun b => finish (g b) := by
  rw [made, outcome, builtFrom]
  cases lastGiven calls with
  | some a => rfl
  | none =>
    cases hany : calls.any configures with
    | true => rfl
    | false =>
      rw [configured_of_unconfigured hany]
      rfl

theorem buildM_made [Monad m] (start : β) (calls : List (PropertyCall Id α β)) (finish : β → m α) :
    (made start calls).buildM finish (finish start) = builtFrom start calls finish := by
  have hedit := buildM_edit_made start calls id finish
  rwa [Property.edit_id] at hedit

end Pure

end PropertyCall

end ClientRuntime
