import ClientRuntime.Proofs.Property
import ClientRuntime.Retry.Standard

/-!
What the settings of a strategy come to. A bucket or delays that were given are in the strategy that
is built, whatever was configured before, and configuring them afterwards is refused; what was not
given is made from all that was configured, with the strategy's clock.
-/

namespace ClientRuntime

open PropertyCall (lastGiven made builtFrom)

variable {η : Type}

/-- What is set on a strategy under construction. -/
inductive StrategySetting (η : Type) where
  | maxAttempts (n : Nat)
  | giveBucket (bucket : TokenBucket η)
  | configureBucket (f : BucketBuilder η → BucketBuilder η)
  | giveDelays (delays : DelayProvider (World η))
  | configureDelays (f : BackoffBuilder → BackoffBuilder)
  | clock (clock : Clock (World η))

namespace StrategySetting

def apply (b : StrategyBuilder η) : StrategySetting η → Except SettingError (StrategyBuilder η)
  | maxAttempts n => .ok (b.withMaxAttempts n)
  | giveBucket bucket => .ok (b.withBucket bucket)
  | configureBucket f => b.configureBucket f
  | giveDelays delays => .ok (b.withDelays delays)
  | configureDelays f => b.configureDelays f
  | clock c => .ok (b.withClock c)

/-- The builder after settings, up to the first that is refused. -/
def applyAll (settings : List (StrategySetting η)) : Except SettingError (StrategyBuilder η) :=
  settings.foldlM apply .empty

/-- What a setting does to the bucket. -/
def bucketCall? : StrategySetting η → Option (PropertyCall Id (TokenBucket η) (BucketBuilder η))
  | giveBucket bucket => some (.give bucket)
  | configureBucket f => some (.configurePure "token_bucket" f)
  | _ => none

/-- What a setting does to the delays. -/
def delaysCall? :
    StrategySetting η → Option (PropertyCall Id (DelayProvider (World η)) BackoffBuilder)
  | giveDelays delays => some (.give delays)
  | configureDelays f => some (.configurePure "delay_provider" f)
  | _ => none

/-- A setting that configures what was given before, and its refusal. -/
inductive Conflicts (before : List (StrategySetting η)) :
    StrategySetting η → SettingError → Prop where
  | bucket {bucket : TokenBucket η} {f : BucketBuilder η → BucketBuilder η} :
      giveBucket bucket ∈ before →
      Conflicts before (configureBucket f) (.propertyConflict "token_bucket")
  | delays {delays : DelayProvider (World η)} {f : BackoffBuilder → BackoffBuilder} :
      giveDelays delays ∈ before →
      Conflicts before (configureDelays f) (.propertyConflict "delay_provider")

variable {settings : List (StrategySetting η)} {b : StrategyBuilder η}

theorem bucketCall?_eq_give {s : StrategySetting η} {bucket : TokenBucket η} :
    s.bucketCall? = some (.give bucket) ↔ s = giveBucket bucket := by
  cases s <;> simp [bucketCall?, PropertyCall.configurePure]

theorem delaysCall?_eq_give {s : StrategySetting η} {delays : DelayProvider (World η)} :
    s.delaysCall? = some (.give delays) ↔ s = giveDelays delays := by
  cases s <;> simp [delaysCall?, PropertyCall.configurePure]

theorem isSome_lastGiven_bucket :
    (lastGiven (settings.filterMap bucketCall?)).isSome = true ↔
      ∃ bucket, giveBucket bucket ∈ settings := by
  simp [PropertyCall.isSome_lastGiven_filterMap, bucketCall?_eq_give]

theorem isSome_lastGiven_delays :
    (lastGiven (settings.filterMap delaysCall?)).isSome = true ↔
      ∃ delays, giveDelays delays ∈ settings := by
  simp [PropertyCall.isSome_lastGiven_filterMap, delaysCall?_eq_give]

/-- A builder whose parts are what settings make of them. -/
structure Made (settings : List (StrategySetting η)) (b : StrategyBuilder η) : Prop where
  bucket : b.bucket = made .empty (settings.filterMap bucketCall?)
  delays : b.delays = made .empty (settings.filterMap delaysCall?)

/-- A setting is refused exactly if it configures what was given, and changes no other part. -/
theorem Made.apply (h : Made settings b) (s : StrategySetting η) :
    match s.apply b with
    | .ok b' => Made (settings ++ [s]) b' ∧ ∀ e, ¬ s.Conflicts settings e
    | .error e => s.Conflicts settings e := by
  have hbucket (hnone : s.bucketCall? = none) :
      b.bucket = made .empty ((settings ++ [s]).filterMap bucketCall?) := by
    simp [h.bucket, hnone]
  have hdelays (hnone : s.delaysCall? = none) :
      b.delays = made .empty ((settings ++ [s]).filterMap delaysCall?) := by
    simp [h.delays, hnone]
  cases s with
  | maxAttempts | clock => exact ⟨⟨hbucket rfl, hdelays rfl⟩, nofun⟩
  | giveBucket bucket =>
    refine ⟨⟨?_, hdelays rfl⟩, nofun⟩
    rw [List.filterMap_append]
    change b.bucket.give bucket = _
    rw [h.bucket, PropertyCall.give_made]
    rfl
  | giveDelays delays =>
    refine ⟨⟨hbucket rfl, ?_⟩, nofun⟩
    rw [List.filterMap_append]
    change b.delays.give delays = _
    rw [h.delays, PropertyCall.give_made]
    rfl
  | configureBucket f =>
    rw [StrategySetting.apply, StrategyBuilder.configureBucket, h.bucket,
      PropertyCall.configure_made]
    cases hgiven : (lastGiven (settings.filterMap bucketCall?)).isSome with
    | true =>
      obtain ⟨bucket, hmem⟩ := isSome_lastGiven_bucket.mp hgiven
      exact .bucket hmem
    | false =>
      refine ⟨⟨?_, hdelays rfl⟩, ?_⟩
      · rw [List.filterMap_append]
        rfl
      · rintro e (hmem | -)
        rw [isSome_lastGiven_bucket.mpr ⟨_, hmem⟩] at hgiven
        cases hgiven
  | configureDelays f =>
    rw [StrategySetting.apply, StrategyBuilder.configureDelays, h.delays,
      PropertyCall.configure_made]
    cases hgiven : (lastGiven (settings.filterMap delaysCall?)).isSome with
    | true =>
      obtain ⟨delays, hmem⟩ := isSome_lastGiven_delays.mp hgiven
      exact .delays hmem
    | false =>
      refine ⟨⟨hbucket rfl, ?_⟩, ?_⟩
      · rw [List.filterMap_append]
        rfl
      · rintro e (- | hmem)
        rw [isSome_lastGiven_delays.mpr ⟨_, hmem⟩] at hgiven
        cases hgiven

theorem applyAll_snoc (settings : List (StrategySetting η)) (s : StrategySetting η) :
    applyAll (settings ++ [s]) = applyAll settings >>= s.apply := by
  rw [applyAll, List.foldlM_append, applyAll]
  simp only [List.foldlM_cons, List.foldlM_nil, bind_pure]

/-- Settings are applied up to the first that is refused. -/
theorem made_applyAll (settings : List (StrategySetting η)) :
    match applyAll settings with
    | .ok b =>
      Made settings b ∧
        ∀ before s after e, settings = before ++ s :: after → ¬ s.Conflicts before e
    | .error e =>
      ∃ before s after, settings = before ++ s :: after ∧ (applyAll before).isOk ∧
        s.Conflicts before e := by
  induction settings using List.reverseRecOn with
  | nil => exact ⟨⟨rfl, rfl⟩, fun before s after e h => by simp at h⟩
  | append_singleton settings s ih =>
    rw [applyAll_snoc]
    cases hall : applyAll settings with
    | error e =>
      rw [hall] at ih
      obtain ⟨before, s', after, rfl, hbefore, hconflicts⟩ := ih
      exact ⟨before, s', after ++ [s], by simp, hbefore, hconflicts⟩
    | ok b =>
      rw [hall] at ih
      obtain ⟨hmade, hfree⟩ := ih
      have happly := hmade.apply s
      change match s.apply b with
        | .ok b => _
        | .error e => _
      cases hs : s.apply b with
      | error e =>
        rw [hs] at happly
        exact ⟨settings, s, [], rfl, by rw [hall]; rfl, happly⟩
      | ok b' =>
        rw [hs] at happly
        refine ⟨happly.1, fun before s' after e hsplit => ?_⟩
        cases after using List.reverseRecOn with
        | nil =>
          obtain ⟨rfl, hlast⟩ := List.append_inj' hsplit rfl
          cases hlast
          exact happly.2 e
        | append_singleton after last =>
          rw [← List.cons_append, ← List.append_assoc] at hsplit
          obtain ⟨hsettings, -⟩ := List.append_inj' hsplit rfl
          exact hfree before s' after e hsettings

/-! ### What is built -/

/-- The bucket of a strategy with a clock. -/
def bucketOf (settings : List (StrategySetting η)) (clock : Clock (World η))
    (own : StrategyParts η) : StateM (World η) (TokenBucket η) :=
  builtFrom .empty (settings.filterMap bucketCall?) fun c =>
    (c.withDefaultClock clock).make own.account own.rounds

def delaysOf (settings : List (StrategySetting η)) (own : StrategyParts η) :
    StateM (World η) (DelayProvider (World η)) :=
  builtFrom .empty (settings.filterMap delaysCall?) (·.make own.random)

theorem Made.build (h : Made settings b) (own : StrategyParts η) (w : World η) :
    b.build own w = StateT.run (do
      let bucket ← bucketOf settings (b.clock.getD .system) own
      let delays ← delaysOf settings own
      return ⟨b.maxAttempts, bucket, delays, b.clock.getD .system⟩) w := by
  have hbucket := PropertyCall.buildM_edit_made .empty (settings.filterMap bucketCall?)
    (·.withDefaultClock (b.clock.getD .system)) (·.make own.account own.rounds)
  have hdelays := PropertyCall.buildM_made .empty (settings.filterMap delaysCall?)
    (·.make own.random)
  rw [← h.bucket] at hbucket
  rw [← h.delays] at hdelays
  rw [bucketOf, ← hbucket, delaysOf, ← hdelays]
  rfl

end StrategySetting

open PropertyCall (build reaching answers configures)
open StrategySetting (applyAll bucketOf delaysOf)

/-- Whatever is called on a part of a configuration, with functions of any effects: the part that is
built is the one given last; if none was given, it is what finishing makes of the builder, with
every function applied that configured or edited it, in order; and only if nothing configured it
either, the default is run. No other function runs than those that reach the builder, and each of
them once. To configure a part is refused exactly if it was given before, and then neither runs the
function nor changes what is built.

So it is with the bucket and the delays of a strategy. Settings are applied up to the first that
configures what was given before, which is refused; if there is none, the strategy has the bucket
and the delays that were given last, and what was not given is made from all that was configured. -/
theorem parts_follow_history {α β : Type} {m : Type → Type} [Monad m] [LawfulMonad m] (start : β)
    (finish : β → m α) (default : m α) (calls : List (PropertyCall m α β))
    (settings : List (StrategySetting η)) :
    (build start finish default calls = do
      let b ← (reaching calls).foldlM (fun b f => f b) start
      let a ← match lastGiven calls with
        | some a => pure a
        | none => if calls.any configures then finish b else default
      return (answers calls, a)) ∧
    (∀ before name f after, calls = before ++ .configure name f :: after →
      ((answers calls)[before.length]? = some (.refused (.propertyConflict name)) ↔
        ∃ a, .give a ∈ before) ∧
      ((∃ a, .give a ∈ before) →
        Prod.snd <$> build start finish default calls =
          Prod.snd <$> build start finish default (before ++ after))) ∧
    match applyAll settings with
    | .ok b =>
      (∀ before s after e, settings = before ++ s :: after → ¬ s.Conflicts before e) ∧
        ∀ own w, b.build own w = StateT.run (do
          let bucket ← bucketOf settings (b.clock.getD .system) own
          let delays ← delaysOf settings own
          return ⟨b.maxAttempts, bucket, delays, b.clock.getD .system⟩) w
    | .error e =>
      ∃ before s after, settings = before ++ s :: after ∧ (applyAll before).isOk ∧
        s.Conflicts before e := by
  refine ⟨PropertyCall.build_eq start finish default calls, ?_, ?_⟩
  · rintro before name f after rfl
    have hgiven : (lastGiven before).isSome = true ↔ ∃ a, .give a ∈ before :=
      PropertyCall.isSome_lastGiven_iff
    refine ⟨?_, fun h => ?_⟩
    · rw [PropertyCall.answers_at, PropertyCall.answerAfter, ← hgiven]
      cases lastGiven before <;> simp
    · exact PropertyCall.build_refused start finish default name f
        (Option.isSome_iff_ne_none.mp (hgiven.mpr h))
  · have hmade := StrategySetting.made_applyAll settings
    cases hall : applyAll settings with
    | error e =>
      rw [hall] at hmade
      exact hmade
    | ok b =>
      rw [hall] at hmade
      exact ⟨hmade.2, hmade.1.build⟩

/-! ### A part that is given in the end -/

/-- Adds a word to those that are there, and notes that it did. -/
def addWord (word : String) (words : List String) : StateM (List String) (List String) := do
  modify (· ++ [word])
  return words ++ [word]

/-- Nothing can be edited at first; then there is a builder, but it is given up. -/
def firstGiven : List (PropertyCall (StateM (List String)) String (List String)) :=
  [.edit (addWord "early"), .configure "sign" (addWord "large"), .edit (addWord "red"),
    .give "shared"]

def givenAgain : List (PropertyCall (StateM (List String)) String (List String)) :=
  [.edit (addWord "late"), .give "other"]

def buildSign (calls : List (PropertyCall (StateM (List String)) String (List String))) :
    StateM (List String) (List PropertyAnswer × String) :=
  build [] (fun words => return " ".intercalate words) (return "plain") calls

def refusedLate : List (PropertyCall (StateM (List String)) String (List String)) :=
  firstGiven ++ .configure "sign" (addWord "small") :: givenAgain

/-- A shared bucket, of which the strategy is not to have another one, and delays of its own. -/
def sharedBucket : List (StrategySetting (BucketState Float)) :=
  [.configureBucket fun c => { c with config := { c.config with capacity := 7 } },
    .giveBucket .infinite,
    .configureDelays fun c => { c with initialDelay := some (.ofSecs 1) }, .clock World.manualClock,
    .maxAttempts 0]

def ownParts : StrategyParts (BucketState Float) := ⟨World.hostLens, World.randomLens, 99⟩

def emptyHost : World (BucketState Float) := .start .epoch .epoch ⟨0, .epoch, 0⟩

theorem parts_follow_history_override :
    (buildSign refusedLate).run [] =
        (([.missing, .done, .done, .done, .refused (.propertyConflict "sign"), .missing, .done],
          "other"), ["large", "red"]) ∧
      (answers refusedLate)[4]? = some (.refused (.propertyConflict "sign")) ∧
      Prod.snd <$> buildSign refusedLate = Prod.snd <$> buildSign (firstGiven ++ givenAgain) ∧
      (∃ b, applyAll sharedBucket = .ok b ∧
        (b.build ownParts emptyHost).1.bucket = .infinite ∧
        (b.build ownParts emptyHost).1.delays =
          BackoffBuilder.build ⟨some (.ofSecs 1), none, none, none, none⟩ World.randomLens ∧
        (b.build ownParts emptyHost).2 = emptyHost) ∧
      applyAll (sharedBucket ++ [.configureBucket id]) =
        .error (.propertyConflict "token_bucket") := by
  obtain ⟨hbuild, hrefused, hsettings⟩ := parts_follow_history []
    (fun words => return " ".intercalate words) (return "plain") refusedLate sharedBucket
  obtain ⟨hanswer, hsame⟩ := hrefused firstGiven "sign" _ givenAgain rfl
  have hgiven : ∃ a, .give a ∈ firstGiven := ⟨"shared", by simp [firstGiven]⟩
  obtain ⟨b, hb⟩ : ∃ b, applyAll sharedBucket = .ok b := ⟨_, rfl⟩
  rw [hb] at hsettings
  have hparts := hsettings.2 ownParts emptyHost
  refine ⟨?_, hanswer.mpr hgiven, hsame hgiven, ⟨b, hb, ?_, ?_, ?_⟩, rfl⟩
  · rw [buildSign, hbuild]
    rfl
  · rw [hparts]
    rfl
  · rw [hparts]
    rfl
  · rw [hparts]
    rfl

end ClientRuntime
