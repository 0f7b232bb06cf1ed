import ClientRuntime.Proofs.Cache.Contents

/-!
Logs of a cache: who got the lock and at what reading of the clock, which lookups began and how they
ended, what was returned, and what was invalidated. In a log that can be replayed at most one
lookup is under way at any time, no caller begins two, and none begins for a key while an entry of
it can be used.
-/

namespace ClientRuntime

/-- Callers are named by their place in the order of their first calls. -/
inductive CacheEvent (κ ν ε : Type) where
  /-- Got the lock, and read the clock. -/
  | entered (i : Nat) (key : κ) (now : Instant)
  /-- Began a lookup. -/
  | began (i : Nat) (key : κ)
  | found (i : Nat) (key : κ) (e : Expiring ν)
  | failed (i : Nat) (key : κ) (error : ε)
  /-- The lookup was dropped, or unwound. -/
  | cut (i : Nat) (key : κ)
  | returned (i : Nat) (result : Except ε ν)
  | invalidated (key : κ)

/-- How far the caller that has the lock has come. -/
inductive Inside (κ ν ε : Type) where
  | deciding (key : κ) (now : Instant)
  | looking (key : κ)
  | answering (result : Except ε ν)

/-- A cache between two events of its log. -/
structure CacheScene (κ ν ε : Type) where
  contents : CacheState κ ν
  inside : Option (Nat × Inside κ ν ε)
  /-- Who has had the lock so far. -/
  callers : List Nat

variable {κ ν ε : Type}

namespace CacheEvent

def begunBy (i : Nat) : CacheEvent κ ν ε → Bool
  | began j _ => j = i
  | _ => false

/-- The reading of the clock that a caller took. -/
def reading? : CacheEvent κ ν ε → Option Instant
  | entered _ _ now => some now
  | _ => none

/-- The callers whose lookups are under way after the event. -/
def next (l : List Nat) : CacheEvent κ ν ε → List Nat
  | began i _ => i :: l
  | found i _ _ => l.erase i
  | failed i _ _ => l.erase i
  | cut i _ => l.erase i
  | _ => l

end CacheEvent

/-- The callers whose lookups are under way at the end of a log. -/
def lookupsUnderWay (log : List (CacheEvent κ ν ε)) : List Nat := log.foldl CacheEvent.next []

namespace CacheScene

open CacheEvent

variable [DecidableEq κ]

inductive Step (period : Duration) : CacheScene κ ν ε → CacheEvent κ ν ε → CacheScene κ ν ε → Prop
    where
  | entered {s i key now} : s.inside = none → i ∉ s.callers →
      Step period s (.entered i key now)
        ⟨s.contents.tidied period now, some (i, .deciding key now), i :: s.callers⟩
  | began {s i key now} : s.inside = some (i, .deciding key now) →
      s.contents.live? now key = none →
      Step period s (.began i key) { s with inside := some (i, .looking key) }
  | found {s i key e} : s.inside = some (i, .looking key) →
      Step period s (.found i key e)
        { s with contents := s.contents.insert key e, inside := some (i, .answering (.ok e.value)) }
  | failed {s i key error} : s.inside = some (i, .looking key) →
      Step period s (.failed i key error) { s with inside := some (i, .answering (.error error)) }
  | cut {s i key} : s.inside = some (i, .looking key) →
      Step period s (.cut i key) { s with inside := none }
  | hit {s i key now e} : s.inside = some (i, .deciding key now) →
      s.contents.live? now key = some e →
      Step period s (.returned i (.ok e.value)) { s with inside := none }
  | returned {s i result} : s.inside = some (i, .answering result) →
      Step period s (.returned i result) { s with inside := none }
  | invalidated {s key} : s.inside = none →
      Step period s (.invalidated key) { s with contents := s.contents.erase key }

/-- A log replayed from one scene to another. -/
inductive Replay (period : Duration) :
    CacheScene κ ν ε → List (CacheEvent κ ν ε) → CacheScene κ ν ε → Prop where
  | nil {s} : Replay period s [] s
  | cons {s s₁ s' event log} : Step period s event s₁ → Replay period s₁ log s' →
      Replay period s (event :: log) s'

variable {period : Duration} {s s₁ s' : CacheScene κ ν ε} {event : CacheEvent κ ν ε}
  {log log' : List (CacheEvent κ ν ε)} {i j : Nat} {key : κ} {e : Expiring ν}

namespace Replay

theorem append (h : Replay period s log s₁) (h' : Replay period s₁ log' s') :
    Replay period s (log ++ log') s' := by
  induction h with
  | nil => exact h'
  | cons hstep _ ih => exact .cons hstep (ih h')

theorem snoc (h : Replay period s log s₁) (h' : Step period s₁ event s') :
    Replay period s (log ++ [event]) s' :=
  h.append (.cons h' .nil)

theorem split (h : Replay period s (log ++ log') s') :
    ∃ s₁, Replay period s log s₁ ∧ Replay period s₁ log' s' := by
  induction log generalizing s with
  | nil => exact ⟨s, .nil, h⟩
  | cons event log ih =>
    obtain _ | ⟨hstep, h⟩ := h
    obtain ⟨s₁, hfirst, hrest⟩ := ih h
    exact ⟨s₁, .cons hstep hfirst, hrest⟩

end Replay

/-- Whoever is inside is one of the callers. -/
def Listed (s : CacheScene κ ν ε) : Prop := ∀ i stage, s.inside = some (i, stage) → i ∈ s.callers

theorem Step.listed (h : Step period s event s') (hs : s.Listed) : s'.Listed := by
  cases h with
  | entered =>
    intro i stage hi
    cases hi
    exact List.mem_cons_self ..
  | began hin | found hin | failed hin =>
    intro i stage hi
    cases hi
    exact hs _ _ hin
  | cut | hit | returned =>
    intro i stage hi
    cases hi
  | invalidated => exact hs

theorem Replay.listed (h : Replay period s log s') (hs : s.Listed) : s'.Listed := by
  induction h with
  | nil => exact hs
  | cons hstep _ ih => exact ih (hstep.listed hs)

/-! ### One lookup at a time -/

/-- The caller whose lookup is under way, if there is one. -/
def underWay (s : CacheScene κ ν ε) : List Nat :=
  match s.inside with
  | some (i, .looking _) => [i]
  | _ => []

theorem Step.underWay_eq (h : Step period s event s') : s'.underWay = event.next s.underWay := by
  cases h with
  | entered hin | began hin | found hin | failed hin | cut hin | hit hin | returned hin
  | invalidated hin => simp [underWay, CacheEvent.next, hin]

theorem Replay.underWay_eq (h : Replay period s log s') :
    s'.underWay = log.foldl CacheEvent.next s.underWay := by
  induction h with
  | nil => rfl
  | cons hstep _ ih => rw [ih, hstep.underWay_eq, List.foldl_cons]

omit [DecidableEq κ] in
theorem length_underWay_le (s : CacheScene κ ν ε) : s.underWay.length ≤ 1 := by
  unfold underWay
  split <;> simp

/-- At no moment of a log are two lookups under way. -/
theorem Replay.one_under_way (h : Replay period s log s') (hs : s.inside = none)
    {past : List (CacheEvent κ ν ε)} (hpast : past <+: log) :
    (lookupsUnderWay past).length ≤ 1 := by
  obtain ⟨rest, rfl⟩ := hpast
  obtain ⟨s₁, hfirst, -⟩ := h.split
  have hidle : s.underWay = [] := by simp [underWay, hs]
  have hlookups := hfirst.underWay_eq
  rw [hidle] at hlookups
  unfold lookupsUnderWay
  rw [← hlookups]
  exact s₁.length_underWay_le

/-! ### No caller begins two lookups -/

/-- How many lookups a caller may still begin. -/
def chances (i : Nat) (s : CacheScene κ ν ε) : Nat :=
  match s.inside with
  | some (j, .deciding _ _) => if j = i ∨ i ∉ s.callers then 1 else 0
  | _ => if i ∉ s.callers then 1 else 0

theorem Step.chances_le (h : Step period s event s') (hs : s.Listed) (i : Nat) :
    (if event.begunBy i then 1 else 0) + s'.chances i ≤ s.chances i := by
  cases h with
  | @entered j key now hin hj =>
    by_cases hji : j = i
    · subst hji
      simp [chances, begunBy, hin, hj]
    · by_cases hi : i ∈ s.callers <;> simp [chances, begunBy, hin, hji, Ne.symm hji, hi]
  | @began j key now hin =>
    have hj := hs _ _ hin
    by_cases hji : j = i
    · subst hji
      simp [chances, begunBy, hin, hj]
    · simp [chances, begunBy, hin, hji]
  | hit hin =>
    simp only [chances, begunBy, hin, Bool.false_eq_true, if_false, Nat.zero_add]
    split <;> split <;> first | omega | simp_all
  | found hin | failed hin | cut hin | returned hin | invalidated hin =>
    simp [chances, begunBy, hin]

theorem Replay.countP_begun_le (h : Replay period s log s') (hs : s.Listed) (i : Nat) :
    log.countP (·.begunBy i) + s'.chances i ≤ s.chances i := by
  induction h with
  | nil => simp
  | cons hstep _ ih =>
    have hfirst := hstep.chances_le hs i
    have hrest := ih (hstep.listed hs)
    rw [List.countP_cons]
    omega

/-- Each caller begins at most one lookup. -/
theorem Replay.begins_once (h : Replay period s log s') (hs : s.inside = none) (i : Nat) :
    log.countP (·.begunBy i) ≤ 1 := by
  have hlisted : s.Listed := fun _ _ hi => by rw [hs] at hi; cases hi
  have hcount := h.countP_begun_le hlisted i
  have hone : s.chances i ≤ 1 := by
    simp only [chances, hs]
    split <;> omega
  omega

/-! ### Entries that can be used -/

/-- There is an entry, nobody looks its key up, and it can be used by whoever is about to decide. -/
structure Settled (key : κ) (e : Expiring ν) (s : CacheScene κ ν ε) : Prop where
  entry : s.contents.entry? key = some e
  quiet : ∀ i, s.inside ≠ some (i, .looking key)
  live : ∀ i now, s.inside = some (i, .deciding key now) → e.isExpired now = false

/-- An entry stays until it is invalidated or a reading of the clock shows it expired. Meanwhile no
lookup for its key begins. -/
theorem Step.settled (h : Step period s event s') (hs : s.Settled key e)
    (hlive : ∀ now, event.reading? = some now → e.isExpired now = false)
    (hkept : event ≠ .invalidated key) : s'.Settled key e ∧ ∀ i, event ≠ .began i key := by
  cases h with
  | entered hin =>
    refine ⟨⟨CacheState.entry?_tidied hs.entry (hlive _ rfl) _, ?_, ?_⟩, ?_⟩
    · intro i hi
      cases hi
    · intro i now hi
      cases hi
      exact hlive _ rfl
    · intro i hi
      cases hi
  | @began i key' now hin hmiss =>
    have hne : key' ≠ key := by
      rintro rfl
      have hhit := CacheState.live?_of_entry? hs.entry (hs.live i now hin)
      rw [hmiss] at hhit
      cases hhit
    refine ⟨⟨hs.entry, ?_, ?_⟩, ?_⟩
    · intro j hj
      cases hj
      exact hne rfl
    · intro j now hj
      cases hj
    · intro j hj
      cases hj
      exact hne rfl
  | @found i key' e' hin =>
    have hne : key ≠ key' := by
      rintro rfl
      exact hs.quiet i hin
    refine ⟨⟨CacheState.entry?_insert_of_ne hs.entry hne, ?_, ?_⟩, ?_⟩ <;> intros <;> simp_all
  | failed hin =>
    refine ⟨⟨hs.entry, ?_, ?_⟩, ?_⟩ <;> intros <;> simp_all
  | cut hin | hit hin | returned hin =>
    refine ⟨⟨hs.entry, ?_, ?_⟩, ?_⟩ <;> intros <;> simp_all
  | @invalidated key' hin =>
    have hne : key ≠ key' := by
      rintro rfl
      exact hkept rfl
    exact ⟨⟨CacheState.entry?_erase_of_ne hs.entry hne, hs.quiet, hs.live⟩, by simp⟩

theorem Replay.settled (h : Replay period s log s') (hs : s.Settled key e)
    (hlive : ∀ event ∈ log, ∀ now, event.reading? = some now → e.isExpired now = false)
    (hkept : .invalidated key ∉ log) : s'.Settled key e ∧ ∀ i, .began i key ∉ log := by
  induction h with
  | nil => exact ⟨hs, by simp⟩
  | cons hstep _ ih =>
    rw [List.forall_mem_cons] at hlive
    rw [List.mem_cons, not_or] at hkept
    obtain ⟨hs₁, hfirst⟩ := hstep.settled hs hlive.1 (Ne.symm hkept.1)
    obtain ⟨hs', hrest⟩ := ih hs₁ hlive.2 hkept.2
    refine ⟨hs', fun i hi => ?_⟩
    rcases List.mem_cons.mp hi with hi | hi
    · exact hfirst i hi.symm
    · exact hrest i hi

/-- After a lookup that succeeded. -/
theorem Step.settled_of_found (h : Step period s (.found i key e) s') : s'.Settled key e := by
  obtain ⟨⟩ := h
  refine ⟨CacheState.entry?_insert_self, ?_, ?_⟩ <;> intros <;> simp_all

/-! ### What callers return -/

/-- The caller has had the lock, and has left. -/
structure Gone (i : Nat) (s : CacheScene κ ν ε) : Prop where
  listed : i ∈ s.callers
  out : ∀ stage, s.inside ≠ some (i, stage)

/-- Whoever has left stays away, and returns nothing more. -/
theorem Step.gone (h : Step period s event s') (hi : s.Gone i) :
    s'.Gone i ∧ ∀ result, event ≠ .returned i result := by
  obtain ⟨hlisted, hout⟩ := hi
  cases h with
  | @entered j key now hin hj =>
    have hne : j ≠ i := by
      rintro rfl
      exact hj hlisted
    exact ⟨⟨List.mem_cons_of_mem _ hlisted, by simp [hne]⟩, by simp⟩
  | @began j key now hin | @found j key e hin | @failed j key error hin =>
    have hne : j ≠ i := by
      rintro rfl
      exact hout _ hin
    exact ⟨⟨hlisted, by simp [hne]⟩, by simp⟩
  | @cut j key hin | @hit j key now e hin | @returned j result hin =>
    have hne : j ≠ i := by
      rintro rfl
      exact hout _ hin
    exact ⟨⟨hlisted, by simp⟩, by simp [hne]⟩
  | invalidated hin => exact ⟨⟨hlisted, hout⟩, by simp⟩

theorem Replay.gone (h : Replay period s log s') (hi : s.Gone i) (result : Except ε ν) :
    .returned i result ∉ log := by
  induction h with
  | nil => simp
  | cons hstep _ ih =>
    obtain ⟨hi₁, hfirst⟩ := hstep.gone hi
    rw [List.mem_cons, not_or]
    exact ⟨Ne.symm (hfirst result), ih hi₁⟩

/-- A caller that finds an entry it can use returns its value. -/
theorem Replay.returned_of_live {now : Instant} (h : Replay period s log s')
    (hin : s.inside = some (i, .deciding key now)) (hs : s.Listed)
    (hlive : s.contents.live? now key = some e) {result : Except ε ν}
    (hreturned : .returned i result ∈ log) : result = .ok e.value := by
  obtain _ | ⟨hstep, hrest⟩ := h
  · cases hreturned
  have hi := hs _ _ hin
  -- Nobody but the caller inside can go on, and it has no reason to begin a lookup.
  cases hstep with
  | entered hin' | found hin' | failed hin' | cut hin' | returned hin' | invalidated hin' =>
    rw [hin] at hin'
    cases hin'
  | began hin' hmiss =>
    rw [hin] at hin'
    cases hin'
    rw [hlive] at hmiss
    cases hmiss
  | hit hin' hhit =>
    rw [hin] at hin'
    cases hin'
    rw [hlive] at hhit
    cases hhit
    rcases List.mem_cons.mp hreturned with heq | hlater
    · cases heq
      rfl
    · exact absurd hlater (hrest.gone ⟨hi, by simp⟩ result)

theorem Step.callers_subset (h : Step period s event s') : s.callers ⊆ s'.callers := by
  cases h with
  | entered => exact List.subset_cons_self ..
  | began | found | failed | cut | hit | returned | invalidated => exact List.Subset.refl _

theorem Replay.callers_subset (h : Replay period s log s') : s.callers ⊆ s'.callers := by
  induction h with
  | nil => exact List.Subset.refl _
  | cons hstep _ ih => exact List.Subset.trans hstep.callers_subset ih

/-- Nobody returns before having had the lock. -/
theorem Replay.listed_of_returned (h : Replay period s log s') (hs : s.Listed)
    {result : Except ε ν} (hreturned : .returned i result ∈ log) : i ∈ s'.callers := by
  induction h with
  | nil => cases hreturned
  | cons hstep hrest ih =>
    rcases List.mem_cons.mp hreturned with rfl | hlater
    · cases hstep with
      | hit hin | returned hin => exact hrest.callers_subset (hs _ _ hin)
    · exact ih (hstep.listed hs) hlater

/-- Once a lookup has found an entry, and until it is invalidated or a reading of the clock shows it
expired, no lookup for its key begins, and whoever then gets the lock for the key can return
nothing but its value. -/
theorem Replay.found_stays (h : Replay period s log s') (hs : s.inside = none)
    {past later rest : List (CacheEvent κ ν ε)}
    (hlog : log = past ++ .found i key e :: (later ++ rest))
    (hlive : ∀ event ∈ later, ∀ now, event.reading? = some now → e.isExpired now = false)
    (hkept : .invalidated key ∉ later) :
    (∀ j, .began j key ∉ later) ∧
      ∀ j now, .entered j key now ∈ later → ∀ result, .returned j result ∈ log →
        result = .ok e.value := by
  have hlisted : s.Listed := fun _ _ hi => by rw [hs] at hi; cases hi
  subst hlog
  obtain ⟨s₁, hpast, h⟩ := h.split
  obtain _ | ⟨hfound, h⟩ := h
  obtain ⟨s₃, hlater, hrest⟩ := h.split
  refine ⟨(hlater.settled hfound.settled_of_found hlive hkept).2, ?_⟩
  intro j now hentered result hreturned
  obtain ⟨later₁, later₂, rfl⟩ := List.append_of_mem hentered
  obtain ⟨s₄, hlater₁, hlater₂⟩ := hlater.split
  have hsettled := (hlater₁.settled hfound.settled_of_found
    (fun event he => hlive event (List.mem_append_left _ he))
    (fun he => hkept (List.mem_append_left _ he))).1
  have hbefore := (hpast.snoc hfound).append hlater₁
  obtain _ | ⟨hstep, hlater₂⟩ := hlater₂
  cases hstep with
  | entered hin hnew =>
    have hnow : e.isExpired now = false := hlive _ hentered now rfl
    have hentry := CacheState.entry?_tidied hsettled.entry hnow period
    rcases List.mem_append.mp (show CacheEvent.returned j result ∈
        (past ++ [.found i key e] ++ later₁) ++ (.entered j key now :: (later₂ ++ rest)) by
      simpa using hreturned) with hmem | hmem
    · exact absurd (hbefore.listed_of_returned hlisted hmem) hnew
    · have hafter := hlater₂.append hrest
      refine hafter.returned_of_live rfl ?_ (CacheState.live?_of_entry? hentry hnow) ?_
      · intro k stage hk
        cases hk
        exact List.mem_cons_self ..
      · simpa using hmem

end CacheScene

end ClientRuntime
