import Mathlib
import ClientRuntime.Proofs.Cache.Fruitless
import ClientRuntime.Proofs.Cache.Sweeping

/-!
When a cache sweeps. The sweeps of a run can be told from the readings of the clock alone, and they
keep their distance however the clock moves; nothing but a get sweeps, and a sweep takes away all
that has expired and nothing else.
-/

namespace ClientRuntime

open ClientRuntime.Fiber
open World (unwatched)

/-! ### Schedules -/

/-- The sweeps of a cache that was made, or last swept, at `last`: at each reading that is a period
past the one before. -/
def sweepTimes (period : Duration) : Instant → List Instant → List Instant
  | _, [] => []
  | last, now :: later =>
    if last.addSaturating period ≤ now then now :: sweepTimes period now later
    else sweepTimes period last later

/-- When a cache was swept last; if it never was, when it was made. -/
def lastSweep (period : Duration) (created : Instant) (readings : List Instant) : Instant :=
  (sweepTimes period created readings).getLastD created

section Schedule

variable {period : Duration} {last now t : Instant} {later readings : List Instant}

theorem sweepTimes_of_due (h : last.addSaturating period ≤ now) :
    sweepTimes period last (now :: later) = now :: sweepTimes period now later := if_pos h

theorem sweepTimes_of_early (h : ¬ last.addSaturating period ≤ now) :
    sweepTimes period last (now :: later) = sweepTimes period last later := if_neg h

theorem lastSweep_of_due (h : last.addSaturating period ≤ now) :
    lastSweep period last (now :: later) = lastSweep period now later := by
  rw [lastSweep, sweepTimes_of_due h, List.getLastD_cons, lastSweep]

theorem lastSweep_of_early (h : ¬ last.addSaturating period ≤ now) :
    lastSweep period last (now :: later) = lastSweep period last later := by
  rw [lastSweep, sweepTimes_of_early h, lastSweep]

theorem lastSweep_mem (period : Duration) (last : Instant) (readings : List Instant) :
    lastSweep period last readings ∈ last :: readings := by
  induction readings generalizing last with
  | nil => exact List.mem_cons_self ..
  | cons now later ih =>
    by_cases hdue : last.addSaturating period ≤ now
    · rw [lastSweep_of_due hdue]
      exact List.mem_cons_of_mem _ (ih now)
    · rw [lastSweep_of_early hdue]
      exact List.mem_cons.mpr ((List.mem_cons.mp (ih last)).imp_right (List.mem_cons_of_mem now))

/-- A sweep is followed by none before its period is over. -/
theorem addSaturating_le_of_mem_sweepTimes (h : t ∈ sweepTimes period last readings) :
    last.addSaturating period ≤ t := by
  induction readings generalizing last with
  | nil => cases h
  | cons now later ih =>
    by_cases hdue : last.addSaturating period ≤ now
    · rw [sweepTimes_of_due hdue, List.mem_cons] at h
      rcases h with rfl | h
      · exact hdue
      -- The next sweep is not before the end of another period.
      · have hnext : now.addSaturating period ≤ t := ih h
        have hnow : now ≤ now.addSaturating period := now.le_addSaturating period
        exact Int.le_trans hdue (Int.le_trans hnow hnext)
    · rw [sweepTimes_of_early hdue] at h
      exact ih h

theorem sweepTimes_pairwise (period : Duration) (last : Instant) (readings : List Instant) :
    (last :: sweepTimes period last readings).Pairwise fun s t => s.addSaturating period ≤ t := by
  induction readings generalizing last with
  | nil => exact List.pairwise_singleton ..
  | cons now later ih =>
    refine List.Pairwise.cons (fun t ht => addSaturating_le_of_mem_sweepTimes ht) ?_
    by_cases hdue : last.addSaturating period ≤ now
    · rw [sweepTimes_of_due hdue]
      exact ih now
    · rw [sweepTimes_of_early hdue]
      exact (ih last).of_cons

end Schedule

/-! ### Contents and the schedule -/

variable {η κ ν ε : Type}

/-- The readings of the clock that gets have taken. -/
def readings (log : List (CacheEvent κ ν ε)) : List Instant := log.filterMap (·.reading?)

namespace CacheState

variable {period : Duration} {now : Instant} {s : CacheState κ ν}

theorem sweepDue_iff : s.sweepDue now = true ↔ s.nextSweep ≤ now := decide_eq_true_iff

theorem tidied_of_due (h : s.nextSweep ≤ now) : s.tidied period now = s.sweep period now :=
  if_pos (sweepDue_iff.mpr h)

theorem tidied_of_early (h : ¬ s.nextSweep ≤ now) : s.tidied period now = s :=
  if_neg (mt sweepDue_iff.mp h)

theorem mem_sweep {a : κ × Expiring ν} :
    a ∈ (s.sweep period now).entries ↔ a ∈ s.entries ∧ a.2.isExpired now = false := by
  simp [sweep]

end CacheState

section Log

variable [DecidableEq κ] {period : Duration} {created now : Instant} {s : CacheState κ ν}
  {event : CacheEvent κ ν ε} {past log : List (CacheEvent κ ν ε)}

theorem contentsAfter_snoc :
    contentsAfter period s (past ++ [event]) =
      event.apply period (contentsAfter period s past) := by
  rw [contentsAfter, List.foldl_append, List.foldl_cons, List.foldl_nil, contentsAfter]

/-- What takes no reading of the clock leaves the schedule alone, and of the entries takes away at
most the one that it is about. -/
theorem CacheEvent.apply_of_quiet (hquiet : event.reading? = none) :
    (event.apply period s).nextSweep = s.nextSweep ∧
      ∀ a ∈ s.entries, a ∉ (event.apply period s).entries →
        event = .invalidated a.1 ∨ ∃ i e, event = .found i a.1 e := by
  cases event with
  | entered i key now => cases hquiet
  | found i key e =>
    refine ⟨rfl, fun a ha hgone => .inr ⟨i, e, ?_⟩⟩
    by_contra hne
    exact hgone (CacheState.mem_insert.mpr (.inr ⟨ha, by rintro rfl; exact hne rfl⟩))
  | invalidated key =>
    refine ⟨rfl, fun a ha hgone => .inl ?_⟩
    by_contra hne
    exact hgone (CacheState.mem_erase.mpr ⟨ha, by rintro rfl; exact hne rfl⟩)
  | began | failed | cut | returned => exact ⟨rfl, fun a ha hgone => absurd ha hgone⟩

/-- The cache knows when it was swept last. -/
theorem nextSweep_contentsAfter (hs : s.nextSweep = created.addSaturating period) :
    (contentsAfter period s log).nextSweep =
      (lastSweep period created (readings log)).addSaturating period := by
  induction log generalizing s created with
  | nil => exact hs
  | cons event log ih =>
    change (contentsAfter period (event.apply period s) log).nextSweep = _
    cases hreading : event.reading? with
    | none =>
      rw [readings, List.filterMap_cons_none hreading]
      exact ih ((event.apply_of_quiet hreading).1.trans hs)
    | some now =>
      cases event with
      | entered i key now' =>
        obtain rfl := Option.some.inj hreading
        rw [readings, List.filterMap_cons_some hreading]
        by_cases hdue : created.addSaturating period ≤ now'
        · rw [lastSweep_of_due hdue, CacheEvent.apply, CacheState.tidied_of_due (hs ▸ hdue)]
          exact ih rfl
        · rw [lastSweep_of_early hdue, CacheEvent.apply, CacheState.tidied_of_early (hs ▸ hdue)]
          exact ih hs
      | _ => cases hreading

theorem nextSweep_contentsAfter_initial (period : Duration) (created : Instant)
    (log : List (CacheEvent κ ν ε)) :
    (contentsAfter period (ReadThroughCache.initial period created) log).nextSweep =
      (lastSweep period created (readings log)).addSaturating period :=
  nextSweep_contentsAfter rfl

/-! ### What a get leaves -/

namespace CacheScene

variable {s s' : CacheScene κ ν ε} {key : κ}

/-- Whoever is inside is there for the key, and of the other keys nothing has expired. -/
structure Clean (key : κ) (now : Instant) (s : CacheScene κ ν ε) : Prop where
  others : ∀ a ∈ s.contents.entries, a.1 ≠ key → a.2.isExpired now = false
  deciding : ∀ i key' t, s.inside = some (i, .deciding key' t) → key' = key
  looking : ∀ i key', s.inside = some (i, .looking key') → key' = key

theorem Step.clean (h : Step period s event s') (hs : s.Clean key now)
    (hquiet : event.reading? = none) : s'.Clean key now := by
  cases h with
  | entered => cases hquiet
  | began hin =>
    refine ⟨hs.others, by simp, ?_⟩
    intro i key' hi
    cases hi
    exact hs.deciding _ _ _ hin
  | found hin =>
    obtain rfl := hs.looking _ _ hin
    refine ⟨?_, by simp, by simp⟩
    intro a ha hne
    rcases CacheState.mem_insert.mp ha with rfl | ⟨ha, -⟩
    · exact absurd rfl hne
    · exact hs.others a ha hne
  | failed | cut | hit | returned => exact ⟨hs.others, by simp, by simp⟩
  | invalidated =>
    refine ⟨?_, hs.deciding, hs.looking⟩
    intro a ha hne
    exact hs.others a (CacheState.mem_erase.mp ha).1 hne

theorem Replay.clean (h : Replay period s log s') (hs : s.Clean key now)
    (hquiet : readings log = []) : s'.Clean key now := by
  induction h with
  | nil => exact hs
  | cons hstep _ ih =>
    rw [readings, List.filterMap_eq_nil_iff, List.forall_mem_cons] at hquiet
    exact ih (hstep.clean hs hquiet.1) (List.filterMap_eq_nil_iff.mpr hquiet.2)

end CacheScene

end Log

/-! ### Runs -/

namespace ReadThroughCache

variable [DecidableEq κ]

/-- A log of a cache that was made at `created`, and that is swept when it should be. -/
structure Paced (period : Duration) (created : Instant) (log : List (CacheEvent κ ν ε)) : Prop where
  /-- Who takes no reading of the clock does not sweep: the schedule stays as it is, and an entry
  goes only if it is invalidated or replaced. -/
  elsewhere : ∀ past event rest, log = past ++ event :: rest → event.reading? = none →
    let before : CacheState κ ν := contentsAfter period (initial period created) past
    let after := contentsAfter period (initial period created) (past ++ [event])
    after.nextSweep = before.nextSweep ∧ ∀ a ∈ before.entries, a ∉ after.entries →
      event = .invalidated a.1 ∨ ∃ i e, event = .found i a.1 e
  /-- A get that comes a period after the last sweep, or later, takes away all that has expired and
  nothing else. -/
  due : ∀ past i key now rest, log = past ++ .entered i key now :: rest →
    (lastSweep period created (readings past)).addSaturating period ≤ now →
    let before : CacheState κ ν := contentsAfter period (initial period created) past
    let after := contentsAfter period (initial period created) (past ++ [.entered i key now])
    after = before.sweep period now ∧
      ∀ a, a ∈ after.entries ↔ a ∈ before.entries ∧ a.2.isExpired now = false
  /-- A get that comes sooner takes nothing away. -/
  early : ∀ past i key now rest, log = past ++ .entered i key now :: rest →
    ¬ (lastSweep period created (readings past)).addSaturating period ≤ now →
    contentsAfter period (initial period created) (past ++ [.entered i key now]) =
      (contentsAfter period (initial period created) past : CacheState κ ν)
  /-- Between two sweeps lies a period, unless time ends before it does. -/
  spaced : (created :: sweepTimes period created (readings log)).Pairwise fun (s t : Instant) =>
    s.addSaturating period ≤ t ∧
      (s.nanos + period.nanos ≤ latestNanos → s.nanos + period.nanos ≤ t.nanos)
  /-- Where there is no period to wait for, a get before which no later reading was taken leaves
  nothing expired but perhaps what it was for. -/
  fresh : period = .zero → ∀ past i key now since rest,
    log = past ++ .entered i key now :: (since ++ rest) → readings since = [] →
    (∀ t ∈ created :: readings past, t ≤ now) →
    ∀ a ∈ (contentsAfter period (initial period created)
      (past ++ .entered i key now :: since) : CacheState κ ν).entries,
      a.1 ≠ key → a.2.isExpired now = false

end ReadThroughCache

namespace CacheScene.Replay

open ReadThroughCache (initial Paced)

variable [DecidableEq κ] {period : Duration} {created now : Instant} {s s' : CacheScene κ ν ε}
  {log past since rest : List (CacheEvent κ ν ε)} {i : Nat} {key : κ}

theorem fresh (h : Replay .zero s log s') (hs : s.contents = initial .zero created)
    (hlog : log = past ++ .entered i key now :: (since ++ rest)) (hsince : readings since = [])
    (hlatest : ∀ t ∈ created :: readings past, t ≤ now) :
    ∀ a ∈ (contentsAfter .zero (initial .zero created)
      (past ++ .entered i key now :: since) : CacheState κ ν).entries,
      a.1 ≠ key → a.2.isExpired now = false := by
  rw [hlog] at h
  obtain ⟨s₁, hpast, hlater⟩ := h.split
  obtain _ | ⟨hentered, hlater⟩ := hlater
  obtain ⟨s₃, hquiet, -⟩ := hlater.split
  have hcontents := ((hpast.snoc hentered).append hquiet).contents_eq
  rw [hs, List.append_assoc, List.singleton_append] at hcontents
  rw [← hcontents]
  -- The last sweep is no later than now, so this get sweeps.
  have hnext : s₁.contents.nextSweep ≤ now := by
    rw [hpast.contents_eq, hs, nextSweep_contentsAfter_initial, Instant.addSaturating_zero]
    exact hlatest _ (lastSweep_mem ..)
  refine (hquiet.clean ?_ hsince).others
  obtain ⟨⟩ := hentered
  refine ⟨?_, ?_, by simp⟩
  · intro a ha _
    rw [CacheState.tidied_of_due hnext] at ha
    exact (CacheState.mem_sweep.mp ha).2
  · intro j key' t hj
    cases hj
    rfl

theorem paced (h : Replay period s log s') (hs : s.contents = initial period created) :
    Paced period created log where
  elsewhere := by
    intro past event rest _ hquiet
    dsimp only
    rw [contentsAfter_snoc]
    exact event.apply_of_quiet hquiet
  due := by
    intro past i key now rest _ hdue
    dsimp only
    rw [← nextSweep_contentsAfter_initial] at hdue
    rw [contentsAfter_snoc, CacheEvent.apply, CacheState.tidied_of_due hdue]
    exact ⟨rfl, fun a => CacheState.mem_sweep⟩
  early := by
    intro past i key now rest _ hearly
    rw [← nextSweep_contentsAfter_initial] at hearly
    rw [contentsAfter_snoc, CacheEvent.apply, CacheState.tidied_of_early hearly]
  spaced := (sweepTimes_pairwise period created (readings log)).imp fun hle =>
    ⟨hle, Instant.nanos_add_le_of_addSaturating_le hle⟩
  fresh := by
    rintro rfl past i key now since rest hlog hsince hlatest
    exact h.fresh hs hlog hsince hlatest

end CacheScene.Replay

namespace ReadThroughCache

variable [DecidableEq κ]

/-- However many callers there are, in whatever order they are polled and dropped, whatever their
lookups do and however the clock moves, forwards or backwards: a new cache is swept by gets only, by
each that comes when a period has passed since the last sweep and by no other, and what a sweep
takes away is what has expired. Whoever has ended has taken one reading if it got a value or looked
for one, and none otherwise. The callers under watch do to the world, and return, what they do and
return by themselves. -/
theorem sweeps_are_paced (c : ReadThroughCache η κ ν) (hapart : c.Apart) {v : World η}
    (hfree : (c.lock.get v).queue = []) (moves : List (Move (CacheCall η κ ν ε) (World η)))
    (hmoves : ∀ m ∈ moves, c.Minds m) :
    let after := Crowd.run c.observe (moves.map (·.along unwatched)) ⟨(c.opened v).journaled, []⟩
    let alone := Crowd.run (fun _ => c.perform) moves ⟨c.opened v, []⟩
    Paced c.period (c.clock.now v) after.state.calls ∧
      c.journaled.contents.get after.state =
        contentsAfter c.period (initial c.period (c.clock.now v)) after.state.calls ∧
      (∀ i e, after.members[i]? = some (.ended e) → Story i (notedBy i after.state.calls) e) ∧
      unwatched.get after.state = alone.state ∧ after.endings = alone.endings := by
  intro after alone
  have hopened : c.contents.get (c.opened v) = initial c.period (c.clock.now v) :=
    c.contents.get_set ..
  have hstillFree : (c.lock.get (c.opened v)).queue = [] := by
    rw [opened, hapart.lock_contents, hfree]
  obtain ⟨s, hreplay, hcontents⟩ := replay_run hapart hstillFree hmoves
  obtain ⟨ticket, hattended⟩ := (Attended.start hstillFree).run hapart hmoves
  have hcontentsAfter : c.journaled.contents.get after.state =
      contentsAfter c.period (initial c.period (c.clock.now v)) after.state.calls := by
    rw [← hcontents, hreplay.contents_eq, hopened]
  have hmirrors : after.Mirrors unwatched alone :=
    (Crowd.Mirrors.start rfl).run (fun i call => c.observe_mirrors i call) moves
  exact ⟨hreplay.paced hopened, hcontentsAfter, fun i e hi => hattended.story hi, hmirrors.state,
    hmirrors.endings⟩

def halfMinute (key : Nat) (now : Instant) : Expiring Nat := .expiresIn key now (.ofSecs 30)

/-- A lookup that finds a value for half a minute. -/
def briefly (key : Nat) :
    Fiber (World (CacheState Nat Nat × Lock)) (Except Unit (Expiring Nat)) := do
  let now ← Fiber.gets World.manualClock.now
  return .ok (halfMinute key now)

/-- A minute passes before the second get, and is taken back before the third. -/
def acrossMinute : List (Move (CacheCall (CacheState Nat Nat × Lock) Nat Nat Unit)
    (World (CacheState Nat Nat × Lock))) :=
  [.join (.get 1 briefly), .poll 0,
    .others fun w => { w with clock := w.clock.advance (.ofSecs 60) },
    .join (.get 2 briefly), .poll 1,
    .others fun w => { w with clock := w.clock.moveTo .epoch },
    .join (.get 3 briefly), .poll 2]

def afterMinute (period : Duration) :
    Crowd (World (Journaled (CacheEvent Nat Nat Unit) (CacheState Nat Nat × Lock)))
      (CacheAnswer Nat Unit) :=
  Crowd.run (numberCache.sweptEvery period).observe (acrossMinute.map (·.along unwatched))
    ⟨((numberCache.sweptEvery period).opened emptyCache).journaled, []⟩

def minute : Instant := Instant.epoch.addSaturating (.ofSecs 60)

def firstGet : List (CacheEvent Nat Nat Unit) :=
  [.entered 0 1 .epoch, .began 0 1, .found 0 1 (halfMinute 1 .epoch), .returned 0 (.ok 1)]

def restOfSecondGet : List (CacheEvent Nat Nat Unit) :=
  [.began 1 2, .found 1 2 (halfMinute 2 minute), .returned 1 (.ok 2)]

def thirdGet : List (CacheEvent Nat Nat Unit) :=
  [.entered 2 3 .epoch, .began 2 3, .found 2 3 (halfMinute 3 .epoch), .returned 2 (.ok 3)]

theorem sweeps_are_paced_acrossMinute :
    (afterMinute (.ofSecs 60)).state.calls =
        firstGet ++ .entered 1 2 minute :: (restOfSecondGet ++ thirdGet) ∧
      sweepTimes (.ofSecs 60) .epoch (readings (afterMinute (.ofSecs 60)).state.calls) = [minute] ∧
      (∀ a, a ∈ (contentsAfter (.ofSecs 60) (initial (.ofSecs 60) .epoch)
          (firstGet ++ [.entered 1 2 minute]) : CacheState Nat Nat).entries ↔
        a ∈ [(1, halfMinute 1 .epoch)] ∧ a.2.isExpired minute = false) ∧
      numberCache.journaled.contents.get (afterMinute (.ofSecs 60)).state =
        ⟨[(3, halfMinute 3 .epoch), (2, halfMinute 2 minute)], minute.addSaturating (.ofSecs 60)⟩ ∧
      ∀ a ∈ (contentsAfter .zero (initial .zero .epoch)
          (firstGet ++ .entered 1 2 minute :: restOfSecondGet) : CacheState Nat Nat).entries,
        a.1 ≠ 2 → a.2.isExpired minute = false := by
  have hbriefly (key : Nat) : (briefly key).Leaves numberCache.store := fun _ => trivial
  have hminds (period : Duration) :
      ∀ m ∈ acrossMinute, (numberCache.sweptEvery period).Minds m := by
    simp only [acrossMinute, List.forall_mem_cons]
    exact ⟨hbriefly 1, trivial, fun _ => rfl, hbriefly 2, trivial, fun _ => rfl, hbriefly 3,
      trivial, by simp⟩
  have hpaced (period : Duration) := (numberCache.sweptEvery period).sweeps_are_paced
    ⟨fun _ _ => rfl, fun _ _ => rfl, fun _ _ _ _ => rfl, fun _ _ _ _ => rfl⟩ (v := emptyCache) rfl
    acrossMinute (hminds period)
  have hcalls : (afterMinute (.ofSecs 60)).state.calls =
      firstGet ++ .entered 1 2 minute :: (restOfSecondGet ++ thirdGet) := rfl
  have hcalls' : (afterMinute .zero).state.calls =
      firstGet ++ .entered 1 2 minute :: (restOfSecondGet ++ thirdGet) := rfl
  obtain ⟨hminute, hcontents, -⟩ := hpaced (.ofSecs 60)
  obtain ⟨hzero, -⟩ := hpaced .zero
  obtain ⟨-, hswept⟩ := hminute.due firstGet 1 2 minute _ hcalls (by decide)
  have hfresh := hzero.fresh rfl firstGet 1 2 minute restOfSecondGet thirdGet hcalls' rfl
    (by decide)
  exact ⟨hcalls, by decide, hswept, hcontents.trans rfl, hfresh⟩

end ReadThroughCache

end ClientRuntime
