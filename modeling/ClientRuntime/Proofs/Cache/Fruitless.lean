import Mathlib
import ClientRuntime.Proofs.Cache.Standing

/-!
Gets that come to nothing: the lookup fails, or the get is dropped. They leave of the cache what was
there before, swept if that was due, and the next in the queue gets the lock.
-/

namespace ClientRuntime

open ClientRuntime.Fiber
open World (unwatched)

variable {η κ ν ε : Type}

/-! ### Contents along a log -/

section Contents

variable [DecidableEq κ]

/-- What an event makes of the contents. -/
def CacheEvent.apply (period : Duration) (s : CacheState κ ν) : CacheEvent κ ν ε → CacheState κ ν
  | entered _ _ now => s.tidied period now
  | found _ key e => s.insert key e
  | invalidated key => s.erase key
  | _ => s

/-- The contents at the end of a log. -/
def contentsAfter (period : Duration) (s : CacheState κ ν) (log : List (CacheEvent κ ν ε)) :
    CacheState κ ν :=
  log.foldl (CacheEvent.apply period) s

namespace CacheScene

variable {period : Duration} {s s' : CacheScene κ ν ε} {event : CacheEvent κ ν ε}
  {log : List (CacheEvent κ ν ε)} {i : Nat} {key : κ} {now : Instant}

theorem Step.contents_eq (h : Step period s event s') :
    s'.contents = event.apply period s.contents := by
  cases h <;> rfl

theorem Replay.contents_eq (h : Replay period s log s') :
    s'.contents = contentsAfter period s.contents log := by
  induction h with
  | nil => rfl
  | cons hstep _ ih => rw [ih, hstep.contents_eq, contentsAfter, contentsAfter, List.foldl_cons]

/-- A replay ends where it began, or with a step. -/
theorem Replay.last (h : Replay period s log s') :
    log = [] ∧ s = s' ∨ ∃ past event s₁, log = past ++ [event] ∧ Replay period s past s₁ ∧
      Step period s₁ event s' := by
  induction h with
  | nil => exact .inl ⟨rfl, rfl⟩
  | @cons s s₁ s' event log hstep hrest ih =>
    obtain ⟨rfl, rfl⟩ | ⟨past, last, s₂, rfl, hpast, hlast⟩ := ih
    · exact .inr ⟨[], event, s, rfl, .nil, hstep⟩
    · exact .inr ⟨event :: past, last, s₂, rfl, .cons hstep hpast, hlast⟩

theorem Replay.entered_last (h : Replay period s log s') (hs : s.inside = none)
    (hin : s'.inside = some (i, .deciding key now)) :
    ∃ before, log = before ++ [.entered i key now] := by
  obtain ⟨rfl, rfl⟩ | ⟨past, event, s₁, rfl, -, hstep⟩ := h.last
  · rw [hs] at hin
    cases hin
  · cases hstep with
    | entered =>
      cases hin
      exact ⟨past, rfl⟩
    | began | found | failed | cut | hit | returned => cases hin
    | invalidated hnone =>
      rw [hnone] at hin
      cases hin

/-- Nobody comes between a caller that looks a key up and what was there when it got the lock. -/
theorem Replay.began_last (h : Replay period s log s') (hs : s.inside = none)
    (hin : s'.inside = some (i, .looking key)) :
    ∃ before now, log = before ++ [.entered i key now, .began i key] := by
  obtain ⟨rfl, rfl⟩ | ⟨past, event, s₁, rfl, hpast, hstep⟩ := h.last
  · rw [hs] at hin
    cases hin
  · cases hstep with
    | @began i' key' now hdeciding =>
      cases hin
      obtain ⟨before, rfl⟩ := hpast.entered_last hs hdeciding
      exact ⟨before, now, List.append_assoc ..⟩
    | entered | found | failed | cut | hit | returned => cases hin
    | invalidated hnone =>
      rw [hnone] at hin
      cases hin

end CacheScene

end Contents

/-- A lookup came to nothing. -/
inductive CacheEvent.Fruitless (i : Nat) (key : κ) : CacheEvent κ ν ε → Prop where
  | failed (error : ε) : Fruitless i key (.failed i key error)
  | cut : Fruitless i key (.cut i key)

theorem CacheScene.Replay.fruitless [DecidableEq κ] {period : Duration} {s s' : CacheScene κ ν ε}
    {past rest : List (CacheEvent κ ν ε)} {event : CacheEvent κ ν ε} {i : Nat} {key : κ}
    (h : CacheScene.Replay period s (past ++ event :: rest) s') (hs : s.inside = none)
    (hevent : event.Fruitless i key) :
    ∃ before now, past = before ++ [.entered i key now, .began i key] ∧
      contentsAfter period s.contents (past ++ [event]) =
        (contentsAfter period s.contents before).tidied period now ∧
      lookupsUnderWay (past ++ [event]) = [] := by
  obtain ⟨s₁, hpast, hrest⟩ := h.split
  obtain _ | ⟨hstep, -⟩ := hrest
  rename_i s₂
  have hin : s₁.inside = some (i, .looking key) ∧ s₂.underWay = [] := by
    cases hevent with
    | failed error =>
      obtain ⟨⟩ := hstep
      exact ⟨‹_›, rfl⟩
    | cut =>
      obtain ⟨⟩ := hstep
      exact ⟨‹_›, rfl⟩
  obtain ⟨before, now, rfl⟩ := hpast.began_last hs hin.1
  refine ⟨before, now, rfl, ?_, ?_⟩
  · unfold contentsAfter
    cases hevent <;> simp [CacheEvent.apply]
  · have hidle : s.underWay = [] := by simp [CacheScene.underWay, hs]
    have hunder := (hpast.snoc hstep).underWay_eq
    rw [hidle, hin.2] at hunder
    exact hunder.symm

/-! ### Who looks a key up -/

theorem CacheEvent.count_next {i : Nat} {l l' : List Nat} (h : l.count i = l'.count i)
    (event : CacheEvent κ ν ε) : (event.next l).count i = (event.next l').count i := by
  cases event <;> simp [next, List.count_cons, List.count_erase, h]

theorem CacheEvent.count_next_of_other {i : Nat} {event : CacheEvent κ ν ε}
    (hother : event.caller? ≠ some i) (l : List Nat) : (event.next l).count i = l.count i := by
  cases event <;> simp_all [next, caller?, List.count_erase]

/-- Whether a caller looks a key up shows in what it has noted itself. -/
theorem count_foldl_next (i : Nat) (log : List (CacheEvent κ ν ε)) {l l' : List Nat}
    (h : l.count i = l'.count i) :
    (log.foldl CacheEvent.next l).count i =
      ((notedBy i log).foldl CacheEvent.next l').count i := by
  induction log generalizing l l' with
  | nil => exact h
  | cons event log ih =>
    by_cases hevent : event.caller? = some i
    · rw [notedBy, List.filter_cons_of_pos (by simpa using hevent), List.foldl_cons,
        List.foldl_cons]
      exact ih (event.count_next h)
    · rw [notedBy, List.filter_cons_of_neg (by simpa using hevent), List.foldl_cons]
      exact ih ((CacheEvent.count_next_of_other hevent l).trans h)

theorem mem_lookupsUnderWay_iff (i : Nat) (log : List (CacheEvent κ ν ε)) :
    i ∈ lookupsUnderWay log ↔ i ∈ lookupsUnderWay (notedBy i log) := by
  have hcount := count_foldl_next i log (l := []) rfl
  rw [← List.count_pos_iff, ← List.count_pos_iff, lookupsUnderWay, lookupsUnderWay, hcount]

namespace ReadThroughCache

variable [DecidableEq κ]

/-- What is left of a cache by gets that come to nothing, and how it goes on. The contents were `s`
before anybody came. -/
structure Spared (c : ReadThroughCache η κ ν) (s : CacheState κ ν)
    (after : Crowd (World (Journaled (CacheEvent κ ν ε) η)) (CacheAnswer ν ε)) : Prop where
  contents : c.journaled.contents.get after.state = contentsAfter c.period s after.state.calls
  /-- No entry comes or is replaced, and a sweep that was due is all that an entry may fall to. -/
  fruitless : ∀ past event rest i key, after.state.calls = past ++ event :: rest →
    event.Fruitless i key →
      ∃ before now, past = before ++ [.entered i key now, .began i key] ∧
        contentsAfter c.period s (past ++ [event]) =
          (contentsAfter c.period s before).tidied c.period now ∧
        lookupsUnderWay (past ++ [event]) = []
  /-- Whoever has ended has returned what its own lookup came to. -/
  stories : ∀ i e, after.members[i]? = some (.ended e) → Story i (notedBy i after.state.calls) e
  /-- To drop a get whose lookup is suspended is to cut the lookup and to let go of the lock. -/
  cut : ∀ i p, after.members[i]? = some (.active p) → i ∈ lookupsUnderWay after.state.calls →
    ∃ key t, (c.journaled.lock.get after.state).owns t = true ∧
      (p.drop after.state).calls = after.state.calls ++ [.cut i key] ∧
      c.journaled.store (p.drop after.state) =
        (c.journaled.contents.get after.state, (c.journaled.lock.get after.state).leave t)
  /-- Whoever is dropped without having had the lock gives up its ticket at most. -/
  withdrawn : ∀ i p, after.members[i]? = some (.active p) → i ∉ lookupsUnderWay after.state.calls →
    p.drop after.state = after.state ∨
      ∃ t call, p = Lock.queued c.journaled.lock t (c.underLock i call) ∧
        p.drop after.state = c.journaled.lock.modify (Lock.leave t) after.state
  /-- The first in the queue looks its key up, or has the lock from its next poll on. -/
  next : ∀ t, (c.journaled.lock.get after.state).owns t = true →
    ∃ i p, after.members[i]? = some (.active p) ∧ (i ∈ lookupsUnderWay after.state.calls ∨
      ∃ call, p = Lock.queued c.journaled.lock t (c.underLock i call) ∧ p.poll after.state =
        Lock.outcome c.journaled.lock t ((Paused.start (c.underLock i call)).poll after.state))

namespace Attended

variable {c : ReadThroughCache η κ ν} {ticket : Nat → Option Nat}
  {crowd : Crowd (World (Journaled (CacheEvent κ ν ε) η)) (CacheAnswer ν ε)} {i t : Nat}
  {p : Paused (World (Journaled (CacheEvent κ ν ε) η)) (CacheAnswer ν ε)}

theorem story (h : Attended c ticket crowd) {e : Ending (CacheAnswer ν ε)}
    (hi : crowd.members[i]? = some (.ended e)) : Story i (notedBy i crowd.state.calls) e := by
  have hstands := h.stands i _ hi
  generalize ticket i = ticket? at hstands
  generalize notedBy i crowd.state.calls = noted at hstands ⊢
  cases hstands with
  | ended hstory => exact hstory

theorem drop_looking (hapart : c.Apart) (h : Attended c ticket crowd)
    (hi : crowd.members[i]? = some (.active p))
    (hlooking : i ∈ lookupsUnderWay crowd.state.calls) :
    ∃ key t, (c.journaled.lock.get crowd.state).owns t = true ∧
      (p.drop crowd.state).calls = crowd.state.calls ++ [.cut i key] ∧
      c.journaled.store (p.drop crowd.state) =
        (c.journaled.contents.get crowd.state, (c.journaled.lock.get crowd.state).leave t) := by
  have hstands := h.stands i _ hi
  rw [mem_lookupsUnderWay_iff] at hlooking
  generalize ht : ticket i = ticket? at hstands
  generalize hnoted : notedBy i crowd.state.calls = noted at hstands hlooking
  cases hstands with
  | fresh => cases hlooking
  | waiting => cases hlooking
  | @looking t key now p hp =>
    have hcontents := (Prod.mk.inj (hp.cleanup (unwatched.get crowd.state))).1
    refine ⟨key, t, h.owner i t ht (by simp [hnoted]), rfl, Prod.ext ?_ ?_⟩
    · exact (contents_leave hapart t _).trans hcontents
    · exact lock_drop_looking hp crowd.state

theorem drop_outside (h : Attended c ticket crowd) (hi : crowd.members[i]? = some (.active p))
    (hout : i ∉ lookupsUnderWay crowd.state.calls) :
    p.drop crowd.state = crowd.state ∨
      ∃ t call, p = Lock.queued c.journaled.lock t (c.underLock i call) ∧
        p.drop crowd.state = c.journaled.lock.modify (Lock.leave t) crowd.state := by
  have hstands := h.stands i _ hi
  rw [mem_lookupsUnderWay_iff] at hout
  generalize ticket i = ticket? at hstands
  generalize notedBy i crowd.state.calls = noted at hstands hout
  cases hstands with
  | fresh => exact .inl rfl
  | waiting => exact .inr ⟨_, _, rfl, rfl⟩
  | looking => simp [lookupsUnderWay, CacheEvent.next] at hout

theorem next (h : Attended c ticket crowd)
    (howns : (c.journaled.lock.get crowd.state).owns t = true) :
    ∃ i p, crowd.members[i]? = some (.active p) ∧ (i ∈ lookupsUnderWay crowd.state.calls ∨
      ∃ call, p = Lock.queued c.journaled.lock t (c.underLock i call) ∧ p.poll crowd.state =
        Lock.outcome c.journaled.lock t
          ((Paused.start (c.underLock i call)).poll crowd.state)) := by
  obtain ⟨i, ht⟩ := h.queue.owned t (List.mem_of_mem_head? (Lock.owns_iff.mp howns))
  have hlt : i < crowd.members.length := by
    by_contra hlt
    rw [(h.absent i (Nat.le_of_not_lt hlt)).1] at ht
    cases ht
  have hi := List.getElem?_eq_getElem hlt
  have hstands := h.stands i _ hi
  generalize crowd.members[i] = m at hi hstands
  generalize hnoted : notedBy i crowd.state.calls = noted at hstands
  rw [ht] at hstands
  cases hstands with
  | waiting =>
    refine ⟨i, _, hi, .inr ⟨_, rfl, ?_⟩⟩
    rw [Lock.poll_queued, if_pos howns]
  | looking =>
    refine ⟨i, _, hi, .inl ?_⟩
    rw [mem_lookupsUnderWay_iff, hnoted]
    simp [lookupsUnderWay, CacheEvent.next]

end Attended

/-- The log of a crowd of callers can be replayed, and leads to what the cache holds. -/
theorem replay_run {c : ReadThroughCache η κ ν} (hapart : c.Apart) {v : World η}
    (hfree : (c.lock.get v).queue = []) {moves : List (Move (CacheCall η κ ν ε) (World η))}
    (hmoves : ∀ m ∈ moves, c.Minds m) :
    let after := Crowd.run c.observe (moves.map (·.along unwatched)) ⟨v.journaled, []⟩
    ∃ s, CacheScene.Replay c.period ⟨c.contents.get v, none, []⟩ after.state.calls s ∧
      s.contents = c.journaled.contents.get after.state := by
  intro after
  let first : CacheScene κ ν ε := ⟨c.contents.get v, none, []⟩
  have hstart : (c.rule first).Holds ⟨v.journaled, []⟩ fun _ => .fresh :=
    .start ⟨first, c.orderly_start hfree⟩
  have hallowed : ∀ m ∈ moves.map (·.along unwatched), (c.rule first).Allows c.observe m := by
    intro m hm
    obtain ⟨m, hmem, rfl⟩ := List.mem_map.mp hm
    exact allows_along hapart (hmoves m hmem)
  obtain ⟨phases, hholds⟩ := hstart.run hallowed
  obtain ⟨s, horderly⟩ := hholds.holds
  exact ⟨s, horderly.replay, horderly.contents⟩

/-- However many callers there are, in whatever order they are polled and dropped, whatever the
cache holds and however the clock moves: a get whose lookup fails returns the error of the lookup;
neither it nor a get that is dropped puts anything into the cache; and whoever is first in the queue
then has the lock at its next poll. The callers under watch do to the world, and return, what they
do and return by themselves. -/
theorem fruitless_gets_spare_cache (c : ReadThroughCache η κ ν) (hapart : c.Apart) {v : World η}
    (hfree : (c.lock.get v).queue = []) (moves : List (Move (CacheCall η κ ν ε) (World η)))
    (hmoves : ∀ m ∈ moves, c.Minds m) :
    let after := Crowd.run c.observe (moves.map (·.along unwatched)) ⟨v.journaled, []⟩
    let alone := Crowd.run (fun _ => c.perform) moves ⟨v, []⟩
    c.Spared (c.contents.get v) after ∧
      unwatched.get after.state = alone.state ∧ after.endings = alone.endings := by
  intro after alone
  obtain ⟨s, hreplay, hcontents⟩ := replay_run hapart hfree hmoves
  obtain ⟨ticket, hattended⟩ := (Attended.start hfree).run hapart hmoves
  have hmirrors : after.Mirrors unwatched alone :=
    (Crowd.Mirrors.start rfl).run (fun i call => c.observe_mirrors i call) moves
  refine ⟨⟨?_, ?_, ?_, ?_, ?_, ?_⟩, hmirrors.state, hmirrors.endings⟩
  · exact hcontents.symm.trans hreplay.contents_eq
  · intro past event rest i key hlog hevent
    rw [hlog] at hreplay
    exact hreplay.fruitless rfl hevent
  · exact fun i e hi => hattended.story hi
  · exact fun i p hi hlooking => hattended.drop_looking hapart hi hlooking
  · exact fun i p hi hout => hattended.drop_outside hi hout
  · exact fun t howns => hattended.next howns

/-- A cache whose sweep is due. Of its entries one has expired. -/
def staleCache : World (CacheState Nat Nat × Lock) :=
  .start .epoch .epoch (⟨[(1, ⟨5, .epoch⟩), (2, ⟨6, .latest⟩)], .epoch⟩, .free)

/-- A lookup that is suspended once and fails. -/
def failing (_ : Nat) : Fiber (World (CacheState Nat Nat × Lock)) (Except Unit (Expiring Nat)) := do
  Fiber.suspend
  return .error ()

/-- The first caller is dropped in its lookup while two wait, of whom the second gives up. The last
one's lookup fails. -/
def threeGets : List (Move (CacheCall (CacheState Nat Nat × Lock) Nat Nat Unit)
    (World (CacheState Nat Nat × Lock))) :=
  [.join (.get 1 failing), .join (.get 1 failing), .join (.get 1 failing), .poll 0, .poll 1,
    .poll 2, .drop 0, .drop 1, .poll 2, .poll 2]

def afterThreeGets : Crowd (World (Journaled (CacheEvent Nat Nat Unit) (CacheState Nat Nat × Lock)))
    (CacheAnswer Nat Unit) :=
  Crowd.run numberCache.observe (threeGets.map (·.along unwatched)) ⟨staleCache.journaled, []⟩

def untilSecondBegan : List (CacheEvent Nat Nat Unit) :=
  [.entered 0 1 .epoch, .began 0 1, .cut 0 1, .entered 2 1 .epoch, .began 2 1]

theorem fruitless_gets_spare_cache_three_callers :
    afterThreeGets.state.calls =
        untilSecondBegan ++ .failed 2 1 () :: [.returned 2 (.error ())] ∧
      (∃ before now, untilSecondBegan = before ++ [.entered 2 1 now, .began 2 1]) ∧
      numberCache.journaled.contents.get afterThreeGets.state =
        ⟨[(2, ⟨6, .latest⟩)], Instant.epoch.addSaturating (.ofSecs 60)⟩ ∧
      Story 2 (notedBy 2 afterThreeGets.state.calls) (.returned (.value (.error ()))) := by
  have hfailing : (failing 1).Leaves numberCache.store := ⟨fun _ => rfl, trivial⟩
  have hminds : ∀ m ∈ threeGets, numberCache.Minds m := by
    simp only [threeGets, List.forall_mem_cons]
    exact ⟨hfailing, hfailing, hfailing, trivial, trivial, trivial, trivial, trivial, trivial,
      trivial, by simp⟩
  obtain ⟨hspared, -⟩ := numberCache.fruitless_gets_spare_cache
    ⟨fun _ _ => rfl, fun _ _ => rfl, fun _ _ _ _ => rfl, fun _ _ _ _ => rfl⟩ (v := staleCache) rfl
    threeGets hminds
  have hcalls : afterThreeGets.state.calls =
      untilSecondBegan ++ .failed 2 1 () :: [.returned 2 (.error ())] := rfl
  obtain ⟨before, now, hbefore, -⟩ := hspared.fruitless _ _ _ 2 1 hcalls (.failed ())
  exact ⟨hcalls, ⟨before, now, hbefore⟩, hspared.contents.trans rfl, hspared.stories 2 _ rfl⟩

end ReadThroughCache

end ClientRuntime
