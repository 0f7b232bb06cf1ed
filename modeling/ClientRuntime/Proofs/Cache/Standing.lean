import Mathlib
import ClientRuntime.Proofs.Cache.Lookups
import ClientRuntime.Proofs.Cache.Polls

/-!
Where the callers of a cache stand between two polls. A caller has not begun, waits for the lock,
looks its key up, or has ended; that goes with the ticket that it has and with what it has noted.
Whoever has ended has no ticket.
-/

namespace ClientRuntime

open ClientRuntime.Fiber
open World (unwatched)

variable {η κ ν ε : Type}

/-- Who noted an event, if it is a caller that gets. -/
def CacheEvent.caller? : CacheEvent κ ν ε → Option Nat
  | entered i .. => some i
  | began i _ => some i
  | found i .. => some i
  | failed i .. => some i
  | cut i _ => some i
  | returned i _ => some i
  | invalidated _ => none

/-- What a caller has noted, oldest first. -/
def notedBy (i : Nat) (log : List (CacheEvent κ ν ε)) : List (CacheEvent κ ν ε) :=
  log.filter (·.caller? = some i)

theorem notedBy_append (i : Nat) (log log' : List (CacheEvent κ ν ε)) :
    notedBy i (log ++ log') = notedBy i log ++ notedBy i log' :=
  List.filter_append ..

theorem notedBy_of_others {i : Nat} {log : List (CacheEvent κ ν ε)}
    (h : ∀ event ∈ log, event.caller? ≠ some i) : notedBy i log = [] :=
  List.filter_eq_nil_iff.mpr (by simpa using h)

/-- What a caller that has ended noted, and how it ended. -/
inductive Story (i : Nat) : List (CacheEvent κ ν ε) → Ending (CacheAnswer ν ε) → Prop where
  /-- It was dropped before it got the lock. -/
  | withdrawn : Story i [] (.cut .dropped)
  | invalidated : Story i [] (.returned .invalidated)
  | counted (n : Nat) : Story i [] (.returned (.size n))
  | hit (key : κ) (now : Instant) (value : ν) :
      Story i [.entered i key now, .returned i (.ok value)] (.returned (.value (.ok value)))
  | found (key : κ) (now : Instant) (e : Expiring ν) :
      Story i [.entered i key now, .began i key, .found i key e, .returned i (.ok e.value)]
        (.returned (.value (.ok e.value)))
  | failed (key : κ) (now : Instant) (error : ε) :
      Story i [.entered i key now, .began i key, .failed i key error, .returned i (.error error)]
        (.returned (.value (.error error)))
  | cut (key : κ) (now : Instant) (cut : Cut) :
      Story i [.entered i key now, .began i key, .cut i key] (.cut cut)

namespace ReadThroughCache

variable [DecidableEq κ]

/-- To drop a get whose lookup is suspended is to let go of the lock. -/
theorem lock_drop_looking {c : ReadThroughCache η κ ν} {i t : Nat} {key : κ}
    {p : Paused (World η) (Except ε (Expiring ν))} (hp : p.Leaves c.store)
    (w : World (Journaled (CacheEvent κ ν ε) η)) :
    c.journaled.lock.get ((Lock.inside c.journaled.lock t (c.lookingAt i key p)).drop w) =
      (c.journaled.lock.get w).leave t := by
  have hcleanup : c.lock.get (p.cleanup (unwatched.get w)) = c.lock.get (unwatched.get w) :=
    (Prod.mk.inj (hp.cleanup _)).2
  exact (c.journaled.lock.get_modify _ _).trans (congrArg (Lock.leave t) hcleanup)

/-- Where a caller stands, the ticket that it has, and what it has noted. -/
inductive Stands (c : ReadThroughCache η κ ν) (i : Nat) :
    Option Nat → List (CacheEvent κ ν ε) →
      Member (World (Journaled (CacheEvent κ ν ε) η)) (CacheAnswer ν ε) → Prop where
  | fresh {call : CacheCall η κ ν ε} (hcall : c.Minds (.join call)) :
      Stands c i none [] (.active (.start (c.observe i call)))
  | waiting {t : Nat} {call : CacheCall η κ ν ε} (hcall : c.Minds (.join call)) :
      Stands c i (some t) [] (.active (Lock.queued c.journaled.lock t (c.underLock i call)))
  | looking {t : Nat} {key : κ} {now : Instant} {p : Paused (World η) (Except ε (Expiring ν))}
      (hp : p.Leaves c.store) :
      Stands c i (some t) [.entered i key now, .began i key]
        (.active (Lock.inside c.journaled.lock t (c.lookingAt i key p)))
  | ended {noted : List (CacheEvent κ ν ε)} {e : Ending (CacheAnswer ν ε)} (h : Story i noted e) :
      Stands c i none noted (.ended e)

/-- What a poll of the one who has the lock may come to. -/
structure Stretch (c : ReadThroughCache η κ ν) (i t : Nat) (noted events : List (CacheEvent κ ν ε))
    (w : World (Journaled (CacheEvent κ ν ε) η))
    (r : Paused.Outcome (World (Journaled (CacheEvent κ ν ε) η)) (CacheAnswer ν ε) ×
      World (Journaled (CacheEvent κ ν ε) η)) : Prop where
  lock : c.journaled.lock.get r.2 = c.journaled.lock.get w
  calls : r.2.calls = w.calls ++ events
  own : ∀ event ∈ events, ∀ j, event.caller? = some j → j = i
  ends : ∀ e, (Member.ofOutcome r.1).ending? = some e → Story i (noted ++ notedBy i events) e
  goesOn : ∀ p, r.1 = .pending p → Stands c i (some t) (noted ++ notedBy i events)
    (.active (Lock.inside c.journaled.lock t p))

namespace Stretch

variable {c : ReadThroughCache η κ ν} {i t : Nat} {key : κ} {now : Instant}
  {w w' : World (Journaled (CacheEvent κ ν ε) η)}

/-- A stretch that begins after some events. -/
theorem after {r : Paused.Outcome (World (Journaled (CacheEvent κ ν ε) η)) (CacheAnswer ν ε) ×
      World (Journaled (CacheEvent κ ν ε) η)} {noted past events : List (CacheEvent κ ν ε)}
    (h : Stretch c i t (noted ++ notedBy i past) events w' r)
    (hlock : c.journaled.lock.get w' = c.journaled.lock.get w) (hcalls : w'.calls = w.calls ++ past)
    (hpast : ∀ event ∈ past, ∀ j, event.caller? = some j → j = i) :
    Stretch c i t noted (past ++ events) w r where
  lock := h.lock.trans hlock
  calls := by rw [h.calls, hcalls, List.append_assoc]
  own event hevent := (List.mem_append.mp hevent).elim (hpast event) (h.own event)
  ends e he := by
    rw [notedBy_append, ← List.append_assoc]
    exact h.ends e he
  goesOn p hp := by
    rw [notedBy_append, ← List.append_assoc]
    exact h.goesOn p hp

/-- A stretch to the end. -/
theorem ofStory {o : Paused.Outcome (World (Journaled (CacheEvent κ ν ε) η)) (CacheAnswer ν ε)}
    {e : Ending (CacheAnswer ν ε)} {noted events : List (CacheEvent κ ν ε)}
    (hstory : Story i (noted ++ notedBy i events) e) (ho : Member.ofOutcome o = .ended e)
    (hlock : c.journaled.lock.get w' = c.journaled.lock.get w)
    (hcalls : w'.calls = w.calls ++ events)
    (hown : ∀ event ∈ events, ∀ j, event.caller? = some j → j = i) :
    Stretch c i t noted events w (o, w') where
  lock := hlock
  calls := hcalls
  own := hown
  ends e' he' := by
    rw [ho] at he'
    cases he'
    exact hstory
  goesOn p hp := by
    obtain rfl : o = .pending p := hp
    cases ho

/-- A poll of a lookup that leaves the cache alone. -/
theorem lookedUp (hapart : c.Apart)
    {r : Paused.Outcome (World η) (Except ε (Expiring ν)) × World η}
    (hstore : c.store r.2 = c.store (unwatched.get w))
    (hp : ∀ p, r.1 = .pending p → p.Leaves c.store) :
    ∃ events, Stretch c i t [.entered i key now, .began i key] events w (c.lookedUp i key w r) := by
  have hlock : c.lock.get r.2 = c.journaled.lock.get w := (Prod.mk.inj hstore).2
  rcases r with ⟨(error | e) | text | p, v⟩
  · have hstory := Story.failed (ν := ν) (i := i) key now error
    refine ⟨[.failed i key error, .returned i (.error error)], .ofStory ?_ rfl hlock ?_ ?_⟩
    · simpa [notedBy, CacheEvent.caller?, Except.map] using hstory
    · exact List.append_assoc ..
    · simp [CacheEvent.caller?]
  · have hstory := Story.found (ε := ε) (i := i) key now e
    refine ⟨[.found i key e, .returned i (.ok e.value)], .ofStory ?_ rfl ?_ ?_ ?_⟩
    · simpa [notedBy, CacheEvent.caller?, Except.map] using hstory
    · exact ((hapart.journaled _).lock_contents _ _).trans hlock
    · exact List.append_assoc ..
    · simp [CacheEvent.caller?]
  · have hstory := Story.cut (ν := ν) (ε := ε) (i := i) key now (.unwound text)
    refine ⟨[.cut i key], .ofStory ?_ rfl hlock rfl ?_⟩
    · simpa [notedBy, CacheEvent.caller?] using hstory
    · simp [CacheEvent.caller?]
  · refine ⟨[], hlock, (List.append_nil _).symm, by simp, (fun _ he => by cases he), ?_⟩
    rintro _ ⟨⟩
    exact .looking (hp p rfl)

/-- What a caller does once it has the lock, up to the next suspension point. -/
theorem underLock (hapart : c.Apart) {call : CacheCall η κ ν ε} (hcall : c.Minds (.join call)) :
    ∃ events, Stretch c i t [] events w ((Paused.start (c.underLock i call)).poll w) := by
  cases call with
  | get key lookup =>
    rw [poll_underLock_get]
    have hlock : c.journaled.lock.get (c.entering i key w) = c.journaled.lock.get w :=
      (hapart.journaled _).lock_tidy _ _
    have hcalls : (c.entering i key w).calls =
        w.calls ++ [.entered i key (c.journaled.clock.now w)] := calls_tidy ..
    cases (c.journaled.contents.get (c.entering i key w)).live? (c.journaled.clock.now w) key with
    | some e =>
      have hstory := Story.hit (ε := ε) (i := i) key (c.journaled.clock.now w) e.value
      refine ⟨[.entered i key (c.journaled.clock.now w), .returned i (.ok e.value)],
        .ofStory ?_ rfl hlock ?_ ?_⟩
      · simpa [notedBy, CacheEvent.caller?] using hstory
      · rw [World.calls_record, hcalls, List.append_assoc]
        rfl
      · simp [CacheEvent.caller?]
    | none =>
      -- The lookup is polled at once, so its events come after those of the miss.
      obtain ⟨hstore, hp⟩ := (Paused.Leaves.start (m := lookup key) hcall).poll
        (unwatched.get (c.entering i key w))
      let past : List (CacheEvent κ ν ε) :=
        [.entered i key (c.journaled.clock.now w), .began i key]
      have hpast : [] ++ notedBy i past = past := by simp [past, notedBy, CacheEvent.caller?]
      obtain ⟨events, h⟩ : ∃ events, Stretch c i t past events
        ((c.entering i key w).record (.began i key)) _ := lookedUp hapart hstore hp
      rw [← hpast] at h
      refine ⟨past ++ events, h.after hlock ?_ ?_⟩
      · rw [World.calls_record, hcalls, List.append_assoc]
        rfl
      · simp [past, CacheEvent.caller?]
  | invalidate key =>
    refine ⟨[.invalidated key], .ofStory ?_ rfl ?_ rfl ?_⟩
    · exact .invalidated
    · exact (hapart.journaled _).lock_contents _ _
    · simp [CacheEvent.caller?]
  | size => exact ⟨[], .ofStory (.counted _) rfl rfl (List.append_nil _).symm (by simp)⟩

end Stretch

/-- Every caller stands somewhere, and a ticket in the queue belongs to one that has not ended. Who
has noted something and has not ended has the lock. -/
structure Attended (c : ReadThroughCache η κ ν) (ticket : Nat → Option Nat)
    (crowd : Crowd (World (Journaled (CacheEvent κ ν ε) η)) (CacheAnswer ν ε)) : Prop where
  queue : Lock.Queue ticket (c.journaled.lock.get crowd.state)
  absent : ∀ i, crowd.members.length ≤ i → ticket i = none ∧ notedBy i crowd.state.calls = []
  stands : ∀ i m, crowd.members[i]? = some m →
    Stands c i (ticket i) (notedBy i crowd.state.calls) m
  owner : ∀ i t, ticket i = some t → notedBy i crowd.state.calls ≠ [] →
    (c.journaled.lock.get crowd.state).owns t = true

namespace Attended

variable {c : ReadThroughCache η κ ν} {ticket : Nat → Option Nat} {i t : Nat}
  {w w' : World (Journaled (CacheEvent κ ν ε) η)}
  {members : List (Member (World (Journaled (CacheEvent κ ν ε) η)) (CacheAnswer ν ε))}
  {m m' : Member (World (Journaled (CacheEvent κ ν ε) η)) (CacheAnswer ν ε)}
  {crowd : Crowd (World (Journaled (CacheEvent κ ν ε) η)) (CacheAnswer ν ε)}
  {ticket' : Option Nat} {events : List (CacheEvent κ ν ε)}

/-- One caller acts, and the others stand where they stood. -/
theorem act (h : Attended c ticket ⟨w, members⟩) (hi : members[i]? = some m)
    (hqueue : Lock.Queue (Function.update ticket i ticket') (c.journaled.lock.get w'))
    (howns : ∀ j t, j ≠ i → ticket j = some t → (c.journaled.lock.get w).owns t = true →
      (c.journaled.lock.get w').owns t = true)
    (hcalls : w'.calls = w.calls ++ events)
    (hown : ∀ event ∈ events, ∀ j, event.caller? = some j → j = i)
    (hm : Stands c i ticket' (notedBy i w'.calls) m')
    (howner : ∀ t, ticket' = some t → notedBy i w'.calls ≠ [] →
      (c.journaled.lock.get w').owns t = true) :
    Attended c (Function.update ticket i ticket') ⟨w', members.set i m'⟩ := by
  have hlt : i < members.length := (List.getElem?_eq_some_iff.mp hi).1
  -- What others have noted stays as it is, and so do their tickets.
  have hnoted (j : Nat) (hji : j ≠ i) : notedBy j w'.calls = notedBy j w.calls := by
    have hsilent := notedBy_of_others fun event hevent hj => hji (hown event hevent j hj)
    rw [hcalls, notedBy_append, hsilent, List.append_nil]
  refine ⟨hqueue, fun j hj => ?_, fun j n hj => ?_, fun j t hj hsome => ?_⟩
  · rw [List.length_set] at hj
    have hji : j ≠ i := by omega
    rw [Function.update_of_ne hji, hnoted j hji]
    exact h.absent j hj
  · by_cases hji : j = i
    · subst hji
      rw [List.getElem?_set_self hlt] at hj
      obtain rfl := Option.some.inj hj
      rwa [Function.update_self]
    · rw [List.getElem?_set_ne (Ne.symm hji)] at hj
      rw [Function.update_of_ne hji, hnoted j hji]
      exact h.stands j n hj
  · by_cases hji : j = i
    · subst hji
      rw [Function.update_self] at hj
      exact howner t hj hsome
    · rw [Function.update_of_ne hji] at hj
      rw [hnoted j hji] at hsome
      exact howns j t hji hj (h.owner j t hj hsome)

/-- One caller gives up its ticket and ends. -/
theorem leave (h : Attended c ticket ⟨w, members⟩) (hi : members[i]? = some m)
    (ht : ticket i = some t)
    (hlock : c.journaled.lock.get w' = (c.journaled.lock.get w).leave t)
    (hcalls : w'.calls = w.calls ++ events)
    (hown : ∀ event ∈ events, ∀ j, event.caller? = some j → j = i) {e : Ending (CacheAnswer ν ε)}
    (hstory : Story i (notedBy i w'.calls) e) :
    Attended c (Function.update ticket i none) ⟨w', members.set i (.ended e)⟩ := by
  refine h.act hi ?_ ?_ hcalls hown (.ended hstory) (fun _ h => by cases h)
  · rw [hlock]
    exact h.queue.leave ht
  · intro j u hji hj howns
    rw [hlock]
    refine Lock.owns_leave howns ?_
    rintro rfl
    exact hji (h.queue.distinct j i u hj ht)

/-- The one who has the lock goes on. -/
theorem goOn (h : Attended c ticket ⟨w, members⟩) (hi : members[i]? = some m)
    (ht : ticket i = some t) (howns : (c.journaled.lock.get w).owns t = true)
    {r : Paused.Outcome (World (Journaled (CacheEvent κ ν ε) η)) (CacheAnswer ν ε) ×
      World (Journaled (CacheEvent κ ν ε) η)}
    (hr : ∃ events, Stretch c i t (notedBy i w.calls) events w r) :
    ∃ ticket', Attended c ticket' ⟨(Lock.outcome c.journaled.lock t r).2,
      members.set i (.ofOutcome (Lock.outcome c.journaled.lock t r).1)⟩ := by
  obtain ⟨events, hr⟩ := hr
  obtain ⟨o, w'⟩ := r
  have hlock : c.journaled.lock.get w' = c.journaled.lock.get w := hr.lock
  have hleave : c.journaled.lock.get (c.journaled.lock.modify (Lock.leave t) w') =
      (c.journaled.lock.get w).leave t := by rw [Lens.get_modify, hlock]
  have hcalls : w'.calls = w.calls ++ events := hr.calls
  have hnoted : notedBy i w'.calls = notedBy i w.calls ++ notedBy i events := by
    rw [hcalls, notedBy_append]
  rcases o with a | text | p
  · exact ⟨_, h.leave hi ht hleave hcalls hr.own (hnoted ▸ hr.ends _ rfl)⟩
  · exact ⟨_, h.leave hi ht hleave hcalls hr.own (hnoted ▸ hr.ends _ rfl)⟩
  · have hqueue : Lock.Queue (Function.update ticket i (some t)) (c.journaled.lock.get w') := by
      rw [← ht, Function.update_eq_self, hlock]
      exact h.queue
    refine ⟨_, h.act hi hqueue ?_ hcalls hr.own (hnoted ▸ hr.goesOn p rfl) ?_⟩
    · exact fun j u _ _ hu => hlock.symm ▸ hu
    · rintro u ⟨⟩ -
      exact hlock.symm ▸ howns

/-- A poll of one who waits. -/
theorem poll_waiting (hapart : c.Apart) (h : Attended c ticket ⟨w, members⟩)
    {call : CacheCall η κ ν ε} (hcall : c.Minds (.join call))
    (hi : members[i]? = some (.active (Lock.queued c.journaled.lock t (c.underLock i call))))
    (ht : ticket i = some t) (hnoted : notedBy i w.calls = []) :
    ∃ ticket', Attended c ticket'
      ⟨((Lock.queued c.journaled.lock t (c.underLock i call)).poll w).2,
        members.set i (.ofOutcome
          ((Lock.queued c.journaled.lock t (c.underLock i call)).poll w).1)⟩ := by
  rw [Lock.poll_queued]
  split
  · case isTrue howns =>
    exact h.goOn hi ht howns (hnoted ▸ Stretch.underLock hapart hcall)
  · obtain ⟨hlt, heq⟩ := List.getElem?_eq_some_iff.mp hi
    refine ⟨ticket, ?_⟩
    rw [Member.ofOutcome, ← heq, List.set_getElem_self]
    exact h

/-- A newcomer draws a ticket, and goes on like one who waits. -/
theorem poll_fresh (hapart : c.Apart) (h : Attended c ticket ⟨w, members⟩)
    {call : CacheCall η κ ν ε} (hcall : c.Minds (.join call))
    (hi : members[i]? = some (.active (.start (c.observe i call)))) (ht : ticket i = none)
    (hnoted : notedBy i w.calls = []) :
    ∃ ticket', Attended c ticket' ⟨((Paused.start (c.observe i call)).poll w).2,
      members.set i (.ofOutcome ((Paused.start (c.observe i call)).poll w).1)⟩ := by
  let t := (c.journaled.lock.get w).next
  let w' := c.journaled.lock.set (c.journaled.lock.get w).draw.2 w
  have hlock : c.journaled.lock.get w' = (c.journaled.lock.get w).draw.2 :=
    c.journaled.lock.get_set _ _
  have hlt : i < members.length := (List.getElem?_eq_some_iff.mp hi).1
  have hdrawn : Attended c (Function.update ticket i (some t))
      ⟨w', members.set i (.active (Lock.queued c.journaled.lock t (c.underLock i call)))⟩ := by
    refine h.act hi ?_ ?_ (List.append_nil w.calls).symm (by simp) ?_ ?_
    · rw [hlock]
      exact h.queue.draw ht
    · intro j u _ _ hu
      rw [hlock]
      exact Lock.owns_draw hu
    · exact (hnoted : notedBy i w'.calls = []) ▸ .waiting hcall
    · exact fun _ _ hsome => absurd hnoted hsome
  rw [observe_eq, Lock.poll_start_holding]
  have hpolled := hdrawn.poll_waiting hapart hcall (List.getElem?_set_self hlt)
    (Function.update_self ..) hnoted
  rwa [List.set_set] at hpolled

/-- A poll of one whose lookup is suspended. -/
theorem poll_looking (hapart : c.Apart) (h : Attended c ticket ⟨w, members⟩) {key : κ}
    {now : Instant} {p : Paused (World η) (Except ε (Expiring ν))} (hp : p.Leaves c.store)
    (hi : members[i]? = some (.active (Lock.inside c.journaled.lock t (c.lookingAt i key p))))
    (ht : ticket i = some t)
    (hnoted : notedBy i w.calls = [.entered i key now, .began i key]) :
    ∃ ticket', Attended c ticket'
      ⟨((Lock.inside c.journaled.lock t (c.lookingAt i key p)).poll w).2,
        members.set i (.ofOutcome
          ((Lock.inside c.journaled.lock t (c.lookingAt i key p)).poll w).1)⟩ := by
  have howns := h.owner i t ht (by simp [hnoted])
  obtain ⟨hstore, hpending⟩ := hp.poll (unwatched.get w)
  rw [Lock.poll_inside, poll_lookingAt]
  exact h.goOn hi ht howns (hnoted ▸ Stretch.lookedUp hapart hstore hpending)

theorem poll (hapart : c.Apart) (h : Attended c ticket ⟨w, members⟩)
    {p : Paused (World (Journaled (CacheEvent κ ν ε) η)) (CacheAnswer ν ε)}
    (hi : members[i]? = some (.active p)) :
    ∃ ticket', Attended c ticket' ⟨(p.poll w).2, members.set i (.ofOutcome (p.poll w).1)⟩ := by
  have hstands := h.stands i _ hi
  generalize ht : ticket i = ticket? at hstands
  generalize hnoted : notedBy i w.calls = noted at hstands
  cases hstands with
  | fresh hcall => exact h.poll_fresh hapart hcall hi ht hnoted
  | waiting hcall => exact h.poll_waiting hapart hcall hi ht hnoted
  | looking hp => exact h.poll_looking hapart hp hi ht hnoted

theorem drop (h : Attended c ticket ⟨w, members⟩)
    {p : Paused (World (Journaled (CacheEvent κ ν ε) η)) (CacheAnswer ν ε)}
    (hi : members[i]? = some (.active p)) :
    ∃ ticket', Attended c ticket' ⟨p.drop w, members.set i (.ended (.cut .dropped))⟩ := by
  have hstands := h.stands i _ hi
  generalize ht : ticket i = ticket? at hstands
  generalize hnoted : notedBy i w.calls = noted at hstands
  cases hstands with
  | fresh hcall =>
    have hqueue : Lock.Queue (Function.update ticket i none) (c.journaled.lock.get w) := by
      rw [← ht, Function.update_eq_self]
      exact h.queue
    refine ⟨_, h.act hi hqueue (fun _ _ _ _ hu => hu) (List.append_nil w.calls).symm (by simp)
      (.ended ?_) (fun _ hu => by cases hu)⟩
    exact (hnoted : notedBy i _ = []) ▸ .withdrawn
  | waiting hcall =>
    refine ⟨_, h.leave hi ht (c.journaled.lock.get_modify _ _)
      (List.append_nil w.calls).symm (by simp) ?_⟩
    exact (hnoted : notedBy i _ = []) ▸ .withdrawn
  | @looking t key now p hp =>
    have hcalls : ((Lock.inside c.journaled.lock t (c.lookingAt i key p)).drop w).calls =
        w.calls ++ [.cut i key] := rfl
    refine ⟨_, h.leave hi ht (lock_drop_looking hp w) hcalls (by simp [CacheEvent.caller?]) ?_⟩
    have hcut : notedBy i [.cut i key] = ([.cut i key] : List (CacheEvent κ ν ε)) := by
      simp [notedBy, CacheEvent.caller?]
    have hall : notedBy i (w.calls ++ [.cut i key]) =
        [.entered i key now, .began i key, .cut i key] := by
      rw [notedBy_append, hnoted, hcut]
      rfl
    exact hall ▸ .cut key now .dropped

/-- Nobody has a ticket yet. -/
theorem start {v : World η} (hfree : (c.lock.get v).queue = []) :
    Attended c (fun _ => none) (⟨v.journaled, []⟩ :
      Crowd (World (Journaled (CacheEvent κ ν ε) η)) (CacheAnswer ν ε)) where
  queue := .none hfree
  absent _ _ := ⟨rfl, rfl⟩
  stands _ _ hi := by cases hi
  owner _ _ ht := by cases ht

theorem step (hapart : c.Apart) (h : Attended c ticket crowd)
    {move : Move (CacheCall η κ ν ε) (World η)} (hmove : c.Minds move) :
    ∃ ticket', Attended c ticket' (crowd.step c.observe (move.along unwatched)) := by
  obtain ⟨w, members⟩ := crowd
  cases move with
  | join call =>
    have hnew := h.absent members.length (Nat.le_refl _)
    refine ⟨ticket, h.queue, fun j hj => h.absent j ?_, fun j m hj => ?_, h.owner⟩
    · simp only [Move.along, Crowd.step, List.length_append, List.length_singleton] at hj
      exact Nat.le_of_succ_le hj
    · simp only [Move.along, Crowd.step] at hj ⊢
      by_cases hlt : j < members.length
      · rw [List.getElem?_append_left hlt] at hj
        exact h.stands j m hj
      · have hlast := (List.getElem?_eq_some_iff.mp hj).1
        simp only [List.length_append, List.length_singleton] at hlast
        obtain rfl : j = members.length := by omega
        rw [List.getElem?_concat_length] at hj
        obtain rfl := Option.some.inj hj
        rw [hnew.1, hnew.2]
        exact .fresh hmove
  | poll i =>
    simp only [Move.along, Crowd.step]
    rcases hi : members[i]? with _ | p | e
    · exact ⟨ticket, h⟩
    · exact h.poll hapart hi
    · exact ⟨ticket, h⟩
  | drop i =>
    simp only [Move.along, Crowd.step]
    rcases hi : members[i]? with _ | p | e
    · exact ⟨ticket, h⟩
    · exact h.drop hi
    · exact ⟨ticket, h⟩
  | others f =>
    have hlock : c.journaled.lock.get (unwatched.modify f w) = c.journaled.lock.get w :=
      (Prod.mk.inj (hmove (unwatched.get w))).2
    refine ⟨ticket, hlock.symm ▸ h.queue, h.absent, h.stands, fun j t hj hsome => ?_⟩
    exact hlock.symm ▸ h.owner j t hj hsome

theorem run (hapart : c.Apart) (h : Attended c ticket crowd)
    {moves : List (Move (CacheCall η κ ν ε) (World η))} (hmoves : ∀ m ∈ moves, c.Minds m) :
    ∃ ticket', Attended c ticket' (crowd.run c.observe (moves.map (·.along unwatched))) := by
  induction moves generalizing ticket crowd with
  | nil => exact ⟨ticket, h⟩
  | cons m moves ih =>
    obtain ⟨ticket₁, h₁⟩ := h.step hapart (hmoves m (List.mem_cons_self ..))
    exact ih h₁ fun m' hm' => hmoves m' (List.mem_cons_of_mem _ hm')

end Attended

end ReadThroughCache

end ClientRuntime
