import Mathlib
import ClientRuntime.Proofs.Cache.Orderly

/-!
At most one lookup per entry that can be used. However many callers share a cache and in whatever
order they are polled and dropped, no two lookups are ever under way, and while an entry can be
used nobody looks its key up again.
-/

namespace ClientRuntime

open ClientRuntime.Fiber
open World (unwatched)

namespace Fiber

variable {σ τ α γ δ : Type}

/-- In a larger state a fiber leaves alone what it leaves alone in the part, and all the rest. -/
theorem Leaves.along (l : Lens σ τ) {view : τ → γ} (rest : σ → δ)
    (hrest : ∀ t s, rest (l.set t s) = rest s) {m : Fiber τ α} (hm : m.Leaves view) :
    (m.along l).Leaves fun s => (view (l.get s), rest s) := by
  have hmodify {f : τ → τ} (hf : ∀ t, view (f t) = view t) (s : σ) :
      (view (l.get (l.modify f s)), rest (l.modify f s)) = (view (l.get s), rest s) := by
    rw [l.get_modify, hf, Lens.modify, hrest]
  induction m with
  | done | panic => trivial
  | read next ih => exact fun s => ih _ (hm _)
  | update f next ih => exact ⟨hmodify hm.1, ih hm.2⟩
  | block wake cleanup next ih => exact ⟨hmodify hm.1, ih hm.2⟩

end Fiber

namespace ReadThroughCache

variable {η κ ν ε : Type} [DecidableEq κ] (c : ReadThroughCache η κ ν)
  (first : CacheScene κ ν ε)

/-- What the callers of a cache go by. -/
def rule : Order (World (Journaled (CacheEvent κ ν ε) η)) (CacheAnswer ν ε)
    (CachePhase κ ν ε) where
  holds phases w := ∃ s, Orderly c first s phases w
  fresh := .fresh
  gone := .gone

/-- A caller ends once it has given up its ticket. -/
def Leaving (i t : Nat) (e : Ending (CacheAnswer ν ε)) (phases : Nat → CachePhase κ ν ε)
    (w : World (Journaled (CacheEvent κ ν ε) η)) : Prop :=
  c.At first i (.gone e) phases (c.journaled.lock.modify (Lock.leave t) w)

/-- What is left to do after a lookup. -/
def Looked (i t : Nat) (key : κ) : Ending (Except ε (Expiring ν)) → (Nat → CachePhase κ ν ε) →
    World (Journaled (CacheEvent κ ν ε) η) → Prop
  | .returned (.ok e), phases, w =>
    c.At first i (.inside t (.answering (.ok e.value))) phases
      (c.journaled.contents.modify (·.insert key e) w)
  | .returned (.error error), phases, w =>
    c.At first i (.inside t (.answering (.error error))) phases w
  | .cut cut, phases, w => c.Leaving first i t (.cut cut) phases w

/-- What is left to do once there is a result. -/
def Fetched (i t : Nat) : Ending (Except ε ν) → (Nat → CachePhase κ ν ε) →
    World (Journaled (CacheEvent κ ν ε) η) → Prop
  | .returned result, phases, w =>
    c.Leaving first i t (.returned (.value result)) phases (w.record (.returned i result))
  | .cut cut, phases, w => c.Leaving first i t (.cut cut) phases w

variable {c first} {i t : Nat} {phases : Nat → CachePhase κ ν ε}
  {w : World (Journaled (CacheEvent κ ν ε) η)} {key : κ} {now : Instant}

/-- Whoever has the lock does as its body does; whoever waits for it may be dropped. -/
theorem admits_holding (hapart : c.Apart)
    {body : Fiber (World (Journaled (CacheEvent κ ν ε) η)) (CacheAnswer ν ε)}
    (hbody : ∀ t phases w, c.At first i (.waiting t) phases w →
      (c.journaled.lock.get w).owns t = true →
        body.Keeps (c.rule first).holds i (c.Leaving first i t) phases w) :
    (c.rule first).Admits i (Lock.holding c.journaled.lock body) := by
  intro phases w hi ⟨s, h⟩
  have hfresh : c.At first i .fresh phases w := .of_orderly h hi
  have hdrawn := hfresh.draw hapart
  -- With the lock: the body, and then the ticket, however the body ends.
  have hheld (t : Nat) (phases : Nat → CachePhase κ ν ε)
      (w : World (Journaled (CacheEvent κ ν ε) η)) (h : c.At first i (.waiting t) phases w)
      (howns : (c.journaled.lock.get w).owns t = true) :
      (body >>= fun a => do
          Fiber.modify (c.journaled.lock.modify (Lock.leave t))
          return a).Keeps (c.rule first).holds i
        (fun e phases w => (c.rule first).Settled i e phases
          (e.letGo (c.journaled.lock.modify (Lock.leave t))
            (c.journaled.lock.modify (Lock.leave t)) w)) phases w := by
    refine Keeps.bind ((hbody t phases w h howns).imp fun e phases w h => ?_)
    rcases e with a | _ | _ <;> exact h
  refine ⟨hfresh.withdraw, fun _ => ?_⟩
  refine Keeps.guarded (Keeps.bind (.waitUntil (.waiting (c.journaled.lock.get w).next) ?_ ?_ ?_))
  · exact hheld _ _ _ hdrawn
  · exact fun _ => hdrawn
  · intro phases' w' hi' ⟨s', h'⟩
    have hwaiting : c.At first i (.waiting _) phases' w' := .of_orderly h' hi'
    exact ⟨hwaiting.giveUp hapart (by simp), hheld _ _ _ hwaiting⟩

/-- A lookup that leaves the cache alone. -/
theorem keeps_watchedLookup (hapart : c.Apart)
    {lookup : Fiber (World η) (Except ε (Expiring ν))} (hlookup : lookup.Leaves c.store)
    (h : c.At first i (.inside t (.deciding key now)) phases w)
    (hmiss : (c.journaled.contents.get w).live? now key = none) :
    (watchedLookup i key lookup).Keeps (c.rule first).holds i (c.Looked first i t key) phases
      w := by
  have hbegun := h.begin hmiss
  refine Keeps.guarded (Keeps.bind ?_)
  refine Leaves.keeps (A := c.At first i (.inside t (.looking key))) ?_ ?_ ?_
    (hlookup.along unwatched World.calls fun _ _ => rfl) hbegun
  · intro phases w w' hview h
    obtain ⟨hstore, hcalls⟩ := Prod.mk.inj hview
    exact h.of_store hcalls hstore
  · intro phases w h
    refine ⟨.inside t (.looking key), h, ?_⟩
    intro phases' w' hi' ⟨s', h'⟩
    exact .of_orderly h' hi'
  · intro e phases w h
    rcases e with (error | e) | _ | _
    · exact h.fail error
    · exact h.find hapart e
    · exact h.finish hapart (fun s hin _ => .cut hin) (by simp)
    · exact h.finish hapart (fun s hin _ => .cut hin) (by simp)

/-- What a caller that has the lock does for a key once it has taken a reading of the clock. -/
theorem keeps_fetch (hapart : c.Apart)
    {lookup : κ → Fiber (World η) (Except ε (Expiring ν))}
    (hlookup : (lookup key).Leaves c.store)
    (h : c.At first i (.inside t (.deciding key (c.journaled.clock.now w))) phases
      (c.journaled.tidy (c.journaled.clock.now w) w)) :
    (c.journaled.fetch key fun key => watchedLookup i key (lookup key)).Keeps (c.rule first).holds i
      (c.Fetched first i t) phases w := by
  refine Keeps.gets_bind (Keeps.modify_bind (Keeps.gets_bind ?_))
  cases hhit : (c.journaled.contents.get (c.journaled.tidy (c.journaled.clock.now w) w)).live?
      (c.journaled.clock.now w) key with
  | none =>
    refine Keeps.bind ((keeps_watchedLookup hapart hlookup h hhit).imp fun e phases w h => ?_)
    rcases e with (error | e) | cut
    · exact h.finish hapart (fun s hin _ => .returned hin) (by simp)
    · exact h.finish hapart (fun s hin _ => .returned hin) (by simp)
    · exact h
  | some e =>
    refine h.finish hapart (fun s hin hcontents => .hit hin (hcontents ▸ hhit)) ?_
    simp

theorem admits_observe (hapart : c.Apart) (i : Nat) {call : CacheCall η κ ν ε}
    (hcall : ∀ key lookup, call = .get key lookup → (lookup key).Leaves c.store) :
    (c.rule first).Admits i (c.observe i call) := by
  cases call with
  | get key lookup =>
    refine admits_holding hapart fun t phases w h howns => ?_
    -- What the call notes on entering does not change the reading that it decides by.
    have hentered := h.enter hapart howns key (c.journaled.clock.now w)
    refine Keeps.modify_bind (Keeps.bind
      ((keeps_fetch hapart (hcall key lookup rfl) hentered).imp fun e phases w h => ?_))
    rcases e with result | cut <;> exact h
  | invalidate key =>
    exact admits_holding hapart fun t phases w h howns => h.invalidate hapart howns key
  | size =>
    exact admits_holding hapart fun t phases w h howns => h.giveUp hapart (by simp)

/-- Lookups and whoever is not among the callers leave the cache alone. -/
def Minds (c : ReadThroughCache η κ ν) : Move (CacheCall η κ ν ε) (World η) → Prop
  | .join (.get key lookup) => (lookup key).Leaves c.store
  | .others f => ∀ w, c.store (f w) = c.store w
  | _ => True

theorem allows_along (hapart : c.Apart) {m : Move (CacheCall η κ ν ε) (World η)} (hm : c.Minds m) :
    (c.rule first).Allows c.observe (m.along unwatched) := by
  cases m with
  | join call =>
    refine fun i => admits_observe hapart i ?_
    rintro key lookup rfl
    exact hm
  | poll i => trivial
  | drop i => trivial
  | others f =>
    intro phases w ⟨s, h⟩
    exact ⟨s, h.of_store rfl (hm _)⟩

/-- Before the first call. -/
theorem orderly_start (c : ReadThroughCache η κ ν) {v : World η}
    (hfree : (c.lock.get v).queue = []) :
    Orderly c ⟨c.contents.get v, none, []⟩ (⟨c.contents.get v, none, []⟩ : CacheScene κ ν ε)
      (fun _ => .fresh) v.journaled where
  tickets := Lock.Tickets.none hfree
  replay := .nil
  contents := rfl
  inside _ _ := by simp
  owner _ _ _ hi := by cases hi
  newcomers _ _ := by simp
  answers _ _ hi := by cases hi

/-- However many callers there are, in whatever order they are polled and dropped, whatever their
lookups do and however the clock moves: no two lookups are under way at any moment, and no caller
begins two; once a lookup has found an entry, no lookup for its key begins and whoever gets the lock
for the key returns its value, until it is invalidated or a reading of the clock shows it expired.
The callers under watch do to the world, and return, what they do and return by themselves. -/
theorem looks_up_once (c : ReadThroughCache η κ ν) (hapart : c.Apart) {v : World η}
    (hfree : (c.lock.get v).queue = []) (moves : List (Move (CacheCall η κ ν ε) (World η)))
    (hmoves : ∀ m ∈ moves, c.Minds m) :
    let after := Crowd.run c.observe (moves.map (·.along unwatched)) ⟨v.journaled, []⟩
    let alone := Crowd.run (fun _ => c.perform) moves ⟨v, []⟩
    (∀ past, past <+: after.state.calls → (lookupsUnderWay past).length ≤ 1) ∧
    (∀ i, after.state.calls.countP (·.begunBy i) ≤ 1) ∧
    (∀ past i key e later rest, after.state.calls = past ++ .found i key e :: (later ++ rest) →
      (∀ event ∈ later, ∀ now, event.reading? = some now → e.isExpired now = false) →
      .invalidated key ∉ later →
      (∀ j, .began j key ∉ later) ∧
      ∀ j now, .entered j key now ∈ later → ∀ result,
        after.members[j]? = some (.ended (.returned (.value result))) → result = .ok e.value) ∧
    unwatched.get after.state = alone.state ∧ after.endings = alone.endings := by
  intro after alone
  let first : CacheScene κ ν ε := ⟨c.contents.get v, none, []⟩
  have hstart : (c.rule first).Holds ⟨v.journaled, []⟩ fun _ => .fresh :=
    .start ⟨first, c.orderly_start hfree⟩
  have hallowed : ∀ m ∈ moves.map (·.along unwatched), (c.rule first).Allows c.observe m := by
    intro m hm
    obtain ⟨m, hmem, rfl⟩ := List.mem_map.mp hm
    exact allows_along hapart (hmoves m hmem)
  obtain ⟨phases, hholds⟩ := hstart.run hallowed
  obtain ⟨s, horderly⟩ := hholds.holds
  have hreplay := horderly.replay
  have hmirrors : after.Mirrors unwatched alone :=
    (Crowd.Mirrors.start rfl).run (fun i call => c.observe_mirrors i call) moves
  refine ⟨?_, ?_, ?_, hmirrors.state, hmirrors.endings⟩
  · exact fun past hpast => hreplay.one_under_way rfl hpast
  · exact fun i => hreplay.begins_once rfl i
  · intro past i key e later rest hlog hlive hkept
    obtain ⟨hquiet, hvalue⟩ := hreplay.found_stays rfl hlog hlive hkept
    refine ⟨hquiet, fun j now hentered result hended => hvalue j now hentered result ?_⟩
    exact horderly.answers j result (hholds.obeys j _ hended)

/-- A host that is nothing but a cache of numbers. -/
def numberCache : ReadThroughCache (CacheState Nat Nat × Lock) Nat Nat where
  period := .ofSecs 60
  clock := World.manualClock
  contents :=
    { get w := w.host.1
      set s w := { w with host := (s, w.host.2) }
      get_set _ _ := rfl
      set_get _ := rfl
      set_set _ _ _ := rfl }
  lock :=
    { get w := w.host.2
      set l w := { w with host := (w.host.1, l) }
      get_set _ _ := rfl
      set_get _ := rfl
      set_set _ _ _ := rfl }

def emptyCache : World (CacheState Nat Nat × Lock) := .start .epoch .epoch (.empty .latest, .free)

/-- A lookup that is suspended once and finds seven. -/
def seven (_ : Nat) : Fiber (World (CacheState Nat Nat × Lock)) (Except Unit (Expiring Nat)) := do
  Fiber.suspend
  return .ok ⟨7, .latest⟩

/-- The second caller comes while the first one looks the key up. -/
def twoGets : List (Move (CacheCall (CacheState Nat Nat × Lock) Nat Nat Unit)
    (World (CacheState Nat Nat × Lock))) :=
  [.join (.get 1 seven), .poll 0, .join (.get 1 seven), .poll 1, .poll 0, .poll 1]

def afterTwoGets : Crowd (World (Journaled (CacheEvent Nat Nat Unit) (CacheState Nat Nat × Lock)))
    (CacheAnswer Nat Unit) :=
  Crowd.run numberCache.observe (twoGets.map (·.along unwatched)) ⟨emptyCache.journaled, []⟩

def untilFound : List (CacheEvent Nat Nat Unit) := [.entered 0 1 .epoch, .began 0 1]

def onceFound : List (CacheEvent Nat Nat Unit) :=
  [.returned 0 (.ok 7), .entered 1 1 .epoch, .returned 1 (.ok 7)]

theorem looks_up_once_two_callers :
    (lookupsUnderWay afterTwoGets.state.calls).length ≤ 1 ∧
      afterTwoGets.state.calls = untilFound ++ .found 0 1 ⟨7, .latest⟩ :: (onceFound ++ []) ∧
      ∀ result, afterTwoGets.members[1]? = some (.ended (.returned (.value result))) →
        result = .ok 7 := by
  have hseven : (seven 1).Leaves numberCache.store := ⟨fun _ => rfl, trivial⟩
  have hminds : ∀ m ∈ twoGets, numberCache.Minds m := by
    simp only [twoGets, List.forall_mem_cons]
    exact ⟨hseven, trivial, hseven, trivial, trivial, trivial, by simp⟩
  have hcalls : afterTwoGets.state.calls =
      untilFound ++ .found 0 1 ⟨7, .latest⟩ :: (onceFound ++ []) := rfl
  obtain ⟨hone, -, hfound, -⟩ := numberCache.looks_up_once
    ⟨fun _ _ => rfl, fun _ _ => rfl, fun _ _ _ _ => rfl, fun _ _ _ _ => rfl⟩ (v := emptyCache) rfl
    twoGets hminds
  obtain ⟨-, hvalue⟩ := hfound _ _ _ _ _ _ hcalls
    (by simp [onceFound, CacheEvent.reading?]; decide) (by simp [onceFound])
  exact ⟨hone _ (List.prefix_refl _), hcalls,
    fun result => hvalue 1 .epoch (by simp [onceFound]) result⟩

end ReadThroughCache

end ClientRuntime
