import Mathlib
import ClientRuntime.Proofs.Cache.Observed
import ClientRuntime.Proofs.Lock.Tickets

/-!
Any number of callers share a cache, whatever the order in which they are polled and dropped. Their
log can be replayed: a caller writes to it only while it has the lock, and what it notes is what it
does to the contents. So lookups are as rare as logs that can be replayed show.
-/

namespace ClientRuntime

open ClientRuntime.Fiber
open World (unwatched)

variable {η κ ν ε : Type} [DecidableEq κ]

/-- How far a caller has come. -/
inductive CachePhase (κ ν ε : Type) where
  | fresh
  | waiting (ticket : Nat)
  | inside (ticket : Nat) (stage : Inside κ ν ε)
  | gone (e : Ending (CacheAnswer ν ε))

def CachePhase.ticket? : CachePhase κ ν ε → Option Nat
  | fresh => none
  | waiting t => some t
  | inside t _ => some t
  | gone _ => none

theorem CacheScene.Step.mem_callers {period : Duration} {s s' : CacheScene κ ν ε}
    {event : CacheEvent κ ν ε} (h : CacheScene.Step period s event s') {j : Nat}
    (hj : j ∈ s'.callers) : j ∈ s.callers ∨ ∃ stage, s'.inside = some (j, stage) := by
  cases h with
  | entered =>
    rcases List.mem_cons.mp hj with rfl | hj
    · exact .inr ⟨_, rfl⟩
    · exact .inl hj
  | began | found | failed | cut | hit | returned | invalidated => exact .inl hj

namespace ReadThroughCache

/-- Contents and lock are kept apart from each other and from the log. -/
structure Apart (c : ReadThroughCache η κ ν) : Prop where
  lock_contents : ∀ s w, c.lock.get (c.contents.set s w) = c.lock.get w
  contents_lock : ∀ l w, c.contents.get (c.lock.set l w) = c.contents.get w
  lock_emit : ∀ w level fields message, c.lock.get (w.emit level fields message) = c.lock.get w
  contents_emit : ∀ w level fields message,
    c.contents.get (w.emit level fields message) = c.contents.get w

omit [DecidableEq κ] in
theorem Apart.journaled {c : ReadThroughCache η κ ν} (h : c.Apart) (γ : Type) :
    (c.journaled : ReadThroughCache (Journaled γ η) κ ν).Apart where
  lock_contents s w := h.lock_contents s (unwatched.get w)
  contents_lock l w := h.contents_lock l (unwatched.get w)
  lock_emit w := h.lock_emit (unwatched.get w)
  contents_emit w := h.contents_emit (unwatched.get w)

/-- What a cache keeps in the world. -/
def store (c : ReadThroughCache η κ ν) (w : World η) : CacheState κ ν × Lock :=
  (c.contents.get w, c.lock.get w)

omit [DecidableEq κ] in
theorem Apart.contents_tidy {c : ReadThroughCache η κ ν} (h : c.Apart) (now : Instant)
    (w : World η) : c.contents.get (c.tidy now w) = (c.contents.get w).tidied c.period now := by
  unfold tidy CacheState.tidied
  by_cases hdue : (c.contents.get w).sweepDue now = true
  · simp only [hdue, if_true, h.contents_emit, c.contents.get_set]
  · simp only [hdue, Bool.false_eq_true, if_false]

omit [DecidableEq κ] in
theorem Apart.lock_tidy {c : ReadThroughCache η κ ν} (h : c.Apart) (now : Instant) (w : World η) :
    c.lock.get (c.tidy now w) = c.lock.get w := by
  unfold tidy
  by_cases hdue : (c.contents.get w).sweepDue now = true
  · simp only [hdue, if_true, h.lock_emit, h.lock_contents]
  · simp only [hdue, Bool.false_eq_true, if_false]

omit [DecidableEq κ] in
theorem calls_tidy {γ : Type} (c : ReadThroughCache η κ ν) (now : Instant)
    (w : World (Journaled γ η)) : (c.journaled.tidy now w).calls = w.calls := by
  unfold tidy
  simp only
  split <;> rfl

/-- The log can be replayed and leads to what the cache holds now. The caller inside, if there is
one, owns the lock; those who wait have not been inside yet. -/
structure Orderly (c : ReadThroughCache η κ ν) (first s : CacheScene κ ν ε)
    (phases : Nat → CachePhase κ ν ε) (w : World (Journaled (CacheEvent κ ν ε) η)) : Prop where
  tickets : Lock.Tickets (fun i => (phases i).ticket?) (c.journaled.lock.get w)
  replay : CacheScene.Replay c.period first w.calls s
  contents : s.contents = c.journaled.contents.get w
  inside : ∀ i stage, s.inside = some (i, stage) ↔ ∃ t, phases i = .inside t stage
  owner : ∀ i t stage, phases i = .inside t stage → (c.journaled.lock.get w).owns t = true
  newcomers : ∀ i, (phases i = .fresh ∨ ∃ t, phases i = .waiting t) → i ∉ s.callers
  answers : ∀ i result, phases i = .gone (.returned (.value result)) →
    .returned i result ∈ w.calls

namespace Orderly

variable {c : ReadThroughCache η κ ν} {first s s' : CacheScene κ ν ε}
  {phases : Nat → CachePhase κ ν ε} {w w' : World (Journaled (CacheEvent κ ν ε) η)}
  {i t : Nat} {φ : CachePhase κ ν ε} {event : CacheEvent κ ν ε}

omit [DecidableEq κ] in
theorem ticket_update (phases : Nat → CachePhase κ ν ε) (i : Nat) (φ : CachePhase κ ν ε) :
    (fun j => (Function.update phases i φ j).ticket?) =
      Function.update (fun j => (phases j).ticket?) i φ.ticket? := by
  funext j
  by_cases hj : j = i
  · rw [hj, Function.update_self, Function.update_self]
  · rw [Function.update_of_ne hj, Function.update_of_ne hj]

/-- What does not touch the cache or the journal changes nothing. -/
theorem of_store (h : Orderly c first s phases w) (hcalls : w'.calls = w.calls)
    (hstore : c.journaled.store w' = c.journaled.store w) : Orderly c first s phases w' := by
  obtain ⟨hcontents, hlock⟩ := Prod.mk.inj hstore
  refine ⟨?_, ?_, ?_, h.inside, ?_, h.newcomers, ?_⟩
  · rw [hlock]
    exact h.tickets
  · rw [hcalls]
    exact h.replay
  · rw [hcontents]
    exact h.contents
  · rw [hlock]
    exact h.owner
  · rw [hcalls]
    exact h.answers

/-- Nobody is inside while one who waits owns the lock. -/
theorem idle (h : Orderly c first s phases w) (hi : phases i = .waiting t)
    (howns : (c.journaled.lock.get w).owns t = true) : s.inside = none := by
  cases hin : s.inside with
  | none => rfl
  | some inside =>
    obtain ⟨j, stage⟩ := inside
    obtain ⟨u, hj⟩ := (h.inside j stage).mp hin
    have hji : j = i := h.tickets.eq_of_owns (by simp [hj, CachePhase.ticket?])
      (by simp [hi, CachePhase.ticket?]) (h.owner j u stage hj) howns
    rw [hji, hi] at hj
    cases hj

/-- A newcomer that does not get inside. -/
theorem turn (h : Orderly c first s phases w) (hi : phases i = .fresh)
    (houtside : ∀ t stage, φ ≠ .inside t stage)
    (hsilent : ∀ result, φ ≠ .gone (.returned (.value result)))
    (htickets : Lock.Tickets (Function.update (fun j => (phases j).ticket?) i φ.ticket?)
      (c.journaled.lock.get w'))
    (howns : ∀ u, (c.journaled.lock.get w).owns u = true → (c.journaled.lock.get w').owns u = true)
    (hcalls : w'.calls = w.calls)
    (hcontents : c.journaled.contents.get w' = c.journaled.contents.get w) :
    Orderly c first s (Function.update phases i φ) w' where
  tickets := by
    rw [ticket_update]
    exact htickets
  replay := by
    rw [hcalls]
    exact h.replay
  contents := h.contents.trans hcontents.symm
  inside j stage := by
    rw [h.inside]
    by_cases hj : j = i
    · subst hj
      simp [hi, houtside]
    · rw [Function.update_of_ne hj]
  owner j u stage hj := by
    by_cases hji : j = i
    · rw [hji, Function.update_self] at hj
      exact absurd hj (houtside u stage)
    · rw [Function.update_of_ne hji] at hj
      exact howns u (h.owner j u stage hj)
  newcomers j hj := by
    by_cases hji : j = i
    · rw [hji]
      exact h.newcomers i (.inl hi)
    · rw [Function.update_of_ne hji] at hj
      exact h.newcomers j hj
  answers j result hj := by
    rw [hcalls]
    by_cases hji : j = i
    · rw [hji, Function.update_self] at hj
      exact absurd hj (hsilent result)
    · rw [Function.update_of_ne hji] at hj
      exact h.answers j result hj

/-- The owner of the lock goes on inside, as its event says. -/
theorem goOn (h : Orderly c first s phases w) (hticket : (phases i).ticket? = some t)
    (howns : (c.journaled.lock.get w).owns t = true)
    (hstep : CacheScene.Step c.period s event s') {stage : Inside κ ν ε}
    (hin : s'.inside = some (i, stage)) (hcalls : w'.calls = w.calls ++ [event])
    (hcontents : s'.contents = c.journaled.contents.get w')
    (hlock : c.journaled.lock.get w' = c.journaled.lock.get w) :
    Orderly c first s' (Function.update phases i (.inside t stage)) w' where
  tickets := by
    have hsame : Function.update (fun j => (phases j).ticket?) i (some t) =
        fun j => (phases j).ticket? := by
      rw [← hticket]
      exact Function.update_eq_self i fun j => (phases j).ticket?
    rw [ticket_update, hlock]
    exact hsame.symm ▸ h.tickets
  replay := by
    rw [hcalls]
    exact h.replay.snoc hstep
  contents := hcontents
  inside j stage' := by
    rw [hin]
    by_cases hj : j = i
    · subst hj
      simp only [Function.update_self, Option.some.injEq, Prod.mk.injEq, true_and,
        CachePhase.inside.injEq]
      exact ⟨fun h => ⟨t, rfl, h⟩, fun ⟨_, _, h⟩ => h⟩
    · rw [Function.update_of_ne hj]
      refine ⟨fun h => absurd (Prod.mk.inj (Option.some.inj h)).1 (Ne.symm hj), ?_⟩
      rintro ⟨u, hu⟩
      refine absurd ?_ hj
      exact h.tickets.eq_of_owns (by simp [hu, CachePhase.ticket?]) hticket
        (h.owner j u stage' hu) howns
  owner j u stage' hj := by
    rw [hlock]
    by_cases hji : j = i
    · rw [hji, Function.update_self] at hj
      cases hj
      exact howns
    · rw [Function.update_of_ne hji] at hj
      exact h.owner j u stage' hj
  newcomers j hj := by
    have hji : j ≠ i := by
      rintro rfl
      simp at hj
    rw [Function.update_of_ne hji] at hj
    intro hmem
    rcases hstep.mem_callers hmem with hmem | ⟨stage', hj'⟩
    · exact h.newcomers j hj hmem
    · rw [hin] at hj'
      exact hji (Prod.mk.inj (Option.some.inj hj')).1.symm
  answers j result hj := by
    rw [hcalls]
    by_cases hji : j = i
    · rw [hji, Function.update_self] at hj
      cases hj
    · rw [Function.update_of_ne hji] at hj
      exact List.mem_append_left _ (h.answers j result hj)

/-- A caller ends and gives up its ticket. -/
theorem leave (h : Orderly c first s phases w) (hticket : (phases i).ticket? = some t)
    {events : List (CacheEvent κ ν ε)} (hreplay : CacheScene.Replay c.period s events s')
    (hcallers : s'.callers = s.callers) (hout : ∀ stage, s'.inside ≠ some (i, stage))
    (hothers : ∀ j stage, j ≠ i → (s'.inside = some (j, stage) ↔ s.inside = some (j, stage)))
    (hcalls : w'.calls = w.calls ++ events)
    (hcontents : s'.contents = c.journaled.contents.get w')
    (hlock : c.journaled.lock.get w' = (c.journaled.lock.get w).leave t)
    {e : Ending (CacheAnswer ν ε)}
    (hanswer : ∀ result, e = .returned (.value result) → .returned i result ∈ events) :
    Orderly c first s' (Function.update phases i (.gone e)) w' where
  tickets := by
    rw [ticket_update, hlock]
    exact h.tickets.leave hticket
  replay := by
    rw [hcalls]
    exact h.replay.append hreplay
  contents := hcontents
  inside j stage := by
    by_cases hj : j = i
    · subst hj
      simp [hout]
    · rw [Function.update_of_ne hj, hothers j stage hj]
      exact h.inside j stage
  owner j u stage hj := by
    rw [hlock]
    have hji : j ≠ i := by
      rintro rfl
      rw [Function.update_self] at hj
      cases hj
    rw [Function.update_of_ne hji] at hj
    refine Lock.owns_leave (h.owner j u stage hj) ?_
    rintro rfl
    exact hji (h.tickets.distinct j i u (by simp [hj, CachePhase.ticket?]) hticket)
  newcomers j hj := by
    have hji : j ≠ i := by
      rintro rfl
      simp at hj
    rw [Function.update_of_ne hji] at hj
    rw [hcallers]
    exact h.newcomers j hj
  answers j result hj := by
    rw [hcalls]
    by_cases hji : j = i
    · subst hji
      rw [Function.update_self] at hj
      exact List.mem_append_right _ (hanswer result (CachePhase.gone.inj hj))
    · rw [Function.update_of_ne hji] at hj
      exact List.mem_append_left _ (h.answers j result hj)

end Orderly

omit [DecidableEq κ] in
theorem contents_leave {c : ReadThroughCache η κ ν} (hapart : c.Apart) (t : Nat)
    (w : World (Journaled (CacheEvent κ ν ε) η)) :
    c.journaled.contents.get (c.journaled.lock.modify (Lock.leave t) w) =
      c.journaled.contents.get w :=
  (hapart.journaled _).contents_lock _ w

/-- The callers are orderly once `i` has come to the phase `φ`. -/
def At (c : ReadThroughCache η κ ν) (first : CacheScene κ ν ε) (i : Nat) (φ : CachePhase κ ν ε)
    (phases : Nat → CachePhase κ ν ε) (w : World (Journaled (CacheEvent κ ν ε) η)) : Prop :=
  ∃ s, Orderly c first s (Function.update phases i φ) w

namespace At

variable {c : ReadThroughCache η κ ν} {first : CacheScene κ ν ε}
  {phases : Nat → CachePhase κ ν ε} {w w' : World (Journaled (CacheEvent κ ν ε) η)}
  {i t : Nat} {φ φ' : CachePhase κ ν ε} {key : κ}

theorem of_orderly {s : CacheScene κ ν ε} (h : Orderly c first s phases w) (hi : phases i = φ) :
    c.At first i φ phases w := by
  refine ⟨s, ?_⟩
  rwa [← hi, Function.update_eq_self]

/-- What does not touch the cache or the journal changes nothing. -/
theorem of_store (h : c.At first i φ phases w) (hcalls : w'.calls = w.calls)
    (hstore : c.journaled.store w' = c.journaled.store w) : c.At first i φ phases w' := by
  obtain ⟨s, h⟩ := h
  exact ⟨s, h.of_store hcalls hstore⟩

theorem next (h : c.At first i φ phases w)
    (hstep : ∀ s phases, Orderly c first s phases w → phases i = φ →
      ∃ s', Orderly c first s' (Function.update phases i φ') w') :
    c.At first i φ' phases w' := by
  obtain ⟨s, h⟩ := h
  obtain ⟨s', h'⟩ := hstep s _ h (Function.update_self ..)
  exact ⟨s', by rwa [Function.update_idem] at h'⟩

/-- A newcomer draws a ticket. -/
theorem draw (h : c.At first i .fresh phases w) (hapart : c.Apart) :
    c.At first i (.waiting (c.journaled.lock.get w).next) phases
      (c.journaled.lock.set (c.journaled.lock.get w).draw.2 w) := by
  refine h.next fun s phases h hi => ⟨s, ?_⟩
  have hlock := c.journaled.lock.get_set (c.journaled.lock.get w).draw.2 w
  refine h.turn hi (by simp) (by simp) ?_ ?_ rfl ((hapart.journaled _).contents_lock _ w)
  · rw [hlock]
    exact h.tickets.draw
  · rw [hlock]
    exact fun u hu => Lock.owns_draw hu

/-- A caller that never was polled ends. -/
theorem withdraw (h : c.At first i .fresh phases w) :
    c.At first i (.gone (.cut .dropped)) phases w := by
  refine h.next fun s phases h hi => ⟨s, h.turn hi (by simp) (by simp) ?_ (fun _ hu => hu) rfl rfl⟩
  have hnone : (CachePhase.gone (.cut .dropped) : CachePhase κ ν ε).ticket? =
      (phases i).ticket? := by rw [hi]; rfl
  rw [hnone, Function.update_eq_self i fun j => (phases j).ticket?]
  exact h.tickets

/-- The one who has the lock reads the clock and tidies up. -/
theorem enter (h : c.At first i (.waiting t) phases w) (hapart : c.Apart)
    (howns : (c.journaled.lock.get w).owns t = true) (key : κ) (now : Instant) :
    c.At first i (.inside t (.deciding key now)) phases
      (c.journaled.tidy now (w.record (.entered i key now))) := by
  refine h.next fun s phases h hi => ?_
  have hstep : CacheScene.Step c.period s (.entered i key now) _ :=
    .entered (h.idle hi howns) (h.newcomers i (.inr ⟨t, hi⟩))
  refine ⟨_, h.goOn (by rw [hi]; rfl) howns hstep rfl (calls_tidy c now _) ?_ ?_⟩
  · rw [(hapart.journaled _).contents_tidy, h.contents]
    rfl
  · exact (hapart.journaled _).lock_tidy now _

/-- A miss begins a lookup. -/
theorem begin {now : Instant} (h : c.At first i (.inside t (.deciding key now)) phases w)
    (hmiss : (c.journaled.contents.get w).live? now key = none) :
    c.At first i (.inside t (.looking key)) phases (w.record (.began i key)) := by
  refine h.next fun s phases h hi => ?_
  have hstep : CacheScene.Step c.period s (.began i key) _ :=
    .began ((h.inside i _).mpr ⟨t, hi⟩) (h.contents ▸ hmiss)
  exact ⟨_, h.goOn (by rw [hi]; rfl) (h.owner i t _ hi) hstep rfl rfl h.contents rfl⟩

/-- A lookup that succeeded fills the cache. -/
theorem find (h : c.At first i (.inside t (.looking key)) phases w) (hapart : c.Apart)
    (e : Expiring ν) :
    c.At first i (.inside t (.answering (.ok e.value))) phases
      (c.journaled.contents.modify (·.insert key e) (w.record (.found i key e))) := by
  refine h.next fun s phases h hi => ?_
  have hstep : CacheScene.Step c.period s (.found i key e) _ :=
    .found ((h.inside i _).mpr ⟨t, hi⟩)
  refine ⟨_, h.goOn (by rw [hi]; rfl) (h.owner i t _ hi) hstep rfl rfl ?_ ?_⟩
  · rw [c.journaled.contents.get_modify, h.contents]
    rfl
  · exact (hapart.journaled _).lock_contents _ _

/-- A lookup that failed leaves the cache as it is. -/
theorem fail (h : c.At first i (.inside t (.looking key)) phases w) (error : ε) :
    c.At first i (.inside t (.answering (.error error))) phases
      (w.record (.failed i key error)) := by
  refine h.next fun s phases h hi => ?_
  have hstep : CacheScene.Step c.period s (.failed i key error) _ :=
    .failed ((h.inside i _).mpr ⟨t, hi⟩)
  exact ⟨_, h.goOn (by rw [hi]; rfl) (h.owner i t _ hi) hstep rfl rfl h.contents rfl⟩

/-- Whoever is inside ends with an event after which nobody is. -/
theorem finish {stage : Inside κ ν ε} (h : c.At first i (.inside t stage) phases w)
    (hapart : c.Apart) {event : CacheEvent κ ν ε}
    (hstep : ∀ s : CacheScene κ ν ε, s.inside = some (i, stage) →
      s.contents = c.journaled.contents.get w →
        CacheScene.Step c.period s event { s with inside := none })
    {e : Ending (CacheAnswer ν ε)}
    (hanswer : ∀ result, e = .returned (.value result) → .returned i result = event) :
    c.At first i (.gone e) phases
      (c.journaled.lock.modify (Lock.leave t) (w.record event)) := by
  refine h.next fun s phases h hi => ?_
  have hin := (h.inside i stage).mpr ⟨t, hi⟩
  have hstep := hstep s hin h.contents
  refine ⟨_, h.leave (by rw [hi]; rfl) (.cons hstep .nil) rfl (by simp) ?_ rfl ?_ ?_ ?_⟩
  · intro j stage' hj
    simp [hin, Ne.symm hj]
  · rw [contents_leave hapart]
    exact h.contents
  · rw [c.journaled.lock.get_modify]
    rfl
  · intro result he
    rw [hanswer result he]
    exact List.mem_singleton_self _

/-- Whoever has not been inside ends without a word. -/
theorem giveUp (h : c.At first i (.waiting t) phases w) (hapart : c.Apart)
    {e : Ending (CacheAnswer ν ε)} (he : ∀ result, e ≠ .returned (.value result)) :
    c.At first i (.gone e) phases (c.journaled.lock.modify (Lock.leave t) w) := by
  refine h.next fun s phases h hi => ?_
  have hout : ∀ stage, s.inside ≠ some (i, stage) := by
    intro stage hin
    obtain ⟨u, hu⟩ := (h.inside i stage).mp hin
    rw [hi] at hu
    cases hu
  refine ⟨s, h.leave (by rw [hi]; rfl) .nil rfl hout (fun _ _ _ => Iff.rfl) ?_ ?_ ?_ ?_⟩
  · exact (List.append_nil _).symm
  · rw [contents_leave hapart]
    exact h.contents
  · exact c.journaled.lock.get_modify _ w
  · exact fun result hr => absurd hr (he result)

/-- The one who has the lock erases an entry. -/
theorem invalidate (h : c.At first i (.waiting t) phases w) (hapart : c.Apart)
    (howns : (c.journaled.lock.get w).owns t = true) (key : κ) :
    c.At first i (.gone (.returned .invalidated)) phases
      (c.journaled.lock.modify (Lock.leave t)
        ((c.journaled.contents.modify (·.erase key) w).record (.invalidated key))) := by
  refine h.next fun s phases h hi => ?_
  have hidle := h.idle hi howns
  have hstep : CacheScene.Step c.period s (.invalidated key) _ := .invalidated hidle
  refine ⟨_, h.leave (by rw [hi]; rfl) (.cons hstep .nil) rfl ?_ ?_ rfl ?_ ?_ ?_⟩
  · simp [hidle]
  · exact fun _ _ _ => Iff.rfl
  · rw [contents_leave hapart]
    have herased := c.journaled.contents.get_modify (·.erase key) w
    exact (congrArg (·.erase key) h.contents).trans herased.symm
  · rw [c.journaled.lock.get_modify]
    exact congrArg _ ((hapart.journaled _).lock_contents _ w)
  · intro result he
    cases he

end At

end ReadThroughCache

end ClientRuntime
