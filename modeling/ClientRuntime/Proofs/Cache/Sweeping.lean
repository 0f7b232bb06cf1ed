import Mathlib
import ClientRuntime.Proofs.Cache.Lookups
import ClientRuntime.Proofs.Fiber.Alike
import ClientRuntime.Proofs.Instant

/-!
Sweeping is invisible. Two caches that sweep at different times hold different entries, but never
different ones that can still be used; so the same calls look up the same keys in the same order
and return the same, whatever the two periods are. Only how many entries there are shows the period.
-/

namespace ClientRuntime

namespace CacheState

variable {κ ν : Type} {s s' : CacheState κ ν} {now later : Instant} {key : κ} {e : Expiring ν}
  {a : κ × Expiring ν} {period : Duration}

/-- At most one entry for each key. -/
def Unique (s : CacheState κ ν) : Prop := (s.entries.map Prod.fst).Nodup

theorem Unique.filter {p : κ × Expiring ν → Bool} {nextSweep : Instant} (h : s.Unique) :
    Unique ⟨s.entries.filter p, nextSweep⟩ :=
  h.sublist (List.filter_sublist.map Prod.fst)

theorem Unique.tidied (h : s.Unique) (period : Duration) (now : Instant) :
    (s.tidied period now).Unique := by
  unfold CacheState.tidied
  split
  · exact h.filter
  · exact h

/-- What can still be used is not swept. -/
theorem mem_tidied (ha : a.2.isExpired now = false) :
    a ∈ (s.tidied period now).entries ↔ a ∈ s.entries := by
  unfold tidied
  split
  · simp [sweep, ha]
  · exact Iff.rfl

/-- What can be used could be used before. -/
theorem isExpired_mono (h : now ≤ later) (he : e.isExpired later = false) :
    e.isExpired now = false := by
  unfold Expiring.isExpired at he ⊢
  rw [decide_eq_false_iff_not] at he ⊢
  intro hexpired
  exact he (Int.le_trans hexpired h)

/-- The same entries, as far as they can still be used. -/
structure Agree (now : Instant) (s s' : CacheState κ ν) : Prop where
  unique : s.Unique
  unique' : s'.Unique
  same : ∀ a, a.2.isExpired now = false → (a ∈ s.entries ↔ a ∈ s'.entries)

theorem Agree.mono (h : Agree now s s') (hle : now ≤ later) : Agree later s s' :=
  ⟨h.unique, h.unique', fun a ha => h.same a (isExpired_mono hle ha)⟩

/-- Each may be swept when its own period says so. -/
theorem Agree.tidied (h : Agree now s s') (period period' : Duration) :
    Agree now (s.tidied period now) (s'.tidied period' now) where
  unique := h.unique.tidied period now
  unique' := h.unique'.tidied period' now
  same a ha := by rw [mem_tidied ha, mem_tidied ha, h.same a ha]

variable [DecidableEq κ]

theorem Unique.erase (h : s.Unique) (key : κ) : (s.erase key).Unique := h.filter

theorem Unique.insert (h : s.Unique) (key : κ) (e : Expiring ν) : (s.insert key e).Unique := by
  have herased := h.erase key
  unfold Unique CacheState.insert
  rw [List.map_cons, List.nodup_cons]
  refine ⟨?_, herased⟩
  simp [CacheState.erase]

theorem mem_erase : a ∈ (s.erase key).entries ↔ a ∈ s.entries ∧ a.1 ≠ key := by
  simp [erase]

theorem mem_insert :
    a ∈ (s.insert key e).entries ↔ a = (key, e) ∨ a ∈ s.entries ∧ a.1 ≠ key := by
  unfold insert
  rw [List.mem_cons, mem_erase]

/-- What is found for a key is the one entry that there is. -/
theorem entry?_eq_some_iff_mem (h : s.Unique) : s.entry? key = some e ↔ (key, e) ∈ s.entries := by
  rw [entry?_eq_some]
  unfold Unique at h
  generalize s.entries = l at h ⊢
  induction l with
  | nil => simp
  | cons b l ih =>
    rw [List.map_cons, List.nodup_cons] at h
    by_cases hb : b.1 = key
    · have hnot : (key, e) ∉ l := fun hmem => h.1 (hb ▸ List.mem_map_of_mem hmem)
      rw [List.find?_cons_of_pos (by simpa using hb), List.mem_cons]
      simp only [hnot, or_false, Option.some.injEq]
      exact eq_comm
    · have hne : (key, e) ≠ b := fun heq => hb (congrArg Prod.fst heq).symm
      rw [List.find?_cons_of_neg (by simpa using hb), ih h.2, List.mem_cons]
      simp [hne]

theorem live?_eq_some (h : s.Unique) :
    s.live? now key = some e ↔ (key, e) ∈ s.entries ∧ e.isExpired now = false := by
  unfold live?
  rw [Option.filter_eq_some_iff, entry?_eq_some_iff_mem h, Bool.not_eq_true']

namespace Agree

theorem live? (h : Agree now s s') (key : κ) : s.live? now key = s'.live? now key := by
  ext e
  rw [live?_eq_some h.unique, live?_eq_some h.unique']
  constructor
  · rintro ⟨hmem, hlive⟩
    exact ⟨(h.same _ hlive).mp hmem, hlive⟩
  · rintro ⟨hmem, hlive⟩
    exact ⟨(h.same _ hlive).mpr hmem, hlive⟩

theorem insert (h : Agree now s s') (key : κ) (e : Expiring ν) :
    Agree now (s.insert key e) (s'.insert key e) where
  unique := h.unique.insert key e
  unique' := h.unique'.insert key e
  same a ha := by rw [mem_insert, mem_insert, h.same a ha]

theorem erase (h : Agree now s s') (key : κ) : Agree now (s.erase key) (s'.erase key) where
  unique := h.unique.erase key
  unique' := h.unique'.erase key
  same a ha := by rw [mem_erase, mem_erase, h.same a ha]

end Agree

end CacheState

namespace Fiber

variable {σ τ υ α : Type}

/-- A part of a part is a part. -/
theorem along_along (l : Lens σ τ) (l' : Lens τ υ) (m : Fiber υ α) :
    (m.along l').along l = m.along (l.comp l') := by
  induction m with
  | done | panic => rfl
  | read next ih => exact congrArg Fiber.read (funext fun s => ih _)
  | update f next ih => exact congrArg (Fiber.update _) ih
  | block wake cleanup next ih => exact congrArg (Fiber.block _ _) ih

end Fiber

theorem Move.along_along {σ τ υ χ : Type} (l : Lens σ τ) (l' : Lens τ υ) (m : Move χ υ) :
    (m.along l').along l = m.along (l.comp l') := by
  cases m <;> rfl

open ClientRuntime.Fiber
open World (unwatched)

variable {η κ ν ε τ : Type}

/-- A call whose lookup is a script: what it sees and changes is a part of the world, and nothing
else is. -/
inductive ScriptedCall (τ κ ν ε : Type) where
  | get (key : κ) (lookup : κ → Fiber τ (Except ε (Expiring ν)))
  | invalidate (key : κ)
  | size

namespace ScriptedCall

/-- The call in the world. -/
def along (outside : Lens (World η) τ) : ScriptedCall τ κ ν ε → CacheCall η κ ν ε
  | .get key lookup => .get key fun key => (lookup key).along outside
  | .invalidate key => .invalidate key
  | .size => .size

end ScriptedCall

/-- The answer without the number in it. -/
def CacheAnswer.unsized : CacheAnswer ν ε → CacheAnswer ν ε
  | .size _ => .size 0
  | answer => answer

/-- Neither lookups nor others turn the clock back. -/
def Onward (now : τ → Instant) : Move (ScriptedCall τ κ ν ε) τ → Prop
  | .join (.get key lookup) => ∀ t, (lookup key).Ascends (fun t u => now t ≤ now u) t
  | .others f => ∀ t, now t ≤ now (f t)
  | _ => True

namespace ReadThroughCache

/-- The cache with another period. -/
def sweptEvery (c : ReadThroughCache η κ ν) (period : Duration) : ReadThroughCache η κ ν :=
  { c with period := period }

@[simp] theorem clock_sweptEvery {γ : Type} (c : ReadThroughCache η κ ν) (period : Duration) :
    ((c.sweptEvery period).journaled : ReadThroughCache (Journaled γ η) κ ν).clock =
      c.journaled.clock := rfl

@[simp] theorem contents_sweptEvery {γ : Type} (c : ReadThroughCache η κ ν) (period : Duration) :
    ((c.sweptEvery period).journaled : ReadThroughCache (Journaled γ η) κ ν).contents =
      c.journaled.contents := rfl

@[simp] theorem lock_sweptEvery {γ : Type} (c : ReadThroughCache η κ ν) (period : Duration) :
    ((c.sweptEvery period).journaled : ReadThroughCache (Journaled γ η) κ ν).lock =
      c.journaled.lock := rfl

/-- A part of the world that the cache only reads the clock from, and that is apart from what the
cache keeps. -/
structure Beside (c : ReadThroughCache η κ ν) (outside : Lens (World η) τ) (now : τ → Instant) :
    Prop where
  apart : c.Apart
  clock : ∀ w, c.clock.now w = now (outside.get w)
  outside_contents : ∀ s w, outside.get (c.contents.set s w) = outside.get w
  outside_lock : ∀ l w, outside.get (c.lock.set l w) = outside.get w
  outside_emit : ∀ w level fields message,
    outside.get (w.emit level fields message) = outside.get w
  contents_outside : ∀ t w, c.contents.get (outside.set t w) = c.contents.get w
  lock_outside : ∀ t w, c.lock.get (outside.set t w) = c.lock.get w

namespace Beside

variable {c : ReadThroughCache η κ ν} {outside : Lens (World η) τ} {now : τ → Instant}

theorem sweptEvery (h : c.Beside outside now) (period : Duration) :
    (c.sweptEvery period).Beside outside now :=
  ⟨⟨h.apart.1, h.apart.2, h.apart.3, h.apart.4⟩, h.2, h.3, h.4, h.5, h.6, h.7⟩

theorem outside_tidy (h : c.Beside outside now) (t : Instant) (w : World η) :
    outside.get (c.tidy t w) = outside.get w := by
  unfold tidy
  simp only
  split
  · rw [h.outside_emit, h.outside_contents]
  · rfl

end Beside

/-- Callers cannot tell these two worlds apart by anything but the number of entries: what is beside
the cache is the same, and so are the lock and the entries that can still be used. -/
structure Indistinct (c : ReadThroughCache η κ ν) (outside : Lens (World η) τ) (now : τ → Instant)
    (w w' : World η) : Prop where
  beside : outside.get w = outside.get w'
  lock : c.lock.get w = c.lock.get w'
  contents : CacheState.Agree (now (outside.get w)) (c.contents.get w) (c.contents.get w')

namespace Indistinct

variable {c : ReadThroughCache η κ ν} {outside : Lens (World η) τ} {now : τ → Instant}
  {w w' : World η}

theorem now_eq (hc : c.Beside outside now) (h : c.Indistinct outside now w w') :
    c.clock.now w = c.clock.now w' := by
  rw [hc.clock, hc.clock, h.beside]

theorem set_lock (hc : c.Beside outside now) (h : c.Indistinct outside now w w') (l : Lock) :
    c.Indistinct outside now (c.lock.set l w) (c.lock.set l w') where
  beside := by rw [hc.outside_lock, hc.outside_lock, h.beside]
  lock := by rw [c.lock.get_set, c.lock.get_set]
  contents := by
    rw [hc.outside_lock, hc.apart.contents_lock, hc.apart.contents_lock]
    exact h.contents

theorem modify_contents (hc : c.Beside outside now) (h : c.Indistinct outside now w w')
    {f : CacheState κ ν → CacheState κ ν}
    (hf : ∀ t s s', CacheState.Agree t s s' → CacheState.Agree t (f s) (f s')) :
    c.Indistinct outside now (c.contents.modify f w) (c.contents.modify f w') where
  beside := by
    unfold Lens.modify
    rw [hc.outside_contents, hc.outside_contents, h.beside]
  lock := by
    unfold Lens.modify
    rw [hc.apart.lock_contents, hc.apart.lock_contents, h.lock]
  contents := by
    rw [c.contents.get_modify, c.contents.get_modify]
    unfold Lens.modify
    rw [hc.outside_contents]
    exact hf _ _ _ h.contents

/-- The two worlds may be swept at different times. -/
theorem tidy (hc : c.Beside outside now) (h : c.Indistinct outside now w w')
    (period period' : Duration) :
    c.Indistinct outside now ((c.sweptEvery period).tidy (c.clock.now w) w)
      ((c.sweptEvery period').tidy (c.clock.now w') w') where
  beside := by
    rw [(hc.sweptEvery period).outside_tidy, (hc.sweptEvery period').outside_tidy, h.beside]
  lock := by
    have hlock := (hc.sweptEvery period).apart.lock_tidy (c.clock.now w) w
    have hlock' := (hc.sweptEvery period').apart.lock_tidy (c.clock.now w') w'
    exact hlock.trans (h.lock.trans hlock'.symm)
  contents := by
    have hcontents := (hc.sweptEvery period).apart.contents_tidy (c.clock.now w) w
    have hcontents' := (hc.sweptEvery period').apart.contents_tidy (c.clock.now w') w'
    have htidied := h.contents.tidied period period'
    rw [(hc.sweptEvery period).outside_tidy, ← hc.clock w]
    rw [← hc.clock w] at htidied
    rw [← h.now_eq hc] at hcontents' ⊢
    exact hcontents ▸ hcontents' ▸ htidied

/-- Who tidies up and looks for an entry finds the same in both. -/
theorem live?_tidy [DecidableEq κ] (hc : c.Beside outside now) (h : c.Indistinct outside now w w')
    (period period' : Duration) (key : κ) :
    (c.contents.get ((c.sweptEvery period).tidy (c.clock.now w) w)).live? (c.clock.now w) key =
      (c.contents.get ((c.sweptEvery period').tidy (c.clock.now w') w')).live? (c.clock.now w')
        key := by
  have htidy := (h.tidy hc period period').contents.live? key
  rw [(hc.sweptEvery period).outside_tidy, ← hc.clock w] at htidy
  rwa [← h.now_eq hc] at htidy ⊢

/-- As time goes on, what can still be used becomes less. -/
theorem set_outside (hc : c.Beside outside now) (h : c.Indistinct outside now w w') {t : τ}
    (ht : now (outside.get w) ≤ now t) :
    c.Indistinct outside now (outside.set t w) (outside.set t w') where
  beside := by rw [outside.get_set, outside.get_set]
  lock := by rw [hc.lock_outside, hc.lock_outside, h.lock]
  contents := by
    rw [outside.get_set, hc.contents_outside, hc.contents_outside]
    exact h.contents.mono ht

end Indistinct

/-- The same has been noted so far, in worlds that callers cannot tell apart. -/
structure SameToCallers {γ : Type} (c : ReadThroughCache η κ ν) (outside : Lens (World η) τ)
    (now : τ → Instant) (w w' : World (Journaled γ η)) : Prop where
  calls : w.calls = w'.calls
  indistinct : c.Indistinct outside now (unwatched.get w) (unwatched.get w')

namespace SameToCallers

variable {c : ReadThroughCache η κ ν} {outside : Lens (World η) τ} {now : τ → Instant}
  {w w' : World (Journaled (CacheEvent κ ν ε) η)}

theorem now_eq (hc : c.Beside outside now) (h : c.SameToCallers outside now w w') :
    c.journaled.clock.now w = c.journaled.clock.now w' := by
  change c.clock.now (unwatched.get w) = c.clock.now (unwatched.get w')
  exact h.indistinct.now_eq hc

theorem record (h : c.SameToCallers outside now w w') (event : CacheEvent κ ν ε) :
    c.SameToCallers outside now (w.record event) (w'.record event) where
  calls := by rw [World.calls_record, World.calls_record, h.calls]
  indistinct := h.indistinct

theorem modify_contents (hc : c.Beside outside now) (h : c.SameToCallers outside now w w')
    {f : CacheState κ ν → CacheState κ ν}
    (hf : ∀ t s s', CacheState.Agree t s s' → CacheState.Agree t (f s) (f s')) :
    c.SameToCallers outside now (c.journaled.contents.modify f w)
      (c.journaled.contents.modify f w') :=
  ⟨h.calls, h.indistinct.modify_contents hc hf⟩

theorem tidy (hc : c.Beside outside now) (h : c.SameToCallers outside now w w')
    (period period' : Duration) :
    c.SameToCallers outside now
      ((c.sweptEvery period).journaled.tidy (c.journaled.clock.now w) w)
      ((c.sweptEvery period').journaled.tidy (c.journaled.clock.now w') w') where
  calls := by rw [calls_tidy, calls_tidy, h.calls]
  indistinct := by
    rw [get_tidy, get_tidy]
    exact h.indistinct.tidy hc period period'

theorem live?_tidy [DecidableEq κ] (hc : c.Beside outside now)
    (h : c.SameToCallers outside now w w') (period period' : Duration) (key : κ) :
    (c.journaled.contents.get
        ((c.sweptEvery period).journaled.tidy (c.journaled.clock.now w) w)).live?
          (c.journaled.clock.now w) key =
      (c.journaled.contents.get
        ((c.sweptEvery period').journaled.tidy (c.journaled.clock.now w') w')).live?
          (c.journaled.clock.now w') key := by
  have hhit := h.indistinct.live?_tidy hc period period' key
  rwa [← get_tidy, ← get_tidy] at hhit

theorem set_outside (hc : c.Beside outside now) (h : c.SameToCallers outside now w w') {t : τ}
    (ht : now (outside.get (unwatched.get w)) ≤ now t) :
    c.SameToCallers outside now ((unwatched.comp outside).set t w)
      ((unwatched.comp outside).set t w') :=
  ⟨h.calls, h.indistinct.set_outside hc ht⟩

/-- Lookups that follow one script, begun side by side. -/
theorem alike_watchedLookup (hc : c.Beside outside now) (h : c.SameToCallers outside now w w')
    (i : Nat) (key : κ) {lookup : Fiber τ (Except ε (Expiring ν))}
    (hlookup : ∀ t, lookup.Ascends (fun t u => now t ≤ now u) t) :
    Alike (c.SameToCallers outside now) (EndAlike (c.SameToCallers outside now) id)
      (watchedLookup i key (lookup.along outside)) w
      (watchedLookup i key (lookup.along outside)) w' := by
  unfold watchedLookup
  rw [along_along]
  apply Alike.modify_bind
  apply Alike.guarded
  apply Alike.bind
  apply Alike.along (fun u u' hu => hu.indistinct.beside)
    (fun t u u' hu ht => hu.set_outside hc ht) _ (h.record _) (hlookup _)
  intro e u u' hu
  rcases e with result | _ | _
  · exact .update (.done (.returned (hu.record _) rfl))
  · exact .cut (hu.record _)
  · exact .cut (hu.record _)

variable [DecidableEq κ]

theorem alike_fetch (hc : c.Beside outside now) (h : c.SameToCallers outside now w w')
    (period period' : Duration) (i : Nat) (key : κ) {lookup : κ → Fiber τ (Except ε (Expiring ν))}
    (hlookup : ∀ t, (lookup key).Ascends (fun t u => now t ≤ now u) t) :
    Alike (c.SameToCallers outside now) (EndAlike (c.SameToCallers outside now) id)
      ((c.sweptEvery period).journaled.fetch key fun key =>
        watchedLookup i key ((lookup key).along outside)) w
      ((c.sweptEvery period').journaled.fetch key fun key =>
        watchedLookup i key ((lookup key).along outside)) w' := by
  have htidy := h.tidy hc period period'
  have hhit := h.live?_tidy hc period period' key
  unfold fetch
  apply Alike.gets_bind
  apply Alike.modify_bind
  apply Alike.gets_bind
  simp only [clock_sweptEvery, contents_sweptEvery]
  rw [hhit]
  cases (c.journaled.contents.get ((c.sweptEvery period').journaled.tidy _ w')).live? _ key with
  | some e => exact .pure (.returned htidy rfl)
  | none =>
    apply Alike.bind
    apply (htidy.alike_watchedLookup hc i key hlookup).imp
    intro e e' u u' hends
    cases hends with
    | @returned found found' _ _ hu hfound =>
      obtain rfl : found = found' := hfound
      cases found with
      | ok fresh =>
        apply Alike.modify_bind
        exact .pure (.returned (hu.modify_contents hc fun t s s' h => h.insert key fresh) rfl)
      | error error => exact .pure (.returned hu rfl)
    | cut hu => exact .cut hu

/-- Whatever the periods are, a call does the same from worlds that callers cannot tell apart. -/
theorem alike_observe (hc : c.Beside outside now) (h : c.SameToCallers outside now w w')
    (period period' : Duration) (i : Nat) {call : ScriptedCall τ κ ν ε}
    (hcall : Onward now (.join call)) :
    Alike (c.SameToCallers outside now) (EndAlike (c.SameToCallers outside now) CacheAnswer.unsized)
      ((c.sweptEvery period).observe i (call.along outside)) w
      ((c.sweptEvery period').observe i (call.along outside)) w' := by
  have hset (l : Lock) (u u' : World (Journaled (CacheEvent κ ν ε) η))
      (hu : c.SameToCallers outside now u u') :
      c.SameToCallers outside now (c.journaled.lock.set l u) (c.journaled.lock.set l u') :=
    ⟨hu.calls, hu.indistinct.set_lock hc l⟩
  cases call with
  | get key lookup =>
    apply Alike.holding h (fun u u' hu => hu.indistinct.lock) hset
    intro u u' hu
    have hnow := hu.now_eq hc
    have hentered := hu.record (.entered i key (c.journaled.clock.now u'))
    apply Alike.modify_bind
    apply Alike.bind
    rw [clock_sweptEvery, clock_sweptEvery, hnow]
    apply (hentered.alike_fetch hc period period' i key hcall).imp
    intro e e' v v' hends
    cases hends with
    | @returned result result' _ _ hv hresult =>
      obtain rfl : result = result' := hresult
      apply Alike.modify_bind
      exact .pure (.returned (hv.record _) rfl)
    | cut hv => exact .cut hv
  | invalidate key =>
    apply Alike.holding h (fun u u' hu => hu.indistinct.lock) hset
    intro u u' hu
    apply Alike.modify_bind
    apply Alike.modify_bind
    apply Alike.pure
    exact .returned ((hu.modify_contents hc fun t s s' h => h.erase key).record _) rfl
  | size =>
    apply Alike.holding h (fun u u' hu => hu.indistinct.lock) hset
    intro u u' hu
    exact .gets_bind (.pure (.returned hu rfl))

end SameToCallers

variable [DecidableEq κ]

theorem suits_along {c : ReadThroughCache η κ ν} {outside : Lens (World η) τ} {now : τ → Instant}
    (hc : c.Beside outside now) (period period' : Duration) {m : Move (ScriptedCall τ κ ν ε) τ}
    (hm : Onward now m) :
    Crowd.Suits (c.SameToCallers outside now) CacheAnswer.unsized
      (fun i call => (c.sweptEvery period).observe i (call.along outside))
      (fun i call => (c.sweptEvery period').observe i (call.along outside))
      (m.along (unwatched.comp outside)) := by
  cases m with
  | join call => exact fun i w w' h => h.alike_observe hc period period' i hm
  | others f =>
    intro w w' h
    change c.SameToCallers outside now
      ((unwatched.comp outside).set (f (outside.get (unwatched.get w))) w)
      ((unwatched.comp outside).set (f (outside.get (unwatched.get w'))) w')
    rw [← h.indistinct.beside]
    exact h.set_outside hc (hm _)
  | poll i => trivial
  | drop i => trivial

/-- The world with nothing in the cache. -/
def opened (c : ReadThroughCache η κ ν) (v : World η) : World η :=
  c.contents.set (initial c.period (c.clock.now v)) v

omit [DecidableEq κ] in
theorem indistinct_opened {c : ReadThroughCache η κ ν} {outside : Lens (World η) τ}
    {now : τ → Instant} (hc : c.Beside outside now) (period period' : Duration) (v : World η) :
    c.Indistinct outside now ((c.sweptEvery period).opened v) ((c.sweptEvery period').opened v)
    where
  beside := by
    unfold opened sweptEvery
    rw [hc.outside_contents, hc.outside_contents]
  lock := by
    unfold opened sweptEvery
    rw [hc.apart.lock_contents, hc.apart.lock_contents]
  contents := by
    unfold opened sweptEvery
    rw [c.contents.get_set, c.contents.get_set]
    exact ⟨List.nodup_nil, List.nodup_nil, fun _ _ => Iff.rfl⟩

/-- Callers get, invalidate and count entries in any order, one by one or side by side, and may be
dropped; lookups find what they like, may fail, and take their time, and the clock is never turned
back. Then any two periods make for the same journal: the same callers look the same keys up, in the
same order and at the same readings of the clock, and find and return the same. All calls come to
the same, save for the number of entries. What is noted changes nothing of what is done. -/
theorem period_shows_only_in_size (c : ReadThroughCache η κ ν) {outside : Lens (World η) τ}
    {now : τ → Instant} (hc : c.Beside outside now) (v : World η)
    (moves : List (Move (ScriptedCall τ κ ν ε) τ)) (hmoves : ∀ m ∈ moves, Onward now m)
    (period period' : Duration) :
    let seen p := Crowd.run (fun i call => (c.sweptEvery p).observe i (call.along outside))
      (moves.map (·.along (unwatched.comp outside))) ⟨((c.sweptEvery p).opened v).journaled, []⟩
    let alone p := Crowd.run (fun _ call => (c.sweptEvery p).perform (call.along outside))
      (moves.map (·.along outside)) ⟨(c.sweptEvery p).opened v, []⟩
    (seen period).state.calls = (seen period').state.calls ∧
    (alone period).endings.map (Option.map (Ending.map CacheAnswer.unsized)) =
      (alone period').endings.map (Option.map (Ending.map CacheAnswer.unsized)) ∧
    outside.get (alone period).state = outside.get (alone period').state ∧
    ∀ p, unwatched.get (seen p).state = (alone p).state ∧ (seen p).endings = (alone p).endings := by
  intro seen alone
  have hmirrors (p : Duration) : (seen p).Mirrors unwatched (alone p) := by
    have hcalls (i : Nat) (call : ScriptedCall τ κ ν ε) :=
      (c.sweptEvery p).observe_mirrors i (call.along outside)
    have hopened := World.unwatched_journaled (κ := CacheEvent κ ν ε) ((c.sweptEvery p).opened v)
    have hrun := (Crowd.Mirrors.start hopened).run hcalls (moves.map (·.along outside))
    simp only [List.map_map, Function.comp_def, Move.along_along] at hrun
    exact hrun
  have halike : (seen period).Alike (c.SameToCallers outside now) CacheAnswer.unsized
      (seen period') := by
    apply Crowd.Alike.run (.nobody ⟨rfl, indistinct_opened hc period period' v⟩)
    intro m hm
    obtain ⟨m, hmem, rfl⟩ := List.mem_map.mp hm
    exact suits_along hc period period' (hmoves m hmem)
  refine ⟨halike.state.calls, ?_, ?_, fun p => ⟨(hmirrors p).state, (hmirrors p).endings⟩⟩
  · rw [← (hmirrors period).endings, ← (hmirrors period').endings]
    exact halike.endings
  · rw [← (hmirrors period).state, ← (hmirrors period').state]
    exact halike.state.indistinct.beside

omit [DecidableEq κ] in
theorem set_clock_self (w : World η) : { w with clock := w.clock } = w := rfl

/-- The clock of the world as the part that is beside a cache. -/
def clockPart : Lens (World η) ManualClock where
  get w := w.clock
  set t w := { w with clock := t }
  get_set _ _ := rfl
  set_get := set_clock_self
  set_set _ _ _ := rfl

theorem numberCache_beside : numberCache.Beside clockPart ManualClock.now where
  apart := ⟨fun _ _ => rfl, fun _ _ => rfl, fun _ _ _ _ => rfl, fun _ _ _ _ => rfl⟩
  clock _ := rfl
  outside_contents _ _ := rfl
  outside_lock _ _ := rfl
  outside_emit _ _ _ _ := rfl
  contents_outside _ _ := rfl
  lock_outside _ _ := rfl

/-- A lookup that takes a second and finds a value for three; it finds none for zero. -/
def slowly (key : Nat) : Fiber ManualClock (Except Unit (Expiring Nat)) := do
  Fiber.suspend
  Fiber.modify (·.advance (.ofSecs 1))
  let now ← Fiber.gets ManualClock.now
  return if key = 0 then .error () else .ok (.expiresIn key now (.ofSecs 3))

/-- When the second caller comes, what the first one found has expired. -/
def getTwiceAndCount : List (Move (ScriptedCall ManualClock Nat Nat Unit) ManualClock) :=
  [.join (.get 1 slowly), .poll 0, .poll 0, .others (·.advance (.ofSecs 5)),
    .join (.get 0 slowly), .poll 1, .poll 1, .join .size, .poll 2]

def counted (period : Duration) :
    Crowd (World (CacheState Nat Nat × Lock)) (CacheAnswer Nat Unit) :=
  Crowd.run (fun _ call => (numberCache.sweptEvery period).perform (call.along clockPart))
    (getTwiceAndCount.map (·.along clockPart))
    ⟨(numberCache.sweptEvery period).opened emptyCache, []⟩

theorem period_shows_only_in_size_getTwiceAndCount :
    (counted .zero).endings.map (Option.map (Ending.map CacheAnswer.unsized)) =
        (counted .longest).endings.map (Option.map (Ending.map CacheAnswer.unsized)) ∧
      (counted .zero).endings = [some (.returned (.value (.ok 1))),
        some (.returned (.value (.error ()))), some (.returned (.size 0))] ∧
      (counted .longest).endings = [some (.returned (.value (.ok 1))),
        some (.returned (.value (.error ()))), some (.returned (.size 1))] := by
  have hascends (key : Nat) (t : ManualClock) :
      (slowly key).Ascends (fun t u => t.now ≤ u.now) t :=
    fun u => ⟨Int.le_refl _, fun _ => ⟨Instant.le_addSaturating u.now _, trivial⟩⟩
  have honward : ∀ m ∈ getTwiceAndCount, Onward ManualClock.now m := by
    simp only [getTwiceAndCount, List.forall_mem_cons]
    have hlater (t : ManualClock) : t.now ≤ (t.advance (.ofSecs 5)).now :=
      Instant.le_addSaturating t.now _
    exact ⟨hascends 1, trivial, trivial, hlater, hascends 0, trivial, trivial, trivial, trivial,
      by simp⟩
  have hsame := numberCache.period_shows_only_in_size numberCache_beside emptyCache
    getTwiceAndCount honward .zero .longest
  exact ⟨hsame.2.1, rfl, rfl⟩

end ReadThroughCache

end ClientRuntime
