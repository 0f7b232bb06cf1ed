import ClientRuntime.Proofs.Cache.Observed
import ClientRuntime.Proofs.Fiber.Crowd
import ClientRuntime.Proofs.Lock.Queue

/-!
What a single poll of a caller of a cache comes to, once the caller has the lock: a get finds its
entry and returns, or it is polled as its lookup is.
-/

namespace ClientRuntime

open ClientRuntime.Fiber
open World (unwatched)

namespace Fiber

variable {σ τ α γ : Type}

/-- In a larger state a fiber is polled as in the part that it sees. -/
theorem poll_along (l : Lens σ τ) (m : Fiber τ α) (s : σ) :
    (m.along l).poll s =
      match m.poll (l.get s) with
      | (.ready a, t) => (.ready a, l.set t s)
      | (.panicked text, t) => (.panicked text, l.set t s)
      | (.pending wake cleanup next, t) =>
        (.pending (fun s => wake (l.get s)) (l.modify cleanup) (next.along l), l.set t s) := by
  induction m generalizing s with
  | done | panic | block => simp only [along, Fiber.poll, l.set_get]
  | read next ih => exact ih (l.get s) s
  | update f next ih =>
    simp only [along, Fiber.poll, ih, l.get_modify]
    rcases next.poll (f (l.get s)) with ⟨_ | _ | _, _⟩ <;> simp only [Lens.modify, l.set_set]

/-- A fiber that is suspended leaves alone what it left alone before. -/
theorem Leaves.poll {view : σ → γ} {m : Fiber σ α} (hm : m.Leaves view) (s : σ) :
    view (m.poll s).2 = view s ∧ ∀ wake cleanup next, (m.poll s).1 = .pending wake cleanup next →
      (∀ s, view (cleanup s) = view s) ∧ next.Leaves view := by
  induction m generalizing s with
  | done | panic => exact ⟨rfl, fun _ _ _ h => by cases h⟩
  | read next ih => exact ih s (hm s) s
  | update f next ih => exact ⟨((ih hm.2 _).1).trans (hm.1 s), (ih hm.2 _).2⟩
  | block wake cleanup next =>
    refine ⟨rfl, fun _ _ _ h => ?_⟩
    cases h
    exact hm

end Fiber

namespace Paused

variable {σ α γ : Type}

/-- Neither going on nor dropping it changes what is seen of the state. -/
structure Leaves (view : σ → γ) (p : Paused σ α) : Prop where
  cleanup : ∀ s, view (p.cleanup s) = view s
  next : p.next.Leaves view

theorem Leaves.start {view : σ → γ} {m : Fiber σ α} (hm : m.Leaves view) :
    (Paused.start m).Leaves view :=
  ⟨fun _ => rfl, hm⟩

theorem Leaves.poll {view : σ → γ} {p : Paused σ α} (hp : p.Leaves view) (s : σ) :
    view (p.poll s).2 = view s ∧ ∀ q, (p.poll s).1 = .pending q → q.Leaves view := by
  unfold Paused.poll
  split
  · obtain ⟨hview, hpending⟩ := hp.next.poll s
    rcases hnext : p.next.poll s with ⟨_ | _ | ⟨wake, cleanup, next⟩, s₁⟩ <;>
      rw [hnext] at hview hpending
    · exact ⟨hview, fun _ h => by cases h⟩
    · exact ⟨hview, fun _ h => by cases h⟩
    · refine ⟨hview, fun q h => ?_⟩
      cases h
      exact ⟨(hpending _ _ _ rfl).1, (hpending _ _ _ rfl).2⟩
  · refine ⟨rfl, fun q h => ?_⟩
    cases h
    exact hp

end Paused

variable {η κ ν ε : Type}

namespace ReadThroughCache

variable [DecidableEq κ] (c : ReadThroughCache η κ ν) (i : Nat)

/-- What a caller does once it has the lock. -/
def underLock : CacheCall η κ ν ε →
    Fiber (World (Journaled (CacheEvent κ ν ε) η)) (CacheAnswer ν ε)
  | .get key lookup => do
    Fiber.modify fun w => w.record (.entered i key (c.journaled.clock.now w))
    let result ← c.journaled.fetch key fun key => watchedLookup i key (lookup key)
    Fiber.modify (·.record (.returned i result))
    return .value result
  | .invalidate key => do
    Fiber.modify (c.journaled.contents.modify (·.erase key))
    Fiber.modify (·.record (.invalidated key))
    return .invalidated
  | .size => do
    return .size (← Fiber.gets fun w => (c.journaled.contents.get w).size)

theorem observe_eq (call : CacheCall η κ ν ε) :
    c.observe i call = Lock.holding c.journaled.lock (c.underLock i call) := by
  cases call <;> rfl

/-- What is left of a get from within its lookup. -/
def looking (key : κ) (lookup : Fiber (World η) (Except ε (Expiring ν))) :
    Fiber (World (Journaled (CacheEvent κ ν ε) η)) (CacheAnswer ν ε) := do
  let ended := Fiber.guarded (·.record (.cut i key)) (·.record (.cut i key)) do
    let found ← lookup.along unwatched
    Fiber.modify (·.record (.ofLookup i key found))
    return found
  let result ← ended >>= fun
    | .ok fresh => do
      Fiber.modify (c.journaled.contents.modify (·.insert key fresh))
      return .ok fresh.value
    | .error error => return .error error
  Fiber.modify (·.record (.returned i result))
  return .value result

/-- A get whose lookup is suspended. -/
def lookingAt (key : κ) (p : Paused (World η) (Except ε (Expiring ν))) :
    Paused (World (Journaled (CacheEvent κ ν ε) η)) (CacheAnswer ν ε) where
  wake w := p.wake (unwatched.get w)
  cleanup w := (unwatched.modify p.cleanup w).record (.cut i key)
  next := c.looking i key p.next

/-- The world once a lookup has ended and its caller has the answer. -/
def answered (key : κ) (w : World (Journaled (CacheEvent κ ν ε) η)) :
    Except ε (Expiring ν) → World (Journaled (CacheEvent κ ν ε) η)
  | .ok e => (c.journaled.contents.modify (·.insert key e)
      (w.record (.found i key e))).record (.returned i (.ok e.value))
  | .error error => (w.record (.failed i key error)).record (.returned i (.error error))

/-- What a get comes to when its lookup is polled. -/
def lookedUp (key : κ) (w : World (Journaled (CacheEvent κ ν ε) η)) :
    Paused.Outcome (World η) (Except ε (Expiring ν)) × World η →
      Paused.Outcome (World (Journaled (CacheEvent κ ν ε) η)) (CacheAnswer ν ε) ×
        World (Journaled (CacheEvent κ ν ε) η)
  | (.ready found, v) =>
    (.ready (.value (found.map Expiring.value)), c.answered i key (unwatched.set v w) found)
  | (.panicked text, v) => (.panicked text, (unwatched.set v w).record (.cut i key))
  | (.pending p, v) => (.pending (c.lookingAt i key p), unwatched.set v w)

/-- The world once a get has the lock: it has read the clock, and swept if that is due. -/
def entering (key : κ) (w : World (Journaled (CacheEvent κ ν ε) η)) :
    World (Journaled (CacheEvent κ ν ε) η) :=
  c.journaled.tidy (c.journaled.clock.now w) (w.record (.entered i key (c.journaled.clock.now w)))

variable (key : κ) (w : World (Journaled (CacheEvent κ ν ε) η))

theorem poll_looking (m : Fiber (World η) (Except ε (Expiring ν))) :
    (Paused.start (c.looking i key m)).poll w =
      c.lookedUp i key w ((Paused.start m).poll (unwatched.get w)) := by
  simp only [Paused.poll, Paused.start, if_true, looking, Fiber.poll_bind, Fiber.poll_guarded,
    Fiber.poll_along]
  rcases m.poll (unwatched.get w) with ⟨(_ | _) | _ | _, _⟩ <;> rfl

theorem poll_lookingAt (p : Paused (World η) (Except ε (Expiring ν))) :
    (c.lookingAt i key p).poll w = c.lookedUp i key w (p.poll (unwatched.get w)) := by
  rw [Paused.poll_eq, p.poll_eq, lookingAt, poll_looking]
  split <;> rfl

theorem poll_underLock_get (lookup : κ → Fiber (World η) (Except ε (Expiring ν))) :
    (Paused.start (c.underLock i (.get key lookup))).poll w =
      match (c.journaled.contents.get (c.entering i key w)).live? (c.journaled.clock.now w) key with
      | some e => (.ready (.value (.ok e.value)),
          (c.entering i key w).record (.returned i (.ok e.value)))
      | none => c.lookedUp i key ((c.entering i key w).record (.began i key))
          ((Paused.start (lookup key)).poll (unwatched.get (c.entering i key w))) := by
  have hnow (event : CacheEvent κ ν ε) :
      c.journaled.clock.now (w.record event) = c.journaled.clock.now w := rfl
  unfold entering
  simp only [underLock, fetch, LawfulMonad.bind_assoc, Paused.poll_start_modify_bind,
    Paused.poll_start_gets_bind, hnow]
  generalize CacheState.live? _ _ key = hit
  cases hit with
  | some e => rfl
  | none => exact c.poll_looking i key _ (lookup key)

end ReadThroughCache

end ClientRuntime
