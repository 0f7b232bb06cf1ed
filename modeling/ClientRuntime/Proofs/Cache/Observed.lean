import ClientRuntime.Cache.ReadThrough
import ClientRuntime.Proofs.Cache.Log
import ClientRuntime.Proofs.Fiber.Mirrors

/-!
Calls of a cache by many callers, and the same calls under watch. A watched call notes when it gets
the lock, how its lookup begins and ends, and what it returns. Watching changes nothing: poll for
poll a watched call does to the rest of the world what the call by itself does.
-/

namespace ClientRuntime

open ClientRuntime.Fiber
open World (unwatched)

variable {η κ ν ε : Type}

inductive CacheCall (η κ ν ε : Type) where
  | get (key : κ) (lookup : κ → Fiber (World η) (Except ε (Expiring ν)))
  | invalidate (key : κ)
  | size

inductive CacheAnswer (ν ε : Type) where
  | value (result : Except ε ν)
  | invalidated
  | size (n : Nat)

/-- How a lookup ended. -/
def CacheEvent.ofLookup (i : Nat) (key : κ) : Except ε (Expiring ν) → CacheEvent κ ν ε
  | .ok e => .found i key e
  | .error error => .failed i key error

/-- A lookup that notes its beginning and, however it ends, its end. -/
def watchedLookup (i : Nat) (key : κ) (lookup : Fiber (World η) (Except ε (Expiring ν))) :
    Fiber (World (Journaled (CacheEvent κ ν ε) η)) (Except ε (Expiring ν)) := do
  Fiber.modify (·.record (.began i key))
  Fiber.guarded (·.record (.cut i key)) (·.record (.cut i key)) do
    let found ← lookup.along unwatched
    Fiber.modify (·.record (.ofLookup i key found))
    return found

namespace ReadThroughCache

variable [DecidableEq κ]

/-- What a caller does. -/
def perform (c : ReadThroughCache η κ ν) : CacheCall η κ ν ε → Fiber (World η) (CacheAnswer ν ε)
  | .get key lookup => .value <$> c.get key lookup
  | .invalidate key => (fun _ => .invalidated) <$> c.invalidate key
  | .size => .size <$> c.size

/-- The cache in a world with a journal. -/
def journaled {γ : Type} (c : ReadThroughCache η κ ν) : ReadThroughCache (Journaled γ η) κ ν where
  period := c.period
  clock :=
    { name := c.clock.name
      now w := c.clock.now (unwatched.get w)
      sleep d := (c.clock.sleep d).along unwatched }
  contents := unwatched.comp c.contents
  lock := unwatched.comp c.lock

/-- What a caller does under watch. What a `get` notes it notes while it has the lock. -/
def observe (c : ReadThroughCache η κ ν) (i : Nat) : CacheCall η κ ν ε →
    Fiber (World (Journaled (CacheEvent κ ν ε) η)) (CacheAnswer ν ε)
  | .get key lookup => Lock.holding c.journaled.lock do
    Fiber.modify fun w => w.record (.entered i key (c.journaled.clock.now w))
    let result ← c.journaled.fetch key fun key => watchedLookup i key (lookup key)
    Fiber.modify (·.record (.returned i result))
    return .value result
  | .invalidate key => Lock.holding c.journaled.lock do
    Fiber.modify (c.journaled.contents.modify (·.erase key))
    Fiber.modify (·.record (.invalidated key))
    return .invalidated
  | .size => Lock.holding c.journaled.lock do
    return .size (← Fiber.gets fun w => (c.journaled.contents.get w).size)

omit [DecidableEq κ] in
theorem watchedLookup_mirrors (i : Nat) (key : κ)
    (lookup : Fiber (World η) (Except ε (Expiring ν))) :
    (watchedLookup i key lookup).Mirrors unwatched lookup := by
  refine .beside_bind (fun _ => rfl) (.guarded_beside (fun _ => rfl) (fun _ => rfl) ?_)
  have h : ((lookup.along unwatched >>= fun found => do
      Fiber.modify (·.record (.ofLookup i key found))
      return found) : Fiber (World (Journaled (CacheEvent κ ν ε) η)) _).Mirrors unwatched
      (lookup >>= pure) :=
    Mirrors.bind (.along lookup) fun found => .beside_bind (fun _ => rfl) (.pure found)
  rwa [bind_pure] at h

omit [DecidableEq κ] in
theorem get_tidy {γ : Type} (c : ReadThroughCache η κ ν) (now : Instant)
    (w : World (Journaled γ η)) :
    unwatched.get (c.journaled.tidy now w) = c.tidy now (unwatched.get w) := by
  have hcontents : c.journaled.contents.get w = c.contents.get (unwatched.get w) := rfl
  unfold tidy
  rw [hcontents]
  by_cases h : (c.contents.get (unwatched.get w)).sweepDue now = true
  · simp only [h, if_true]
    rfl
  · simp only [h, Bool.false_eq_true, if_false]

theorem fetch_mirrors {γ : Type} (c : ReadThroughCache η κ ν) (key : κ)
    {lookup : κ → Fiber (World (Journaled γ η)) (Except ε (Expiring ν))}
    {lookup' : κ → Fiber (World η) (Except ε (Expiring ν))}
    (h : ∀ key, (lookup key).Mirrors unwatched (lookup' key)) :
    (c.journaled.fetch key lookup).Mirrors unwatched (c.fetch key lookup') := by
  refine Mirrors.bind (.gets fun _ => rfl) fun now => ?_
  refine Mirrors.bind (.modify (c.get_tidy now)) fun _ => ?_
  refine Mirrors.bind (.gets fun _ => rfl) fun hit => ?_
  cases hit with
  | some e => exact .pure _
  | none =>
    refine Mirrors.bind (h key) fun found => ?_
    cases found with
    | ok fresh => exact Mirrors.bind (.modify fun w => unwatched.get_set _ w) fun _ => .pure _
    | error error => exact .pure _

theorem observe_mirrors (c : ReadThroughCache η κ ν) (i : Nat) (call : CacheCall η κ ν ε) :
    (c.observe i call).Mirrors unwatched (c.perform call) := by
  cases call with
  | get key lookup =>
    change Mirrors unwatched _ (_ <$> Lock.holding c.lock _)
    rw [Lock.map_holding]
    refine .holding (.beside_bind (fun _ => rfl) ?_)
    rw [map_eq_pure_bind]
    refine (c.fetch_mirrors key fun key => watchedLookup_mirrors i key (lookup key)).bind ?_
    exact fun result => .beside_bind (fun _ => rfl) (.pure _)
  | invalidate key =>
    change Mirrors unwatched _ (_ <$> Lock.holding c.lock _)
    rw [Lock.map_holding]
    refine .holding (.update (fun w => unwatched.get_set _ w) ?_)
    exact .beside_bind (fun _ => rfl) (.pure _)
  | size =>
    change Mirrors unwatched _ (_ <$> Lock.holding c.lock _)
    rw [Lock.map_holding]
    exact .holding (Mirrors.bind (.gets fun _ => rfl) fun n => .pure _)

end ReadThroughCache

end ClientRuntime
