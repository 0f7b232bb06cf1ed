import ClientRuntime.Cache.Basic
import ClientRuntime.Lock
import ClientRuntime.World

/-!
Caches that fill themselves by a lookup. A lookup runs while the cache is locked, so a missing key
is looked up once however many ask for it.
-/

namespace ClientRuntime

/-- A cache whose contents and lock are parts of the world. -/
structure ReadThroughCache (η κ ν : Type) where
  /-- The least time between sweeps. -/
  period : Duration
  clock : Clock (World η)
  contents : Lens (World η) (CacheState κ ν)
  lock : Lens (World η) Lock

namespace ReadThroughCache

variable {η κ ν ε : Type} [DecidableEq κ]

/-- What an empty cache of the present holds. -/
def initial (period : Duration) (now : Instant) : CacheState κ ν :=
  .empty (now.addSaturating period)

/-- Sweeps if that is due. -/
def tidy (c : ReadThroughCache η κ ν) (now : Instant) (w : World η) : World η :=
  let s := c.contents.get w
  if s.sweepDue now then
    let kept := s.sweep c.period now
    (c.contents.set kept w).emit .trace
      [("removed", .natural (s.size - kept.size)), ("remaining", .natural kept.size)]
      "Swept expired cache entries"
  else w

/-- What `get` does under the lock. -/
def fetch (c : ReadThroughCache η κ ν) (key : κ)
    (lookup : κ → Fiber (World η) (Except ε (Expiring ν))) : Fiber (World η) (Except ε ν) := do
  let now ← Fiber.gets c.clock.now
  Fiber.modify (c.tidy now)
  match ← Fiber.gets fun w => (c.contents.get w).live? now key with
  | some e => return .ok e.value
  | none =>
    match ← lookup key with
    | .ok fresh =>
      Fiber.modify (c.contents.modify (·.insert key fresh))
      return .ok fresh.value
    | .error e => return .error e

/-- The value of a key, looked up if it is absent or expired. A failed lookup changes nothing. -/
def get (c : ReadThroughCache η κ ν) (key : κ)
    (lookup : κ → Fiber (World η) (Except ε (Expiring ν))) : Fiber (World η) (Except ε ν) :=
  Lock.holding c.lock (c.fetch key lookup)

def invalidate (c : ReadThroughCache η κ ν) (key : κ) : Fiber (World η) Unit :=
  Lock.holding c.lock (Fiber.modify (c.contents.modify (·.erase key)))

/-- How many entries there are, expired ones included. -/
def size (c : ReadThroughCache η κ ν) : Fiber (World η) Nat :=
  Lock.holding c.lock (Fiber.gets fun w => (c.contents.get w).size)

def describe (c : ReadThroughCache η κ ν) : String :=
  Text.openRecord "ReadThroughCache"
    [("minimum_sweep_period", c.period.text), ("clock", c.clock.name)]

end ReadThroughCache

end ClientRuntime
