import ClientRuntime.Cache.Expiring

/-!
The contents of a cache: at most one entry per key, and the time of the next sweep. Expired
entries stay until a sweep removes them.
-/

namespace ClientRuntime

structure CacheState (κ ν : Type) where
  entries : List (κ × Expiring ν)
  /-- The first instant at which a sweep is due. -/
  nextSweep : Instant

namespace CacheState

variable {κ ν : Type} [DecidableEq κ]

def empty (nextSweep : Instant) : CacheState κ ν := ⟨[], nextSweep⟩

def entry? (s : CacheState κ ν) (key : κ) : Option (Expiring ν) :=
  (s.entries.find? (·.1 = key)).map (·.2)

/-- An entry that can still be used. -/
def live? (s : CacheState κ ν) (now : Instant) (key : κ) : Option (Expiring ν) :=
  (s.entry? key).filter fun e => !e.isExpired now

def erase (s : CacheState κ ν) (key : κ) : CacheState κ ν :=
  { s with entries := s.entries.filter (·.1 ≠ key) }

def insert (s : CacheState κ ν) (key : κ) (e : Expiring ν) : CacheState κ ν :=
  { s with entries := (key, e) :: (s.erase key).entries }

def size (s : CacheState κ ν) : Nat := s.entries.length

omit [DecidableEq κ] in
/-- Whether a sweep is due. -/
def sweepDue (s : CacheState κ ν) (now : Instant) : Bool := s.nextSweep ≤ now

/-- Removes what is expired and puts the next sweep off by a period. -/
def sweep (period : Duration) (now : Instant) (s : CacheState κ ν) : CacheState κ ν where
  entries := s.entries.filter fun e => !e.2.isExpired now
  nextSweep := now.addSaturating period

end CacheState

end ClientRuntime
