import ClientRuntime.Instant

/-!
Values that stop being usable at an instant.
-/

namespace ClientRuntime

structure Expiring (ν : Type) where
  value : ν
  /-- The first instant at which the value is expired. -/
  expiresAt : Instant
  deriving DecidableEq

namespace Expiring

variable {ν : Type}

def expiresIn (value : ν) (now : Instant) (ttl : Duration) : Expiring ν :=
  ⟨value, now.addSaturating ttl⟩

def isExpired (e : Expiring ν) (now : Instant) : Bool := e.expiresAt ≤ now

end Expiring

end ClientRuntime
