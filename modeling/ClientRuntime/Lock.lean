import ClientRuntime.Fiber.Control
import ClientRuntime.Lens

/-!
A lock that is held across suspension points. Whoever wants it draws a ticket and queues; the
first in the queue owns the lock, so it goes to the first who came.
-/

namespace ClientRuntime

structure Lock where
  /-- Tickets in the order drawn. The first one owns the lock. -/
  queue : List Nat
  /-- The next ticket. -/
  next : Nat

namespace Lock

def free : Lock := ⟨[], 0⟩

instance : Inhabited Lock := ⟨free⟩

def draw (l : Lock) : Nat × Lock := (l.next, ⟨l.queue ++ [l.next], l.next + 1⟩)

def owns (ticket : Nat) (l : Lock) : Bool := l.queue.head? = some ticket

/-- Gives up a ticket, wherever it stands in the queue. -/
def leave (ticket : Nat) (l : Lock) : Lock := { l with queue := l.queue.filter (· ≠ ticket) }

variable {σ α : Type}

/-- Runs `body` while holding the lock. However that ends, the ticket is given up. -/
def holding (lock : Lens σ Lock) (body : Fiber σ α) : Fiber σ α := do
  let ticket ← Fiber.modifyGet fun s =>
    let (ticket, l) := (lock.get s).draw
    (ticket, lock.set l s)
  let giveUp := lock.modify (leave ticket)
  Fiber.guarded giveUp giveUp do
    Fiber.waitUntil fun s => (lock.get s).owns ticket
    let a ← body
    Fiber.modify giveUp
    return a

end Lock

end ClientRuntime
