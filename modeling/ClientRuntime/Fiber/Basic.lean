/-!
Suspendable computations over a shared state. A fiber reads and changes the state in steps that
nothing interrupts; at a suspension point it hands back control, and from there it may be resumed
or dropped. A suspension point says when it is worth resuming and what dropping it does.
-/

namespace ClientRuntime

inductive Fiber (σ α : Type) : Type where
  | done (a : α)
  /-- Unwinding; what the fiber held was let go on the way. -/
  | panic (text : String)
  | read (next : σ → Fiber σ α)
  | update (f : σ → σ) (next : Fiber σ α)
  /-- Hands back control. A later poll goes on if `wake` holds then; a drop does `cleanup`. -/
  | block (wake : σ → Bool) (cleanup : σ → σ) (next : Fiber σ α)

namespace Fiber

variable {σ α β γ : Type}

def bind : Fiber σ α → (α → Fiber σ β) → Fiber σ β
  | done a, k => k a
  | panic text, _ => panic text
  | read next, k => read fun s => (next s).bind k
  | update f next, k => update f (next.bind k)
  | block wake cleanup next, k => block wake cleanup (next.bind k)

instance : Monad (Fiber σ) where
  pure := done
  bind := bind

theorem bind_done (m : Fiber σ α) : m.bind done = m := by
  induction m with
  | done | panic => rfl
  | read next ih => simp only [bind, ih]
  | update f next ih => simp only [bind, ih]
  | block wake cleanup next ih => simp only [bind, ih]

theorem bind_assoc (m : Fiber σ α) (f : α → Fiber σ β) (g : β → Fiber σ γ) :
    (m.bind f).bind g = m.bind fun a => (f a).bind g := by
  induction m with
  | done | panic => rfl
  | read next ih => simp only [bind, ih]
  | update f next ih => simp only [bind, ih]
  | block wake cleanup next ih => simp only [bind, ih]

instance : LawfulMonad (Fiber σ) :=
  LawfulMonad.mk' (Fiber σ) bind_done (fun _ _ => rfl) bind_assoc

def gets (f : σ → α) : Fiber σ α := read fun s => done (f s)

def modify (f : σ → σ) : Fiber σ Unit := update f (done ())

/-- Changes the state and answers from it in one step. -/
def modifyGet (f : σ → α × σ) : Fiber σ α :=
  read fun s => let (a, s') := f s; update (fun _ => s') (done a)

/-- Hands back control once. -/
def suspend : Fiber σ Unit := block (fun _ => true) id (done ())

/-- Hands back control `n` times. -/
def suspendTimes : Nat → Fiber σ Unit
  | 0 => done ()
  | n + 1 => block (fun _ => true) id (read fun _ => suspendTimes n)

/-- Goes on at once if `ready` holds, else at the first poll at which it does. -/
def waitUntil (ready : σ → Bool) : Fiber σ Unit :=
  read fun s => if ready s then done () else block ready id (done ())

/-- Never goes on. -/
def hang : Fiber σ α := block (fun _ => false) id (panic "")

/-- What a poll comes to. -/
inductive Polled (σ α : Type) where
  | ready (a : α)
  | panicked (text : String)
  | pending (wake : σ → Bool) (cleanup : σ → σ) (next : Fiber σ α)

/-- Runs up to the next suspension point. -/
def poll : Fiber σ α → σ → Polled σ α × σ
  | done a, s => (.ready a, s)
  | panic text, s => (.panicked text, s)
  | read next, s => (next s).poll s
  | update f next, s => next.poll (f s)
  | block wake cleanup next, s => (.pending wake cleanup next, s)

end Fiber

/-- A fiber between polls: not yet polled, or at a suspension point. -/
structure Paused (σ α : Type) where
  wake : σ → Bool
  cleanup : σ → σ
  next : Fiber σ α

namespace Paused

variable {σ α : Type}

/-- Before its first poll a fiber holds nothing. -/
def start (m : Fiber σ α) : Paused σ α := ⟨fun _ => true, id, m⟩

/-- The outcome of polling: finished, unwound, or still to be polled. -/
inductive Outcome (σ α : Type) where
  | ready (a : α)
  | panicked (text : String)
  | pending (p : Paused σ α)

def poll (p : Paused σ α) (s : σ) : Outcome σ α × σ :=
  if p.wake s then
    match p.next.poll s with
    | (.ready a, s) => (.ready a, s)
    | (.panicked text, s) => (.panicked text, s)
    | (.pending wake cleanup next, s) => (.pending ⟨wake, cleanup, next⟩, s)
  else (.pending p, s)

/-- At most `n` polls. -/
def pollTimes : Nat → Paused σ α → σ → Outcome σ α × σ
  | 0, p, s => (.pending p, s)
  | n + 1, p, s =>
    match p.poll s with
    | (.pending p, s) => pollTimes n p s
    | finished => finished

def drop (p : Paused σ α) (s : σ) : σ := p.cleanup s

end Paused

end ClientRuntime
