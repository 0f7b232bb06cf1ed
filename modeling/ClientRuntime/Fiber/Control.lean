import ClientRuntime.Fiber.Basic

/-!
Ways to run one fiber inside another: holding something that must be let go however the fiber
ends, giving up at a signal, and going round until there is an answer.
-/

namespace ClientRuntime.Fiber

variable {σ α : Type}

/-- Holds something while `m` runs: dropping `m` does `onDrop` and unwinding does `onPanic`, after
whatever is held inside `m` was let go. A fiber that finishes lets go by itself. -/
def guarded (onDrop onPanic : σ → σ) : Fiber σ α → Fiber σ α
  | done a => done a
  | panic text => update onPanic (panic text)
  | read next => read fun s => (next s).guarded onDrop onPanic
  | update f next => update f (next.guarded onDrop onPanic)
  | block wake cleanup next =>
    block wake (fun s => onDrop (cleanup s)) (next.guarded onDrop onPanic)

/-- `m` with the signal checked at the start of every later poll. When it has fired, `m` is dropped
where it stands and `instead` runs. -/
def giveUpLater (fired : σ → Bool) (instead : Fiber σ α) : Fiber σ α → Fiber σ α
  | done a => done a
  | panic text => panic text
  | read next => read fun s => giveUpLater fired instead (next s)
  | update f next => update f (giveUpLater fired instead next)
  | block wake cleanup next =>
    block (fun s => fired s || wake s) cleanup <|
      read fun s =>
        if fired s then update cleanup instead else giveUpLater fired instead next

/-- `m` with the signal checked at the start of every poll, the first included: then `m` never
starts. -/
def giveUpWhen (fired : σ → Bool) (instead : Fiber σ α) (m : Fiber σ α) : Fiber σ α :=
  read fun s => if fired s then instead else giveUpLater fired instead m

/-- The answer of a round, or what goes on without one. -/
def answerOr (rest : Unit → Fiber σ α) : Option α → Fiber σ α
  | some a => return a
  | none => rest ()

/-- Goes round until a round comes to an answer. Only so many rounds are followed; without an answer
the fiber is left where the next one would begin, as if nobody polled it any more. -/
def rounds (round : Fiber σ (Option α)) : Nat → Fiber σ α
  | 0 => hang
  | n + 1 => round >>= answerOr fun _ => rounds round n

end ClientRuntime.Fiber
