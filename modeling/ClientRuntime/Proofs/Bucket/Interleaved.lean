import ClientRuntime.Proofs.Bucket.Rounds
import ClientRuntime.Proofs.Fiber.Steps

/-!
Callers of a bucket, step by step. Any number of them share it, and anybody may come in between any
two steps of a caller: between its look for returns and its try, between its try and its wait, and
between the adding of units and the counting of the return.
-/

namespace ClientRuntime

namespace StandardBucket

/-- How far a caller has come, with what is left of what it does. -/
inductive Stage (η : Type) where
  /-- Asks for a token. -/
  | calling (n : Nat) (cause : Option RetryCause)
      (m : Fiber (World η) (Except RetryError (RetryToken η)))
  | holding (t : RetryToken η)
  /-- Gives back what a success is worth. -/
  | returning (m : Fiber (World η) Unit)
  | gone

/-- Any number of callers and the world that they share. -/
structure Scene (η : Type) where
  world : World η
  stages : List (Stage η)

/-- What happens next. Callers are named by their places. -/
inductive Turn (η : Type) where
  | step (i : Nat)
  /-- Drops a call where it is suspended, or a token. -/
  | drop (i : Nat)
  | release (i : Nat) (outcome : TokenOutcome)
  | others (f : World η → World η)

namespace Stage

variable {η : Type}

/-- The next step of a caller; who waits in vain stays where it is. -/
def advance : Stage η → World η → Stage η × World η
  | calling n cause m, w =>
    match m.advance w with
    | (.done (.ok t), w) => (holding t, w)
    | (.done (.error _), w) => (gone, w)
    | (.panic _, w) => (gone, w)
    | (m, w) => (calling n cause m, w)
  | returning m, w =>
    match m.advance w with
    | (.done (), w) => (gone, w)
    | (m, w) => (returning m, w)
  | g, w => (g, w)

def drop : Stage η → World η → Stage η × World η
  | calling _ _ (.block _ cleanup _), w => (gone, cleanup w)
  | holding t, w => (gone, t.drop w)
  | g, w => (g, w)

end Stage

namespace Scene

variable {η : Type}

/-- One caller does something, and its stage changes with the world. -/
def change (s : Scene η) (i : Nat) (f : Stage η → World η → Stage η × World η) : Scene η :=
  match s.stages[i]? with
  | some g => ⟨(f g s.world).2, s.stages.set i (f g s.world).1⟩
  | none => s

end Scene

variable {η α : Type} [Scalar α] (b : StandardBucket η α)

/-- Whoever holds a token releases it; after a success others may come in between the steps. -/
def release (outcome : TokenOutcome) : Stage η → World η → Stage η × World η
  | .holding t, w =>
    if outcome = .success then (.returning (b.giving t.cost), w) else (.gone, t.release outcome w)
  | g, w => (g, w)

def turn (s : Scene η) : Turn η → Scene η
  | .step i => s.change i Stage.advance
  | .drop i => s.change i Stage.drop
  | .release i outcome => s.change i (b.release outcome)
  | .others f => { s with world := f s.world }

def play (turns : List (Turn η)) (s : Scene η) : Scene η := turns.foldl b.turn s

/-- Who has not been polled yet, and holders of the bucket's tokens. -/
inductive Fresh : Stage η → Prop where
  | calling (n : Nat) (cause : Option RetryCause) : Fresh (.calling n cause (b.acquire n cause))
  | holding (t : RetryToken η) (ht : t.ledger = some b.ledger) : Fresh (.holding t)

/-- What is left of a call behind one of its rounds, if `k` more are followed. -/
def goOn (n cost k : Nat) : Option (Except RetryError (RetryToken η)) →
    Fiber (World η) (Except RetryError (RetryToken η)) :=
  Fiber.answerOr fun _ => (b.round n cost).rounds k

/-- What is left of a call that has looked for returns. -/
def trying (n cost seen k : Nat) : Fiber (World η) (Except RetryError (RetryToken η)) :=
  (Fiber.modifyGet (b.take cost) >>= b.settle n cost seen) >>= b.goOn n cost k

/-- What is left of a call that is suspended until there is another return. -/
def suspended (n cost seen k : Nat) : Fiber (World η) (Except RetryError (RetryToken η)) :=
  .block (b.returnsSince seen) id ((b.round n cost).rounds k)

/-- What is left of a refused call that is about to wait. -/
def waiting (n cost seen k : Nat) : Fiber (World η) (Except RetryError (RetryToken η)) :=
  .read fun w =>
    if b.returnsSince seen w then (b.round n cost).rounds k else b.suspended n cost seen k

/-- What is left of a call that was refused. -/
def refused (n cost seen : Nat) (missing : Shortfall) (k : Nat) :
    Fiber (World η) (Except RetryError (RetryToken η)) :=
  .update (noteWait n cost missing) (b.waiting n cost seen k)

variable {b} {w : World η} {n cost seen k : Nat} {cause : Option RetryCause}

theorem advance_trying (n cost seen k : Nat) (w : World η) :
    (b.trying n cost seen k).advance w =
      (b.settle n cost seen (b.take cost w).1 >>= b.goOn n cost k, (b.take cost w).2) := rfl

/-- In a bucket that waits, who is refused writes that to the log and waits for a return. -/
theorem settle_missing (hwaits : b.config.circuitBreaker = false) {missing : Shortfall}
    (hlongest : missing.wait = .longest) (n cost seen k : Nat) :
    b.settle n cost seen (.error missing) >>= b.goOn n cost k =
      b.refused n cost seen missing k := by
  have hwait : b.wait seen missing.wait = Fiber.waitUntil (b.returnsSince seen) := if_pos hlongest
  unfold settle
  simp only [hwaits, Bool.false_eq_true, if_false, hwait]
  apply congrArg (Fiber.update (noteWait n cost missing))
  apply congrArg Fiber.read
  funext w
  by_cases h : b.returnsSince seen w = true
  · simp only [h, if_true]
    rfl
  · simp only [h, Bool.false_eq_true, if_false]
    rfl

namespace Stage

theorem advance_exceeding (h : b.config.capacity < b.config.costFor n cause) (w : World η) :
    (calling n cause (b.acquire n cause)).advance w = (gone, (b.available w).2) := by
  unfold acquire
  simp only [h, if_true]
  rfl

theorem advance_arriving (n : Nat) (cause : Option RetryCause) (cost k : Nat) (w : World η) :
    (calling n cause ((b.round n cost).rounds (k + 1))).advance w =
      (calling n cause (b.trying n cost (b.account.get w).returns k), w) := rfl

theorem advance_granted (h : (b.take cost w).1 = .ok ()) (n : Nat) (cause : Option RetryCause)
    (seen k : Nat) :
    (calling n cause (b.trying n cost seen k)).advance w =
      (holding ⟨n, cost, some b.ledger⟩, (b.take cost w).2) := by
  simp only [advance, advance_trying, h]
  rfl

theorem advance_missed (hwaits : b.config.circuitBreaker = false) {missing : Shortfall}
    (h : (b.take cost w).1 = .error missing) (hlongest : missing.wait = .longest) (n : Nat)
    (cause : Option RetryCause) (seen k : Nat) :
    (calling n cause (b.trying n cost seen k)).advance w =
      (calling n cause (b.refused n cost seen missing k), (b.take cost w).2) := by
  simp only [advance, advance_trying, h, settle_missing hwaits hlongest]
  rfl

theorem advance_refused (n : Nat) (cause : Option RetryCause) (cost seen : Nat)
    (missing : Shortfall) (k : Nat) (w : World η) :
    (calling n cause (b.refused n cost seen missing k)).advance w =
      (calling n cause (b.waiting n cost seen k), noteWait n cost missing w) := rfl

/-- Before it suspends, a refused call looks once more whether it still has to. -/
theorem advance_waiting (n : Nat) (cause : Option RetryCause) (cost seen k : Nat) (w : World η) :
    (calling n cause (b.waiting n cost seen (k + 1))).advance w =
      (calling n cause (if b.returnsSince seen w then (b.round n cost).rounds (k + 1)
        else b.suspended n cost seen (k + 1)), w) := by
  unfold advance waiting Fiber.advance
  by_cases h : b.returnsSince seen w = true
  · simp only [h, if_true]
    rfl
  · simp only [h, Bool.false_eq_true, if_false]
    rfl

theorem advance_suspended (n : Nat) (cause : Option RetryCause) (cost seen k : Nat)
    (w : World η) :
    (calling n cause (b.suspended n cost seen (k + 1))).advance w =
      (calling n cause (if b.returnsSince seen w then (b.round n cost).rounds (k + 1)
        else b.suspended n cost seen (k + 1)), w) := by
  unfold advance suspended Fiber.advance
  by_cases h : b.returnsSince seen w = true
  · simp only [h, if_true]
    rfl
  · simp only [h, Bool.false_eq_true, if_false]

theorem advance_giving (cost : Nat) (w : World η) :
    (returning (b.giving cost)).advance w =
      (returning b.notifying, b.account.modify (·.credit b.config cost) w) := rfl

omit [Scalar α] in
theorem advance_notifying (w : World η) :
    (returning b.notifying).advance w = (gone, b.account.modify (·.notify) w) := rfl

/-- A call for too much is over with its first step, and never suspended. -/
theorem drop_exceeding (h : b.config.capacity < b.config.costFor n cause) (w : World η) :
    (calling n cause (b.acquire n cause)).drop w = (calling n cause (b.acquire n cause), w) := by
  unfold acquire
  simp only [h, if_true]
  rfl

end Stage

end StandardBucket

end ClientRuntime
