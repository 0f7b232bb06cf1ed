import ClientRuntime.Proofs.Operation.Observed

/-!
Counting along the course of a retry loop. Its attempts have consecutive numbers from one, the last
of which is the count that the outcome gives, and what happens once within each attempt happens as
often as attempts are started.
-/

namespace ClientRuntime

variable {η ρ ε γ : Type}

namespace RetryCall

def number? : RetryCall ρ ε γ → Option Nat
  | .started n => some n
  | _ => none

/-- The numbers of the attempts that are started, in order. -/
def numbers (calls : List (RetryCall ρ ε γ)) : List Nat := calls.filterMap number?

def isWithin (p : γ → Bool) : RetryCall ρ ε γ → Bool
  | .within c => p c
  | _ => false

/-- How many calls of a kind are made within the operation. -/
def tally (p : γ → Bool) (calls : List (RetryCall ρ ε γ)) : Nat := calls.countP (isWithin p)

variable {p : γ → Bool} {calls calls' : List (RetryCall ρ ε γ)} {inner : List γ}

@[simp] theorem numbers_append : numbers (calls ++ calls') = numbers calls ++ numbers calls' :=
  List.filterMap_append

@[simp] theorem tally_append : tally p (calls ++ calls') = tally p calls + tally p calls' :=
  List.countP_append

@[simp] theorem numbers_within : numbers (inner.map (.within : γ → RetryCall ρ ε γ)) = [] :=
  List.filterMap_eq_nil_iff.mpr (by simp [number?])

@[simp] theorem tally_within :
    tally p (inner.map (.within : γ → RetryCall ρ ε γ)) = inner.countP p := List.countP_map

theorem filter_within :
    (inner.map (.within : γ → RetryCall ρ ε γ)).filter (isWithin p) =
      (inner.filter p).map .within := List.filter_map

@[simp] theorem numbers_cons_started (n : Nat) :
    numbers (.started n :: calls) = n :: numbers calls := rfl

theorem numbers_cons {c : RetryCall ρ ε γ} (h : c.number? = none) :
    numbers (c :: calls) = numbers calls := List.filterMap_cons_none h

theorem tally_cons {c : RetryCall ρ ε γ} (h : c.isWithin p = false) :
    tally p (c :: calls) = tally p calls := List.countP_cons_of_neg (by simp [h])

@[simp] theorem numbers_turn (n cost : Nat) (r : Except ε ρ) (d : RetryDirective) :
    numbers (turn n cost inner r d) = [n] := by
  rw [turn, List.cons_append, numbers_cons_started, numbers_append, numbers_within]
  rfl

@[simp] theorem tally_turn (n cost : Nat) (r : Except ε ρ) (d : RetryDirective) :
    tally p (turn n cost inner r d) = inner.countP p := by
  rw [turn, List.cons_append, tally_cons rfl, tally_append, tally_within]
  rfl

/-- What is asked after a pause counts for nothing. -/
theorem numbers_asked (n : Nat) (t : Duration) (cause : Option RetryCause)
    {answer : RetryCall ρ ε γ} (h : answer.number? = none) :
    numbers (pause n t ++ .acquire (n + 1) cause :: answer :: calls) = numbers calls := by
  rw [numbers_append, numbers_cons rfl, numbers_cons h]
  rfl

theorem tally_asked (n : Nat) (t : Duration) (cause : Option RetryCause)
    {answer : RetryCall ρ ε γ} (h : answer.isWithin p = false) :
    tally p (pause n t ++ .acquire (n + 1) cause :: answer :: calls) = tally p calls := by
  rw [tally_append, tally_cons rfl, tally_cons h]
  exact Nat.zero_add _

end RetryCall

open RetryCall

variable [OperationError ε]

@[simp] theorem Outcome.attempts_verdict (n : Nat) (r : Except ε ρ) (d : RetryDirective) :
    (verdict n r d).attempts = n := by
  cases r <;> cases d <;> rfl

@[simp] theorem Outcome.attempts_denial (n : Nat) (r : Except ε ρ) (e : RetryError) :
    (denial n r e).attempts = n := by
  cases r <;> rfl

section Course

variable {limit n cost : Nat} {body : AttemptBody ρ ε γ} {calls : List (RetryCall ρ ε γ)}
  {o : Option (Outcome ρ ε)} {out : Outcome ρ ε}

namespace Course

/-- The attempts from the first one on are those up to the one that the outcome counts. -/
theorem attempts_eq (h : Course limit body n cost calls o) (hn : n ≤ limit) (ho : o = some out) :
    n ≤ out.attempts ∧ out.attempts ≤ limit ∧
      numbers calls = List.range' n (out.attempts + 1 - n) := by
  induction h with
  | interrupted | asleep | waiting => cases ho
  | @concluded n =>
    cases ho
    simp [hn]
  | @refused n =>
    cases ho
    rw [List.append_assoc, numbers_append, numbers_turn, numbers_asked _ _ _ rfl]
    simp [hn, numbers]
  | @again n _ _ _ _ _ _ calls _ _ hlt _ ih =>
    obtain ⟨hle, hlimit, hnumbers⟩ := ih hlt ho
    have hcount : out.attempts + 1 - n = out.attempts + 1 - (n + 1) + 1 := by omega
    refine ⟨Nat.le_of_succ_le hle, hlimit, ?_⟩
    rw [List.append_assoc, numbers_append, numbers_turn, numbers_asked _ _ _ rfl, hnumbers, hcount,
      List.range'_succ]
    rfl

/-- What happens `m` times within each attempt happens `m` times as often as attempts start. -/
theorem tally_eq {p : γ → Bool} {m : Nat} (h : Course limit body n cost calls o) (ho : o.isSome)
    (hbody : ∀ n r inner, body n (some r) inner → inner.countP p = m) :
    tally p calls = m * (numbers calls).length := by
  induction h with
  | interrupted | asleep | waiting => cases ho
  | concluded hin => simp [hbody _ _ _ hin]
  | refused hin =>
    rw [List.append_assoc, numbers_append, numbers_turn, numbers_asked _ _ _ rfl, tally_append,
      tally_turn, tally_asked _ _ _ rfl, hbody _ _ _ hin]
    exact (Nat.mul_one m).symm
  | again hin _ _ ih =>
    rw [List.append_assoc, numbers_append, numbers_turn, numbers_asked _ _ _ rfl, tally_append,
      tally_turn, tally_asked _ _ _ rfl, hbody _ _ _ hin, ih ho, List.length_append,
      Nat.mul_add]
    exact congrArg (· + _) (Nat.mul_one m).symm

/-- Once an attempt has started, only later tokens are refused. -/
theorem refused_later {m : Nat} {e : RetryError} (h : Course limit body n cost calls o)
    (hm : .refused m e ∈ calls) : n < m := by
  induction h with
  | interrupted | concluded | asleep | waiting => simp [turn, pause] at hm
  | refused => simp_all [turn, pause]
  | again _ _ _ ih =>
    have hrest := ih (by simpa [turn, pause] using hm)
    omega

end Course

namespace RetryCourse

variable (h : RetryCourse limit body calls o)

include h

theorem attempts_eq (hlimit : 0 < limit) (ho : o = some out) :
    out.attempts ≤ limit ∧ numbers calls = List.range' 1 out.attempts := by
  cases h with
  | waiting => cases ho
  | refused =>
    cases ho
    exact ⟨Nat.zero_le _, rfl⟩
  | granted hrest => exact (hrest.attempts_eq hlimit ho).2

theorem tally_eq {p : γ → Bool} {m : Nat} (ho : o.isSome)
    (hbody : ∀ n r inner, body n (some r) inner → inner.countP p = m) :
    tally p calls = m * (numbers calls).length := by
  cases h with
  | waiting => cases ho
  | refused => rfl
  | granted hrest => exact hrest.tally_eq ho hbody

/-- The first token is refused only if there is no attempt. -/
theorem refused_first {e : RetryError} (he : .refused 1 e ∈ calls) (ho : o = some out) :
    out.attempts = 0 := by
  cases h with
  | waiting => cases ho
  | refused =>
    cases ho
    rfl
  | granted hrest =>
    have hlt := hrest.refused_later (m := 1) (e := e) (by simpa using he)
    exact (Nat.lt_irrefl 1 hlt).elim

end RetryCourse

end Course

namespace Retrying

variable {body : AttemptBody ρ ε γ} {calls : List (RetryCall ρ ε γ)} {out : Outcome ρ ε}

/-- How many attempts are made at most. The first is made whatever the strategy says. -/
def limit : Retrying η → Nat
  | standard s => max s.maxAttempts 1
  | single => 1

theorem limit_eq {ν : Type} {retrying : Retrying η}
    (h : 0 < (retrying.strategy : RetryStrategy η ρ ε ν).maxAttempts) :
    retrying.limit = (retrying.strategy : RetryStrategy η ρ ε ν).maxAttempts := by
  cases retrying with
  | standard s => exact Nat.max_eq_left h
  | single => rfl

namespace Course

variable {retrying : Retrying η} (h : retrying.Course body calls out)

include h

theorem attempts_eq :
    out.attempts ≤ retrying.limit ∧ numbers calls = List.range' 1 out.attempts := by
  cases h with
  | @standard s _ _ hcourse =>
    have hpos : 0 < max s.maxAttempts 1 := Nat.lt_of_lt_of_le Nat.one_pos (Nat.le_max_right _ _)
    exact hcourse.attempts_eq hpos rfl
  | single => simp [limit, numbers, number?]

theorem tally_eq {p : γ → Bool} {m : Nat}
    (hbody : ∀ n r inner, body n (some r) inner → inner.countP p = m) :
    tally p calls = m * (numbers calls).length := by
  cases h with
  | standard hcourse => exact hcourse.tally_eq rfl hbody
  | single hin =>
    rw [List.cons_append, tally_cons rfl, numbers_cons_started, tally_append, tally_within,
      numbers_append, numbers_within, hbody _ _ _ hin]
    exact (Nat.mul_one m).symm

theorem refused_first {e : RetryError} (he : .refused 1 e ∈ calls) : out.attempts = 0 := by
  cases h with
  | standard hcourse => exact hcourse.refused_first he rfl
  | single => simp at he

end Course

end Retrying

namespace StrategyBuilder

/-- What the setters make of the empty builder. -/
inductive Reachable : StrategyBuilder η → Prop where
  | empty : Reachable .empty
  | withMaxAttempts {b} (n : Nat) : Reachable b → Reachable (b.withMaxAttempts n)
  | withBucket {b} (bucket : TokenBucket η) : Reachable b → Reachable (b.withBucket bucket)
  | configureBucket {b b'} {f : BucketBuilder η → BucketBuilder η} :
      Reachable b → b.configureBucket f = .ok b' → Reachable b'
  | withDelays {b} (delays : DelayProvider (World η)) :
      Reachable b → Reachable (b.withDelays delays)
  | configureDelays {b b'} {f : BackoffBuilder → BackoffBuilder} :
      Reachable b → b.configureDelays f = .ok b' → Reachable b'
  | withClock {b} (clock : Clock (World η)) : Reachable b → Reachable (b.withClock clock)

variable {b : StrategyBuilder η}

theorem eq_of_map_eq_ok {α β ε : Type} {f : α → β} {made : Except ε α} {b : β}
    (h : made.map f = .ok b) : ∃ a, b = f a := by
  cases made with
  | error e => cases h
  | ok a => exact ⟨a, (Except.ok.inj h).symm⟩

theorem Reachable.maxAttempts_pos (h : b.Reachable) : 0 < b.maxAttempts := by
  induction h with
  | empty => exact Nat.succ_pos 2
  | withMaxAttempts => exact Nat.le_max_right _ 1
  | withBucket _ _ ih | withDelays _ _ ih | withClock _ _ ih => exact ih
  | configureBucket _ hconfigured ih =>
    obtain ⟨bucket, rfl⟩ := eq_of_map_eq_ok hconfigured
    exact ih
  | configureDelays _ hconfigured ih =>
    obtain ⟨delays, rfl⟩ := eq_of_map_eq_ok hconfigured
    exact ih

/-- A strategy that is built makes at least one attempt, -/
theorem Reachable.build_maxAttempts_pos (h : b.Reachable) (own : StrategyParts η) (w : World η) :
    0 < (b.build own w).1.maxAttempts := h.maxAttempts_pos

end StrategyBuilder

/-- and so does one that is configured. -/
theorem StandardStrategy.ofConfig_maxAttempts_pos (c : RetryConfig Float) (clock : Clock (World η))
    (own : StrategyParts η) (w : World η) : 0 < (ofConfig c clock own w).1.maxAttempts :=
  Nat.le_max_right _ 1

end ClientRuntime
