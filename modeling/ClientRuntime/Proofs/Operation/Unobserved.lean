import ClientRuntime.Proofs.Operation.Observed
import ClientRuntime.Proofs.Retry.Unwatched

/-!
Observation changes nothing. If an observer makes every call as it is, then every execution that
returns can be seen in one under observation, from the same world to the same world and with the
same result.
-/

namespace ClientRuntime

open ClientRuntime.Fiber
open World (unwatched)

variable {κ η ρ ε γ ν : Type} {S : OperationShape} {id : ExecutionId}
  {R : World (Journaled κ η) → World (Journaled κ η) → Prop} {R' : World η → World η → Prop}

/-- The observer makes calls as they are. -/
def Observer.Covering (o : Observer κ η S)
    (R : World (Journaled κ η) → World (Journaled κ η) → Prop) (R' : World η → World η → Prop) :
    Prop :=
  ∀ {α : Type} (party : Party) (shown : Option S.Result) (error : α → Option S.Error)
    (m : Fiber (World η) α), (o.watch party shown error m).Covers unwatched R R' (fun a => a) m

/-- A strategy under watch does what another does by itself. -/
def RetryStrategy.Covering
    (R : World (Journaled (RetryCall ρ ε γ) η) → World (Journaled (RetryCall ρ ε γ) η) → Prop)
    (R' : World η → World η → Prop) (strategy : RetryStrategy (Journaled (RetryCall ρ ε γ) η) ρ ε ν)
    (strategy' : RetryStrategy η ρ ε ν) : Prop :=
  ∀ (judge : Judge (World η) ρ ε) (span : SpanId) attempt attempt',
    (∀ n, (attempt n).Covers unwatched R R' (fun a => a) (attempt' n)) →
      (strategy.retry judge.watched span attempt).Covers unwatched R R' (fun a => a)
        (strategy'.retry judge span attempt')

theorem Retrying.watched_covering [OperationError ε]
    {R : World (Journaled (RetryCall ρ ε γ) η) → World (Journaled (RetryCall ρ ε γ) η) → Prop}
    (hR : ∀ w v, R' (unwatched.get w) v → R w (unwatched.set v w)) (retrying : Retrying η) :
    (retrying.watched : RetryStrategy _ ρ ε ν).Covering R R' retrying.strategy := by
  intro judge span attempt attempt' ha
  cases retrying with
  | standard s => exact StandardStrategy.retry_covers hR s judge span ha
  | single => exact RetryStrategy.retryOnce_covers judge span ha

/-- Whoever covers the parts of an operation covers the operation. -/
theorem covers_likeness : FullLikeness id fun _ (m : Fiber (World (Journaled κ η)) _) m' =>
    m.Covers unwatched R R' (fun a => a) m' where
  pure a := .pure a
  bind h hk := h.bind hk
  suppress stage error := .modify fun w => World.get_suppress w id stage error
  span := .gets fun _ => rfl
  beginAttempt _ := .modify fun _ => rfl
  createChild _ := .modifyGet (fun _ => rfl) fun w => World.get_createChild w _ _
  spanClosing _ _ h := h.spanClosing
  emit _ _ _ := .modify fun _ => rfl

/-- Every execution that returns can be seen under observation. -/
theorem OperationExecution.execute_covers {op : OperationExecution η S}
    {R : World (Journaled (RetryCall S.Output S.Error γ) η) →
      World (Journaled (RetryCall S.Output S.Error γ) η) → Prop}
    {o : Observer (RetryCall S.Output S.Error γ) η S}
    {strategy : RetryStrategy (Journaled (RetryCall S.Output S.Error γ) η) S.Output S.Error
      (Exchange S)}
    (ho : o.Covering R R') (hstrategy : strategy.Covering R R' op.strategy) (input : S.Input) :
    ((op.observed o strategy).execute id input).Covers unwatched R R' (fun a => a)
      (op.execute id input) := by
  have hlike := (Like.refl id op).observed (o := o)
    (Q := fun _ m m' => m.Covers unwatched R R' (fun a => a) m')
    (fun party shown error m m' hm => hm ▸ ho party shown error m) strategy
  exact hlike.execute covers_likeness input (hstrategy op.judge)

end ClientRuntime
