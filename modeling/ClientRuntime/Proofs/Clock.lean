import ClientRuntime.Proofs.Fiber.Polls
import ClientRuntime.Proofs.Instant
import ClientRuntime.World

/-!
The time that a manual clock shows. Advancing it and sleeping on it move it on alike, and the latest
instant is where it stays. So it shows when it started, moved on by all the time that went by in
total: into which parts the time was split, and in which order they came, cannot be told from it.
-/

namespace ClientRuntime

variable {η : Type}

/-- What moves a manual clock on. -/
inductive ClockMove where
  | advance (d : Duration)
  | sleep (d : Duration)

namespace ClockMove

def span : ClockMove → Duration
  | advance d => d
  | sleep d => d

/-- Nanoseconds that go by in total. -/
def total : List ClockMove → Nat
  | [] => 0
  | move :: moves => move.span.nanos + total moves

def perform : ClockMove → Fiber (World η) Unit
  | advance d => Fiber.modify (·.advance d)
  | sleep d => World.manualClock.sleep d

def performAll (moves : List ClockMove) : Fiber (World η) Unit := forM moves perform

theorem poll_perform (move : ClockMove) (w : World η) :
    ∃ w', move.perform.poll w = (.ready (), w') ∧
      w'.clock.now = w.clock.now.addSaturating move.span := by
  cases move with
  | advance d => exact ⟨w.advance d, rfl, rfl⟩
  | sleep d => exact ⟨{ w with clock := w.clock.sleep d }, rfl, rfl⟩

/-- No move keeps anybody waiting, and of all of them together only the total shows. -/
theorem poll_performAll (moves : List ClockMove) (w : World η) :
    ∃ w', (performAll moves).poll w = (.ready (), w') ∧
      w'.clock.now.nanos = min (w.clock.now.nanos + total moves) latestNanos := by
  induction moves generalizing w with
  | nil =>
    have hlate := w.clock.now.le_latest
    refine ⟨w, rfl, ?_⟩
    rw [total]
    omega
  | cons move moves ih =>
    obtain ⟨w₁, hmove, hnow₁⟩ := move.poll_perform w
    obtain ⟨w₂, hmoves, hnow₂⟩ := ih w₁
    refine ⟨w₂, ?_, ?_⟩
    · rw [performAll, List.forM_cons, Fiber.poll_bind, hmove]
      exact hmoves
    · -- What was cut off before is cut off after all of it.
      rw [hnow₂, hnow₁, Instant.nanos_addSaturating, total]
      omega

end ClockMove

open ClockMove (performAll total)

/-- The instant a span later is at the exact sum of nanoseconds if the calendar goes as far, and the
latest instant if it does not, however long the span; in seconds and nanoseconds, a full second of
nanoseconds is carried over. It is never before the instant itself, and no later for an earlier
instant or a shorter span. After any advances and sleeps, a manual clock shows its start and their
total, saturated in the same way: from the same start, moves with the same total lead to the same
time. -/
theorem time_saturates_exactly :
    (∀ (t : Instant) (d : Duration),
      (t.addSaturating d).nanos = min (t.nanos + d.nanos) latestNanos ∧
      t.addSaturating d =
        (Instant.ofSecs? (t.secs + d.secs +
            ((t.subsecNanos + d.subsecNanos) / nanosPerSecond : Nat))
          ((t.subsecNanos + d.subsecNanos) % nanosPerSecond)).getD .latest ∧
      t ≤ t.addSaturating d) ∧
    (∀ (s t : Instant) (d e : Duration), s ≤ t → d.nanos ≤ e.nanos →
      s.addSaturating d ≤ t.addSaturating e) ∧
    (∀ (w : World η) (moves : List ClockMove), ∃ w',
      (performAll moves).poll w = (.ready (), w') ∧
      w'.clock.now.nanos = min (w.clock.now.nanos + total moves) latestNanos) ∧
    ∀ (v w : World η) (moves moves' : List ClockMove), v.clock.now = w.clock.now →
      total moves = total moves' →
      ((performAll moves).poll v).2.clock.now = ((performAll moves').poll w).2.clock.now := by
  refine ⟨?_, ?_, ?_, ?_⟩
  · intro t d
    exact ⟨t.nanos_addSaturating d, t.addSaturating_eq_ofSecs? d, t.le_addSaturating d⟩
  · intro s t d e hst hde
    exact Instant.addSaturating_mono hst hde
  · intro w moves
    exact ClockMove.poll_performAll moves w
  · intro v w moves moves' hstart htotal
    obtain ⟨v', hv, hvnow⟩ := ClockMove.poll_performAll moves v
    obtain ⟨w', hw, hwnow⟩ := ClockMove.poll_performAll moves' w
    rw [hv, hw]
    apply Instant.ext_nanos
    change v'.clock.now.nanos = w'.clock.now.nanos
    rw [hvnow, hwnow, hstart, htotal]

/-- A second, a half and a nanosecond before the epoch. -/
def beforeEpoch : Instant := ⟨-1500000001, by decide, by decide⟩

/-- Three seconds at once, and then a quarter less a nanosecond. -/
def inTwoParts : List ClockMove := [.sleep (.ofSecs 3), .advance (.ofNanos 249999999)]

/-- The same time in three parts, in another order. -/
def inThreeParts : List ClockMove :=
  [.advance (.ofNanos 249999998), .sleep (.ofSecs 3), .sleep (.ofNanos 1)]

/-- A span too long for any instant, and a short one after it. -/
def beyondCalendar : List ClockMove := [.sleep .longest, .advance (.ofSecs 1)]

theorem time_saturates_exactly_beforeEpoch :
    (beforeEpoch.secs, beforeEpoch.subsecNanos) = (-2, 499999999) ∧
      (beforeEpoch.addSaturating (.ofNanos 2500000001)).nanos = 1000000000 ∧
      beforeEpoch.addSaturating (.ofNanos 2500000001) = (Instant.ofSecs? 1 0).getD .latest ∧
      beforeEpoch.addSaturating .longest ≤ Instant.latest.addSaturating .longest ∧
      ((performAll inTwoParts).poll (World.start beforeEpoch .epoch ())).2.clock.now =
        ((performAll inThreeParts).poll (World.start beforeEpoch .epoch ())).2.clock.now ∧
      ∃ w', (performAll beyondCalendar).poll (World.start beforeEpoch .epoch ()) = (.ready (), w') ∧
        w'.clock.now.nanos = latestNanos := by
  obtain ⟨hsum, hmono, hmoves, hsplit⟩ := time_saturates_exactly (η := Unit)
  obtain ⟨hnanos, hparts, -⟩ := hsum beforeEpoch (.ofNanos 2500000001)
  obtain ⟨w', hready, hnow⟩ := hmoves (World.start beforeEpoch .epoch ()) beyondCalendar
  exact ⟨by decide, hnanos.trans (by decide), hparts.trans (by decide),
    hmono beforeEpoch .latest .longest .longest (by decide) (Nat.le_refl _),
    hsplit _ _ inTwoParts inThreeParts rfl (by decide), w', hready, hnow.trans (by decide)⟩

end ClientRuntime
