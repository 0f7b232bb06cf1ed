import ClientRuntime.Instant

/-!
Time goes on: adding a span to an instant comes to their exact sum, and to the latest instant where
there is no room for it. No instant has room for a span that is longer than the longest difference,
so it makes no difference that such a span is cut short.
-/

namespace ClientRuntime.Instant

variable {s t : Instant} {d e : Duration}

theorem ext_nanos (h : s.nanos = t.nanos) : s = t := by
  cases s
  cases t
  cases h
  rfl

theorem nanos_getD_ofNanos? {n : Int} (h : earliestNanos ≤ n) :
    ((ofNanos? n).getD latest).nanos = min n latestNanos := by
  unfold ofNanos?
  split
  · next hrange => exact (Int.min_eq_left hrange.2).symm
  · next hrange =>
    have hlate : latestNanos ≤ n := by omega
    exact (Int.min_eq_right hlate).symm

/-- The longest difference leads from the earliest instant beyond the latest one. -/
theorem latest_lt_earliest_add : latestNanos < earliestNanos + longestDifference := by decide

/-- The instant a span later is at their exact sum, cut off at the latest instant. -/
theorem nanos_addSaturating (t : Instant) (d : Duration) :
    (t.addSaturating d).nanos = min (t.nanos + d.nanos) latestNanos := by
  have hlow := t.earliest_le
  have hroom := latest_lt_earliest_add
  rw [addSaturating, nanos_getD_ofNanos? (by omega), differenceOf]
  omega

/-- Time goes on by a span if there is room for it. -/
theorem nanos_addSaturating_of_le (h : t.nanos + d.nanos ≤ latestNanos) :
    (t.addSaturating d).nanos = t.nanos + d.nanos := by
  rw [nanos_addSaturating]
  exact Int.min_eq_left h

theorem addSaturating_zero (t : Instant) : t.addSaturating .zero = t := by
  have hlate := t.le_latest
  apply ext_nanos
  rw [nanos_addSaturating]
  change min (t.nanos + 0) latestNanos = t.nanos
  omega

/-- Time goes on, up to the latest instant. -/
theorem le_addSaturating (t : Instant) (d : Duration) : t ≤ t.addSaturating d := by
  have hlate := t.le_latest
  change t.nanos ≤ (t.addSaturating d).nanos
  rw [nanos_addSaturating]
  omega

/-- A later instant and a longer span do not lead to an earlier instant. -/
theorem addSaturating_mono (hst : s ≤ t) (hde : d.nanos ≤ e.nanos) :
    s.addSaturating d ≤ t.addSaturating e := by
  change s.nanos ≤ t.nanos at hst
  change (s.addSaturating d).nanos ≤ (t.addSaturating e).nanos
  rw [nanos_addSaturating, nanos_addSaturating]
  omega

/-- What comes after a span comes after all of it if there is room for it. -/
theorem nanos_add_le_of_addSaturating_le (h : s.addSaturating d ≤ t)
    (hroom : s.nanos + d.nanos ≤ latestNanos) : s.nanos + d.nanos ≤ t.nanos := by
  rw [← nanos_addSaturating_of_le hroom]
  exact h

/-! ### Seconds and nanoseconds -/

theorem secs_subsecNanos (t : Instant) :
    t.secs * nanosPerSecond + t.subsecNanos = t.nanos := by
  have hpos : (0 : Int) ≤ t.nanos.fmod nanosPerSecond := Int.fmod_nonneg_of_pos _ (by decide)
  rw [subsecNanos, Int.toNat_of_nonneg hpos, secs, Int.mul_comm]
  exact Int.mul_fdiv_add_fmod t.nanos nanosPerSecond

/-- Nanoseconds are added apart from seconds, and a whole second of them is carried over. -/
theorem addSaturating_eq_ofSecs? (t : Instant) (d : Duration) :
    t.addSaturating d =
      (ofSecs? (t.secs + d.secs + ((t.subsecNanos + d.subsecNanos) / nanosPerSecond : Nat))
        ((t.subsecNanos + d.subsecNanos) % nanosPerSecond)).getD latest := by
  have hlow := t.earliest_le
  have ht := t.secs_subsecNanos
  have hd : d.secs * nanosPerSecond + d.subsecNanos = d.nanos := Nat.div_add_mod' ..
  have hcarry := Nat.div_add_mod' (t.subsecNanos + d.subsecNanos) nanosPerSecond
  have hsum : (t.secs + d.secs + ((t.subsecNanos + d.subsecNanos) / nanosPerSecond : Nat)) *
      nanosPerSecond + ((t.subsecNanos + d.subsecNanos) % nanosPerSecond : Nat) =
      t.nanos + d.nanos := by
    rw [Int.add_mul, Int.add_mul]
    omega
  apply ext_nanos
  rw [nanos_addSaturating, ofSecs?, hsum, nanos_getD_ofNanos? (by omega)]

end ClientRuntime.Instant
