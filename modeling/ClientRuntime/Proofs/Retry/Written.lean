import Mathlib
import ClientRuntime.Retry.Config.Json
import ClientRuntime.Proofs.Duration.Seconds
import ClientRuntime.Proofs.Json.Records

/-!
Settings that are written and read again. Numbers come back as they are; a span of time comes back
with the same seconds, so what is read is written in the same way again. What cannot be read are
spans whose seconds are rounded up to `2 ^ 64`, and the longest span is one of them.
-/

namespace ClientRuntime

open Json

theorem answers_natural {n : Nat} (hn : n < 2 ^ 32) :
    Answers readNatural (writeNatural n) (.ok n) := by
  have hword : Json.word32? (writeNatural n) = some n := by
    change (some n).filter (fun n => decide (n < 1 <<< 32)) = some n
    exact Option.filter_eq_some_iff.mpr ⟨rfl, decide_eq_true hn⟩
  have hread := answers_number Json.word32? (.natural n)
  change Answers readNatural (writeNatural n) ((Json.word32? (writeNatural n)).elim _ _) at hread
  rwa [hword] at hread

theorem writeFloat_of_finite {x : Float} (hx : x.isFinite = true) :
    writeFloat x = .number (.float x) := if_pos hx

theorem answers_float {x : Float} (hx : x.isFinite = true) :
    Answers readFloat (writeFloat x) (.ok x) := by
  rw [writeFloat_of_finite hx]
  exact answers_number Json.float? (.float x)

/-- Seconds are read as far as they are those of a span. -/
theorem answers_seconds (d : Duration) :
    Answers readSeconds (writeSeconds d)
      ((Duration.ofSeconds? (d.toSeconds : Float)).elim (.error .mismatch) .ok) := by
  obtain ⟨w, f, v, hrounds⟩ := d.exists_rounds
  unfold writeSeconds
  rw [writeFloat_of_finite hrounds.total.isFinite]
  exact answers_number _ (.float d.toSeconds)

namespace BucketConfig

/-- Numbers of 32 bits. -/
structure Words (c : BucketConfig) : Prop where
  capacity : c.capacity < 2 ^ 32
  initialTryCost : c.initialTryCost < 2 ^ 32
  retryCost : c.retryCost < 2 ^ 32
  timeoutRetryCost : c.timeoutRetryCost < 2 ^ 32
  successIncrement : c.successIncrement < 2 ^ 32
  refillRate : c.refillRate < 2 ^ 32

theorem read_write {c : BucketConfig} (hc : c.Words) : Answers read c.write (.ok c) :=
  Answered.answers <|
    .read rfl rfl ((answers_natural hc.capacity).part _ _) <|
    .read rfl rfl ((answers_natural hc.initialTryCost).part _ _) <|
    .read rfl rfl ((answers_natural hc.retryCost).part _ _) <|
    .read rfl rfl ((answers_natural hc.timeoutRetryCost).part _ _) <|
    .read rfl rfl ((answers_natural hc.successIncrement).part _ _) <|
    .read rfl rfl ((answers_natural hc.refillRate).part _ _) <|
    .read rfl rfl ((answers_flag Json.flag? c.circuitBreaker).part _ _) .nil

end BucketConfig

namespace BackoffConfig

variable {c : BackoffConfig Float} {d e : Duration}

/-- Settings whose numbers are finite. -/
structure Finite (c : BackoffConfig Float) : Prop where
  scaleFactor : c.scaleFactor.isFinite = true
  jitter : c.jitter.isFinite = true

/-- Neither span has seconds that are rounded up to `2 ^ 64`. -/
structure Readable (c : BackoffConfig Float) : Prop where
  initialDelay : c.initialDelay.secs < 2 ^ 64 - 1024
  maxBackoff : c.maxBackoff.secs < 2 ^ 64 - 1024

theorem read_write (hc : c.Finite)
    (hd : Duration.ofSeconds? (c.initialDelay.toSeconds : Float) = some d)
    (he : Duration.ofSeconds? (c.maxBackoff.toSeconds : Float) = some e) :
    Answers read c.write (.ok { c with initialDelay := d, maxBackoff := e }) := by
  have hinitial := answers_seconds c.initialDelay
  have hmax := answers_seconds c.maxBackoff
  rw [hd] at hinitial
  rw [he] at hmax
  exact Answered.answers <|
    .read rfl rfl (hinitial.part _ _) <|
    .read rfl rfl ((answers_float hc.scaleFactor).part _ _) <|
    .read rfl rfl (hmax.part _ _) <|
    .read rfl rfl ((answers_float hc.jitter).part _ _) .nil

/-- The first span that cannot be read is the fault of the whole. -/
theorem read_write_refused (hc : c.Finite)
    (h : Duration.ofSeconds? (c.initialDelay.toSeconds : Float) = none ∨
      Duration.ofSeconds? (c.maxBackoff.toSeconds : Float) = none) :
    Answers read c.write (.error .mismatch) := by
  have hinitial := answers_seconds c.initialDelay
  have hmax := answers_seconds c.maxBackoff
  cases hd : Duration.ofSeconds? (c.initialDelay.toSeconds : Float) with
  | none =>
    rw [hd] at hinitial
    exact Answered.answers (.refused rfl rfl (hinitial.part _ _))
  | some d =>
    rw [hd] at hinitial h
    rw [h.resolve_left (Option.some_ne_none d)] at hmax
    exact Answered.answers <|
      .read rfl rfl (hinitial.part _ _) <|
      .read rfl rfl ((answers_float hc.scaleFactor).part _ _) <|
      .refused rfl rfl (hmax.part _ _)

/-- Spans with the same seconds are written in the same way. -/
theorem write_eq (hd : (d.toSeconds : Float) = c.initialDelay.toSeconds)
    (he : (e.toSeconds : Float) = c.maxBackoff.toSeconds) :
    write { c with initialDelay := d, maxBackoff := e } = c.write := by
  unfold write writeSeconds
  rw [hd, he]

/-- What can be read is written again as it was. -/
theorem read_write_again (hc : c.Finite) (hread : c.Readable) :
    ∃ c' : BackoffConfig Float, Answers read c.write (.ok c') ∧ c'.write = c.write := by
  obtain ⟨d, hd, hdsame⟩ := Duration.ofSeconds?_toSeconds hread.initialDelay
  obtain ⟨e, he, hesame⟩ := Duration.ofSeconds?_toSeconds hread.maxBackoff
  exact ⟨_, read_write hc hd he, write_eq hdsame hesame⟩

theorem read_write_unreadable (hc : c.Finite) (hread : ¬c.Readable) :
    Answers read c.write (.error .mismatch) := by
  apply read_write_refused hc
  by_contra! hboth
  refine hread ⟨?_, ?_⟩
  · by_contra hlarge
    exact hboth.1 (Duration.ofSeconds?_toSeconds_eq_none (not_lt.mp hlarge))
  · by_contra hlarge
    exact hboth.2 (Duration.ofSeconds?_toSeconds_eq_none (not_lt.mp hlarge))

end BackoffConfig

namespace RetryConfig

variable {c : RetryConfig Float}

/-- Settings that are numbers of 32 bits, or finite ones. -/
structure Writable (c : RetryConfig Float) : Prop where
  maxAttempts : c.maxAttempts < 2 ^ 32
  backoff : c.backoff.Finite
  bucket : c.bucket.Words

theorem read_write (hc : c.Writable) {b : BackoffConfig Float}
    (hb : Answers BackoffConfig.read c.backoff.write (.ok b)) :
    Answers read c.write (.ok { c with backoff := b }) :=
  Answered.answers <|
    .read rfl rfl ((answers_natural hc.maxAttempts).part _ _) <|
    .read rfl rfl (hb.part _ _) <|
    .read rfl rfl ((BucketConfig.read_write hc.bucket).part _ _) .nil

theorem read_write_refused (hc : c.Writable)
    (hb : Answers BackoffConfig.read c.backoff.write (.error .mismatch)) :
    Answers read c.write (.error .mismatch) :=
  Answered.answers <|
    .read rfl rfl ((answers_natural hc.maxAttempts).part _ _) <|
    .refused rfl rfl (hb.part _ _)

/-- Settings that are written are read back, and what is read is written as before, unless the
seconds of a span are rounded up to `2 ^ 64`: those are refused. -/
theorem reads_back (hc : c.Writable) :
    BucketConfig.read.ofValue c.bucket.write = .ok c.bucket ∧
      (c.backoff.Readable →
        (∃ b : BackoffConfig Float,
          BackoffConfig.read.ofValue c.backoff.write = .ok b ∧ b.write = c.backoff.write) ∧
        ∃ c' : RetryConfig Float, RetryConfig.read.ofValue c.write = .ok c' ∧ c'.write = c.write) ∧
      (¬c.backoff.Readable →
        BackoffConfig.read.ofValue c.backoff.write = .error .mismatch ∧
          RetryConfig.read.ofValue c.write = .error .mismatch) := by
  refine ⟨(BucketConfig.read_write hc.bucket).ofValue, fun hread => ?_, fun hread => ?_⟩
  · obtain ⟨b, hb, hsame⟩ := BackoffConfig.read_write_again hc.backoff hread
    have hwritten : RetryConfig.write { c with backoff := b } = c.write := by
      unfold write
      rw [hsame]
    exact ⟨⟨b, hb.ofValue, hsame⟩, ⟨_, (read_write hc hb).ofValue, hwritten⟩⟩
  · have hb := BackoffConfig.read_write_unreadable hc.backoff hread
    exact ⟨hb.ofValue, (read_write_refused hc hb).ofValue⟩

theorem writable_default : (default : RetryConfig Float).Writable :=
  ⟨by decide, ⟨by decide +kernel, by decide +kernel⟩, by constructor <;> decide⟩

theorem reads_back_default :
    (default : RetryConfig Float).Writable ∧
      ∃ c' : RetryConfig Float, RetryConfig.read.ofValue default.write = .ok c' ∧
        c'.write = default.write :=
  ⟨writable_default, ((reads_back writable_default).2.1 ⟨by decide, by decide⟩).2⟩

/-- Delays that only the longest span bounds. -/
def unbounded : RetryConfig Float :=
  default.withBackoff { (BackoffConfig.default : BackoffConfig Float) with maxBackoff := .longest }

theorem unbounded_not_read :
    unbounded.Writable ∧ RetryConfig.read.ofValue unbounded.write = .error .mismatch ∧
      BackoffConfig.read.ofValue unbounded.backoff.write = .error .mismatch := by
  have hwritable : unbounded.Writable :=
    ⟨writable_default.maxAttempts, ⟨writable_default.backoff.1, writable_default.backoff.2⟩,
      writable_default.bucket⟩
  have hlarge : ¬unbounded.backoff.Readable := fun h => absurd h.maxBackoff (by decide)
  have hb := BackoffConfig.read_write_unreadable hwritable.backoff hlarge
  exact ⟨hwritable, (read_write_refused hwritable hb).ofValue, hb.ofValue⟩

end RetryConfig

end ClientRuntime
