import ClientRuntime.Proofs.Fiber.Carries
import ClientRuntime.Proofs.Retry.Sequence
import ClientRuntime.Proofs.Operation.Observed

/-!
Attempts in turn. Each goes on from where the one before it ended, and what comes back beside the
outcome is the note of the last. Strategies under watch, which write to the journal between attempts
and around them, make attempts in turn.
-/

namespace ClientRuntime

open ClientRuntime.Fiber

variable {η ρ ε γ ν τ : Type} {R : World η → World η → Prop} {judge : Judge (World η) ρ ε}
  {attempt : Attempt η ρ ε ν} {span : SpanId}

/-- If attempts lead from the scene that goes with the note of the one before to the scene that goes
with their own, and others keep every scene, then the scene at the end goes with the note that comes
back. -/
def RetryStrategy.InTurn (R : World η → World η → Prop) (judge : Judge (World η) ρ ε)
    (span : SpanId) (s : RetryStrategy η ρ ε ν) : Prop :=
  ∀ (τ : Type) (I : τ → World η → Prop) (scene : Option ν → τ),
    (∀ t w w', R w w' → I t w → I t w') → ∀ attempt : Attempt η ρ ε ν,
      (∀ n last, (attempt n).Carries R I (scene last) fun made now => now = scene (some made.2)) →
      (s.retry judge span attempt).Carries R I (scene none)
        fun retried now => now = scene retried.last

namespace StandardStrategy

variable {s : StandardStrategy η} {I : τ → World η → Prop} {scene : Option ν → τ}
  (h : s.Harmless R judge span) (hI : ∀ t w w', R w w' → I t w → I t w')
  (hattempt : ∀ n last,
    (attempt n).Carries R I (scene last) fun made now => now = scene (some made.2))

include h hI

include hattempt in
theorem turn_carries (n : Nat) {t : RetryToken η} (ht : t.Harmless R) (last : Option ν) :
    (s.turn judge span attempt n t).Carries R I (scene last)
      fun made now => now = scene (some made.2.1) := by
  refine .modify_bind (fun w hw => hI _ _ _ (h.say w _ _ _) hw) ?_
  have hguarded := (hattempt n last).guarded (fun _ w => hI _ _ _ (ht.drop w))
    fun _ w => hI _ _ _ (ht.drop w)
  refine hguarded.bind fun made now hnow => ?_
  refine .modifyGet_bind (fun w => hI _ _ _ (h.judge _ w)) fun d => ?_
  exact .modify_bind (fun w => hI _ _ _ (ht.release _ w)) (.pure hnow)

theorem backOff_carries (hR : Composes R) (n : Nat) (cause : RetryCause) (t : τ) :
    (s.backOff span n cause).Carries R I t fun _ now => now = t :=
  .of_stays hI (stays_backOff h hR (fun _ _ hw => hw) n cause)

/-- The bucket's answer, with what is known of its token. -/
theorem acquire_carries (n : Nat) (cause : Option RetryCause) (t : τ) :
    (s.bucket.acquire n cause).Carries R I t fun answer now =>
      now = t ∧ ∀ token, answer = .ok token → token.Harmless R := by
  intro w e w' hw hrun
  refine ⟨t, hI _ _ _ (h.acquire n cause w e w' hrun) hw, ?_⟩
  rintro answer rfl
  exact ⟨rfl, h.granted n cause w answer w' hrun⟩

variable [OperationError ε]

include hattempt in
theorem attemptFrom_carries (hR : Composes R) (left n : Nat) {t : RetryToken η}
    (ht : t.Harmless R) (last : Option ν) :
    (s.attemptFrom judge span attempt left n t).Carries R I (scene last)
      fun retried now => now = scene retried.last := by
  have ended {o : Outcome ρ ε} {x : ν} {text : String} :
      Carries R I (scene (some x)) (do note span .debug text; return (⟨o, some x⟩ : Retried ρ ε ν))
        fun retried now => now = scene retried.last :=
    .modify_bind (fun w => hI _ _ _ (h.say w _ _ _)) (.pure rfl)
  induction left using Nat.strongRecOn generalizing n t last with
  | ind left ih =>
  unfold attemptFrom
  refine (turn_carries h hI hattempt n ht last).bind fun turn now hnow => ?_
  obtain ⟨r, x, d⟩ := turn
  obtain rfl : now = scene (some x) := hnow
  cases d with
  | success | failure => exact ended
  | retry cause =>
    cases left with
    | zero => exact ended
    | succ left =>
      refine (backOff_carries h hI hR n cause _).bind fun _ now hnow => ?_
      obtain rfl := hnow
      refine (acquire_carries h hI _ _ _).bind fun answer now hanswer => ?_
      obtain ⟨rfl, ht⟩ := hanswer
      cases answer with
      | error e => exact .modify_bind (fun w => hI _ _ _ (h.say w _ _ _)) (.pure rfl)
      | ok t => exact ih left (by omega) (n + 1) (ht t rfl) _

omit hI in
theorem inTurn (hR : Composes R) :
    (s.strategy : RetryStrategy η ρ ε ν).InTurn R judge span := by
  intro τ I scene hI attempt hattempt
  refine (acquire_carries h hI _ _ _).bind fun answer now hanswer => ?_
  obtain ⟨rfl, ht⟩ := hanswer
  cases answer with
  | error e => exact .modify_bind (fun w => hI _ _ _ (h.say w _ _ _)) (.pure rfl)
  | ok t => exact attemptFrom_carries h hI hattempt hR _ _ (ht t rfl) _

end StandardStrategy

theorem RetryStrategy.single_inTurn [OperationError ε]
    (hsay : ∀ (w : World η) level text error, R w (w.say span level singleComponent text error))
    (hjudge : ∀ result w, R w (judge result w).2) :
    (RetryStrategy.single : RetryStrategy η ρ ε ν).InTurn R judge span := by
  intro τ I scene hI attempt hattempt
  refine (hattempt 1 none).bind fun made now hnow => ?_
  refine .modifyGet_bind (fun w => hI _ _ _ (hjudge _ w)) fun d => ?_
  exact .modify_bind (fun w => hI _ _ _ (hsay w _ _ _)) (.pure hnow)

section Watched

open World (unwatched)

/-- Neither the start of an attempt nor a call within one. -/
def RetryCall.Aside : RetryCall ρ ε γ → Prop
  | .started _ | .within _ => False
  | _ => True

/-- Others may do what they like, save to note the start of an attempt or a call within one. -/
def World.Aside (w w' : World (Journaled (RetryCall ρ ε γ) η)) : Prop :=
  ∃ calls, w'.calls = w.calls ++ calls ∧ ∀ c ∈ calls, c.Aside

namespace World

variable {w w' : World (Journaled (RetryCall ρ ε γ) η)}

theorem aside_same (h : w'.calls = w.calls) : w.Aside w' :=
  ⟨[], by rw [h, List.append_nil], by simp⟩

theorem TracedTo.aside (h : w.TracedTo w') : w.Aside w' := aside_same h.calls

theorem aside_noted {c : RetryCall ρ ε γ} (h : w'.calls = w.calls ++ [c]) (hc : c.Aside) :
    w.Aside w' :=
  ⟨[c], h, by simpa using hc⟩

theorem aside_composes :
    Composes (Aside : World (Journaled (RetryCall ρ ε γ) η) → World _ → Prop) where
  none _ := aside_same rfl
  andThen := by
    rintro w w₁ w₂ ⟨calls, hcalls, h⟩ ⟨calls', hcalls', h'⟩
    refine ⟨calls ++ calls', by rw [hcalls', hcalls, List.append_assoc], fun c hc => ?_⟩
    rcases List.mem_append.mp hc with hc | hc
    · exact h c hc
    · exact h' c hc

end World

open World

theorem stays_unwatched {α : Type} (m : Fiber (World η) α) :
    Stays Aside (Aside : World (Journaled (RetryCall ρ ε γ) η) → _ → Prop) (m.along unwatched) :=
  .along aside_composes (fun _ _ h => h) (fun _ _ => aside_same rfl) m

theorem RetryToken.watched_harmless (t : RetryToken η) (n : Nat) :
    (t.watched n : RetryToken (Journaled (RetryCall ρ ε γ) η)).Harmless Aside where
  drop _ := aside_noted (t.calls_drop n) trivial
  release outcome _ := aside_noted (t.calls_release n outcome) trivial

theorem StandardStrategy.watched_harmless (s : StandardStrategy η) (judge : Judge (World η) ρ ε)
    (span : SpanId) :
    (s.watched : StandardStrategy (Journaled (RetryCall ρ ε γ) η)).Harmless Aside judge.watched
      span where
  emit w _ _ _ := (World.emit_traced w _ _ _).aside
  say w _ _ _ := (World.say_traced w _ _ _ _ _).aside
  acquire n cause := by
    refine .modify_bind aside_composes (fun _ => aside_noted rfl trivial) ?_
    refine .bind aside_composes ?_ fun _ => .pure aside_composes _
    refine (stays_unwatched _).bind aside_composes fun answer => ?_
    refine .modify_bind aside_composes (fun _ => aside_noted rfl ?_) (.pure aside_composes _)
    cases answer <;> trivial
  granted n cause w answer w' hrun t ht := by
    obtain ⟨own, w₁, -, hrest⟩ := run_bind_returned.mp (run_modify_bind.mp hrun)
    obtain ⟨heq, -⟩ := run_pure.mp hrest
    rw [ht, Ending.returned.injEq] at heq
    cases own with
    | error e => cases heq
    | ok own =>
      cases heq
      exact own.watched_harmless n
  judge _ _ := aside_noted rfl trivial
  backoff _ _ := aside_noted rfl trivial
  sleep _ := .modify_bind aside_composes (fun _ => aside_noted rfl trivial) (stays_unwatched _)

variable [OperationError ε]

/-- Under watch, save for the attempts. -/
def Retrying.watchedBetween : Retrying η → RetryStrategy (Journaled (RetryCall ρ ε γ) η) ρ ε ν
  | standard s => s.watched.strategy
  | single => .single

theorem Retrying.watched_eq (retrying : Retrying η) :
    (retrying.watched : RetryStrategy (Journaled (RetryCall ρ ε γ) η) ρ ε ν) =
      retrying.watchedBetween.watchingAttempts := by
  cases retrying <;> rfl

/-- Both ways to retry make attempts in turn. -/
theorem Retrying.watched_inTurn (retrying : Retrying η) (judge : Judge (World η) ρ ε)
    (span : SpanId) :
    (retrying.watchedBetween : RetryStrategy (Journaled (RetryCall ρ ε γ) η) ρ ε ν).InTurn Aside
      judge.watched span := by
  cases retrying with
  | standard s => exact StandardStrategy.inTurn (s.watched_harmless judge span) aside_composes
  | single =>
    exact RetryStrategy.single_inTurn (fun w _ _ _ => (World.say_traced w _ _ _ _ _).aside)
      fun _ _ => aside_noted rfl trivial

end Watched

end ClientRuntime
