import ClientRuntime.Proofs.Retry.Progress

/-!
Tokens of a retry loop. Every token that is granted goes back once, at its cost and with the outcome
that its attempt was judged by, however the run ends; no two are out at the same time, and none
during a pause.
-/

namespace ClientRuntime

variable {η ρ ε γ ν : Type}

/-- How a token goes back whose attempt was judged so; one that was not judged failed and may be
tried again. -/
def TokenOutcome.ofJudgement : Option RetryDirective → TokenOutcome
  | some .success => .success
  | some .failure => .nonRetryableFailure
  | some (.retry _) => .retryableFailure
  | none => .retryableFailure

namespace RetryCall

/-- The attempt and the cost of a token that is granted. -/
def grant? : RetryCall ρ ε γ → Option (Nat × Nat)
  | granted n cost => some (n, cost)
  | _ => none

def release? : RetryCall ρ ε γ → Option ((Nat × Nat) × TokenOutcome)
  | released n cost outcome => some ((n, cost), outcome)
  | _ => none

def judgement? : RetryCall ρ ε γ → Option RetryDirective
  | judged _ d => some d
  | _ => none

def grants (calls : List (RetryCall ρ ε γ)) : List (Nat × Nat) := calls.filterMap grant?

def releases (calls : List (RetryCall ρ ε γ)) : List ((Nat × Nat) × TokenOutcome) :=
  calls.filterMap release?

/-- How attempt `n` was judged, if it was. -/
def judgementOf (n : Nat) : List (RetryCall ρ ε γ) → Option RetryDirective
  | [] => none
  | started m :: calls => if m = n then calls.findSome? judgement? else judgementOf n calls
  | _ :: calls => judgementOf n calls

/-- What a call does to the token that is out: a grant wants none out, a release the same one, and
a pause none. -/
def hand : Option (Nat × Nat) → RetryCall ρ ε γ → Option (Option (Nat × Nat))
  | out, granted n cost => if out = none then some (some (n, cost)) else none
  | out, released n cost _ => if out = some (n, cost) then some none else none
  | out, slept _ => if out = none then some none else none
  | out, _ => some out

end RetryCall

open RetryCall

/-- The calls account for all tokens. -/
structure Accounted (calls : List (RetryCall ρ ε γ)) : Prop where
  /-- Tokens are told apart by their attempts. -/
  distinct : ((grants calls).map Prod.fst).Nodup
  /-- Each goes back once, at its cost and as its attempt was judged. -/
  settled : releases calls =
    (grants calls).map fun t => (t, .ofJudgement (judgementOf t.1 calls))
  /-- At no moment is more than one out. -/
  single : ∀ past, past <+: calls →
    ∃ out : Option (Nat × Nat), grants past = (releases past).map Prod.fst ++ out.toList
  /-- None is out when a pause begins. -/
  resting : ∀ past d, past ++ [slept d] <+: calls →
    grants past = (releases past).map Prod.fst

section Reading

variable {calls : List (RetryCall ρ ε γ)} {out out' : Option (Nat × Nat)} {m n cost : Nat}
  {r : Except ε ρ} {d : RetryDirective} {inner : List γ}

@[simp] theorem grants_nil : grants ([] : List (RetryCall ρ ε γ)) = [] := rfl

@[simp] theorem releases_nil : releases ([] : List (RetryCall ρ ε γ)) = [] := rfl

@[simp] theorem grants_cons (c : RetryCall ρ ε γ) :
    grants (c :: calls) = (grant? c).toList ++ grants calls := by
  simp only [grants, List.filterMap_cons]
  cases grant? c <;> rfl

@[simp] theorem releases_cons (c : RetryCall ρ ε γ) :
    releases (c :: calls) = (release? c).toList ++ releases calls := by
  simp only [releases, List.filterMap_cons]
  cases release? c <;> rfl

@[simp] theorem grants_append (past : List (RetryCall ρ ε γ)) :
    grants (past ++ calls) = grants past ++ grants calls := List.filterMap_append

@[simp] theorem releases_append (past : List (RetryCall ρ ε γ)) :
    releases (past ++ calls) = releases past ++ releases calls := List.filterMap_append

/-- What was granted has gone back, save for the token that is out. -/
theorem grants_of_hand (h : calls.foldlM hand out = some out') :
    out.toList ++ grants calls = (releases calls).map Prod.fst ++ out'.toList := by
  induction calls generalizing out with
  | nil =>
    obtain rfl : out = out' := by simpa using h
    simp
  | cons c calls ih =>
    obtain ⟨mid, hc, h⟩ := Option.bind_eq_some_iff.mp (by simpa using h)
    have rest := ih h
    cases c with
    | granted n cost =>
      obtain ⟨rfl, rfl⟩ : out = none ∧ some (n, cost) = mid := by simpa [hand] using hc
      simpa [grant?, release?] using rest
    | released n cost outcome =>
      obtain ⟨rfl, rfl⟩ : out = some (n, cost) ∧ none = mid := by simpa [hand] using hc
      simpa [grant?, release?] using rest
    | slept d =>
      obtain ⟨rfl, rfl⟩ : out = none ∧ none = mid := by simpa [hand] using hc
      simpa [grant?, release?] using rest
    | acquire | refused | started | within | finished | judged | delayed =>
      obtain rfl : out = mid := by simpa [hand] using hc
      simpa [grant?, release?] using rest

theorem hand_prefix {past : List (RetryCall ρ ε γ)} (h : calls.foldlM hand out = some out')
    (hp : past <+: calls) : ∃ mid, past.foldlM hand out = some mid := by
  obtain ⟨rest, rfl⟩ := hp
  rw [List.foldlM_append] at h
  obtain ⟨mid, hmid, -⟩ := Option.bind_eq_some_iff.mp h
  exact ⟨mid, hmid⟩

/-- What an attempt calls within itself is no matter of tokens. -/
@[simp] theorem grants_within :
    grants (inner.map within : List (RetryCall ρ ε γ)) = [] := by
  induction inner with
  | nil => rfl
  | cons _ inner ih => simpa [grant?] using ih

@[simp] theorem releases_within :
    releases (inner.map within : List (RetryCall ρ ε γ)) = [] := by
  induction inner with
  | nil => rfl
  | cons _ inner ih => simpa [release?] using ih

@[simp] theorem hand_within :
    (inner.map within : List (RetryCall ρ ε γ)).foldlM hand out = some out := by
  induction inner with
  | nil => rfl
  | cons _ inner ih => simpa [hand] using ih

@[simp] theorem findSome?_within :
    (inner.map within : List (RetryCall ρ ε γ)).findSome? judgement? = none := by
  simp [judgement?]

@[simp] theorem judgementOf_within :
    judgementOf n (inner.map within ++ calls) = judgementOf n calls := by
  induction inner with
  | nil => rfl
  | cons _ inner ih => simpa [judgementOf] using ih

@[simp] theorem grants_turn : grants (turn n cost inner r d) = [] := by
  simp [turn, grant?]

@[simp] theorem releases_turn :
    releases (turn n cost inner r d) = [((n, cost), .ofJudgement (some d))] := by
  cases d <;> simp [turn, release?, StandardStrategy.tokenOutcome, TokenOutcome.ofJudgement]

@[simp] theorem hand_turn :
    (turn n cost inner r d).foldlM hand (some (n, cost)) = some none := by
  simp [turn, hand]

@[simp] theorem judgementOf_turn :
    judgementOf m (turn n cost inner r d ++ calls) =
      if n = m then some d else judgementOf m calls := by
  simp [turn, judgementOf, judgement?, List.findSome?_cons]

end Reading

section Courses

variable [OperationError ε] {limit n cost : Nat} {body : AttemptBody ρ ε γ}
  {calls : List (RetryCall ρ ε γ)} {o : Option (Outcome ρ ε)}

namespace Course

/-- A course that starts with a token in hand ends with none. -/
theorem hand_none (h : Course limit body n cost calls o) :
    calls.foldlM hand (some (n, cost)) = some none := by
  induction h with
  | interrupted => simp [hand]
  | concluded => simp
  | asleep | waiting | refused => simp [pause, hand]
  | again _ _ _ ih => simpa [pause, hand] using ih

/-- Further tokens are for later attempts, in order. -/
theorem grants_later (h : Course limit body n cost calls o) :
    (n :: (grants calls).map Prod.fst).Pairwise (· < ·) := by
  induction h with
  | interrupted => simp [grant?]
  | concluded => simp
  | asleep | waiting | refused => simp [pause, grant?]
  | @again n _ _ _ _ _ _ _ _ _ _ _ ih =>
    have later := (List.pairwise_cons.mp ih).1
    refine List.pairwise_cons.mpr ⟨?_, ?_⟩
    · have first : n < n + 1 := by omega
      simpa [pause, grant?] using
        fun m cost hm => Nat.lt_trans first (later m (List.mem_map_of_mem hm))
    · simpa [pause, grant?] using ih

/-- The token in hand goes back first, then each of the others. -/
theorem releases_eq (h : Course limit body n cost calls o) :
    releases calls = ((n, cost), .ofJudgement (judgementOf n calls)) ::
      (grants calls).map fun t => (t, .ofJudgement (judgementOf t.1 calls)) := by
  induction h with
  | interrupted => simp [grant?, release?, judgementOf, judgement?, TokenOutcome.ofJudgement]
  | @concluded n cost inner r d =>
    have hd : judgementOf n (turn n cost inner r d ++ []) = some d := by
      rw [judgementOf_turn, if_pos rfl]
    rw [List.append_nil] at hd
    simp [hd]
  | asleep | waiting | refused => simp [pause, grant?, release?]
  | @again n cost inner r cause t next calls _ _ _ h ih =>
    have judgement m : judgementOf m (turn n cost inner r (.retry cause) ++ pause n t ++
        .acquire (n + 1) (some cause) :: .granted (n + 1) next :: calls) =
        if n = m then some (.retry cause) else judgementOf m calls := by
      rw [List.append_assoc, judgementOf_turn]
      rfl
    -- Later grants are for other attempts, so the first judgement is none of theirs.
    have later (t) (ht : t ∈ grants calls) : n ≠ t.1 := by
      have := (List.pairwise_cons.mp h.grants_later).1 t.1 (List.mem_map_of_mem ht)
      omega
    have rest : (grants calls).map (fun t => (t, TokenOutcome.ofJudgement
        (if n = t.1 then some (.retry cause) else judgementOf t.1 calls))) =
        (grants calls).map fun t => (t, .ofJudgement (judgementOf t.1 calls)) :=
      List.map_congr_left fun t ht => by rw [if_neg (later t ht)]
    simp only [judgement]
    simp [pause, grant?, release?, ih, rest]

end Course

theorem RetryCourse.accounted (h : RetryCourse limit body calls o) : Accounted calls := by
  have course : calls.foldlM hand none = some none := by
    cases h with
    | waiting | refused => rfl
    | granted h => simpa [hand] using h.hand_none
  refine ⟨?_, ?_, fun past hp => ?_, fun past d hp => ?_⟩
  · cases h with
    | waiting | refused => simp [grant?]
    | granted h =>
      have later : (1 :: (grants _).map Prod.fst).Nodup := h.grants_later.imp Nat.ne_of_lt
      simpa [grant?] using later
  · cases h with
    | waiting | refused => rfl
    | granted h => simpa [grant?, release?, judgementOf] using h.releases_eq
  · obtain ⟨out, hout⟩ := hand_prefix course hp
    exact ⟨out, by simpa using grants_of_hand hout⟩
  · obtain ⟨out, hout⟩ := hand_prefix course hp
    rw [List.foldlM_append] at hout
    obtain ⟨mid, hmid, hlast⟩ := Option.bind_eq_some_iff.mp hout
    obtain rfl : mid = none := by
      cases mid with
      | none => rfl
      | some t => simp [hand] at hlast
    simpa using grants_of_hand hmid

end Courses

namespace StandardStrategy

open ClientRuntime.Fiber

variable [OperationError ε]

/-- However a run ends, its calls account for all tokens. -/
theorem retry_accounts_for_tokens (s : StandardStrategy η) (judge : Judge (World η) ρ ε)
    (span : SpanId) (attempt : Attempt η ρ ε ν) {w w' : World (Journaled (RetryCall ρ ε γ) η)}
    {e : Ending (Retried ρ ε ν)}
    (h : Run World.SameCalls
      (s.watched.retry judge.watched span attempt.unwatched.watched) w e w') :
    ∃ calls, w'.calls = w.calls ++ calls ∧ Accounted calls := by
  have hR : ∀ w w' : World (Journaled (RetryCall ρ ε γ) η), w.SameCalls w' → w.SameCalls w' :=
    fun _ _ h => h
  obtain ⟨calls, hcalls, course⟩ :=
    retryCourse_of_run hR s judge span (fun _ => attempt.unwatched_makes hR _)
      (fun _ _ => attempt.unwatched_makes hR _) h
  exact ⟨calls, hcalls, course.accounted⟩

/-- Two polls come to the second attempt. -/
theorem retry_accounts_for_tokens_dropped :
    ∃ w' calls, Run World.SameCalls
        (twoAttempts.watched.retry retryErrors.watched 0 secondTry.unwatched.watched) emptyJournal
        (.cut .dropped) w' ∧
      w'.calls = emptyJournal.calls ++ calls ∧ Accounted calls ∧
      releases calls = [((1, 0), .retryableFailure), ((2, 0), .retryableFailure)] := by
  obtain ⟨w', run, hreleases⟩ : ∃ w', Run World.SameCalls
      (twoAttempts.watched.retry retryErrors.watched 0 secondTry.unwatched.watched) emptyJournal
      (.cut .dropped) w' ∧
      releases w'.calls = [((1, 0), .retryableFailure), ((2, 0), .retryableFailure)] :=
    Paused.exists_run_dropped World.sameCalls_refl 1 (by cbv)
  obtain ⟨calls, hcalls, h⟩ := retry_accounts_for_tokens _ _ _ _ run
  exact ⟨w', calls, run, hcalls, h, by rw [hcalls] at hreleases; exact hreleases⟩

end StandardStrategy

end ClientRuntime
