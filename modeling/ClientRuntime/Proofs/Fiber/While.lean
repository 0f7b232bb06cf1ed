import ClientRuntime.Fiber.Control
import ClientRuntime.Proofs.Fiber.Charges
import ClientRuntime.Proofs.Fiber.Journal

/-!
Fibers that go on alike as long as the first of two runs keeps to a condition. The relation between
the states has to hold at the ends and wherever control is handed back, but only if every step that
the first run has taken is one that the condition allows.
-/

namespace ClientRuntime

variable {σ τ α β : Type}

namespace Fiber

/-- From these two states on `m` and `m'` take their steps together and come to the same, in states
that `R` relates, while the steps of `m` are `ok`. They may be resumed in any two states that are so
related, and values are as `P` says. -/
inductive AlikeWhile (ok R : σ → σ → Prop) (P : α → Prop) :
    Fiber σ α → σ → Fiber σ α → σ → Prop where
  | done {a : α} {s s' : σ} : R s s' → P a → AlikeWhile ok R P (.done a) s (.done a) s'
  | panic {text : String} {s s' : σ} : R s s' → AlikeWhile ok R P (.panic text) s (.panic text) s'
  | read {next next' : σ → Fiber σ α} {s s' : σ} : AlikeWhile ok R P (next s) s (next' s') s' →
      AlikeWhile ok R P (.read next) s (.read next') s'
  | update {f f' : σ → σ} {next next' : Fiber σ α} {s s' : σ} :
      (ok s (f s) → AlikeWhile ok R P next (f s) next' (f' s')) →
      AlikeWhile ok R P (.update f next) s (.update f' next') s'
  | block {wake wake' : σ → Bool} {cleanup cleanup' : σ → σ} {next next' : Fiber σ α} {s s' : σ} :
      R s s' → (∀ u u', R u u' → wake u = wake' u') →
      (∀ u u', R u u' → ok u (cleanup u) → R (cleanup u) (cleanup' u')) →
      (∀ u u', R u u' → wake u = true → AlikeWhile ok R P next u next' u') →
      AlikeWhile ok R P (.block wake cleanup next) s (.block wake' cleanup' next') s'

variable {ok R : σ → σ → Prop} {P : α → Prop} {Q : β → Prop} {s s' : σ}

theorem AlikeWhile.bind {m m' : Fiber σ α} {k : α → Fiber σ β}
    (hm : AlikeWhile ok R P m s m' s')
    (hk : ∀ a, P a → ∀ u u', R u u' → AlikeWhile ok R Q (k a) u (k a) u') :
    AlikeWhile ok R Q (m >>= k) s (m' >>= k) s' := by
  change AlikeWhile ok R Q (m.bind k) s (m'.bind k) s'
  induction hm with
  | done hs ha => exact hk _ ha _ _ hs
  | panic hs => exact .panic hs
  | read _ ih => exact .read ih
  | update _ ih => exact .update ih
  | block hs hwake hdrop _ ih => exact .block hs hwake hdrop ih

theorem AlikeWhile.giveUpLater {fired : σ → Bool} {instead m m' : Fiber σ α}
    (hfired : ∀ u u', R u u' → fired u = fired u')
    (hinstead : ∀ u u', R u u' → AlikeWhile ok R P instead u instead u')
    (hm : AlikeWhile ok R P m s m' s') :
    AlikeWhile ok R P (Fiber.giveUpLater fired instead m) s
      (Fiber.giveUpLater fired instead m') s' := by
  induction hm with
  | done hs ha => exact .done hs ha
  | panic hs => exact .panic hs
  | read _ ih => exact .read ih
  | update _ ih => exact .update ih
  | block hs hwake hdrop _ ih =>
    apply AlikeWhile.block hs _ hdrop
    · intro u u' hu hw
      apply AlikeWhile.read
      rw [← hfired u u' hu]
      split
      · exact .update fun hok => hinstead _ _ (hdrop u u' hu hok)
      · rename_i hnot
        exact ih u u' hu (by simpa [hnot] using hw)
    · intro u u' hu
      rw [hfired u u' hu, hwake u u' hu]

/-- The fiber goes on alike from any two states that `R` relates, while its steps are `ok`. -/
def BlindWhile (ok R : σ → σ → Prop) (P : α → Prop) (m : Fiber σ α) : Prop :=
  ∀ s s', R s s' → AlikeWhile ok R P m s m s'

namespace BlindWhile

theorem pure {a : α} (ha : P a) : (Pure.pure a : Fiber σ α).BlindWhile ok R P :=
  fun _ _ hs => .done hs ha

theorem bind {m : Fiber σ α} {k : α → Fiber σ β} (hm : m.BlindWhile ok R P)
    (hk : ∀ a, P a → (k a).BlindWhile ok R Q) : (m >>= k).BlindWhile ok R Q :=
  fun s s' hs => (hm s s' hs).bind hk

theorem gets {f : σ → α} (hf : ∀ u u', R u u' → f u = f u') (hP : ∀ u, P (f u)) :
    (Fiber.gets f).BlindWhile ok R P := by
  intro s s' hs
  apply AlikeWhile.read
  rw [← hf s s' hs]
  exact .done hs (hP s)

theorem modify {f : σ → σ} (hf : ∀ u u', R u u' → R (f u) (f u')) :
    (Fiber.modify f).BlindWhile ok R fun _ => True :=
  fun s s' hs => .update fun _ => .done (hf s s' hs) trivial

theorem modifyGet {f : σ → α × σ} (hvalue : ∀ u u', R u u' → (f u).1 = (f u').1)
    (hf : ∀ u u', R u u' → R (f u).2 (f u').2) (hP : ∀ u, P (f u).1) :
    (Fiber.modifyGet f).BlindWhile ok R P := by
  intro s s' hs
  apply AlikeWhile.read
  apply AlikeWhile.update
  intro _
  rw [← hvalue s s' hs]
  exact .done (hf s s' hs) (hP s)

theorem hang : (Fiber.hang : Fiber σ α).BlindWhile ok R P :=
  fun _ _ hs => .block hs (fun _ _ _ => rfl) (fun _ _ hu _ => hu) fun _ _ _ hw => by cases hw

theorem waitUntil {ready : σ → Bool} (hready : ∀ u u', R u u' → ready u = ready u') :
    (Fiber.waitUntil ready).BlindWhile ok R fun _ => True := by
  intro s s' hs
  apply AlikeWhile.read
  rw [← hready s s' hs]
  split
  · exact .done hs trivial
  · apply AlikeWhile.block hs hready
    · exact fun u u' hu _ => hu
    · exact fun u u' hu _ => .done hu trivial

theorem giveUpWhen {fired : σ → Bool} {instead m : Fiber σ α}
    (hfired : ∀ u u', R u u' → fired u = fired u') (hinstead : instead.BlindWhile ok R P)
    (hm : m.BlindWhile ok R P) : (Fiber.giveUpWhen fired instead m).BlindWhile ok R P := by
  intro s s' hs
  apply AlikeWhile.read
  rw [← hfired s s' hs]
  split
  · exact hinstead s s' hs
  · exact (hm s s' hs).giveUpLater hfired hinstead

theorem rounds {round : Fiber σ (Option α)} (h : round.BlindWhile ok R fun o => ∀ a ∈ o, P a)
    (n : Nat) : (round.rounds n).BlindWhile ok R P := by
  induction n with
  | zero => exact hang
  | succ n ih =>
    refine h.bind fun o ho => ?_
    cases o with
    | none => exact ih
    | some a => exact pure (ho a rfl)

/-- A fiber that runs in a part of the state, if the part is the same in states that are related. -/
theorem along {l : Lens σ τ} (hpart : ∀ u u', R u u' → l.get u = l.get u')
    (hset : ∀ t u u', R u u' → ok u (l.set t u) → R (l.set t u) (l.set t u')) (m : Fiber τ α) :
    (m.along l).BlindWhile ok R fun _ => True := by
  have hmodify (f : τ → τ) (u u' : σ) (hu : R u u') (hok : ok u (l.modify f u)) :
      R (l.modify f u) (l.modify f u') := by
    unfold Lens.modify at hok ⊢
    rw [← hpart u u' hu]
    exact hset _ u u' hu hok
  induction m with
  | done a => exact fun s s' hs => .done hs trivial
  | panic text => exact fun s s' hs => .panic hs
  | read next ih =>
    intro s s' hs
    apply AlikeWhile.read
    rw [← hpart s s' hs]
    exact ih _ s s' hs
  | update f next ih => exact fun s s' hs => .update fun hok => ih _ _ (hmodify f s s' hs hok)
  | block wake cleanup next ih =>
    intro s s' hs
    apply AlikeWhile.block hs
    · intro u u' hu
      rw [hpart u u' hu]
    · exact hmodify cleanup
    · exact fun u u' hu _ => ih u u' hu

end BlindWhile

end Fiber

namespace Paused

/-- Two suspended fibers that go on alike from any two states that `R` relates. -/
structure AlikeWhile (ok R : σ → σ → Prop) (P : α → Prop) (p p' : Paused σ α) : Prop where
  wake : ∀ u u', R u u' → p.wake u = p'.wake u'
  cleanup : ∀ u u', R u u' → ok u (p.cleanup u) → R (p.cleanup u) (p'.cleanup u')
  next : ∀ u u', R u u' → p.wake u = true → Fiber.AlikeWhile ok R P p.next u p'.next u'

variable {ok R : σ → σ → Prop} {P : α → Prop} {s s' : σ}

theorem AlikeWhile.start {m : Fiber σ α} (hm : m.BlindWhile ok R P) :
    AlikeWhile ok R P (.start m) (.start m) :=
  ⟨fun _ _ _ => rfl, fun _ _ hu _ => hu, fun u u' hu _ => hm u u' hu⟩

/-- Two polls that come to the same, in related states. -/
inductive Outcome.AlikeWhile (ok R : σ → σ → Prop) (P : α → Prop) :
    Outcome σ α × σ → Outcome σ α × σ → Prop where
  | ready {a : α} {s s' : σ} : R s s' → P a → AlikeWhile ok R P (.ready a, s) (.ready a, s')
  | panicked {text : String} {s s' : σ} : R s s' →
      AlikeWhile ok R P (.panicked text, s) (.panicked text, s')
  | pending {p p' : Paused σ α} {s s' : σ} : R s s' → Paused.AlikeWhile ok R P p p' →
      AlikeWhile ok R P (.pending p, s) (.pending p', s')

end Paused

section Polls

variable {ok R : σ → σ → Prop} {P : α → Prop} {s s' : σ}

theorem Fiber.AlikeWhile.poll {m m' : Fiber σ α} (hm : Fiber.AlikeWhile ok R P m s m' s')
    (hok : ∀ e ∈ m.steps s, ok e.1 e.2) :
    Paused.Outcome.AlikeWhile ok R P ((Paused.start m).poll s) ((Paused.start m').poll s') := by
  induction hm with
  | done hs ha => exact .ready hs ha
  | panic hs => exact .panicked hs
  | read _ ih => exact ih hok
  | update _ ih =>
    obtain ⟨hfirst, hrest⟩ := List.forall_mem_cons.mp hok
    exact ih hfirst hrest
  | block hs hwake hdrop hnext => exact .pending hs ⟨hwake, hdrop, hnext⟩

/-- A poll whose steps are `ok` comes to the same in both runs. -/
theorem Paused.AlikeWhile.poll {p p' : Paused σ α} (h : p.AlikeWhile ok R P p') (hs : R s s')
    (hok : ∀ e ∈ p.steps s, ok e.1 e.2) :
    Outcome.AlikeWhile ok R P (p.poll s) (p'.poll s') := by
  rw [p.poll_eq s, p'.poll_eq s', ← h.wake s s' hs]
  unfold steps at hok
  split
  · rename_i hwake
    rw [if_pos hwake] at hok
    exact (h.next s s' hs hwake).poll hok
  · exact .pending hs h

end Polls

end ClientRuntime
