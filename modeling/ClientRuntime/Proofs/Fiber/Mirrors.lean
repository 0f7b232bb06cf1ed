import ClientRuntime.Lock
import ClientRuntime.Proofs.Fiber.Crowd
import ClientRuntime.Proofs.Fiber.Journal

/-!
Fibers in a larger state that mirror others in a part of it. Poll for poll they do the same to the
part and come to the same; what they do beside the part is their own affair. So a crowd of them
does to the part what a crowd of the others does, whatever the order of its moves.
-/

namespace ClientRuntime

variable {σ τ α β χ : Type} {l : Lens σ τ}

namespace Fiber

theorem map_guarded (onDrop onPanic : σ → σ) (f : α → β) (m : Fiber σ α) :
    f <$> m.guarded onDrop onPanic = (f <$> m).guarded onDrop onPanic := by
  rw [map_eq_pure_bind, map_eq_pure_bind]
  change (m.guarded onDrop onPanic).bind _ = (m.bind _).guarded onDrop onPanic
  induction m with
  | done | panic => rfl
  | read next ih => simp only [guarded, bind, ih]
  | update g next ih => simp only [guarded, bind, ih]
  | block wake cleanup next ih => simp only [guarded, bind, ih]

inductive Mirrors (l : Lens σ τ) : Fiber σ α → Fiber τ α → Prop where
  | done (a : α) : Mirrors l (.done a) (.done a)
  | panic (text : String) : Mirrors l (.panic text) (.panic text)
  | read {next : σ → Fiber σ α} {next' : τ → Fiber τ α} :
      (∀ s, Mirrors l (next s) (next' (l.get s))) → Mirrors l (.read next) (.read next')
  | update {f : σ → σ} {f' : τ → τ} {next : Fiber σ α} {next' : Fiber τ α} :
      (∀ s, l.get (f s) = f' (l.get s)) → Mirrors l next next' →
        Mirrors l (.update f next) (.update f' next')
  | beside {f : σ → σ} {next : Fiber σ α} {m' : Fiber τ α} :
      (∀ s, l.get (f s) = l.get s) → Mirrors l next m' → Mirrors l (.update f next) m'
  | block {wake : σ → Bool} {wake' : τ → Bool} {cleanup : σ → σ} {cleanup' : τ → τ}
      {next : Fiber σ α} {next' : Fiber τ α} :
      (∀ s, wake s = wake' (l.get s)) → (∀ s, l.get (cleanup s) = cleanup' (l.get s)) →
        Mirrors l next next' → Mirrors l (.block wake cleanup next) (.block wake' cleanup' next')

namespace Mirrors

theorem bind {m : Fiber σ α} {m' : Fiber τ α} {k : α → Fiber σ β} {k' : α → Fiber τ β}
    (hm : m.Mirrors l m') (hk : ∀ a, (k a).Mirrors l (k' a)) :
    (m >>= k).Mirrors l (m' >>= k') := by
  change (m.bind k).Mirrors l (m'.bind k')
  induction hm with
  | done a => exact hk a
  | panic text => exact .panic text
  | read _ ih => exact .read ih
  | update hf _ ih => exact .update hf ih
  | beside hf _ ih => exact .beside hf ih
  | block hw hc _ ih => exact .block hw hc ih

theorem pure (a : α) : Mirrors l (Pure.pure a) (Pure.pure a) := .done a

theorem map {m : Fiber σ α} {m' : Fiber τ α} (f : α → β) (hm : m.Mirrors l m') :
    (f <$> m).Mirrors l (f <$> m') := by
  rw [map_eq_pure_bind, map_eq_pure_bind]
  exact hm.bind fun a => .pure (f a)

theorem modify {f : σ → σ} {f' : τ → τ} (h : ∀ s, l.get (f s) = f' (l.get s)) :
    Mirrors l (Fiber.modify f) (Fiber.modify f') := .update h (.done ())

theorem gets {f : σ → α} {f' : τ → α} (h : ∀ s, f s = f' (l.get s)) :
    Mirrors l (Fiber.gets f) (Fiber.gets f') := .read fun s => by rw [h]; exact .done _

theorem modifyGet {f : σ → α × σ} {f' : τ → α × τ} (hvalue : ∀ s, (f s).1 = (f' (l.get s)).1)
    (h : ∀ s, l.get (f s).2 = (f' (l.get s)).2) :
    Mirrors l (Fiber.modifyGet f) (Fiber.modifyGet f') := by
  refine .read fun s => .update (fun _ => h s) ?_
  rw [hvalue s]
  exact .done _

theorem waitUntil {ready : σ → Bool} {ready' : τ → Bool} (h : ∀ s, ready s = ready' (l.get s)) :
    Mirrors l (Fiber.waitUntil ready) (Fiber.waitUntil ready') := by
  refine .read fun s => ?_
  rw [h s]
  split
  · exact .done ()
  · exact .block h (fun _ => rfl) (.done ())

/-- A change that the part does not see. -/
theorem beside_bind {f : σ → σ} {k : Unit → Fiber σ α} {m' : Fiber τ α}
    (h : ∀ s, l.get (f s) = l.get s) (hk : (k ()).Mirrors l m') :
    (Fiber.modify f >>= k).Mirrors l m' := .beside h hk

theorem guarded {onDrop onPanic : σ → σ} {onDrop' onPanic' : τ → τ} {m : Fiber σ α}
    {m' : Fiber τ α} (hdrop : ∀ s, l.get (onDrop s) = onDrop' (l.get s))
    (hpanic : ∀ s, l.get (onPanic s) = onPanic' (l.get s)) (hm : m.Mirrors l m') :
    (m.guarded onDrop onPanic).Mirrors l (m'.guarded onDrop' onPanic') := by
  induction hm with
  | done a => exact .done a
  | panic text => exact .update hpanic (.panic text)
  | read _ ih => exact .read ih
  | update hf _ ih => exact .update hf ih
  | beside hf _ ih => exact .beside hf ih
  | block hw hc _ ih => exact .block hw (fun s => by rw [hdrop, hc]) ih

/-- A guard that the part does not see. -/
theorem guarded_beside {onDrop onPanic : σ → σ} {m : Fiber σ α} {m' : Fiber τ α}
    (hdrop : ∀ s, l.get (onDrop s) = l.get s) (hpanic : ∀ s, l.get (onPanic s) = l.get s)
    (hm : m.Mirrors l m') : (m.guarded onDrop onPanic).Mirrors l m' := by
  induction hm with
  | done a => exact .done a
  | panic text => exact .beside hpanic (.panic text)
  | read _ ih => exact .read ih
  | update hf _ ih => exact .update hf ih
  | beside hf _ ih => exact .beside hf ih
  | block hw hc _ ih => exact .block hw (fun s => by rw [hdrop, hc]) ih

theorem along (m : Fiber τ α) : (m.along l).Mirrors l m := by
  induction m with
  | done a => exact .done a
  | panic text => exact .panic text
  | read next ih => exact .read fun s => ih _
  | update f next ih => exact .update (fun s => l.get_modify f s) ih
  | block wake cleanup next ih =>
    exact .block (fun _ => rfl) (fun s => l.get_modify cleanup s) ih

theorem holding {lock : Lens τ Lock} {body : Fiber σ α} {body' : Fiber τ α}
    (h : body.Mirrors l body') :
    (Lock.holding (l.comp lock) body).Mirrors l (Lock.holding lock body') := by
  have hgive (t : Nat) (s : σ) : l.get ((l.comp lock).modify (Lock.leave t) s) =
      lock.modify (Lock.leave t) (l.get s) := l.get_set _ s
  unfold Lock.holding
  refine Mirrors.bind (Mirrors.modifyGet (fun _ => rfl) fun s => ?_) fun t => ?_
  · exact l.get_set _ s
  refine Mirrors.guarded (hgive t) (hgive t) ?_
  refine Mirrors.bind (Mirrors.waitUntil fun _ => rfl) fun _ => h.bind fun a => ?_
  exact (Mirrors.modify (hgive t)).bind fun _ => .pure a

end Mirrors

end Fiber

/-- What becomes of a value may as well be decided under the lock. -/
theorem Lock.map_holding (lock : Lens σ Lock) (f : α → β) (body : Fiber σ α) :
    f <$> Lock.holding lock body = Lock.holding lock (f <$> body) := by
  unfold Lock.holding
  simp only [map_bind, Fiber.map_guarded, bind_map_left, map_pure]

namespace Paused

/-- Suspended fibers that go on alike. -/
structure Mirrors (l : Lens σ τ) (p : Paused σ α) (p' : Paused τ α) : Prop where
  wake : ∀ s, p.wake s = p'.wake (l.get s)
  cleanup : ∀ s, l.get (p.cleanup s) = p'.cleanup (l.get s)
  next : p.next.Mirrors l p'.next

end Paused

namespace Member

inductive Mirrors (l : Lens σ τ) : Member σ α → Member τ α → Prop where
  | active {p : Paused σ α} {p' : Paused τ α} (h : p.Mirrors l p') :
      Mirrors l (.active p) (.active p')
  | ended (e : Ending α) : Mirrors l (.ended e) (.ended e)

theorem Mirrors.ending {m : Member σ α} {m' : Member τ α} (h : m.Mirrors l m') :
    m.ending? = m'.ending? := by
  cases h <;> rfl

end Member

theorem Fiber.Mirrors.poll {m : Fiber σ α} {m' : Fiber τ α} (h : m.Mirrors l m') (s : σ) :
    (Member.ofOutcome ((Paused.start m).poll s).1).Mirrors l
        (.ofOutcome ((Paused.start m').poll (l.get s)).1) ∧
      l.get ((Paused.start m).poll s).2 = ((Paused.start m').poll (l.get s)).2 := by
  induction h generalizing s with
  | done a => exact ⟨.ended _, rfl⟩
  | panic text => exact ⟨.ended _, rfl⟩
  | read _ ih => exact ih s s
  | @update f f' next next' hf _ ih =>
    have h := ih (f s)
    rw [hf s] at h
    exact h
  | @beside f next m' hf _ ih =>
    have h := ih (f s)
    rw [hf s] at h
    exact h
  | block hw hc h => exact ⟨.active ⟨hw, hc, h⟩, rfl⟩

theorem Paused.Mirrors.poll {p : Paused σ α} {p' : Paused τ α} (h : p.Mirrors l p') (s : σ) :
    (Member.ofOutcome (p.poll s).1).Mirrors l (.ofOutcome (p'.poll (l.get s)).1) ∧
      l.get (p.poll s).2 = (p'.poll (l.get s)).2 := by
  rw [p.poll_eq s, p'.poll_eq (l.get s), h.wake s]
  split
  · exact h.next.poll s
  · exact ⟨.active h, rfl⟩

/-- The same move, where others who are not members change the part only. -/
def Move.along (l : Lens σ τ) : Move χ τ → Move χ σ
  | .join call => .join call
  | .poll i => .poll i
  | .drop i => .drop i
  | .others f => .others (l.modify f)

namespace Crowd

/-- The members go on alike, and the part is the state of the other crowd. -/
structure Mirrors (l : Lens σ τ) (c : Crowd σ α) (c' : Crowd τ α) : Prop where
  state : l.get c.state = c'.state
  length : c.members.length = c'.members.length
  member : ∀ (i : Nat) (m : Member σ α) (m' : Member τ α), c.members[i]? = some m →
    c'.members[i]? = some m' → m.Mirrors l m'

namespace Mirrors

variable {program : Nat → χ → Fiber σ α} {program' : Nat → χ → Fiber τ α} {c : Crowd σ α}
  {c' : Crowd τ α}

/-- A place is empty in both crowds, or two members stand there that go on alike. -/
theorem at_place (h : c.Mirrors l c') (i : Nat) :
    c.members[i]? = none ∧ c'.members[i]? = none ∨
      ∃ m m', c.members[i]? = some m ∧ c'.members[i]? = some m' ∧ m.Mirrors l m' := by
  by_cases hi : i < c.members.length
  · have hi' : i < c'.members.length := h.length ▸ hi
    refine .inr ⟨c.members[i], c'.members[i], List.getElem?_eq_getElem hi,
      List.getElem?_eq_getElem hi', ?_⟩
    exact h.member i _ _ (List.getElem?_eq_getElem hi) (List.getElem?_eq_getElem hi')
  · have hi' : ¬ i < c'.members.length := h.length ▸ hi
    exact .inl ⟨List.getElem?_eq_none (by omega), List.getElem?_eq_none (by omega)⟩

theorem set (h : c.Mirrors l c') (i : Nat) {m : Member σ α} {m' : Member τ α}
    (hm : m.Mirrors l m') {s : σ} {t : τ} (hs : l.get s = t) :
    Mirrors l ⟨s, c.members.set i m⟩ ⟨t, c'.members.set i m'⟩ where
  state := hs
  length := by simpa using h.length
  member j n n' hn hn' := by
    have hlength := h.length
    rw [List.getElem?_set] at hn hn'
    by_cases hij : i = j
    · by_cases hi : i < c.members.length
      · have hi' : i < c'.members.length := h.length ▸ hi
        simp only [hij, if_true, hij ▸ hi, hij ▸ hi', Option.some.injEq] at hn hn'
        rwa [← hn, ← hn']
      · simp only [hij, if_true, hij ▸ hi, if_false, reduceCtorEq] at hn
    · simp only [hij, if_false] at hn hn'
      exact h.member j n n' hn hn'

theorem join (h : c.Mirrors l c') {m : Fiber σ α} {m' : Fiber τ α} (hm : m.Mirrors l m') :
    Mirrors l { c with members := c.members ++ [.active (.start m)] }
      { c' with members := c'.members ++ [.active (.start m')] } where
  state := h.state
  length := by simp [h.length]
  member j n n' hn hn' := by
    rw [List.getElem?_append] at hn hn'
    rw [← h.length] at hn'
    by_cases hj : j < c.members.length
    · simp only [hj, if_true] at hn hn'
      exact h.member j n n' hn hn'
    · simp only [hj, if_false] at hn hn'
      have hstart : (Paused.start m).Mirrors l (.start m') := ⟨fun _ => rfl, fun _ => rfl, hm⟩
      obtain rfl := List.mem_singleton.mp (List.mem_of_getElem? hn)
      obtain rfl := List.mem_singleton.mp (List.mem_of_getElem? hn')
      exact .active hstart

theorem step (hp : ∀ i call, (program i call).Mirrors l (program' i call))
    (h : c.Mirrors l c') (m : Move χ τ) :
    (c.step program (m.along l)).Mirrors l (c'.step program' m) := by
  cases m with
  | join call =>
    simp only [Move.along, Crowd.step]
    rw [← h.length]
    exact h.join (hp _ call)
  | poll i =>
    simp only [Move.along, Crowd.step]
    obtain ⟨hi, hi'⟩ | ⟨_, _, hi, hi', ⟨hm⟩ | e⟩ := h.at_place i <;> simp only [hi, hi']
    · exact h
    · obtain ⟨hmember, hstate⟩ := hm.poll c.state
      rw [h.state] at hmember hstate
      exact h.set i hmember hstate
    · exact h
  | drop i =>
    simp only [Move.along, Crowd.step]
    obtain ⟨hi, hi'⟩ | ⟨_, _, hi, hi', ⟨hm⟩ | e⟩ := h.at_place i <;> simp only [hi, hi']
    · exact h
    · exact h.set i (.ended _) (by rw [← h.state]; exact hm.cleanup c.state)
    · exact h
  | others f =>
    refine ⟨?_, h.length, h.member⟩
    simp only [Move.along, Crowd.step, l.get_modify, h.state]

theorem run (hp : ∀ i call, (program i call).Mirrors l (program' i call))
    (moves : List (Move χ τ)) (h : c.Mirrors l c') :
    (c.run program (moves.map (·.along l))).Mirrors l (c'.run program' moves) := by
  induction moves generalizing c c' with
  | nil => exact h
  | cons m moves ih => exact ih (h.step hp m)

theorem endings (h : c.Mirrors l c') : c.endings = c'.endings := by
  apply List.ext_getElem?
  intro i
  simp only [Crowd.endings, List.getElem?_map]
  obtain ⟨hi, hi'⟩ | ⟨m, m', hi, hi', hm⟩ := h.at_place i
  · rw [hi, hi']
    rfl
  · rw [hi, hi', Option.map_some, Option.map_some, hm.ending]

end Mirrors

/-- Nobody has joined yet. -/
theorem Mirrors.start {s : σ} {t : τ} (h : l.get s = t) :
    Mirrors l (⟨s, []⟩ : Crowd σ α) ⟨t, []⟩ :=
  ⟨h, rfl, fun _ _ _ hi => by cases hi⟩

end Crowd

end ClientRuntime
