import Mathlib.Logic.Function.Basic
import ClientRuntime.Lock

/-!
Who has which ticket. Nobody shares a ticket, so whoever owns the lock owns it alone, and goes on
to own it whatever tickets the others draw and give up.
-/

namespace ClientRuntime.Lock

/-- Each holder's ticket, if it has one, is in the queue, and no two holders have the same. -/
structure Tickets (ticket : Nat → Option Nat) (l : Lock) : Prop where
  queued : ∀ i t, ticket i = some t → t ∈ l.queue
  distinct : ∀ i j t, ticket i = some t → ticket j = some t → i = j
  below : ∀ t ∈ l.queue, t < l.next

variable {ticket : Nat → Option Nat} {l : Lock} {i j t u : Nat}

@[simp] theorem owns_iff : l.owns t = true ↔ l.queue.head? = some t := by
  simp [owns]

/-- Nobody else has the ticket of the owner. -/
theorem Tickets.eq_of_owns (h : Tickets ticket l) (hi : ticket i = some t) (hj : ticket j = some u)
    (ht : l.owns t = true) (hu : l.owns u = true) : i = j := by
  rw [owns_iff] at ht hu
  obtain rfl := Option.some.inj (ht.symm.trans hu)
  exact h.distinct i j t hi hj

theorem Tickets.draw (h : Tickets ticket l) :
    Tickets (Function.update ticket i (some l.next)) l.draw.2 where
  queued j t hj := by
    by_cases hji : j = i
    · subst hji
      rw [Function.update_self] at hj
      obtain rfl := Option.some.inj hj
      simp [Lock.draw]
    · rw [Function.update_of_ne hji] at hj
      have hmem := h.queued j t hj
      simp [Lock.draw, hmem]
  distinct j k t hj hk := by
    -- The new ticket is larger than every other one.
    have hold : ∀ m, m ≠ i → Function.update ticket i (some l.next) m = some t → t < l.next := by
      intro m hm ht
      rw [Function.update_of_ne hm] at ht
      exact h.below t (h.queued m t ht)
    have hnew : Function.update ticket i (some l.next) i = some t → t = l.next := by
      rw [Function.update_self]
      exact fun h => (Option.some.inj h).symm
    by_cases hji : j = i <;> by_cases hki : k = i
    · rw [hji, hki]
    · have := hold k hki hk
      have := hnew (hji ▸ hj)
      omega
    · have := hold j hji hj
      have := hnew (hki ▸ hk)
      omega
    · rw [Function.update_of_ne hji] at hj
      rw [Function.update_of_ne hki] at hk
      exact h.distinct j k t hj hk
  below t ht := by
    rcases List.mem_append.mp ht with ht | ht
    · exact Nat.lt_succ_of_lt (h.below t ht)
    · rw [List.mem_singleton.mp ht]
      exact Nat.lt_succ_self _

/-- Drawing a ticket takes the lock from nobody. -/
theorem owns_draw (ht : l.owns t = true) : l.draw.2.owns t = true := by
  rw [owns_iff] at ht ⊢
  simp [Lock.draw, ht]

theorem Tickets.leave (h : Tickets ticket l) (hi : ticket i = some t) :
    Tickets (Function.update ticket i none) (l.leave t) where
  queued j u hj := by
    by_cases hji : j = i
    · rw [hji, Function.update_self] at hj
      cases hj
    · rw [Function.update_of_ne hji] at hj
      have hne : u ≠ t := fun hut => hji (h.distinct j i t (hut ▸ hj) hi)
      simp [Lock.leave, hne, h.queued j u hj]
  distinct j k u hj hk := by
    have hback : ∀ m, Function.update ticket i none m = some u → ticket m = some u := by
      intro m hm
      by_cases hmi : m = i
      · rw [hmi, Function.update_self] at hm
        cases hm
      · rwa [Function.update_of_ne hmi] at hm
    exact h.distinct j k u (hback j hj) (hback k hk)
  below u hu := h.below u (List.mem_filter.mp hu).1

/-- Another one's ticket can be given up without the lock changing hands. -/
theorem owns_leave (ht : l.owns t = true) (hne : t ≠ u) : (l.leave u).owns t = true := by
  rw [owns_iff] at ht ⊢
  rcases hq : l.queue with _ | ⟨v, queue⟩
  · rw [hq] at ht
    cases ht
  · rw [hq] at ht
    obtain rfl : v = t := Option.some.inj ht
    simp [Lock.leave, hq, hne]

/-- Nobody has a ticket for a lock that nobody queues for. -/
theorem Tickets.none (h : l.queue = []) : Tickets (fun _ => Option.none) l where
  queued _ _ hi := by cases hi
  distinct _ _ _ hi := by cases hi
  below t ht := by rw [h] at ht; cases ht

end ClientRuntime.Lock
