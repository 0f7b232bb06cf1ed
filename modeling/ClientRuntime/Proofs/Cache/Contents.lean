import ClientRuntime.Cache.Basic

/-!
What becomes of an entry of a cache when others come and go.
-/

namespace ClientRuntime.CacheState

variable {κ ν : Type} [DecidableEq κ] {s : CacheState κ ν} {key key' : κ} {e : Expiring ν}
  {now : Instant}

/-- The contents after a sweep, if one is due. -/
def tidied (period : Duration) (now : Instant) (s : CacheState κ ν) : CacheState κ ν :=
  if s.sweepDue now then s.sweep period now else s

omit [DecidableEq κ] in
/-- What is found is found also among those that are kept. -/
theorem find?_filter_of_find? {p q : κ × Expiring ν → Bool} {a : κ × Expiring ν}
    {l : List (κ × Expiring ν)} (h : l.find? p = some a) (ha : q a = true) :
    (l.filter q).find? p = some a := by
  induction l with
  | nil => cases h
  | cons b l ih =>
    by_cases hb : p b = true
    · rw [List.find?_cons_of_pos hb] at h
      obtain rfl := Option.some.inj h
      rw [List.filter_cons_of_pos ha, List.find?_cons_of_pos hb]
    · rw [List.find?_cons_of_neg hb] at h
      rw [List.filter_cons]
      split
      · rw [List.find?_cons_of_neg hb]
        exact ih h
      · exact ih h

theorem entry?_eq_some : s.entry? key = some e ↔
    s.entries.find? (·.1 = key) = some (key, e) := by
  unfold entry?
  constructor
  · intro h
    obtain ⟨a, ha, rfl⟩ := Option.map_eq_some_iff.mp h
    have hkey : a.1 = key := by simpa using List.find?_some ha
    rw [ha, ← hkey]
  · intro h
    rw [h, Option.map_some]

theorem entry?_erase_of_ne (h : s.entry? key = some e) (hne : key ≠ key') :
    entry? (s.erase key') key = some e := by
  rw [entry?_eq_some] at h ⊢
  exact find?_filter_of_find? h (by simpa using hne)

@[simp] theorem entry?_insert_self : entry? (s.insert key e) key = some e := by
  unfold entry? insert
  simp

theorem entry?_insert_of_ne {e' : Expiring ν} (h : s.entry? key = some e) (hne : key ≠ key') :
    entry? (s.insert key' e') key = some e := by
  have herase := entry?_erase_of_ne h hne
  rw [entry?_eq_some] at herase ⊢
  rw [insert, List.find?_cons_of_neg (by simpa using Ne.symm hne)]
  exact herase

/-- A sweep removes no entry that can still be used. -/
theorem entry?_tidied (h : s.entry? key = some e) (hlive : e.isExpired now = false)
    (period : Duration) : entry? (s.tidied period now) key = some e := by
  unfold tidied
  split
  · rw [entry?_eq_some] at h ⊢
    exact find?_filter_of_find? h (by simpa using hlive)
  · exact h

theorem live?_of_entry? (h : s.entry? key = some e) (hlive : e.isExpired now = false) :
    s.live? now key = some e := by
  simp [live?, h, hlive]

end ClientRuntime.CacheState
