import ClientRuntime.Proofs.Trace.Scopes
import ClientRuntime.Proofs.Trace.Sessions

/-!
What recordings keep of the spans that closed. It is the status that a span had as it closed. A span
that closes without one can be given one later, and then the recording is not told of it.
-/

namespace ClientRuntime

theorem SpanStatus.otherwise_eq_self {a b : SpanStatus} :
    a.otherwise b = a ↔ a ≠ .unset ∨ b = .unset := by
  cases a <;> simp [otherwise]

namespace World

variable {η : Type} {v w : World η} {k k₁ k₂ : List SpanChange} {c : SpanChange}

/-- A span that was closed stays closed, and its status is the one that it closed with, or else the
first one that it was given later. -/
theorem Traces.closing (h : v.Traces k w) (hk : k = k₁ ++ c :: k₂) (hc : c.act = .closed) :
    c.span < w.trace.spans.length ∧ (w.span c.span).closed = true ∧
      (w.span c.span).status = c.seen.status.otherwise (statusSet c.span k₂) := by
  -- the operations that close nothing
  have other {k k₁ k₂ : List SpanChange} (hk : k = k₁ ++ c :: k₂) (hk' : ∀ c ∈ k, c.act ≠ .closed) :
      False := hk' c (by simp [hk]) hc
  induction h generalizing k₁ k₂ with
  | aside | decorate => exact (other hk (by simp)).elim
  | create | mark | post => exact (other hk (by simp)).elim
  | postAll => exact (other hk (by simp)).elim
  | @close w i hopen =>
    obtain ⟨rfl, hc', rfl⟩ : k₁ = [] ∧ c = ⟨i, { w.span i with closed := true }, .closed⟩ ∧
        k₂ = [] := by simpa [eq_comm, List.append_eq_cons_iff] using hk
    subst hc'
    have hi := lt_of_open hopen
    have hspan := span_of_modify (close_spans hopen) i
    rw [if_pos ⟨rfl, hi⟩] at hspan
    refine ⟨?_, by rw [hspan], ?_⟩
    · rw [close_spans hopen, List.length_modify]
      exact hi
    · rw [hspan, statusSet, SpanStatus.otherwise_unset]
  | @append w w₁ w₂ k k' first second ih ih' =>
    rcases List.append_eq_append_iff.mp hk with ⟨m, rfl, hrest⟩ | ⟨m, hfirst, hrest⟩
    · exact ih' hrest
    · cases m with
      | nil =>
        have hsecond : k' = [] ++ c :: k₂ := by simpa using hrest.symm
        exact ih' hsecond
      | cons c' m =>
        obtain ⟨rfl, rfl⟩ : c = c' ∧ k₂ = m ++ k' := by simpa using hrest
        obtain ⟨hi, hclosed, hstatus⟩ := ih hfirst
        refine ⟨Nat.lt_of_lt_of_le hi second.amounts.length,
          second.amounts.stays_closed hi hclosed, ?_⟩
        rw [(second.kept hi).2, hstatus, SpanStatus.otherwise_assoc, statusSet_append]

/-- Recordings keep each closing, with the status of that moment. It is the status of the span ever
after if there was one, or if none is set later on. -/
structure ClosingsKept (k : List SpanChange) (v w : World η) : Prop where
  recorded : ∀ slot < v.trace.recordings.length, (w.trace.recording slot).closed.toList =
    (v.trace.recording slot).closed.toList ++ k.flatMap (·.closings slot)
  status : ∀ k₁ c k₂, k = k₁ ++ c :: k₂ → c.act = .closed →
    (w.span c.span).status = c.seen.status.otherwise (statusSet c.span k₂)
  final : ∀ k₁ c k₂, k = k₁ ++ c :: k₂ → c.act = .closed →
    ((w.span c.span).status = c.seen.status ↔
      c.seen.status ≠ .unset ∨ statusSet c.span k₂ = .unset)

theorem Traces.closingsKept (h : v.Traces k w) : ClosingsKept k v w where
  recorded := h.amounts.closed
  status _ _ _ hk hc := (h.closing hk hc).2.2
  final _ _ _ hk hc := by rw [(h.closing hk hc).2.2, SpanStatus.otherwise_eq_self]

end World

open Simulation (SpanCommand SpanSession) in
/-- Whatever program runs, through whatever handles it closes and marks its spans and however its
scopes end, it does to the trace what some changes of spans do. And whatever spans are changed by,
at any time a recording has the status of a span exactly if the span had one as it closed or has got
none since. -/
theorem recorded_status_final_iff (program : List SpanCommand) (v : SpanSession.State) :
    (∃ k, v.Traces k (SpanSession.finish program v)) ∧
      ∀ k w, v.Traces k w → World.ClosingsKept k v w := by
  obtain ⟨notes, hnotes⟩ := SpanSession.exists_notes program v
  exact ⟨hnotes.traces, fun k w h => h.closingsKept⟩

open Simulation (SpanCommand SpanSession) in
/-- A scope whose body closes its span and then fails, and a root that is marked after it closed. -/
def hastyProgram : List SpanCommand :=
  [.root "r" "r" (.recording 0), .scope (.child "r") "s" "s" [.close "s"] .error, .close "r",
    .setStatus "r" .error]

open Simulation (SpanSession) in
/-- Both spans are recorded as closed without a status, and both have one in the end. -/
theorem recorded_status_not_final :
    let w := SpanSession.finish hastyProgram
      { World.start .epoch .epoch SpanSession.empty with trace := .withRecordings 1 }
    (w.trace.recording 0).closed.toList = [("r/s", .unset), ("r", .unset)] ∧
      (w.span 0).qualifiedId = "r" ∧ (w.span 0).status = .error ∧
      (w.span 1).qualifiedId = "r/s" ∧ (w.span 1).status = .error :=
  ⟨by cbv, by cbv, by cbv, by cbv, by cbv⟩

end ClientRuntime
