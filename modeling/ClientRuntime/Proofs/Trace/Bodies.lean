import Mathlib.Data.List.Basic
import ClientRuntime.Proofs.Fiber.Stays
import ClientRuntime.Proofs.Trace.Brackets

/-!
Bodies of scopes. A body is put together from tracing operations, suspension points, guards and
further scopes, in sequence or up to a signal. However it ends, every span that one of its scopes
has opened is closed by then.
-/

namespace ClientRuntime

/-- Where the span of a scope comes from. -/
inductive ScopeOrigin where
  | child (parent : SpanId)
  | tracer (t : Tracer)

namespace ScopeOrigin

variable {η ε α : Type}

def create (o : ScopeOrigin) (id : String) (w : World η) : SpanId × World η :=
  match o with
  | child parent => w.createChild parent id
  | tracer t => t.createSpan id w

def scope (o : ScopeOrigin) (id : String) (body : SpanId → Fiber (World η) (Except ε α)) :
    Fiber (World η) (Except ε α) :=
  match o with
  | child parent => withChildSpan parent id body
  | tracer t => withSpan t id body

theorem scope_eq (o : ScopeOrigin) (id : String)
    (body : SpanId → Fiber (World η) (Except ε α)) :
    o.scope id body = Fiber.modifyGet (o.create id) >>= fun i => spanScope i (body i) := by
  cases o <;> rfl

/-- A scope's span is new, and it is open and without a status. -/
theorem create_opens (o : ScopeOrigin) (id : String) (w : World η) :
    ∃ s : Span, w.Traces [⟨(o.create id w).1, s, .created⟩] (o.create id w).2 ∧
      (o.create id w).2.span (o.create id w).1 = s ∧ s.status = .unset ∧ s.closed = false := by
  have opens (name : String) (path : List String) (parent : Option SpanId) (probe : Probe) :
      ∃ s : Span, w.Traces [⟨(w.createSpan name path parent probe).1, s, .created⟩]
          (w.createSpan name path parent probe).2 ∧
        (w.createSpan name path parent probe).2.span (w.createSpan name path parent probe).1 = s ∧
        s.status = .unset ∧ s.closed = false :=
    ⟨_, .create w name path parent probe,
      World.span_of_append_self (World.createSpan_spans w name path parent probe), rfl, rfl⟩
  cases o with
  | child parent => exact opens _ _ _ _
  | tracer t => cases t <;> exact opens _ _ _ _

end ScopeOrigin

/-- What a scope may do besides closing its own span. A step is made of tracing operations, and may
change whatever is none of tracing's business. -/
inductive TraceBody (η : Type) : Type → Type 1 where
  | pure {α : Type} (a : α) : TraceBody η α
  | panic {α : Type} (text : String) : TraceBody η α
  | step {α : Type} (f : World η → α × World η)
      (traces : ∀ w : World η, ∃ k, w.Traces k (f w).2) : TraceBody η α
  /-- Hands back control, and may be dropped here. -/
  | suspend (wake : World η → Bool) : TraceBody η Unit
  | bind {α β : Type} (m : TraceBody η α) (next : α → TraceBody η β) : TraceBody η β
  | scope {ε α : Type} (o : ScopeOrigin) (id : String)
      (body : SpanId → TraceBody η (Except ε α)) : TraceBody η (Except ε α)
  /-- Holds a guard of a span. -/
  | guard {α : Type} (i : SpanId) (m : TraceBody η α) : TraceBody η α
  /-- Drops what is left of `m` at a signal. -/
  | unlessFired {α : Type} (fired : World η → Bool) (m : TraceBody η α) : TraceBody η (Option α)

namespace TraceBody

variable {η : Type}

def fiber {α : Type} : TraceBody η α → Fiber (World η) α
  | pure a => Pure.pure a
  | panic text => .panic text
  | step f _ => Fiber.modifyGet f
  | suspend wake => .block wake id (.done ())
  | bind m next => m.fiber >>= fun a => (next a).fiber
  | scope o id body => o.scope id fun i => (body i).fiber
  | guard i m => m.fiber.guarded (World.dropGuard i) (World.unwindGuard i)
  | unlessFired fired m => Fiber.giveUpWhen fired (Pure.pure none) (some <$> m.fiber)

/-- Whether the result of a scope is a failure. -/
def failed {ε α : Type} (result : Except ε α) : Bool := !result.isOk

/-- The runs of a body among others: how it ends, what happens to spans until then, and the spans
that its scopes open. -/
inductive Runs (R : World η → World η → Prop) :
    {α : Type} → TraceBody η α → World η → Ending α → World η → List SpanChange → List SpanId →
      Prop where
  | pure {α : Type} {a : α} {w : World η} : Runs R (.pure a) w (.returned a) w [] []
  | panic {α : Type} {text : String} {w : World η} :
      Runs R (.panic text : TraceBody η α) w (.cut (.unwound text)) w [] []
  | step {α : Type} {f : World η → α × World η} {traces} {w : World η} {k : List SpanChange} :
      w.Traces k (f w).2 → Runs R (.step f traces) w (.returned (f w).1) (f w).2 k []
  | resume {wake : World η → Bool} {w w₁ : World η} {k : List SpanChange} :
      R w w₁ → w.Traces k w₁ → wake w₁ = true → Runs R (.suspend wake) w (.returned ()) w₁ k []
  | drop {wake : World η → Bool} {w w₁ : World η} {k : List SpanChange} :
      R w w₁ → w.Traces k w₁ → Runs R (.suspend wake) w (.cut .dropped) w₁ k []
  | bind {α β : Type} {m : TraceBody η α} {next : α → TraceBody η β} {w w₁ w' : World η} {a : α}
      {e : Ending β} {k k' : List SpanChange} {is is' : List SpanId} :
      Runs R m w (.returned a) w₁ k is → Runs R (next a) w₁ e w' k' is' →
      Runs R (.bind m next) w e w' (k ++ k') (is ++ is')
  | bindCut {α β : Type} {m : TraceBody η α} {next : α → TraceBody η β} {w w' : World η} {c : Cut}
      {k : List SpanChange} {is : List SpanId} :
      Runs R m w (.cut c) w' k is → Runs R (.bind m next) w (.cut c) w' k is
  | scope {ε α : Type} {o : ScopeOrigin} {id : String} {body : SpanId → TraceBody η (Except ε α)}
      {w w₁ : World η} {e : Ending (Except ε α)} {opening k closing : List SpanChange}
      {is : List SpanId} : w.Traces opening (o.create id w).2 →
      Runs R (body (o.create id w).1) (o.create id w).2 e w₁ k is →
      w₁.Traces closing (e.closeSpan (o.create id w).1 failed w₁) →
      Runs R (.scope o id body) w e (e.closeSpan (o.create id w).1 failed w₁)
        (opening ++ (k ++ closing)) ((o.create id w).1 :: is)
  | guard {α : Type} {i : SpanId} {m : TraceBody η α} {w w₁ : World η} {e : Ending α}
      {k closing : List SpanChange} {is : List SpanId} : Runs R m w e w₁ k is →
      w₁.Traces closing (e.letGo (World.dropGuard i) (World.unwindGuard i) w₁) →
      Runs R (.guard i m) w e (e.letGo (World.dropGuard i) (World.unwindGuard i) w₁)
        (k ++ closing) is
  | fired {α : Type} {fired : World η → Bool} {m : TraceBody η α} {w : World η} :
      fired w = true → Runs R (.unlessFired fired m) w (.returned none) w [] []
  | unfired {α : Type} {fired : World η → Bool} {m : TraceBody η α} {w w' : World η} {a : α}
      {k : List SpanChange} {is : List SpanId} : Runs R m w (.returned a) w' k is →
      Runs R (.unlessFired fired m) w (.returned (some a)) w' k is
  | stopped {α : Type} {fired : World η → Bool} {m : TraceBody η α} {w w' : World η}
      {k : List SpanChange} {is : List SpanId} : Runs R m w (.cut .dropped) w' k is →
      Runs R (.unlessFired fired m) w (.returned none) w' k is
  | unfiredCut {α : Type} {fired : World η → Bool} {m : TraceBody η α} {w w' : World η} {c : Cut}
      {k : List SpanChange} {is : List SpanId} : Runs R m w (.cut c) w' k is →
      Runs R (.unlessFired fired m) w (.cut c) w' k is

open ClientRuntime.Fiber in
theorem run_scope {R : World η → World η → Prop} {ε α : Type} {o : ScopeOrigin} {id : String}
    {body : SpanId → Fiber (World η) (Except ε α)} {w w' : World η} {e : Ending (Except ε α)} :
    Run R (o.scope id body) w e w' ↔ ∃ w₁,
      Run R (body (o.create id w).1) (o.create id w).2 e w₁ ∧
        w' = e.closeSpan (o.create id w).1 failed w₁ := by
  rw [o.scope_eq, run_modifyGet_bind]
  exact run_spanClosing

/-- Letting go of a guard is made of tracing operations. -/
theorem letGo_traces {α : Type} (i : SpanId) (e : Ending α) (w : World η) :
    ∃ k, w.Traces k (e.letGo (World.dropGuard i) (World.unwindGuard i) w) := by
  cases e with
  | returned a => exact ⟨[], .aside rfl rfl⟩
  | cut c =>
    cases c with
    | unwound text =>
      obtain ⟨k, hk, -⟩ := World.unwindGuard_ends i w
      exact ⟨k, hk⟩
    | dropped =>
      obtain ⟨k, hk, -⟩ := World.dropGuard_ends i w
      exact ⟨k, hk⟩

open ClientRuntime.Fiber in
/-- A run of what a body stands for is a run of the body, whatever it ends with. -/
theorem exists_runs {R : World η → World η → Prop} (hR : ∀ w w', R w w' → ∃ k, w.Traces k w')
    {α : Type} (m : TraceBody η α) {w w' : World η} {e : Ending α} (h : Run R m.fiber w e w') :
    ∃ k is, m.Runs R w e w' k is := by
  induction m generalizing w w' with
  | pure a =>
    obtain ⟨rfl, rfl⟩ := run_pure.mp h
    exact ⟨_, _, .pure⟩
  | panic text =>
    obtain ⟨rfl, rfl⟩ := run_panic.mp h
    exact ⟨_, _, .panic⟩
  | step f traces =>
    obtain ⟨rfl, rfl⟩ := run_modifyGet.mp h
    obtain ⟨k, hk⟩ := traces w
    exact ⟨_, _, .step hk⟩
  | suspend wake =>
    obtain ⟨w₁, hr, ⟨hwake, hrest⟩ | ⟨rfl, rfl⟩⟩ := run_block.mp h
    · obtain ⟨rfl, rfl⟩ := run_done.mp hrest
      obtain ⟨k, hk⟩ := hR _ _ hr
      exact ⟨_, _, .resume hr hk hwake⟩
    · obtain ⟨k, hk⟩ := hR _ _ hr
      exact ⟨_, _, .drop hr hk⟩
  | bind m next ihm ihnext =>
    rcases run_bind.mp h with ⟨a, w₁, hfirst, hrest⟩ | ⟨c, rfl, hcut⟩
    · obtain ⟨k, is, hm⟩ := ihm hfirst
      obtain ⟨k', is', hnext⟩ := ihnext a hrest
      exact ⟨_, _, .bind hm hnext⟩
    · obtain ⟨k, is, hm⟩ := ihm hcut
      exact ⟨_, _, .bindCut hm⟩
  | scope o id body ih =>
    obtain ⟨w₁, hbody, rfl⟩ := run_scope.mp h
    obtain ⟨k, is, hm⟩ := ih _ hbody
    obtain ⟨s, hopening, -⟩ := o.create_opens id w
    obtain ⟨closing, hclosing, -⟩ := World.closeSpan_ends (o.create id w).1 failed e w₁
    exact ⟨_, _, .scope hopening hm hclosing⟩
  | guard i m ih =>
    obtain ⟨w₁, hm, rfl⟩ := run_guarded.mp h
    obtain ⟨k, is, hm⟩ := ih hm
    obtain ⟨closing, hclosing⟩ := letGo_traces i e w₁
    exact ⟨_, _, .guard hm hclosing⟩
  | unlessFired fired m ih =>
    have hsome {e : Ending (Option _)} {w₁ w₂ : World η} (h : Run R (some <$> m.fiber) w₁ e w₂) :
        (∃ a, e = .returned (some a) ∧ Run R m.fiber w₁ (.returned a) w₂) ∨
          ∃ c, e = .cut c ∧ Run R m.fiber w₁ (.cut c) w₂ := by
      rw [map_eq_pure_bind] at h
      rcases run_bind.mp h with ⟨a, w₂, hfirst, hrest⟩ | ⟨c, rfl, hcut⟩
      · obtain ⟨rfl, rfl⟩ := run_pure.mp hrest
        exact .inl ⟨a, rfl, hfirst⟩
      · exact .inr ⟨c, rfl, hcut⟩
    rcases h.giveUpWhen with ⟨hfired, hrun⟩ | ⟨-, hrun | ⟨w₁, hdropped, hrun⟩⟩
    · obtain ⟨rfl, rfl⟩ := run_pure.mp hrun
      exact ⟨_, _, .fired hfired⟩
    · rcases hsome hrun with ⟨a, rfl, hm⟩ | ⟨c, rfl, hm⟩
      · obtain ⟨k, is, hm⟩ := ih hm
        exact ⟨_, _, .unfired hm⟩
      · obtain ⟨k, is, hm⟩ := ih hm
        exact ⟨_, _, .unfiredCut hm⟩
    · obtain ⟨rfl, rfl⟩ := run_pure.mp hrun
      rcases hsome hdropped with ⟨a, ⟨⟩, -⟩ | ⟨c, ⟨⟩, hm⟩
      obtain ⟨k, is, hm⟩ := ih hm
      exact ⟨_, _, .stopped hm⟩

namespace Runs

variable {R : World η → World η → Prop} {α : Type} {m : TraceBody η α} {w w' : World η}
  {e : Ending α} {k : List SpanChange} {is : List SpanId}

theorem traces (h : m.Runs R w e w' k is) : w.Traces k w' := by
  induction h with
  | pure | panic | fired => exact .aside rfl rfl
  | step hk | resume _ hk _ | drop _ hk => exact hk
  | bind _ _ first second => exact first.append second
  | bindCut _ ih | unfired _ ih | stopped _ ih | unfiredCut _ ih => exact ih
  | scope hopening _ hclosing ih => exact hopening.append (ih.append hclosing)
  | guard _ hclosing ih => exact ih.append hclosing

/-- The spans of scopes are new, and all of them are closed in the end. -/
theorem closed (h : m.Runs R w e w' k is) : ∀ j ∈ is,
    w.trace.spans.length ≤ j ∧ j < w'.trace.spans.length ∧ (w'.span j).closed = true := by
  induction h with
  | pure | panic | fired | step | resume | drop => exact nofun
  | bind hm hnext first second =>
    intro j hj
    have before := hm.traces.amounts
    have after := hnext.traces.amounts
    rcases List.mem_append.mp hj with hj | hj
    · obtain ⟨hnew, hlt, hclosed⟩ := first j hj
      exact ⟨hnew, Nat.lt_of_lt_of_le hlt after.length, after.stays_closed hlt hclosed⟩
    · obtain ⟨hnew, hlt, hclosed⟩ := second j hj
      exact ⟨Nat.le_trans before.length hnew, hlt, hclosed⟩
  | bindCut _ ih | unfired _ ih | stopped _ ih | unfiredCut _ ih => exact ih
  | @scope ε α o id body w w₁ e opening k closing is hopening hbody hclosing ih =>
    have hcreated := hopening.amounts
    have hinside := hbody.traces.amounts
    have hend := hclosing.amounts
    intro j hj
    rcases List.mem_cons.mp hj with rfl | hj
    · obtain ⟨s, hopens, hspan, -, hopen⟩ := o.create_opens id w
      have hnew := hopens.amounts.fresh (List.mem_singleton_self _) rfl
      have hlt := Nat.lt_of_lt_of_le (World.lt_of_open (by rw [hspan, hopen])) hinside.length
      exact ⟨hnew, Nat.lt_of_lt_of_le hlt hend.length, World.closeSpan_closed _ failed e w₁⟩
    · obtain ⟨hnew, hlt, hclosed⟩ := ih j hj
      exact ⟨Nat.le_trans hcreated.length hnew, Nat.lt_of_lt_of_le hlt hend.length,
        hend.stays_closed hlt hclosed⟩
  | guard hm hclosing ih =>
    intro j hj
    have hend := hclosing.amounts
    obtain ⟨hnew, hlt, hclosed⟩ := ih j hj
    exact ⟨hnew, Nat.lt_of_lt_of_le hlt hend.length, hend.stays_closed hlt hclosed⟩

/-- Each of them was created once and closed once. -/
theorem closed_once (h : m.Runs R w e w' k is) {j : SpanId} (hj : j ∈ is) :
    k.countP (·.creates j) = 1 ∧ k.countP (·.closes j) = 1 := by
  obtain ⟨hnew, hlt, hclosed⟩ := h.closed j hj
  have hamounts := h.traces.amounts
  exact ⟨by rw [hamounts.creations, if_pos ⟨hnew, hlt⟩],
    hamounts.created_closed_once hnew hlt hclosed⟩

end Runs

end TraceBody

end ClientRuntime
