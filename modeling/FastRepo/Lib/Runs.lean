/-
Runs of a partial step function.

A system is a step function `step : σ → ε → Option σ`; an event that is not enabled has no step.

* `run_keeps`, `run_invariant`: an invariant of every step is an invariant of every run.
* `run_history`: the same for a property of the state and the events that led to it;
  `run_history_of` for runs whose steps meet a condition.
* `run_forall_iff`: when one step keeps a property exactly if it meets a condition, a run keeps the
  property in every state it passes exactly if every step of it meets the condition.
* `abstracts_outputs`: when every step acts on an abstraction of the state by its outputs, so does
  every run; `appends_outputs` is the case of a log that steps append to.
* `mem_outputs`: what a run puts out, one of its steps puts out.
* `holds_or_broken`: a property a run starts with holds at its end, or a step of it broke it.
* `length_rises`: a condition becomes true at most once more often than it becomes false.
* `run_project`: a run of a system is a run of each of its components.
* `countP_le_of_budget`: events that use up a budget no step refills happen no more often than the
  budget allows.
-/

import Mathlib.Data.List.Basic
import Mathlib.Data.List.Infix
import Mathlib.Data.List.Induction

namespace Runs

variable {σ ε : Type}

/-- The state after a sequence of events. -/
def run (step : σ → ε → Option σ) : σ → List ε → Option σ
  | s, [] => some s
  | s, e :: es => (step s e).bind fun t => run step t es

variable {step : σ → ε → Option σ}

@[simp] theorem run_nil (s : σ) : run step s [] = some s := rfl

theorem run_cons (s : σ) (e : ε) (es : List ε) :
    run step s (e :: es) = (step s e).bind fun t => run step t es := rfl

theorem run_append (s : σ) (first second : List ε) :
    run step s (first ++ second) = (run step s first).bind fun t => run step t second := by
  induction first generalizing s with
  | nil => rfl
  | cons e es ih =>
    rw [List.cons_append, run_cons, run_cons, Option.bind_assoc]
    congr 1
    funext t
    exact ih t

@[simp] theorem run_singleton (s : σ) (e : ε) : run step s [e] = step s e := by
  rw [run_cons]
  simp

/-- A run that ends in a last event is a run up to it and one step. -/
theorem run_concat_eq_some {s t : σ} {es : List ε} {e : ε} :
    run step s (es ++ [e]) = some t ↔
      ∃ middle, run step s es = some middle ∧ step middle e = some t := by
  rw [run_append, Option.bind_eq_some_iff]
  simp only [run_singleton]

/-- History: **a property of the events so far and the state is kept along every run**. -/
theorem run_history {I : List ε → σ → Prop} {start : σ} (initial : I [] start)
    (keeps : ∀ es e s t, I es s → step s e = some t → I (es ++ [e]) t) {es : List ε} {s : σ}
    (reached : run step start es = some s) : I es s := by
  induction es using List.reverseRecOn generalizing s with
  | nil =>
    cases reached
    exact initial
  | append_singleton es e ih =>
    obtain ⟨middle, before, last⟩ := run_concat_eq_some.mp reached
    exact keeps es e middle s (ih before) last

/-- Invariants: **what every step keeps, every run keeps**. The steps may be restricted to events
that are allowed. -/
theorem run_keeps {I : σ → Prop} {C : ε → Prop} {start : σ} (initial : I start)
    (keeps : ∀ s e t, C e → I s → step s e = some t → I t) {es : List ε}
    (allowed : ∀ e ∈ es, C e) {s : σ} (reached : run step start es = some s) : I s := by
  refine run_history (I := fun es s => (∀ e ∈ es, C e) → I s) (fun _ => initial)
    (fun es e s t before last allowed => ?_) reached allowed
  exact keeps s e t (allowed e (by simp))
    (before fun other member => allowed other (List.mem_append_left _ member)) last

/-- An invariant of the steps of all events. -/
theorem run_invariant {I : σ → Prop} {start : σ} (initial : I start)
    (keeps : ∀ s e t, I s → step s e = some t → I t) {es : List ε} {s : σ}
    (reached : run step start es = some s) : I s :=
  run_keeps (C := fun _ => True) initial (fun s e t _ holds last => keeps s e t holds last)
    (fun _ _ => trivial) reached

/-- The states a run passes. -/
def Passes (step : σ → ε → Option σ) (start : σ) (es : List ε) (s : σ) : Prop :=
  ∃ before, before <+: es ∧ run step start before = some s

/-- The steps a run takes: the state before, and the event. -/
def Takes (step : σ → ε → Option σ) (start : σ) (es : List ε) (s : σ) (e : ε) : Prop :=
  ∃ before, before ++ [e] <+: es ∧ run step start before = some s

theorem Takes.passes {start s : σ} {es : List ε} {e : ε} (taken : Takes step start es s e) :
    Passes step start es s := by
  obtain ⟨before, within, passed⟩ := taken
  exact ⟨before, (List.prefix_append before [e]).trans within, passed⟩

/-- A run that takes a step goes on from the state after it. -/
theorem Takes.rest {start s final : σ} {es : List ε} {e : ε}
    (reached : run step start es = some final) (taken : Takes step start es s e) :
    ∃ t before rest, es = before ++ [e] ++ rest ∧ run step start (before ++ [e]) = some t ∧
      step s e = some t ∧ run step t rest = some final := by
  obtain ⟨before, ⟨rest, rfl⟩, passed⟩ := taken
  rw [run_append] at reached
  obtain ⟨next, toNext, onwards⟩ := Option.bind_eq_some_iff.mp reached
  obtain ⟨middle, toMiddle, last⟩ := run_concat_eq_some.mp toNext
  rw [passed] at toMiddle
  cases toMiddle
  exact ⟨next, before, rest, rfl, toNext, last, onwards⟩

/-- A step of an initial part of a run is a step of the run. -/
theorem Takes.mono {start s : σ} {es more : List ε} {e : ε} (taken : Takes step start es s e)
    (within : es <+: more) : Takes step start more s e := by
  obtain ⟨before, earlier, passed⟩ := taken
  exact ⟨before, earlier.trans within, passed⟩

/-- Every event of a run that has a last state is one of its steps. -/
theorem takes_of_mem {start final : σ} {es : List ε} {e : ε}
    (reached : run step start es = some final) (member : e ∈ es) :
    ∃ s, Takes step start es s e := by
  obtain ⟨before, rest, rfl⟩ := List.append_of_mem member
  rw [run_append] at reached
  obtain ⟨s, passed, _⟩ := Option.bind_eq_some_iff.mp reached
  exact ⟨s, before, ⟨rest, by simp⟩, passed⟩

theorem takes_singleton {start s : σ} {e other : ε} :
    Takes step start [e] s other ↔ s = start ∧ other = e := by
  constructor
  · rintro ⟨before, within, passed⟩
    cases before with
    | nil =>
      cases passed
      exact ⟨rfl, by simpa using within⟩
    | cons first before =>
      have bound := within.length_le
      simp at bound
  · rintro ⟨rfl, rfl⟩
    exact ⟨[], List.prefix_rfl, rfl⟩

/-- History, for runs whose steps meet a condition. -/
theorem run_history_of {I : List ε → σ → Prop} {C : σ → ε → Prop} {start : σ} (initial : I [] start)
    (keeps : ∀ es e s t, C s e → I es s → step s e = some t → I (es ++ [e]) t) {es : List ε}
    (meets : ∀ s e, Takes step start es s e → C s e) {s : σ}
    (reached : run step start es = some s) : I es s := by
  induction es using List.reverseRecOn generalizing s with
  | nil =>
    cases reached
    exact initial
  | append_singleton es e ih =>
    obtain ⟨middle, before, last⟩ := run_concat_eq_some.mp reached
    refine keeps es e middle s (meets middle e ⟨es, List.prefix_rfl, before⟩) (ih ?_ before) last
    exact fun s other taken => meets s other (taken.mono (List.prefix_append es [e]))

/-- In a run that has a last state, the steps it takes are steps to states it passes. -/
theorem Takes.next {start s final : σ} {es : List ε} {e : ε}
    (reached : run step start es = some final) (taken : Takes step start es s e) :
    ∃ t, step s e = some t ∧ Passes step start es t := by
  obtain ⟨t, before, rest, rfl, passed, last, _⟩ := taken.rest reached
  exact ⟨t, last, before ++ [e], List.prefix_append _ _, passed⟩

/-- Conditions: **a run keeps a property exactly if its steps meet the condition**, when that is so
for one step, in states that satisfy an invariant of the system. -/
theorem run_forall_iff {I P : σ → Prop} {C : σ → ε → Prop} {start : σ} (inside : I start)
    (keeps : ∀ s e t, I s → step s e = some t → I t) (initial : P start)
    (one : ∀ s e t, I s → P s → step s e = some t → (P t ↔ C s e)) {es : List ε} {final : σ}
    (reached : run step start es = some final) :
    (∀ s, Passes step start es s → P s) ↔ ∀ s e, Takes step start es s e → C s e := by
  have invariant : ∀ before s, run step start before = some s → I s := fun _ _ reached =>
    run_invariant inside keeps reached
  constructor
  · intro everywhere s e taken
    obtain ⟨before, _, passed⟩ := taken.passes
    obtain ⟨next, last, after⟩ := taken.next reached
    exact (one s e next (invariant before s passed) (everywhere s taken.passes) last).mp
      (everywhere next after)
  · intro conditions s ⟨before, within, passed⟩
    induction before using List.reverseRecOn generalizing s with
    | nil =>
      cases passed
      exact initial
    | append_singleton before e ih =>
      obtain ⟨middle, toMiddle, last⟩ := run_concat_eq_some.mp passed
      have holds := ih middle ((List.prefix_append before [e]).trans within) toMiddle
      exact (one middle e s (invariant before middle toMiddle) holds last).mpr
        (conditions middle e ⟨before, within, toMiddle⟩)

/-- What the steps of a run put out, one after the other. -/
def outputs {ω : Type} (step : σ → ε → Option σ) (output : σ → ε → List ω) : σ → List ε → List ω
  | _, [] => []
  | s, e :: es => output s e ++ (step s e).elim [] fun t => outputs step output t es

/-- Abstraction: **when each step acts on an abstraction of the state by what it puts out, a run
acts on it by all its outputs**. -/
theorem abstracts_outputs {ω α : Type} {output : σ → ε → List ω} (abstraction : σ → α)
    {act : α → ω → α} {I : σ → Prop} {start : σ} (inside : I start)
    (keeps : ∀ s e t, I s → step s e = some t → I t)
    (one : ∀ s e t, I s → step s e = some t →
      abstraction t = (output s e).foldl act (abstraction s)) {es : List ε} {final : σ}
    (reached : run step start es = some final) :
    abstraction final = (outputs step output start es).foldl act (abstraction start) := by
  induction es generalizing start with
  | nil =>
    cases reached
    rfl
  | cons e es ih =>
    obtain ⟨next, first, rest⟩ := Option.bind_eq_some_iff.mp reached
    rw [ih (keeps start e next inside first) rest, outputs, first, List.foldl_append,
      one start e next inside first]
    rfl

/-- Logs: **when each step appends what it puts out to a log, a run appends all its outputs**. -/
theorem appends_outputs {ω : Type} {output : σ → ε → List ω} (log : σ → List ω) {start : σ}
    (one : ∀ s e t, step s e = some t → log t = log s ++ output s e) {es : List ε} {final : σ}
    (reached : run step start es = some final) :
    log final = log start ++ outputs step output start es := by
  have append : ∀ (before items : List ω),
      items.foldl (fun items item => items ++ [item]) before = before ++ items := by
    intro before items
    induction items generalizing before with
    | nil => exact (List.append_nil before).symm
    | cons item items ih => rw [List.foldl_cons, ih, List.append_assoc, List.singleton_append]
  rw [← append]
  refine abstracts_outputs (I := fun _ => True) log trivial (fun _ _ _ _ _ => trivial)
    (fun s e t _ took => ?_) reached
  rw [append]
  exact one s e t took

/-- A step of the rest of a run is a step of the run. -/
theorem Takes.cons {start s t : σ} {es : List ε} {first e : ε} (leads : step start first = some t)
    (taken : Takes step t es s e) : Takes step start (first :: es) s e := by
  obtain ⟨before, within, passed⟩ := taken
  refine ⟨first :: before, ?_, ?_⟩
  · rw [List.cons_append]
    exact (List.cons_prefix_cons).mpr ⟨rfl, within⟩
  · rw [run_cons, leads]
    exact passed

/-- Provenance: **what a run puts out, one of its steps puts out**. -/
theorem mem_outputs {ω : Type} {output : σ → ε → List ω} {start : σ} {es : List ε} {item : ω}
    (member : item ∈ outputs step output start es) :
    ∃ s e, Takes step start es s e ∧ item ∈ output s e := by
  induction es generalizing start with
  | nil => cases member
  | cons e es ih =>
    rcases List.mem_append.mp member with here | later
    · exact ⟨start, e, ⟨[], by simp, rfl⟩, here⟩
    · cases leads : step start e with
      | none =>
        rw [leads] at later
        cases later
      | some next =>
        rw [leads] at later
        obtain ⟨s, event, taken, puts⟩ := ih later
        exact ⟨s, event, taken.cons leads, puts⟩

/-- Budgets: **when every event of a kind uses up some of a budget, and no event adds to it, a run
has no more events of the kind than the budget allows**. -/
theorem countP_le_of_budget {I : σ → Prop} (kind : ε → Bool) (budget : σ → Nat) {start : σ}
    (inside : I start) (keeps : ∀ s e t, I s → step s e = some t → I t)
    (spends : ∀ s e t, I s → step s e = some t →
      budget t + (if kind e then 1 else 0) ≤ budget s) {es : List ε} {final : σ}
    (reached : run step start es = some final) :
    es.countP kind + budget final ≤ budget start := by
  have both := run_history (I := fun es s => I s ∧ es.countP kind + budget s ≤ budget start)
    ⟨inside, by simp⟩ (fun es e s t before last => by
      refine ⟨keeps s e t before.1 last, ?_⟩
      have spent := spends s e t before.1 last
      have soFar := before.2
      rw [List.countP_append, List.countP_singleton]
      omega) reached
  exact both.2

/-- Persistence: **a property a run starts with holds at its end, unless one of its steps broke
it**. -/
theorem holds_or_broken {P : σ → Prop} {B : σ → ε → Prop} {start : σ} (holds : P start)
    (keeps : ∀ s e t, P s → step s e = some t → ¬B s e → P t) {es : List ε} {final : σ}
    (reached : run step start es = some final) :
    P final ∨ ∃ s e, Takes step start es s e ∧ B s e := by
  induction es generalizing start with
  | nil =>
    cases reached
    exact Or.inl holds
  | cons e es ih =>
    obtain ⟨next, leads, rest⟩ := Option.bind_eq_some_iff.mp reached
    by_cases breaks : B start e
    · exact Or.inr ⟨start, e, ⟨[], by simp, rfl⟩, breaks⟩
    · refine (ih (keeps start e next holds leads breaks) rest).imp_right ?_
      rintro ⟨s, event, taken, broken⟩
      exact ⟨s, event, taken.cons leads, broken⟩

/-- The events of a run that make a condition true. -/
def rises (step : σ → ε → Option σ) (condition : σ → Bool) (start : σ) (es : List ε) : List ε :=
  outputs step (fun s e =>
    if condition s = false ∧ (step s e).any condition = true then [e] else []) start es

/-- The events of a run that make a condition false. -/
def falls (step : σ → ε → Option σ) (condition : σ → Bool) (start : σ) (es : List ε) : List ε :=
  outputs step (fun s e =>
    if condition s = true ∧ (step s e).any (fun t => !condition t) = true then [e] else []) start es

/-- Alternation: **a condition that is false at the start of a run becomes true as often as it
becomes false, and once more if it is true at the end**. -/
theorem length_rises (condition : σ → Bool) {start : σ} {es : List ε} {final : σ}
    (reached : run step start es = some final) :
    (rises step condition start es).length + (condition start).toNat =
      (falls step condition start es).length + (condition final).toNat := by
  induction es generalizing start with
  | nil =>
    cases reached
    rfl
  | cons e es ih =>
    obtain ⟨next, leads, rest⟩ := Option.bind_eq_some_iff.mp reached
    have later := ih rest
    unfold rises falls at later ⊢
    simp only [outputs, leads, Option.any_some, Option.elim_some, List.length_append]
    cases here : condition start <;> cases there : condition next <;>
      simp [there] at later ⊢ <;> omega

/-- A step that makes a condition true is among those a run counts. -/
theorem mem_rises {condition : σ → Bool} {start s t : σ} {es : List ε} {e : ε}
    (taken : Takes step start es s e) (before : condition s = false) (took : step s e = some t)
    (after : condition t = true) : e ∈ rises step condition start es := by
  obtain ⟨earlier, ⟨rest, rfl⟩, passed⟩ := taken
  unfold rises
  induction earlier generalizing start with
  | nil =>
    cases passed
    simp [outputs, before, took, after]
  | cons first earlier ih =>
    obtain ⟨next, leads, onwards⟩ := Option.bind_eq_some_iff.mp passed
    simp only [List.cons_append, outputs, leads, Option.elim_some]
    exact List.mem_append_right _ (ih onwards)

/-- Components: **a run of a system is, seen on one of its components, a run of the component**, by
the events that reach it. -/
theorem run_project {σ' ε' : Type} {component : σ' → ε' → Option σ'} (view : σ → σ')
    (reaches : ε → Option ε')
    (one : ∀ s e t, step s e = some t → match reaches e with
      | none => view t = view s
      | some e' => component (view s) e' = some (view t)) {start final : σ} {es : List ε}
    (reached : run step start es = some final) :
    run component (view start) (es.filterMap reaches) = some (view final) := by
  induction es generalizing start with
  | nil =>
    cases reached
    rfl
  | cons e es ih =>
    obtain ⟨next, leads, rest⟩ := Option.bind_eq_some_iff.mp reached
    have seen := one start e next leads
    have later := ih rest
    cases reach : reaches e with
    | none =>
      rw [reach] at seen
      rw [List.filterMap_cons_none reach, ← seen]
      exact later
    | some e' =>
      rw [reach] at seen
      rw [List.filterMap_cons_some reach, run_cons, seen]
      exact later

end Runs
