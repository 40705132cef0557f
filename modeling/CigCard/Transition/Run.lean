import Mathlib.Tactic.Common

namespace Transition

variable {σ α : Type*} (step : σ → α → Option σ)

def run : σ → List α → Option σ
  | s, [] => some s
  | s, a :: as => (step s a).bind fun next => run next as

def EachStep (P : σ → α → σ → Prop) : σ → List α → Prop
  | _, [] => True
  | s, a :: as => ∀ next, step s a = some next → P s a next ∧ EachStep P next as

variable {step}

theorem run_cons {s : σ} {a : α} {as : List α} {last : σ} :
    run step s (a :: as) = some last ↔ ∃ next, step s a = some next ∧ run step next as = some last := by
  simp [run, Option.bind_eq_some_iff]

theorem run_append {s : σ} {first second : List α} {last : σ} :
    run step s (first ++ second) = some last ↔
      ∃ middle, run step s first = some middle ∧ run step middle second = some last := by
  induction first generalizing s with
  | nil => simp [run]
  | cons a first ih =>
    simp only [List.cons_append, run_cons, ih]
    constructor
    · intro ran
      obtain ⟨next, stepped, middle, rest⟩ := ran
      exact ⟨middle, ⟨next, stepped, rest.1⟩, rest.2⟩
    · intro holds
      obtain ⟨middle, ⟨next, stepped, front⟩, rest⟩ := holds
      exact ⟨next, stepped, middle, front, rest⟩

theorem eachStep_cons {P : σ → α → σ → Prop} {s next : σ} {a : α} (as : List α) (stepped : step s a = some next) :
    EachStep step P s (a :: as) ↔ P s a next ∧ EachStep step P next as := by
  constructor
  · intro all
    exact all next stepped
  · intro here other otherStepped
    rw [stepped] at otherStepped
    cases otherStepped
    exact here

theorem eachStep_append {P : σ → α → σ → Prop} {s middle : σ} {first second : List α}
    (ran : run step s first = some middle) :
    EachStep step P s (first ++ second) ↔ EachStep step P s first ∧ EachStep step P middle second := by
  induction first generalizing s with
  | nil =>
    cases ran
    simp [EachStep]
  | cons a first ih =>
    obtain ⟨next, stepped, rest⟩ := run_cons.mp ran
    rw [List.cons_append, eachStep_cons _ stepped, eachStep_cons _ stepped, ih rest, and_assoc]

/-- An invariant that every permitted step keeps holds after every run of permitted steps. -/
theorem run_invariant {I : σ → Prop} {C : σ → α → σ → Prop}
    (keeps : ∀ s a next, step s a = some next → C s a next → I s → I next) {s last : σ} {as : List α}
    (start : I s) (permitted : EachStep step C s as) (ran : run step s as = some last) : I last := by
  induction as generalizing s with
  | nil =>
    cases ran
    exact start
  | cons a as ih =>
    obtain ⟨next, stepped, rest⟩ := run_cons.mp ran
    obtain ⟨here, later⟩ := permitted next stepped
    exact ih (keeps s a next stepped here start) later rest

/-- Along a run of permitted steps, each step has what the invariant gives it. -/
theorem eachStep_of_invariant {I : σ → Prop} {C P : σ → α → σ → Prop}
    (keeps : ∀ s a next, step s a = some next → C s a next → I s → I next ∧ P s a next) {s : σ} {as : List α}
    (start : I s) (permitted : EachStep step C s as) : EachStep step P s as := by
  induction as generalizing s with
  | nil => trivial
  | cons a as ih =>
    intro next stepped
    obtain ⟨allowed, rest⟩ := permitted next stepped
    obtain ⟨kept, here⟩ := keeps s a next stepped allowed start
    exact ⟨here, ih kept rest⟩

/-- Where an invariant makes two properties of a permitted step agree, they agree along every run. -/
theorem eachStep_congr {I : σ → Prop} {C P Q : σ → α → σ → Prop}
    (keeps : ∀ s a next, step s a = some next → C s a next → I s → I next)
    (agree : ∀ s a next, step s a = some next → C s a next → I s → (P s a next ↔ Q s a next)) {s : σ} {as : List α}
    (start : I s) (permitted : EachStep step C s as) : EachStep step P s as ↔ EachStep step Q s as := by
  induction as generalizing s with
  | nil => exact Iff.rfl
  | cons a as ih =>
    constructor
    · intro all next stepped
      obtain ⟨allowed, rest⟩ := permitted next stepped
      obtain ⟨here, later⟩ := all next stepped
      exact ⟨(agree s a next stepped allowed start).mp here,
        (ih (keeps s a next stepped allowed start) rest).mp later⟩
    · intro all next stepped
      obtain ⟨allowed, rest⟩ := permitted next stepped
      obtain ⟨here, later⟩ := all next stepped
      exact ⟨(agree s a next stepped allowed start).mpr here,
        (ih (keeps s a next stepped allowed start) rest).mpr later⟩

theorem eachStep_and {P Q : σ → α → σ → Prop} {s : σ} {as : List α} (first : EachStep step P s as)
    (second : EachStep step Q s as) : EachStep step (fun s a next => P s a next ∧ Q s a next) s as := by
  induction as generalizing s with
  | nil => trivial
  | cons a as ih =>
    intro next stepped
    obtain ⟨p, ps⟩ := first next stepped
    obtain ⟨q, qs⟩ := second next stepped
    exact ⟨⟨p, q⟩, ih ps qs⟩

theorem eachStep_of_actions {Q : α → Prop} {as : List α} (all : ∀ a ∈ as, Q a) (s : σ) :
    EachStep step (fun _ a _ => Q a) s as := by
  induction as generalizing s with
  | nil => trivial
  | cons a as ih => exact fun next _ => ⟨all a (by simp), ih (fun b member => all b (by simp [member])) next⟩

theorem eachStep_of_forall {P : σ → α → σ → Prop} (all : ∀ s a next, step s a = some next → P s a next) (s : σ)
    (as : List α) : EachStep step P s as := by
  induction as generalizing s with
  | nil => trivial
  | cons a as ih => exact fun next stepped => ⟨all s a next stepped, ih next⟩

end Transition
