import Mathlib.Tactic.Common

namespace Unwinding

variable {ε σ α β γ : Type}

def unwind (program : EStateM ε σ α) (undo : σ → σ) : EStateM ε σ α := fun s =>
  match program.run s with
  | .ok value next => .ok value next
  | .error e next => .error e (undo next)

theorem run_unwind (program : EStateM ε σ α) (undo : σ → σ) (s : σ) :
    (unwind program undo).run s =
      match program.run s with
      | .ok value next => .ok value next
      | .error e next => .error e (undo next) := rfl

/-- From a state that satisfies `pre` the program ends in one that satisfies `post`, or in an error and one that
    satisfies `failed`. -/
def Meets (program : EStateM ε σ α) (pre : σ → Prop) (post : α → σ → Prop) (failed : σ → Prop) : Prop :=
  ∀ s, pre s →
    match program.run s with
    | .ok value next => post value next
    | .error _ next => failed next

section Rules

variable {pre failed : σ → Prop} {post : α → σ → Prop}

theorem Meets.pure (value : α) (holds : ∀ s, pre s → post value s) :
    Meets (Pure.pure value : EStateM ε σ α) pre post failed := holds

theorem Meets.throw (e : ε) (holds : ∀ s, pre s → failed s) :
    Meets (throw e : EStateM ε σ α) pre post failed := holds

theorem Meets.get {post : σ → σ → Prop} (holds : ∀ s, pre s → post s s) :
    Meets (get : EStateM ε σ σ) pre post failed := holds

theorem Meets.modify {post : PUnit → σ → Prop} (f : σ → σ) (holds : ∀ s, pre s → post ⟨⟩ (f s)) :
    Meets (modify f : EStateM ε σ PUnit) pre post failed := holds

theorem Meets.ofExcept (result : Except ε α) (good : ∀ value, result = .ok value → ∀ s, pre s → post value s)
    (bad : ∀ e, result = .error e → ∀ s, pre s → failed s) :
    Meets (ofExcept result : EStateM ε σ α) pre post failed := by
  cases result with
  | ok value => exact good value rfl
  | error e => exact bad e rfl

theorem Meets.bind {program : EStateM ε σ α} {next : α → EStateM ε σ β} {post : β → σ → Prop}
    (middle : α → σ → Prop) (first : Meets program pre middle failed)
    (rest : ∀ value, Meets (next value) (middle value) post failed) :
    Meets (program >>= next) pre post failed := by
  intro s holds
  have reached := first s holds
  rw [EStateM.run_bind]
  cases ran : program.run s with
  | ok value after =>
    rw [ran] at reached
    exact rest value after reached
  | error e after =>
    rw [ran] at reached
    exact reached

theorem Meets.given {program : EStateM ε σ α} {fact : Prop} (meets : fact → Meets program pre post failed) :
    Meets program (fun s => fact ∧ pre s) post failed := fun s holds => meets holds.1 s holds.2

theorem Meets.ite {condition : Prop} [Decidable condition] {yes no : EStateM ε σ α}
    (whenTrue : condition → Meets yes pre post failed) (whenFalse : ¬ condition → Meets no pre post failed) :
    Meets (if condition then yes else no) pre post failed := by
  by_cases holds : condition
  · rw [if_pos holds]
    exact whenTrue holds
  · rw [if_neg holds]
    exact whenFalse holds

theorem Meets.weaken {program : EStateM ε σ α} {stronger : σ → Prop} {tighter : α → σ → Prop} {worse : σ → Prop}
    (meets : Meets program pre tighter worse) (required : ∀ s, stronger s → pre s)
    (good : ∀ value s, tighter value s → post value s) (bad : ∀ s, worse s → failed s) :
    Meets program stronger post failed := by
  intro s holds
  have reached := meets s (required s holds)
  cases ran : program.run s with
  | ok value after =>
    rw [ran] at reached
    exact good value after reached
  | error e after =>
    rw [ran] at reached
    exact bad after reached

theorem Meets.failing {program : EStateM ε σ α} {worse : σ → Prop} (meets : Meets program pre post worse)
    (bad : ∀ s, worse s → failed s) : Meets program pre post failed :=
  meets.weaken (fun _ holds => holds) (fun _ _ holds => holds) bad

theorem Meets.and {program : EStateM ε σ α} {other worse : σ → Prop} {further : α → σ → Prop}
    (one : Meets program pre post failed) (two : Meets program other further worse) :
    Meets program (fun s => pre s ∧ other s) (fun value s => post value s ∧ further value s)
      fun s => failed s ∧ worse s := by
  rintro s ⟨here, there⟩
  have first := one s here
  have second := two s there
  cases ran : program.run s with
  | ok value after =>
    rw [ran] at first second
    exact ⟨first, second⟩
  | error e after =>
    rw [ran] at first second
    exact ⟨first, second⟩

theorem Meets.adaptExcept {ε' : Type} {program : EStateM ε σ α} (f : ε → ε') (meets : Meets program pre post failed) :
    Meets (EStateM.adaptExcept f program) pre post failed := by
  intro s holds
  have reached := meets s holds
  rw [EStateM.run_adaptExcept]
  cases ran : program.run s with
  | ok value after =>
    rw [ran] at reached
    exact reached
  | error e after =>
    rw [ran] at reached
    exact reached

theorem Meets.unwind {program : EStateM ε σ α} {undo : σ → σ} {before : σ → Prop}
    (meets : Meets program pre post before) (undone : ∀ s, before s → failed (undo s)) :
    Meets (unwind program undo) pre post failed := by
  intro s holds
  have reached := meets s holds
  rw [run_unwind]
  cases ran : program.run s with
  | ok value after =>
    rw [ran] at reached
    exact reached
  | error e after =>
    rw [ran] at reached
    exact undone after reached

theorem Meets.exactly {program : EStateM ε σ α} (f : σ → σ)
    (ends : ∀ former, Meets program (fun s => s = former) (fun _ s => s = f former) failed)
    {post : σ → Prop} (holds : ∀ s, pre s → post (f s)) : Meets program pre (fun _ => post) failed := by
  intro s start
  have reached := ends s s rfl
  cases ran : program.run s with
  | ok value after =>
    rw [ran] at reached
    rw [show after = f s from reached]
    exact holds s start
  | error e after =>
    rw [ran] at reached
    exact reached

theorem modify_ends (f : σ → σ) (former : σ) :
    Meets (modify f : EStateM ε σ PUnit) (fun s => s = former) (fun _ s => s = f former) failed := by
  rintro _ rfl
  rfl

theorem get_ends (former : σ) :
    Meets (get : EStateM ε σ σ) (fun s => s = former) (fun now s => now = former ∧ s = former) failed := by
  rintro _ rfl
  exact ⟨rfl, rfl⟩

theorem ofExcept_ends (result : Except ε α) (former : σ) (bad : failed former) :
    Meets (ofExcept result : EStateM ε σ α) (fun s => s = former) (fun _ s => s = former) failed := by
  apply Meets.ofExcept
  · exact fun _ _ _ same => same
  · rintro _ _ _ rfl
    exact bad

/-- A loop whose invariant knows what was gone through. -/
theorem Meets.foldlM {step : β → γ → EStateM ε σ β} (invariant : List γ → β → σ → Prop) {xs : List γ}
    (each : ∀ front x rest b, xs = front ++ x :: rest →
      Meets (step b x) (invariant front b) (invariant (front ++ [x])) failed) (b : β) :
    Meets (xs.foldlM step b) (invariant [] b) (invariant xs) failed := by
  have fromHere : ∀ rest front b, xs = front ++ rest →
      Meets (rest.foldlM step b) (invariant front b) (invariant xs) failed := by
    intro rest
    induction rest with
    | nil =>
      intro front b whole
      rw [List.append_nil] at whole
      subst whole
      exact Meets.pure b fun _ holds => holds
    | cons x rest ih =>
      intro front b whole
      rw [List.foldlM_cons]
      apply Meets.bind _ (each front x rest b whole)
      intro next
      apply ih
      rw [whole, List.append_assoc, List.singleton_append]
  exact fromHere xs [] b rfl

theorem Meets.forM {body : γ → EStateM ε σ PUnit} (invariant : List γ → σ → Prop) {xs : List γ}
    (each : ∀ front x rest, xs = front ++ x :: rest →
      Meets (body x) (invariant front) (fun _ => invariant (front ++ [x])) failed) :
    Meets (xs.forM body) (invariant []) (fun _ => invariant xs) failed := by
  have fromHere : ∀ rest front, xs = front ++ rest →
      Meets (rest.forM body) (invariant front) (fun _ => invariant xs) failed := by
    intro rest
    induction rest with
    | nil =>
      intro front whole
      rw [List.append_nil] at whole
      subst whole
      exact Meets.pure _ fun _ holds => holds
    | cons x rest ih =>
      intro front whole
      apply Meets.bind _ (each front x rest whole)
      intro _
      apply ih
      rw [whole, List.append_assoc, List.singleton_append]
  exact fromHere xs [] rfl

end Rules

def Keeps (invariant : σ → Prop) (program : EStateM ε σ α) : Prop :=
  Meets program invariant (fun _ => invariant) invariant

section Invariants

variable {invariant : σ → Prop}

theorem Keeps.pure (value : α) : Keeps invariant (Pure.pure value : EStateM ε σ α) := Meets.pure value fun _ holds => holds

theorem Keeps.throw (e : ε) : Keeps invariant (throw e : EStateM ε σ α) := Meets.throw e fun _ holds => holds

theorem Keeps.modify {f : σ → σ} (kept : ∀ s, invariant s → invariant (f s)) :
    Keeps invariant (modify f : EStateM ε σ PUnit) := Meets.modify f kept

theorem Keeps.ofExcept (result : Except ε α) : Keeps invariant (ofExcept result : EStateM ε σ α) :=
  Meets.ofExcept result (fun _ _ _ holds => holds) fun _ _ _ holds => holds

theorem Keeps.bind {program : EStateM ε σ α} {next : α → EStateM ε σ β} (first : Keeps invariant program)
    (rest : ∀ value, Keeps invariant (next value)) : Keeps invariant (program >>= next) := Meets.bind _ first rest

theorem Keeps.get : Keeps invariant (get : EStateM ε σ σ) := Meets.get fun _ holds => holds

theorem Keeps.unwind {program : EStateM ε σ α} {undo : σ → σ} (keeps : Keeps invariant program)
    (undone : ∀ s, invariant s → invariant (undo s)) : Keeps invariant (unwind program undo) :=
  Meets.unwind keeps undone

theorem Keeps.forM {xs : List γ} {body : γ → EStateM ε σ PUnit} (each : ∀ x ∈ xs, Keeps invariant (body x)) :
    Keeps invariant (xs.forM body) := by
  induction xs with
  | nil => exact Keeps.pure _
  | cons x xs ih =>
    have rest := ih fun y member => each y (List.mem_cons_of_mem _ member)
    exact Keeps.bind (each x List.mem_cons_self) fun _ => rest

end Invariants

end Unwinding
