import Mathlib.Logic.Relation

namespace Interaction

/-- A sequential program that meets its surroundings only through operations: `call` hands out an
    operation and continues with whatever answer comes back. -/
inductive Program (Op : Type) (Ans : Op → Type) (α : Type) where
  | pure (value : α)
  | call (operation : Op) (rest : Ans operation → Program Op Ans α)

variable {Op : Type} {Ans : Op → Type} {σ α β γ : Type}

namespace Program

def bind (program : Program Op Ans α) (next : α → Program Op Ans β) : Program Op Ans β :=
  match program with
  | .pure value => next value
  | .call operation rest => .call operation (fun answer => (rest answer).bind next)

instance : Monad (Program Op Ans) where
  pure := Program.pure
  bind := Program.bind

def perform (operation : Op) : Program Op Ans (Ans operation) := .call operation .pure

@[simp] theorem pure_eq (value : α) : (Pure.pure value : Program Op Ans α) = .pure value := rfl

@[simp] theorem bind_eq (program : Program Op Ans α) (next : α → Program Op Ans β) :
    program >>= next = program.bind next := rfl

@[simp] theorem pure_bind (value : α) (next : α → Program Op Ans β) :
    (Program.pure value).bind next = next value := rfl

@[simp] theorem call_bind (operation : Op) (rest : Ans operation → Program Op Ans α)
    (next : α → Program Op Ans β) :
    (Program.call operation rest).bind next = .call operation (fun answer => (rest answer).bind next) := rfl

@[simp] theorem bind_pure (program : Program Op Ans α) : program.bind .pure = program := by
  induction program with
  | pure value => rfl
  | call operation rest ih =>
    simp only [call_bind]
    congr 1
    funext answer
    exact ih answer

@[simp] theorem bind_assoc (program : Program Op Ans α) (first : α → Program Op Ans β)
    (second : β → Program Op Ans γ) :
    (program.bind first).bind second = program.bind (fun value => (first value).bind second) := by
  induction program with
  | pure value => rfl
  | call operation rest ih =>
    simp only [call_bind]
    congr 1
    funext answer
    exact ih answer

def Only (allowed : Op → Prop) : Program Op Ans α → Prop
  | .pure _ => True
  | .call operation rest => allowed operation ∧ ∀ answer, (rest answer).Only allowed

theorem Only.pure (allowed : Op → Prop) (value : α) : (Program.pure value : Program Op Ans α).Only allowed :=
  trivial

theorem Only.perform {allowed : Op → Prop} {operation : Op} (fine : allowed operation) :
    (Program.perform operation : Program Op Ans _).Only allowed := ⟨fine, fun _ => trivial⟩

theorem Only.bind {allowed : Op → Prop} {program : Program Op Ans α} {next : α → Program Op Ans β}
    (first : program.Only allowed) (second : ∀ value, (next value).Only allowed) :
    (program.bind next).Only allowed := by
  induction program with
  | pure value => exact second value
  | call operation rest ih => exact ⟨first.1, fun answer => ih answer (first.2 answer)⟩

theorem Only.mono {allowed looser : Op → Prop} {program : Program Op Ans α} (only : program.Only allowed)
    (weaker : ∀ operation, allowed operation → looser operation) : program.Only looser := by
  induction program with
  | pure value => trivial
  | call operation rest ih => exact ⟨weaker _ only.1, fun answer => ih answer (only.2 answer)⟩

def Leaves (property : α → Prop) : Program Op Ans α → Prop
  | .pure value => property value
  | .call _ rest => ∀ answer, (rest answer).Leaves property

theorem Leaves.bind {property : β → Prop} {program : Program Op Ans α} {next : α → Program Op Ans β}
    (leaves : program.Leaves fun value => (next value).Leaves property) : (program.bind next).Leaves property := by
  induction program with
  | pure value => exact leaves
  | call operation rest ih => exact fun answer => ih answer (leaves answer)

theorem Leaves.of_forall {property : α → Prop} (program : Program Op Ans α) (all : ∀ value, property value) :
    program.Leaves property := by
  induction program with
  | pure value => exact all value
  | call operation rest ih => exact fun answer => ih answer

theorem Leaves.mono {property weaker : α → Prop} {program : Program Op Ans α} (leaves : program.Leaves property)
    (implies : ∀ value, property value → weaker value) : program.Leaves weaker := by
  induction program with
  | pure value => exact implies value leaves
  | call operation rest ih => exact fun answer => ih answer (leaves answer)

/-- A program returns something, whatever the answers are, so it cannot leave only contradictions. -/
theorem Leaves.clash [∀ operation, Nonempty (Ans operation)] {left right : α → Prop} {program : Program Op Ans α}
    (first : program.Leaves left) (second : program.Leaves right) (clash : ∀ value, left value → ¬ right value) :
    False := by
  induction program with
  | pure value => exact clash value first second
  | call operation rest ih =>
    obtain ⟨answer⟩ : Nonempty (Ans operation) := inferInstance
    exact ih answer (first answer) (second answer)

theorem Leaves.skip {property : β → Prop} {program : Program Op Ans α} {next : α → Program Op Ans β}
    (rest : ∀ value, (next value).Leaves property) : (program.bind next).Leaves property :=
  .bind (.of_forall program rest)

end Program

/-- What the operations may do to the shared state, and what the surroundings may do to it by
    themselves between two operations. -/
structure World (Op : Type) (Ans : Op → Type) (σ : Type) where
  act : (operation : Op) → σ → Ans operation → σ → Prop
  env : σ → σ → Prop

inductive Step (world : World Op Ans σ) : Program Op Ans α × σ → Program Op Ans α × σ → Prop where
  | env {program : Program Op Ans α} {before after : σ} :
      world.env before after → Step world (program, before) (program, after)
  | act {operation : Op} {rest : Ans operation → Program Op Ans α} {before after : σ}
      {answer : Ans operation} :
      world.act operation before answer after →
        Step world (.call operation rest, before) (rest answer, after)

abbrev Runs (world : World Op Ans σ) : Program Op Ans α × σ → Program Op Ans α × σ → Prop :=
  Relation.ReflTransGen (Step world)

theorem Runs.act {world : World Op Ans σ} {operation : Op}
    {rest : Ans operation → Program Op Ans α} {before after : σ} {answer : Ans operation}
    (acted : world.act operation before answer after) :
    Runs world (.call operation rest, before) (rest answer, after) :=
  .single (.act acted)

theorem Runs.env {world : World Op Ans σ} {program : Program Op Ans α} {before after : σ}
    (moved : world.env before after) : Runs world (program, before) (program, after) :=
  .single (.env moved)

theorem Runs.mono {narrow wide : World Op Ans σ} {start final : Program Op Ans α × σ} (run : Runs narrow start final)
    (acts : ∀ operation before answer after, narrow.act operation before answer after →
      wide.act operation before answer after)
    (envs : ∀ before after, narrow.env before after → wide.env before after) : Runs wide start final := by
  induction run with
  | refl => exact .refl
  | tail _ step ih =>
    cases step with
    | env moved => exact ih.tail (.env (envs _ _ moved))
    | act acted => exact ih.tail (.act (acts _ _ _ _ acted))

theorem Program.Leaves.runs {world : World Op Ans σ} {property : α → Prop} {before after : Program Op Ans α × σ}
    (leaves : before.1.Leaves property) (run : Runs world before after) : after.1.Leaves property := by
  induction run with
  | refl => exact leaves
  | tail _ step ih =>
    cases step with
    | env moved => exact ih
    | act acted => exact ih _

theorem Runs.bind {world : World Op Ans σ} {first last : Program Op Ans α} {before after : σ}
    (run : Runs world (first, before) (last, after)) (next : α → Program Op Ans β) :
    Runs world (first.bind next, before) (last.bind next, after) := by
  generalize source : (first, before) = start at run
  generalize target : (last, after) = final at run
  induction run generalizing last after with
  | refl =>
    obtain ⟨rfl, rfl⟩ := Prod.mk.inj (source.trans target.symm)
    exact .refl
  | tail _ step ih =>
    subst target
    cases step with
    | env moved => exact (ih rfl).tail (.env moved)
    | act acted => exact (ih rfl).tail (.act acted)

def World.Total (world : World Op Ans σ) : Prop :=
  ∀ operation state, ∃ answer after, world.act operation state answer after

theorem World.Total.through {world : World Op Ans σ} (total : world.Total) (program : Program Op Ans α)
    (next : α → Program Op Ans β) (state : σ) :
    ∃ value later, Runs world (program.bind next, state) (next value, later) := by
  induction program generalizing state with
  | pure value => exact ⟨value, state, .refl⟩
  | call operation rest ih =>
    obtain ⟨answer, after, acted⟩ := total operation state
    obtain ⟨value, later, run⟩ := ih answer after
    exact ⟨value, later, .head (.act acted) run⟩

def Reaches (world : World Op Ans σ) (start : Program Op Ans α × σ) (goal : Program Op Ans α × σ → Prop) : Prop :=
  ∃ final, Runs world start final ∧ goal final

theorem Reaches.refl {world : World Op Ans σ} {start : Program Op Ans α × σ}
    {goal : Program Op Ans α × σ → Prop} (here : goal start) : Reaches world start goal :=
  ⟨start, .refl, here⟩

theorem Reaches.after {world : World Op Ans σ} {start middle : Program Op Ans α × σ}
    {goal : Program Op Ans α × σ → Prop} (run : Runs world start middle) (rest : Reaches world middle goal) :
    Reaches world start goal := by
  obtain ⟨final, later, reached⟩ := rest
  exact ⟨final, run.trans later, reached⟩

theorem Reaches.trans {world : World Op Ans σ} {start : Program Op Ans α × σ}
    {goal final : Program Op Ans α × σ → Prop} (first : Reaches world start goal)
    (second : ∀ middle, goal middle → Reaches world middle final) : Reaches world start final := by
  obtain ⟨middle, run, reached⟩ := first
  exact (second middle reached).after run

end Interaction
