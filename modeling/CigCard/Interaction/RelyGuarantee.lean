import CigCard.Interaction.Program

namespace Interaction

variable {Op : Type} {Ans : Op → Type} {σ α β : Type}

/-- Whatever the surroundings do in between, every operation is issued in a state that `guard` allows
    and every result is returned in a state that `post` allows. -/
def Program.Ensures (world : World Op Ans σ) (guard : Op → σ → Prop) (post : α → σ → Prop) :
    Program Op Ans α → σ → Prop
  | .pure value, state => ∀ later, Relation.ReflTransGen world.env state later → post value later
  | .call operation rest, state => ∀ later, Relation.ReflTransGen world.env state later →
      guard operation later ∧ ∀ answer after, world.act operation later answer after →
        (rest answer).Ensures world guard post after

def Program.Holds (guard : Op → σ → Prop) (post : α → σ → Prop) : Program Op Ans α → σ → Prop
  | .pure value, state => post value state
  | .call operation _, state => guard operation state

variable {world : World Op Ans σ} {guard : Op → σ → Prop}

theorem Program.Ensures.step {post : α → σ → Prop} {before after : Program Op Ans α × σ}
    (ensured : before.1.Ensures world guard post before.2) (step : Step world before after) :
    after.1.Ensures world guard post after.2 := by
  cases step with
  | @env program _ _ moved =>
    cases program with
    | pure value => exact fun later steps => ensured later (.head moved steps)
    | call operation rest => exact fun later steps => ensured later (.head moved steps)
  | act acted => exact (ensured _ .refl).2 _ _ acted

theorem Program.Ensures.runs {post : α → σ → Prop} {before after : Program Op Ans α × σ}
    (ensured : before.1.Ensures world guard post before.2) (run : Runs world before after) :
    after.1.Ensures world guard post after.2 := by
  induction run with
  | refl => exact ensured
  | tail _ step ih => exact ih.step step

theorem Program.Ensures.holds {post : α → σ → Prop} {program : Program Op Ans α} {state : σ}
    (ensured : program.Ensures world guard post state) : program.Holds guard post state := by
  cases program with
  | pure value => exact ensured state .refl
  | call operation rest => exact (ensured state .refl).1

theorem Program.Ensures.mono {post weaker : α → σ → Prop} {loose : Op → σ → Prop}
    {program : Program Op Ans α} {state : σ} (ensured : program.Ensures world guard post state)
    (guards : ∀ operation s, guard operation s → loose operation s)
    (posts : ∀ value s, post value s → weaker value s) : program.Ensures world loose weaker state := by
  induction program generalizing state with
  | pure value => exact fun later steps => posts _ _ (ensured later steps)
  | call operation rest ih =>
    intro later steps
    obtain ⟨allowed, continues⟩ := ensured later steps
    exact ⟨guards _ _ allowed, fun answer after acted => ih answer (continues answer after acted)⟩

theorem Program.Ensures.bind {program : Program Op Ans α} {next : α → Program Op Ans β} {state : σ}
    {post : β → σ → Prop}
    (ensured : program.Ensures world guard (fun value s => (next value).Ensures world guard post s) state) :
    (program.bind next).Ensures world guard post state := by
  induction program generalizing state with
  | pure value => exact ensured state .refl
  | call operation rest ih =>
    intro later steps
    obtain ⟨allowed, continues⟩ := ensured later steps
    exact ⟨allowed, fun answer after acted => ih answer (continues answer after acted)⟩

def Stable (world : World Op Ans σ) (assertion : σ → Prop) : Prop :=
  ∀ before after, assertion before → world.env before after → assertion after

theorem Stable.steps {assertion : σ → Prop} (stable : Stable world assertion) {before after : σ}
    (holds : assertion before) (steps : Relation.ReflTransGen world.env before after) : assertion after := by
  induction steps with
  | refl => exact holds
  | tail _ moved ih => exact stable _ _ ih moved

/-- A rely-guarantee triple: the rely is the world's own environment relation, the guarantee is `guard`. -/
def Triple (world : World Op Ans σ) (guard : Op → σ → Prop) (pre : σ → Prop) (program : Program Op Ans α)
    (post : α → σ → Prop) : Prop :=
  ∀ state, pre state → program.Ensures world guard post state

theorem Triple.pure {pre : σ → Prop} {post : α → σ → Prop} {value : α} (stable : Stable world pre)
    (result : ∀ s, pre s → post value s) : Triple world guard pre (.pure value) post :=
  fun _ holds _ steps => result _ (stable.steps holds steps)

theorem Triple.call {pre : σ → Prop} {operation : Op} {rest : Ans operation → Program Op Ans α}
    {post : α → σ → Prop} (middle : Ans operation → σ → Prop) (stable : Stable world pre)
    (allowed : ∀ s, pre s → guard operation s)
    (acts : ∀ s answer t, pre s → world.act operation s answer t → middle answer t)
    (continues : ∀ answer, Triple world guard (middle answer) (rest answer) post) :
    Triple world guard pre (.call operation rest) post := by
  intro state holds later steps
  have kept := stable.steps holds steps
  exact ⟨allowed _ kept, fun answer after acted =>
    continues answer after (acts later answer after kept acted)⟩

/-- `Triple.call` as it meets a `do` block: an operation followed by the rest of the program. -/
theorem Triple.perform_bind {pre : σ → Prop} {operation : Op} {next : Ans operation → Program Op Ans α}
    {post : α → σ → Prop} (middle : Ans operation → σ → Prop) (stable : Stable world pre)
    (allowed : ∀ s, pre s → guard operation s)
    (acts : ∀ s answer t, pre s → world.act operation s answer t → middle answer t)
    (continues : ∀ answer, Triple world guard (middle answer) (next answer) post) :
    Triple world guard pre ((Program.perform operation).bind next) post :=
  Triple.call middle stable allowed acts continues

theorem Triple.perform {pre : σ → Prop} {operation : Op} {post : Ans operation → σ → Prop}
    (stable : Stable world pre) (allowed : ∀ s, pre s → guard operation s)
    (acts : ∀ s answer t, pre s → world.act operation s answer t → post answer t)
    (stays : ∀ answer, Stable world (post answer)) :
    Triple world guard pre (Program.perform operation) post :=
  Triple.call post stable allowed acts (fun answer => .pure (stays answer) (fun _ holds => holds))

theorem Triple.bind {pre : σ → Prop} {program : Program Op Ans α} {next : α → Program Op Ans β}
    {post : β → σ → Prop} (middle : α → σ → Prop) (first : Triple world guard pre program middle)
    (second : ∀ value, Triple world guard (middle value) (next value) post) :
    Triple world guard pre (program.bind next) post :=
  fun state holds => .bind ((first state holds).mono (fun _ _ h => h) (fun value s => second value s))

theorem Triple.consequence {pre stronger : σ → Prop} {program : Program Op Ans α}
    {post weaker : α → σ → Prop} (triple : Triple world guard pre program post)
    (pres : ∀ s, stronger s → pre s) (posts : ∀ value s, post value s → weaker value s) :
    Triple world guard stronger program weaker :=
  fun state holds => (triple state (pres state holds)).mono (fun _ _ h => h) posts

theorem Triple.exists_pre {ι : Type} {pre : ι → σ → Prop} {program : Program Op Ans α} {post : α → σ → Prop}
    (each : ∀ i, Triple world guard (pre i) program post) :
    Triple world guard (fun s => ∃ i, pre i s) program post := by
  intro state found
  obtain ⟨i, holds⟩ := found
  exact each i state holds

theorem Triple.given {fact : Prop} {pre : σ → Prop} {program : Program Op Ans α} {post : α → σ → Prop}
    (triple : fact → Triple world guard pre program post) :
    Triple world guard (fun s => fact ∧ pre s) program post := by
  intro state both
  obtain ⟨known, holds⟩ := both
  exact triple known state holds

/-- An assertion that the surroundings cannot invalidate, and neither can the allowed operations, each
    of which the guard lets pass. -/
structure Keeps (world : World Op Ans σ) (guard : Op → σ → Prop) (allowed : Op → Prop) (assertion : σ → Prop) :
    Prop where
  stable : Stable world assertion
  guarded : ∀ operation s, allowed operation → assertion s → guard operation s
  acts : ∀ operation s answer t, allowed operation → assertion s → world.act operation s answer t → assertion t

theorem Triple.keeps {allowed : Op → Prop} {assertion : σ → Prop} {program : Program Op Ans α}
    (keeps : Keeps world guard allowed assertion) (only : program.Only allowed) :
    Triple world guard assertion program (fun _ => assertion) := by
  induction program with
  | pure value => exact .pure keeps.stable fun s holds => holds
  | call operation rest ih =>
    apply Triple.call (fun _ => assertion) keeps.stable
    · exact fun s holds => keeps.guarded operation s only.1 holds
    · exact fun s answer t holds acted => keeps.acts operation s answer t only.1 holds acted
    · exact fun answer => ih answer (only.2 answer)

theorem Triple.keeps_bind {allowed : Op → Prop} {assertion : σ → Prop} {program : Program Op Ans α}
    {next : α → Program Op Ans β} {post : β → σ → Prop} (keeps : Keeps world guard allowed assertion)
    (only : program.Only allowed) (continues : ∀ value, Triple world guard assertion (next value) post) :
    Triple world guard assertion (program.bind next) post :=
  Triple.bind _ (Triple.keeps keeps only) continues

def Unguarded : Op → σ → Prop := fun _ _ => True

/-- Nothing is known and nothing is asked. -/
theorem Triple.skip (program : Program Op Ans α) :
    Triple world Unguarded (fun _ => True) program (fun _ _ => True) := by
  induction program with
  | pure value => exact .pure (fun _ _ _ _ => trivial) fun _ _ => trivial
  | call operation rest ih =>
    exact .call (fun _ _ => True) (fun _ _ _ _ => trivial) (fun _ _ => trivial) (fun _ _ _ _ _ => trivial) ih

theorem Triple.frame {pre fact : σ → Prop} {program : Program Op Ans α} {post : α → σ → Prop}
    (triple : Triple world guard pre program post) (stable : Stable world fact)
    (kept : ∀ operation s answer t, fact s → world.act operation s answer t → fact t) :
    Triple world guard (fun s => pre s ∧ fact s) program (fun value s => post value s ∧ fact s) := by
  intro state both
  obtain ⟨holds, given⟩ := both
  have ensured := triple state holds
  clear holds triple
  induction program generalizing state with
  | pure value => exact fun later steps => ⟨ensured later steps, stable.steps given steps⟩
  | call operation rest ih =>
    intro later steps
    obtain ⟨allowed, continues⟩ := ensured later steps
    exact ⟨allowed, fun answer after acted =>
      ih answer after (kept _ _ _ _ (stable.steps given steps) acted) (continues answer after acted)⟩

theorem Triple.leaves {pre : σ → Prop} {program : Program Op Ans α} {post : α → σ → Prop} {property : α → Prop}
    (triple : Triple world guard pre program post) (leaves : program.Leaves property) :
    Triple world guard pre program (fun value s => post value s ∧ property value) := by
  intro state holds
  have ensured := triple state holds
  clear holds triple
  induction program generalizing state with
  | pure value => exact fun later steps => ⟨ensured later steps, leaves⟩
  | call operation rest ih =>
    intro later steps
    obtain ⟨allowed, continues⟩ := ensured later steps
    exact ⟨allowed, fun answer after acted => ih answer (leaves answer) after (continues answer after acted)⟩

/-- The run rule: a triple bounds every configuration that a run can reach. -/
theorem Triple.reachable {pre : σ → Prop} {program last : Program Op Ans α} {post : α → σ → Prop}
    (triple : Triple world guard pre program post) {start final : σ} (holds : pre start)
    (run : Runs world (program, start) (last, final)) : last.Holds guard post final :=
  ((triple start holds).runs run).holds

def Watch (operation : Op) (assertion : σ → Prop) : Op → σ → Prop := fun issued s => issued = operation → assertion s

structure MeetsAt (world : World Op Ans σ) (program : Program Op Ans α) (start : σ) (operation : Op)
    (assertion : σ → Prop) : Prop where
  reached : ∃ rest state, Runs world (program, start) (.call operation rest, state)
  always : ∀ rest state, Runs world (program, start) (.call operation rest, state) → assertion state

theorem Triple.watched {pre assertion : σ → Prop} {operation : Op} {program : Program Op Ans α} {post : α → σ → Prop}
    (triple : Triple world (Watch operation assertion) pre program post) {start state : σ} (holds : pre start)
    {rest : Ans operation → Program Op Ans α} (run : Runs world (program, start) (.call operation rest, state)) :
    assertion state :=
  triple.reachable holds run rfl

theorem Triple.unwatched {operation : Op} {pre assertion : σ → Prop} {program : Program Op Ans α}
    (only : program.Only (· ≠ operation)) :
    Triple world (Watch operation assertion) pre program (fun _ _ => True) := by
  have keeps : Keeps world (Watch operation assertion) (· ≠ operation) (fun _ => True) := by
    constructor
    · exact fun _ _ _ _ => trivial
    · exact fun issued _ other _ same => absurd same other
    · exact fun _ _ _ _ _ _ _ => trivial
  exact (Triple.keeps keeps only).consequence (fun _ _ => trivial) (fun _ _ _ => trivial)

end Interaction
