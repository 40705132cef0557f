import CigCard.Transition.Run
import CigCard.Xdma.Poller

namespace CigCard.Xdma

open Transition

/-- The completion threads, by their index in `cs_threads`, and what an engine records of the one it is given. -/
structure ThreadPool where
  threadCnt : Nat
  workCnt : Nat → Nat
  workList : Nat → List Nat
  cmplthp : Nat → Option Nat
  intrWorkCpu : Nat → Nat

def scanThreads (threadCnt : Nat) (workCnt : Nat → Nat) : Nat → Nat → Nat → Nat → Nat
  | 0, _, _, idx => idx
  | left + 1, i, v, idx =>
    if idx = threadCnt then scanThreads threadCnt workCnt left (i + 1) (workCnt i) i
    else if workCnt i = 0 then i
    else if workCnt i < v then scanThreads threadCnt workCnt left (i + 1) v i
    else scanThreads threadCnt workCnt left (i + 1) v idx

namespace ThreadPool

def chosen (s : ThreadPool) : Nat := scanThreads s.threadCnt s.workCnt s.threadCnt 0 0 s.threadCnt

def xdmaThreadAddWork (engine : Nat) (s : ThreadPool) : ThreadPool :=
  let idx := s.chosen
  { s with
    workList := fun i => if i = idx then s.workList i ++ [engine] else s.workList i
    intrWorkCpu := fun k => if k = engine then idx else s.intrWorkCpu k
    workCnt := fun i => if i = idx then s.workCnt i + 1 else s.workCnt i
    cmplthp := fun k => if k = engine then some idx else s.cmplthp k }

def xdmaThreadRemoveWork (engine : Nat) (s : ThreadPool) : ThreadPool :=
  let cleared := { s with cmplthp := fun k => if k = engine then none else s.cmplthp k }
  match s.cmplthp engine with
  | none => cleared
  | some idx =>
    { cleared with
      workList := fun i => if i = idx then (s.workList i).erase engine else s.workList i
      workCnt := fun i => if i = idx then s.workCnt i - 1 else s.workCnt i }

end ThreadPool

inductive WorkAction where
  | add (engine : Nat)
  | remove (engine : Nat)

namespace ThreadPool

def step (s : ThreadPool) : WorkAction → Option ThreadPool
  | .add engine => if s.cmplthp engine = none then some (s.xdmaThreadAddWork engine) else none
  | .remove engine => some (s.xdmaThreadRemoveWork engine)

structure Created (s : ThreadPool) : Prop where
  positive : 0 < s.threadCnt
  workCnt : ∀ i, s.workCnt i = 0
  workList : ∀ i, s.workList i = []
  cmplthp : ∀ k, s.cmplthp k = none

/-- The counts are the lengths of the lists, and each engine with a thread is on its list, once, and on no other. -/
structure Accounted (s : ThreadPool) : Prop where
  positive : 0 < s.threadCnt
  counted : ∀ i, s.workCnt i = (s.workList i).length
  nodup : ∀ i, (s.workList i).Nodup
  listed : ∀ i k, k ∈ s.workList i ↔ s.cmplthp k = some i
  bounded : ∀ k i, s.cmplthp k = some i → i < s.threadCnt

def Accounted.assignment {s : ThreadPool} (accounted : s.Accounted) (engines : Nat → EngineConfig) : Assignment where
  engines := engines
  workList := s.workList
  nodup := accounted.nodup
  single i j k first second := by
    have one := (accounted.listed i k).mp first
    have two := (accounted.listed j k).mp second
    rw [one] at two
    exact Option.some.inj two

def Least (s : ThreadPool) (i : Nat) : Prop := i < s.threadCnt ∧ ∀ j < s.threadCnt, s.workCnt i ≤ s.workCnt j

/-- A call leaves the lists accounted for, and one that adds an engine has appended it to a list of the least length. -/
def Placed (s : ThreadPool) (action : WorkAction) (next : ThreadPool) : Prop :=
  next.Accounted ∧
    match action with
    | .add engine => ∃ i, s.Least i ∧ next.workList i = s.workList i ++ [engine] ∧
        ∀ j, j ≠ i → next.workList j = s.workList j
    | .remove _ => True

/-- Some thread but the first is idle, or the last thread with less work than the first has the least of all. -/
def LastIsLeast (s : ThreadPool) : Prop :=
  (∃ i, 0 < i ∧ i < s.threadCnt ∧ s.workCnt i = 0) ∨
    ∀ i < s.threadCnt, s.workCnt i < s.workCnt 0 → (∀ j, i < j → j < s.threadCnt → s.workCnt 0 ≤ s.workCnt j) →
      s.Least i

section Scan

variable {threadCnt left i v idx : Nat} {workCnt : Nat → Nat}

/-- From the second thread on: an idle thread ends the scan, else the last one below `v` is taken. -/
theorem scanThreads_spec (all : i + left = threadCnt) (current : idx ≠ threadCnt) :
    (i ≤ scanThreads threadCnt workCnt left i v idx ∧ scanThreads threadCnt workCnt left i v idx < threadCnt ∧
      workCnt (scanThreads threadCnt workCnt left i v idx) = 0) ∨
    (∀ j, i ≤ j → j < threadCnt → workCnt j ≠ 0) ∧
      ((i ≤ scanThreads threadCnt workCnt left i v idx ∧ scanThreads threadCnt workCnt left i v idx < threadCnt ∧
          workCnt (scanThreads threadCnt workCnt left i v idx) < v ∧
          ∀ j, scanThreads threadCnt workCnt left i v idx < j → j < threadCnt → v ≤ workCnt j) ∨
        scanThreads threadCnt workCnt left i v idx = idx ∧ ∀ j, i ≤ j → j < threadCnt → v ≤ workCnt j) := by
  induction left generalizing i idx with
  | zero =>
    right
    exact ⟨fun j above below => by omega, .inr ⟨rfl, fun j above below => by omega⟩⟩
  | succ left ih =>
    rw [scanThreads, if_neg current]
    have from_here : ∀ P : Nat → Prop, P i → (∀ j, i + 1 ≤ j → j < threadCnt → P j) →
        ∀ j, i ≤ j → j < threadCnt → P j := by
      intro P here later j above below
      rcases Nat.eq_or_lt_of_le above with rfl | further
      · exact here
      · exact later j further below
    split_ifs with idle less
    · exact .inl ⟨Nat.le_refl _, by omega, idle⟩
    · obtain ⟨c, same⟩ : ∃ c, scanThreads threadCnt workCnt left (i + 1) v i = c := ⟨_, rfl⟩
      have rest := @ih (i + 1) i (by omega) (by omega)
      rw [same] at rest ⊢
      rcases rest with ⟨above, below, zero⟩ | ⟨busy, found⟩
      · exact .inl ⟨by omega, below, zero⟩
      · refine .inr ⟨from_here _ idle busy, ?_⟩
        rcases found with ⟨above, below, under, after⟩ | ⟨rfl, after⟩
        · exact .inl ⟨by omega, below, under, after⟩
        · exact .inl ⟨Nat.le_refl _, by omega, less, after⟩
    · obtain ⟨c, same⟩ : ∃ c, scanThreads threadCnt workCnt left (i + 1) v idx = c := ⟨_, rfl⟩
      have rest := @ih (i + 1) idx (by omega) current
      rw [same] at rest ⊢
      rcases rest with ⟨above, below, zero⟩ | ⟨busy, found⟩
      · exact .inl ⟨by omega, below, zero⟩
      · refine .inr ⟨from_here _ idle busy, ?_⟩
        rcases found with ⟨above, below, under, after⟩ | ⟨kept, after⟩
        · exact .inl ⟨by omega, below, under, after⟩
        · exact .inr ⟨kept, from_here _ (not_lt.mp less) after⟩

end Scan

section Steps

variable {s next : ThreadPool} {action : WorkAction} {engine : Nat}

theorem chosen_spec (positive : 0 < s.threadCnt) :
    (0 < s.chosen ∧ s.chosen < s.threadCnt ∧ s.workCnt s.chosen = 0) ∨
    (∀ j, 0 < j → j < s.threadCnt → s.workCnt j ≠ 0) ∧
      ((0 < s.chosen ∧ s.chosen < s.threadCnt ∧ s.workCnt s.chosen < s.workCnt 0 ∧
          ∀ j, s.chosen < j → j < s.threadCnt → s.workCnt 0 ≤ s.workCnt j) ∨
        s.chosen = 0 ∧ ∀ j, 0 < j → j < s.threadCnt → s.workCnt 0 ≤ s.workCnt j) := by
  obtain ⟨left, count⟩ := Nat.exists_eq_add_one_of_ne_zero positive.ne'
  have first : s.chosen = scanThreads s.threadCnt s.workCnt left 1 (s.workCnt 0) 0 := by
    unfold chosen
    rw [count, scanThreads, if_pos rfl]
  rw [first]
  exact scanThreads_spec (by omega) positive.ne

theorem chosen_lt (positive : 0 < s.threadCnt) : s.chosen < s.threadCnt := by
  rcases chosen_spec positive with ⟨-, below, -⟩ | ⟨-, ⟨-, below, -⟩ | ⟨zero, -⟩⟩
  · exact below
  · exact below
  · rw [zero]
    exact positive

theorem chosen_least_iff (positive : 0 < s.threadCnt) : s.Least s.chosen ↔ s.LastIsLeast := by
  rcases chosen_spec positive with ⟨later, below, idle⟩ | ⟨busy, ⟨later, below, under, after⟩ | ⟨zero, after⟩⟩
  · refine iff_of_true ⟨below, fun j _ => ?_⟩ (.inl ⟨_, later, below, idle⟩)
    rw [idle]
    exact Nat.zero_le _
  · have none : ¬ ∃ i, 0 < i ∧ i < s.threadCnt ∧ s.workCnt i = 0 := by
      rintro ⟨i, high, low, idle⟩
      exact busy i high low idle
    rw [LastIsLeast, or_iff_right none]
    constructor
    · intro least i low less last
      -- the last thread below the first is the one that was taken
      have same : i = s.chosen := by
        rcases Nat.lt_trichotomy i s.chosen with before | here | behind
        · exact absurd (last _ before below) (not_le.mpr under)
        · exact here
        · exact absurd (after _ behind low) (not_le.mpr less)
      rw [same]
      exact least
    · intro settles
      exact settles _ below under after
  · refine iff_of_true ?_ (.inr ?_)
    · rw [zero]
      refine ⟨positive, fun j low => ?_⟩
      rcases Nat.eq_zero_or_pos j with rfl | high
      · exact Nat.le_refl _
      · exact after j high low
    · intro i low less _
      rcases Nat.eq_zero_or_pos i with rfl | high
      · exact absurd less (Nat.lt_irrefl _)
      · exact absurd (after i high low) (not_le.mpr less)

theorem addWork_accounted (accounted : s.Accounted) (fresh : s.cmplthp engine = none) :
    (s.xdmaThreadAddWork engine).Accounted := by
  have absent : ∀ i, engine ∉ s.workList i := by
    intro i member
    rw [(accounted.listed i engine).mp member] at fresh
    cases fresh
  refine ⟨accounted.positive, fun i => ?_, fun i => ?_, fun i k => ?_, fun k i => ?_⟩
  · unfold xdmaThreadAddWork
    dsimp only
    split
    · rw [List.length_append, accounted.counted i]
      rfl
    · exact accounted.counted i
  · unfold xdmaThreadAddWork
    dsimp only
    split
    · rw [List.nodup_append_comm]
      exact List.nodup_cons.mpr ⟨absent i, accounted.nodup i⟩
    · exact accounted.nodup i
  · have before := accounted.listed i k
    unfold xdmaThreadAddWork
    dsimp only
    by_cases this : k = engine
    · subst this
      rw [if_pos rfl, Option.some.injEq]
      split
      · next here => simp [here]
      · next other => simp [absent i, Ne.symm other]
    · rw [if_neg this]
      split
      · rw [List.mem_append, List.mem_singleton, or_iff_left this]
        exact before
      · exact before
  · unfold xdmaThreadAddWork
    dsimp only
    split
    · intro given
      rw [← Option.some.inj given]
      exact chosen_lt accounted.positive
    · exact accounted.bounded k i

theorem removeWork_accounted (accounted : s.Accounted) : (s.xdmaThreadRemoveWork engine).Accounted := by
  have cleared : ∀ k i, (if k = engine then none else s.cmplthp k) = some i ↔ k ≠ engine ∧ s.cmplthp k = some i := by
    intro k i
    by_cases this : k = engine
    · simp [this]
    · simp [this]
  unfold xdmaThreadRemoveWork
  dsimp only
  split
  · next unassigned =>
    refine ⟨accounted.positive, accounted.counted, accounted.nodup, fun i k => ?_, fun k i given => ?_⟩
    · rw [cleared, accounted.listed i k]
      refine (and_iff_right_of_imp ?_).symm
      rintro given rfl
      rw [unassigned] at given
      cases given
    · exact accounted.bounded k i ((cleared k i).mp given).2
  · next idx assigned =>
    have member : engine ∈ s.workList idx := (accounted.listed idx engine).mpr assigned
    refine ⟨accounted.positive, fun i => ?_, fun i => ?_, fun i k => ?_, fun k i given => ?_⟩
    · dsimp only
      split
      · next here =>
        subst here
        rw [List.length_erase_of_mem member, accounted.counted i]
      · exact accounted.counted i
    · dsimp only
      split
      · exact (accounted.nodup i).erase _
      · exact accounted.nodup i
    · dsimp only
      rw [cleared]
      split
      · rw [(accounted.nodup i).mem_erase_iff, accounted.listed i k]
      · next other =>
        rw [accounted.listed i k]
        refine (and_iff_right_of_imp ?_).symm
        rintro given rfl
        rw [assigned] at given
        exact other (Option.some.inj given).symm
    · exact accounted.bounded k i ((cleared k i).mp given).2

theorem step_accounted (stepped : s.step action = some next) (accounted : s.Accounted) : next.Accounted := by
  cases action with
  | add engine =>
    obtain ⟨fresh, same⟩ := Option.ite_none_right_eq_some.mp stepped
    cases same
    exact addWork_accounted accounted fresh
  | remove engine =>
    cases stepped
    exact removeWork_accounted accounted

/-- Where the calls find the threads so that the scan takes one with the least work. -/
def ScanSettles (s : ThreadPool) (action : WorkAction) (_next : ThreadPool) : Prop :=
  match action with
  | .add _ => s.LastIsLeast
  | .remove _ => True

theorem placed_iff (stepped : s.step action = some next) (accounted : s.Accounted) :
    s.Placed action next ↔ s.ScanSettles action next := by
  have kept := step_accounted stepped accounted
  cases action with
  | remove engine => exact iff_of_true ⟨kept, trivial⟩ trivial
  | add engine =>
    obtain ⟨-, same⟩ := Option.ite_none_right_eq_some.mp stepped
    cases same
    have appended : (s.xdmaThreadAddWork engine).workList s.chosen = s.workList s.chosen ++ [engine] := if_pos rfl
    have others : ∀ j, j ≠ s.chosen → (s.xdmaThreadAddWork engine).workList j = s.workList j :=
      fun j other => if_neg other
    change _ ↔ s.LastIsLeast
    rw [← chosen_least_iff accounted.positive]
    constructor
    · rintro ⟨-, i, least, longer, -⟩
      have here : i = s.chosen := by
        by_contra other
        rw [others i other] at longer
        exact absurd longer.symm (by simp)
      rw [← here]
      exact least
    · intro least
      exact ⟨kept, _, least, appended, others⟩

theorem Created.accounted (created : s.Created) : s.Accounted := by
  refine ⟨created.positive, fun i => ?_, fun i => ?_, fun i k => ?_, fun k i given => ?_⟩
  · rw [created.workCnt i, created.workList i]
    rfl
  · rw [created.workList i]
    exact List.nodup_nil
  · rw [created.workList i, created.cmplthp k]
    simp
  · rw [created.cmplthp k] at given
    cases given

end Steps

theorem run_accounted (s : ThreadPool) (created : s.Created) (actions : List WorkAction) :
    EachStep step (fun _ _ next => next.Accounted) s actions := by
  apply @eachStep_of_invariant _ _ _ Accounted (fun _ _ _ => True) _ _ _ _ created.accounted
    (eachStep_of_forall (fun _ _ _ _ => trivial) _ _)
  intro s action next stepped _ accounted
  have kept := step_accounted stepped accounted
  exact ⟨kept, kept⟩

/-- In a run of calls each engine is added to a thread with the least work if and only if each is added while a thread
    but the first is idle, or the last of the threads with less work than the first has the least. -/
theorem run_placed_iff (s : ThreadPool) (created : s.Created) (actions : List WorkAction) :
    EachStep step Placed s actions ↔ EachStep step ScanSettles s actions := by
  apply @eachStep_congr _ _ _ Accounted (fun _ _ _ => True) _ _ _ _ _ _ created.accounted
    (eachStep_of_forall (fun _ _ _ _ => trivial) _ _)
  · intro s action next stepped _ accounted
    exact step_accounted stepped accounted
  · intro s action next stepped _ accounted
    exact placed_iff stepped accounted

def threeThreads : ThreadPool := ⟨3, fun _ => 0, fun _ => [], fun _ => none, fun _ => 0⟩

theorem threeThreads_created : threeThreads.Created := ⟨by decide, fun _ => rfl, fun _ => rfl, fun _ => rfl⟩

theorem threeThreads_placed :
    EachStep step Placed threeThreads [.add 0, .add 1, .add 2, .remove 1, .add 3] := by
  apply (run_placed_iff threeThreads threeThreads_created _).mpr
  apply (eachStep_cons _ rfl).mpr ⟨(chosen_least_iff (by decide)).mp ⟨by decide, by decide⟩, _⟩
  apply (eachStep_cons _ rfl).mpr ⟨(chosen_least_iff (by decide)).mp ⟨by decide, by decide⟩, _⟩
  apply (eachStep_cons _ rfl).mpr ⟨(chosen_least_iff (by decide)).mp ⟨by decide, by decide⟩, _⟩
  apply (eachStep_cons _ rfl).mpr ⟨trivial, _⟩
  exact (eachStep_cons _ rfl).mpr ⟨(chosen_least_iff (by decide)).mp ⟨by decide, by decide⟩, trivial⟩

def sevenAdded : List WorkAction :=
  [.add 0, .add 1, .add 2, .add 3, .add 4, .add 5, .add 6, .remove 0]

/-- The threads then have three, one and two engines, and the next goes to the third. -/
theorem sevenAdded_misplaced : ¬ EachStep step Placed threeThreads (sevenAdded ++ [.add 7]) := by
  have counts : ∃ loaded, run step threeThreads sevenAdded = some loaded ∧ loaded.cmplthp 7 = none ∧
      loaded.chosen = 2 ∧ loaded.workCnt 2 = 2 ∧ loaded.workCnt 1 = 1 := by
    refine ⟨_, rfl, ?_⟩
    decide +kernel
  obtain ⟨loaded, ran, fresh, third, two, one⟩ := counts
  intro placed
  have stepped : loaded.step (.add 7) = some (loaded.xdmaThreadAddWork 7) := if_pos fresh
  have last := ((eachStep_append ran).mp placed).2 _ stepped
  obtain ⟨-, i, least, longer, others⟩ := last.1
  have here : i = 2 := by
    by_contra other
    have same := others 2 (Ne.symm other)
    have grown : (loaded.xdmaThreadAddWork 7).workList 2 = loaded.workList 2 ++ [7] := if_pos third.symm
    rw [grown] at same
    exact absurd same (by simp)
  rw [here] at least
  have several := least.1
  have most := least.2 1 (by omega)
  omega

end ThreadPool

end CigCard.Xdma
