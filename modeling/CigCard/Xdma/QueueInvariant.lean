import CigCard.Xdma.DriverSteps
import Mathlib.Data.List.Nodup
import Mathlib.Data.Set.Defs

namespace CigCard.Xdma

open Transition

def Thread.placed (t : Thread) (tfer : Nat) : Prop :=
  match t.kind with
  | .submit => tfer = 0 ∧ (t.phase = .waiting ∨ t.phase = .retiring false ∨ t.phase = .leaving ∨ t.phase = .returned)
  | .nowait => tfer < t.tferIdx
  | .perf => tfer = 0 ∧ t.phase = .returned

theorem Thread.not_placed {t : Thread} (early : t.phase = .building ∨ t.phase = .checking ∨ t.phase = .queueing)
    (i : Nat) : ¬ t.placed (t.ptr i).tfer := by
  cases kind : t.kind with
  | submit =>
    simp only [Thread.placed, kind]
    rcases early with phase | phase | phase <;> simp [phase]
  | nowait => simp [Thread.placed, Thread.ptr, kind]
  | perf =>
    simp only [Thread.placed, kind]
    rcases early with phase | phase | phase <;> simp [phase]

@[simp] theorem Thread.ptr_block (t : Thread) (i : Nat) : (t.ptr i).block = i := by
  unfold Thread.ptr
  split <;> rfl

theorem Thread.ptr_submit {t : Thread} (i : Nat) (kind : t.kind = .submit) : t.ptr i = ⟨i, 0⟩ := by
  simp [Thread.ptr, kind]

theorem queuedThread_self {t : Thread} (i : Nat) : t.queued.placed (t.ptr i).tfer := by
  cases kind : t.kind with
  | submit => simp [Thread.queued, Thread.placed, Thread.ptr, kind]
  | nowait => simp [Thread.queued, Thread.placed, Thread.ptr, kind]
  | perf => simp [Thread.queued, Thread.placed, Thread.ptr, kind]

theorem queuedThread_placed {t : Thread} {k : Nat} (placed : t.placed k)
    (early : t.phase ≠ .waiting ∧ t.phase ≠ .retiring false ∧ t.phase ≠ .leaving ∧ t.phase ≠ .returned) :
    t.queued.placed k := by
  unfold Thread.placed at placed
  cases kind : t.kind with
  | submit => simp [kind, early] at placed
  | nowait =>
    simp only [kind] at placed
    simp only [Thread.queued, Thread.placed, kind]
    omega
  | perf => simp [kind, early] at placed

theorem queuedThread_called (t : Thread) : t.queued.phase ≠ .notCalled := by
  rcases queued_phase t with ⟨phase, -⟩ | phase | phase
  · simp [phase]
  · simp [phase]
  · simp [phase]

def Transfer.covers (t : Transfer) (s : Nat) : Prop := t.descIndex ≤ s ∧ s < t.descIndex + t.descNum

def outstanding (d : Driver) : Set Ptr := fun p =>
  p ∈ d.engine.transferList ∨
    ∃ i, ((d.threads i).phase = .checking ∨ (d.threads i).phase = .queueing) ∧ p = (d.threads i).ptr i

/-- Every transfer is on the list at most once, was queued by its call, and is not finished. -/
structure QueueInv (d : Driver) : Prop where
  nodup : d.engine.transferList.Nodup
  placed : ∀ p ∈ d.engine.transferList, (d.threads p.block).placed p.tfer
  state : ∀ p ∈ d.engine.transferList, (d.engine.tfer p).state = .submitted ∨ (d.engine.tfer p).state = .aborted
  called : ∀ p ∈ d.engine.transferList, (d.threads p.block).phase ≠ .notCalled

namespace QueueInv

variable {cfg : EngineConfig} {d next : Driver}

theorem fresh (inv : QueueInv d) {i : Nat}
    (early : (d.threads i).phase = .building ∨ (d.threads i).phase = .checking ∨ (d.threads i).phase = .queueing) :
    (d.threads i).ptr i ∉ d.engine.transferList := by
  intro member
  have placed := inv.placed _ member
  rw [Thread.ptr_block] at placed
  exact Thread.not_placed early i placed

theorem thread (inv : QueueInv d) {i : Nat} (list : next.engine.transferList = d.engine.transferList)
    (state : ∀ p ∈ d.engine.transferList, (next.engine.tfer p).state = (d.engine.tfer p).state)
    (others : ∀ j, j ≠ i → next.threads j = d.threads j)
    (placed : ∀ p ∈ d.engine.transferList, p.block = i → (d.threads i).placed p.tfer → (next.threads i).placed p.tfer)
    (called : (next.threads i).phase ≠ .notCalled) : QueueInv next := by
  refine ⟨by rw [list]; exact inv.nodup, ?_, ?_, ?_⟩
  · intro p member
    rw [list] at member
    by_cases here : p.block = i
    · have before := inv.placed p member
      rw [here] at before ⊢
      exact placed p member here before
    · rw [others _ here]
      exact inv.placed p member
  · intro p member
    rw [list] at member
    rw [state p member]
    exact inv.state p member
  · intro p member
    rw [list] at member
    by_cases here : p.block = i
    · rw [here]
      exact called
    · rw [others _ here]
      exact inv.called p member

theorem shrink (inv : QueueInv d) (sub : next.engine.transferList.Sublist d.engine.transferList)
    (state : ∀ p ∈ next.engine.transferList, (next.engine.tfer p).state = (d.engine.tfer p).state)
    (threads : next.threads = d.threads) : QueueInv next := by
  refine ⟨inv.nodup.sublist sub, ?_, ?_, ?_⟩
  · intro p member
    rw [threads]
    exact inv.placed p (sub.subset member)
  · intro p member
    rw [state p member]
    exact inv.state p (sub.subset member)
  · intro p member
    rw [threads]
    exact inv.called p (sub.subset member)

end QueueInv

/-- A change of phase keeps the transfers placed, if no waiting call goes on to build another one. -/
theorem Thread.placed_phase {t : Thread} {phase : Phase} {k : Nat} (placed : t.placed k)
    (early : t.phase ≠ .waiting ∧ t.phase ≠ .retiring false ∧ t.phase ≠ .leaving ∧ t.phase ≠ .returned) :
    { t with phase := phase }.placed k := by
  unfold Thread.placed at placed ⊢
  cases kind : t.kind with
  | submit => simp [kind, early] at placed
  | nowait => simpa [kind] using placed
  | perf => simp [kind, early] at placed

theorem Thread.placed_late {t : Thread} {phase : Phase} {k : Nat} (placed : t.placed k)
    (late : t.phase ≠ .returned) (after : phase = .retiring false ∨ phase = .leaving ∨ phase = .returned) :
    { t with phase := phase }.placed k := by
  unfold Thread.placed at placed ⊢
  cases kind : t.kind with
  | submit =>
    simp only [kind] at placed ⊢
    exact ⟨placed.1, .inr after⟩
  | nowait => simpa [kind] using placed
  | perf => simp [kind, late] at placed

theorem queueInv_init {cfg : EngineConfig} {d : Driver} {i : Nat} (inv : QueueInv d)
    (building : (d.threads i).phase = .building) : QueueInv (stepInit cfg i d) := by
  have fresh := inv.fresh (.inl building)
  have away : ∀ p ∈ d.engine.transferList, p ≠ (d.threads i).ptr i := by
    intro p member same
    rw [same] at member
    exact fresh member
  by_cases kind : (d.threads i).kind = .perf
  · rw [stepInit_perf kind]
    refine inv.thread (i := i) rfl ?_ (fun j other => setPhase_other _ _ other) ?_ (by simp)
    · intro p member
      simp [perfInit, Engine.setTransfer, away p member]
    · intro p _ _ placed
      rw [setPhase_self]
      exact Thread.placed_phase placed (by simp [building])
  · rw [stepInit_transfer kind]
    have init := initialized_spec cfg d i
    refine inv.thread (i := i) init.list ?_ (fun j other => setThread_other _ _ other) ?_ (by simp)
    · intro p member
      exact congrArg Transfer.state (init.others p (away p member))
    · intro p _ _ placed
      simp only [setThread_self]
      exact @Thread.placed_phase _ .checking _ placed (by simp [building])

theorem queueInv_queue {d : Driver} {i : Nat} {hw : Hardware} (inv : QueueInv d)
    (queueing : (d.threads i).phase = .queueing) : QueueInv (stepQueue i hw d) := by
  have fresh := inv.fresh (.inr (.inr queueing))
  have early : (d.threads i).phase ≠ .waiting ∧ (d.threads i).phase ≠ .retiring false ∧
      (d.threads i).phase ≠ .leaving ∧ (d.threads i).phase ≠ .returned := by simp [queueing]
  cases queued : transferQueue hw ((d.threads i).ptr i) d.engine with
  | none =>
    rw [stepQueue_rejected queued]
    refine inv.thread (i := i) rfl (fun p _ => rfl) (fun j other => setPhase_other _ _ other) ?_ (by simp)
    intro p _ _ placed
    rw [setPhase_self]
    exact Thread.placed_phase placed early
  | some engine =>
    obtain ⟨-, list, tfer, -⟩ := transferQueue_spec queued
    rw [stepQueue_accepted queued]
    refine ⟨?_, ?_, ?_, ?_⟩
    · simp only [setThread_engine, list]
      rw [List.nodup_append]
      refine ⟨inv.nodup, List.nodup_singleton _, ?_⟩
      intro p member q last same
      rw [List.mem_singleton] at last
      rw [same, last] at member
      exact fresh member
    · intro p member
      simp only [setThread_engine] at member
      by_cases here : p.block = i
      · rw [here, setThread_self]
        rcases transferQueue_member queued member with old | same
        · have placed := inv.placed p old
          rw [here] at placed
          exact queuedThread_placed placed early
        · subst same
          exact queuedThread_self i
      · rw [setThread_other _ _ here]
        rcases transferQueue_member queued member with old | same
        · exact inv.placed p old
        · exact absurd (by rw [same, Thread.ptr_block]) here
    · intro p member
      simp only [setThread_engine, tfer] at member ⊢
      rcases transferQueue_member queued member with old | same
      · by_cases here : p = (d.threads i).ptr i
        · exact .inl (by simp [here])
        · simpa [here] using inv.state p old
      · exact .inl (by simp [same])
    · intro p member
      simp only [setThread_engine] at member
      by_cases here : p.block = i
      · rw [here, setThread_self]
        exact queuedThread_called _
      · rw [setThread_other _ _ here]
        rcases transferQueue_member queued member with old | same
        · exact inv.called p old
        · exact absurd (by rw [same, Thread.ptr_block]) here

theorem queueInv_call {d : Driver} {i : Nat} {kind : CallKind} {sdesc : List SwDesc} {epAddr : Nat}
    (inv : QueueInv d) (uncalled : (d.threads i).phase = .notCalled) : QueueInv (stepCall i kind sdesc epAddr d) := by
  have absent : ∀ p ∈ d.engine.transferList, p.block ≠ i := by
    intro p member here
    have called := inv.called p member
    rw [here] at called
    exact called uncalled
  have started : ∀ (engine : Engine) (t : Thread), engine.transferList = d.engine.transferList →
      engine.tfer = d.engine.tfer → t.phase ≠ .notCalled → QueueInv { d.setThread i t with engine } := by
    intro engine t list tfer called
    refine inv.thread (i := i) list (fun p _ => by rw [tfer]) (fun j other => setThread_other _ _ other) ?_ ?_
    · intro p member here
      exact absurd here (absent p member)
    · simpa using called
  cases kind with
  | submit =>
    apply started d.engine _ rfl rfl
    split <;> simp
  | nowait =>
    apply started d.engine _ rfl rfl
    split <;> simp
  | perf =>
    simp only [stepCall]
    cases perf : d.engine.xdmaPerf with
    | some run => exact started d.engine _ rfl rfl (by simp)
    | none => exact started _ _ rfl rfl (by simp)

theorem queueInv_phase {d : Driver} {i : Nat} {phase : Phase} (inv : QueueInv d)
    (placed : ∀ k, (d.threads i).placed k → { d.threads i with phase := phase }.placed k)
    (called : phase ≠ .notCalled) : QueueInv (d.setPhase i phase) := by
  refine inv.thread (i := i) rfl (fun p _ => rfl) (fun j other => setPhase_other _ _ other) ?_ ?_
  · intro p _ _ before
    rw [setPhase_self]
    exact placed _ before
  · simpa using called

/-- A waiting call either takes its transfer off the list, or goes on without success. -/
theorem queueInv_settle {d : Driver} {i : Nat} {dumpOk : Bool} {hw : Hardware} (inv : QueueInv d)
    (waiting : (d.threads i).phase = .waiting) : QueueInv (stepSettle i dumpOk hw d) := by
  have late : ∀ k, (d.threads i).placed k → { d.threads i with phase := .retiring false }.placed k :=
    fun k placed => Thread.placed_late placed (by simp [waiting]) (.inl rfl)
  by_cases completed : (d.engine.tfer ((d.threads i).ptr i)).state = .completed
  · rw [stepSettle_completed completed]
    refine inv.thread (i := i) rfl (fun p _ => rfl) (fun j other => setPhase_other _ _ other) ?_ (by simp)
    intro p member here placed
    cases kind : (d.threads i).kind with
    | submit =>
      simp only [Thread.placed, kind] at placed
      have own : p = (d.threads i).ptr i := by
        rw [Thread.ptr_submit i kind, ← here, ← placed.1]
      have state := inv.state p member
      rw [own, completed] at state
      simp at state
    | nowait => simpa [Thread.placed, kind] using placed
    | perf => simp [Thread.placed, kind, waiting] at placed
  · rw [stepSettle_failed completed]
    split
    · exact queueInv_phase inv late (by simp)
    · have givenUp := givenUp_spec d.engine ((d.threads i).ptr i) hw
      have sub := givenUp.sublist
      have kept : QueueInv { d with engine := d.engine.givenUp ((d.threads i).ptr i) hw } := by
        refine ⟨inv.nodup.sublist sub, fun p member => inv.placed p (sub.subset member), ?_,
          fun p member => inv.called p (sub.subset member)⟩
        intro p member
        have before := inv.state p (sub.subset member)
        by_cases here : p = (d.threads i).ptr i
        · subst here
          rcases before with submitted | gone
          · exact .inr (givenUp.submitted submitted)
          · exact .inr ((givenUp.finished (by simp [gone])).trans gone)
        · simpa only [givenUp.others p here] using before
      exact queueInv_phase kept late (by simp)

theorem queueInv_engine {d : Driver} {engine : Engine} (inv : QueueInv d)
    (list : engine.transferList = d.engine.transferList) (tfer : engine.tfer = d.engine.tfer) :
    QueueInv { d with engine } :=
  inv.shrink (by rw [list]) (fun p _ => by rw [tfer]) rfl

theorem queueInv_retire {cfg : EngineConfig} {d : Driver} {i : Nat} {ok : Bool} (inv : QueueInv d)
    (retiring : (d.threads i).phase = .retiring ok) : QueueInv (stepRetire cfg i ok d) := by
  refine queueInv_phase
    (d := { d with
      engine :=
        { d.engine with
          ring := xdmaDescDone (d.engine.tfer ((d.threads i).ptr i)) d.engine.ring
          descUsed := d.engine.descUsed - (d.engine.tfer ((d.threads i).ptr i)).descNum } })
    (queueInv_engine inv rfl rfl) ?_ ?_
  · intro k placed
    cases ok with
    | true =>
      apply Thread.placed_phase placed
      simp [retiring]
    | false =>
      apply Thread.placed_late placed
      · simp [retiring]
      · simp
  · split <;> simp

theorem queueInv_leave {d : Driver} {i : Nat} (inv : QueueInv d) (leaving : (d.threads i).phase = .leaving) :
    QueueInv (stepLeave i d) := by
  have moved : QueueInv (d.setPhase i .returned) :=
    queueInv_phase inv (fun k placed => Thread.placed_late placed (by simp [leaving]) (.inr (.inr rfl))) (by simp)
  unfold stepLeave
  simp only
  split
  · exact ⟨moved.nodup, moved.placed, moved.state, moved.called⟩
  · exact ⟨moved.nodup, moved.placed, moved.state, moved.called⟩
  · exact ⟨moved.nodup, moved.placed, moved.state, moved.called⟩

theorem queueInv_service {cfg : EngineConfig} {d : Driver} {wb : BitVec 32} {hw : Hardware} {reached : Nat → Bool}
    (inv : QueueInv d) : QueueInv (stepService cfg wb hw reached d) := by
  obtain ⟨done, serviced⟩ := @engineService_serviced cfg hw d.engine wb
  have nodup := inv.nodup
  rw [serviced.list] at nodup
  have kept : QueueInv { d with engine := engineService cfg hw wb d.engine } := by
    apply inv.shrink
    · rw [serviced.list]
      exact List.sublist_append_right _ _
    · intro p member
      apply serviced.untouched
      intro finished
      exact (List.nodup_append.mp nodup).2.2 p finished p member rfl
    · rfl
  obtain ⟨ring, descUsed, freed, moved, same⟩ := stepService_same cfg wb hw reached d
  rw [same]
  exact ⟨kept.nodup, kept.placed, kept.state, kept.called⟩

theorem queueInv_perfStop {d : Driver} (inv : QueueInv d) : QueueInv (stepPerfStop d) := by
  cases list : d.engine.transferList with
  | nil =>
    rw [stepPerfStop_empty list]
    exact inv
  | cons head rest =>
    rw [stepPerfStop_head list]
    exact inv.shrink (cyclicStopped_sublist list) (fun p _ => rfl) rfl

theorem queueInv_step {cfg : EngineConfig} {d next : Driver} {action : Action}
    (stepped : Driver.step cfg d action = some next) (inv : QueueInv d) : QueueInv next := by
  have early : ∀ {i : Nat} {before phase : Phase}, (d.threads i).phase = before →
      before = .locking ∨ before = .checking → phase ≠ .notCalled → QueueInv (d.setPhase i phase) := by
    intro i before phase was which called
    apply queueInv_phase inv _ called
    intro k placed
    apply Thread.placed_phase placed
    rcases which with is | is
    · simp [was, is]
    · simp [was, is]
  cases steps_of_step stepped with
  | call i kind sdesc epAddr uncalled =>
    exact queueInv_call inv uncalled
  | lock i locking _ =>
    have moved := @early _ _ (if (d.threads i).req.remaining = [] then .leaving else .building) locking (.inl rfl)
      (by split <;> simp)
    exact ⟨moved.nodup, moved.placed, moved.state, moved.called⟩
  | init i building =>
    exact queueInv_init inv building
  | check i checking =>
    exact early checking (.inr rfl) (by split <;> simp)
  | queue i hw queueing =>
    exact queueInv_queue inv queueing
  | settle i dumpOk hw waiting =>
    exact queueInv_settle inv waiting
  | retire i ok phase =>
    exact queueInv_retire inv phase
  | leave i leaving =>
    exact queueInv_leave inv leaving
  | service wb hw reached =>
    exact queueInv_service inv
  | perfStop _ =>
    exact queueInv_perfStop inv
  | setOffline =>
    exact ⟨inv.nodup, inv.placed, inv.state, inv.called⟩
  | stopEngine =>
    exact queueInv_engine inv rfl rfl
  | clearShutdown =>
    exact queueInv_engine inv rfl rfl
  | clearOffline =>
    exact ⟨inv.nodup, inv.placed, inv.state, inv.called⟩

theorem Driver.Initial.queueInv {cfg : EngineConfig} {d : Driver} (initial : d.Initial cfg) : QueueInv d := by
  have empty := initial.empty
  exact ⟨by simp [empty], by simp [empty], by simp [empty], by simp [empty]⟩

end CigCard.Xdma
