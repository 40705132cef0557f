import CigCard.Ring.Reservations
import CigCard.Xdma.QueueInvariant

namespace CigCard.Xdma

open Transition

/-- The descriptors of the transfers on the list lie inside the ring and do not overlap. -/
structure RangesApart (cfg : EngineConfig) (e : Engine) : Prop where
  inside : ∀ p ∈ e.transferList, (e.tfer p).descIndex + (e.tfer p).descNum ≤ cfg.descMax
  apart : ∀ p ∈ e.transferList, ∀ q ∈ e.transferList, p ≠ q → ∀ s, ¬ ((e.tfer p).covers s ∧ (e.tfer q).covers s)

/-- After the step the ranges are apart, and building a transfer has rewritten no descriptor of one on the list. -/
def StepRangesApart (cfg : EngineConfig) (d : Driver) (action : Action) (next : Driver) : Prop :=
  RangesApart cfg next.engine ∧
    match action with
    | .init _ =>
      ∀ p ∈ d.engine.transferList, ∀ s, (d.engine.tfer p).covers s → next.engine.ring s = d.engine.ring s
    | _ => True

/-- A step that builds a transfer keeps all descriptors built since the first one of an outstanding transfer within
    one ring. -/
def RingHasRoom (cfg : EngineConfig) (d : Driver) (action : Action) (_ : Driver) : Prop :=
  match action with
  | .init i => ∀ p ∈ outstanding d, d.built + nextDescNum cfg d.engine (d.threads i).req ≤ d.begun p + cfg.descMax
  | _ => True

def Action.noPerf : Action → Prop
  | .call _ kind _ _ => kind ≠ .perf
  | _ => True

structure RingInv (cfg : EngineConfig) (d : Driver) : Prop where
  queue : QueueInv d
  noPerf : ∀ i, (d.threads i).phase ≠ .notCalled → (d.threads i).kind ≠ .perf
  cursor : d.engine.descIdx = d.built % cfg.descMax
  index : ∀ p ∈ outstanding d, (d.engine.tfer p).descIndex = d.begun p % cfg.descMax
  ring : Ring.Outstanding cfg.descMax d.built (outstanding d) d.begun fun p => (d.engine.tfer p).descNum

section Steps

variable {cfg : EngineConfig} {d next : Driver} {i : Nat}

theorem Driver.Initial.ringInv (initial : d.Initial cfg) : RingInv cfg d := by
  have none : outstanding d = ∅ := by
    apply Set.eq_empty_of_forall_notMem
    intro p member
    rcases member with listed | ⟨i, early, -⟩
    · simp [initial.empty] at listed
    · simp [initial.uncalled i] at early
  refine ⟨initial.queueInv, ?_, initial.cursor, ?_, ?_⟩
  · intro i called
    exact absurd (initial.uncalled i) called
  · simp [none]
  · rw [none]
    exact Ring.Outstanding.empty

theorem RingInv.rangesApart (inv : RingInv cfg d) : RangesApart cfg d.engine where
  inside := by
    intro p member
    rw [inv.index p (.inl member)]
    exact inv.ring.fits p (.inl member)
  apart := by
    intro p member q member' other s
    have apart := inv.ring.apart (.inl member) (.inl member') other s
    unfold Ring.Covers at apart
    rw [← inv.index p (.inl member), ← inv.index q (.inl member')] at apart
    exact apart

theorem RingInv.mono (inv : RingInv cfg d) (queue : QueueInv next) (sub : outstanding next ⊆ outstanding d)
    (noPerf : ∀ i, (next.threads i).phase ≠ .notCalled → (next.threads i).kind ≠ .perf)
    (descIdx : next.engine.descIdx = d.engine.descIdx) (built : next.built = d.built) (begun : next.begun = d.begun)
    (shape : ∀ p, SameShape (d.engine.tfer p) (next.engine.tfer p)) : RingInv cfg next where
  queue := queue
  noPerf := noPerf
  cursor := by rw [descIdx, built, inv.cursor]
  index := by
    intro p member
    rw [(shape p).descIndex, begun]
    exact inv.index p (sub member)
  ring := by
    rw [built]
    apply inv.ring.mono sub
    · intro p _
      rw [begun]
    · intro p _
      exact (shape p).descNum

theorem outstanding_thread (list : ∀ p ∈ next.engine.transferList, p ∈ outstanding d)
    (others : ∀ j, j ≠ i → next.threads j = d.threads j)
    (own : (next.threads i).phase = .checking ∨ (next.threads i).phase = .queueing →
      ((d.threads i).phase = .checking ∨ (d.threads i).phase = .queueing) ∧
        (next.threads i).ptr i = (d.threads i).ptr i) : outstanding next ⊆ outstanding d := by
  intro p member
  rcases member with listed | ⟨j, early, here⟩
  · exact list p listed
  · by_cases same : j = i
    · subst same
      obtain ⟨before, ptr⟩ := own early
      exact .inr ⟨j, before, here.trans ptr⟩
    · rw [others j same] at early here
      exact .inr ⟨j, early, here⟩

theorem RingInv.phase (inv : RingInv cfg d) {phase : Phase} (queue : QueueInv (d.setPhase i phase))
    (called : (d.threads i).phase ≠ .notCalled)
    (late : phase = .checking ∨ phase = .queueing → (d.threads i).phase = .checking) :
    RingInv cfg (d.setPhase i phase) := by
  apply inv.mono queue _ _ rfl rfl rfl (fun _ => .refl _)
  · refine outstanding_thread (i := i) (fun p listed => .inl listed) (fun j other => setPhase_other _ _ other) ?_
    intro early
    simp only [setPhase_self] at early ⊢
    exact ⟨.inl (late early), rfl⟩
  · intro j
    by_cases here : j = i
    · subst here
      simp only [setPhase_self]
      exact fun _ => inv.noPerf j called
    · rw [setPhase_other _ _ here]
      exact inv.noPerf j

theorem RingInv.congr (inv : RingInv cfg d) (list : next.engine.transferList = d.engine.transferList)
    (tfer : next.engine.tfer = d.engine.tfer) (descIdx : next.engine.descIdx = d.engine.descIdx)
    (threads : next.threads = d.threads) (built : next.built = d.built) (begun : next.begun = d.begun) :
    RingInv cfg next := by
  apply inv.mono _ _ _ descIdx built begun
  · intro p
    rw [tfer]
    exact .refl _
  · exact inv.queue.shrink (by rw [list]) (fun _ _ => by rw [tfer]) threads
  · have same : outstanding next = outstanding d := by
      unfold outstanding
      rw [list, threads]
    rw [same]
  · rw [threads]
    exact inv.noPerf

theorem ringInv_call {kind : CallKind} {sdesc : List SwDesc} {epAddr : Nat} (inv : RingInv cfg d)
    (uncalled : (d.threads i).phase = .notCalled) (noPerf : kind ≠ .perf) :
    RingInv cfg (stepCall i kind sdesc epAddr d) := by
  have queue := @queueInv_call d i kind sdesc epAddr inv.queue uncalled
  have started : ∀ t : Thread, QueueInv (d.setThread i t) → t.kind ≠ .perf →
      t.phase ≠ .checking ∧ t.phase ≠ .queueing → RingInv cfg (d.setThread i t) := by
    intro t queue kind phase
    apply inv.mono queue _ _ rfl rfl rfl (fun _ => .refl _)
    · refine outstanding_thread (i := i) (fun p listed => .inl listed) (fun j other => setThread_other _ _ other) ?_
      intro early
      rw [setThread_self] at early
      exact absurd early (by simp [phase])
    · intro j
      by_cases here : j = i
      · subst here
        rw [setThread_self]
        exact fun _ => kind
      · rw [setThread_other _ _ here]
        exact inv.noPerf j
  cases kind with
  | submit =>
    apply started _ queue (by simp)
    simp only
    split <;> simp
  | nowait =>
    apply started _ queue (by simp)
    simp only
    split <;> simp
  | perf => exact absurd rfl noPerf

theorem nextDescNum_fits (e : Engine) (req : Request) (cursor : e.descIdx < cfg.descMax) :
    e.descIdx + nextDescNum cfg e req ≤ cfg.descMax := by
  unfold nextDescNum
  simp only
  split <;> omega

theorem outstanding_init (kind : (d.threads i).kind ≠ .perf) :
    outstanding (stepInit cfg i d) ⊆ insert ((d.threads i).ptr i) (outstanding d) := by
  rw [stepInit_transfer kind]
  intro p member
  rcases member with listed | ⟨j, early, here⟩
  · rw [setThread_engine, (initialized_spec cfg d i).list] at listed
    exact Set.mem_insert_of_mem _ (.inl listed)
  · by_cases same : j = i
    · subst same
      rw [setThread_self] at here
      exact Set.mem_insert_iff.mpr (.inl here)
    · rw [setThread_other _ _ same] at early here
      exact Set.mem_insert_of_mem _ (.inr ⟨j, early, here⟩)

theorem ringInv_init (inv : RingInv cfg d) (building : (d.threads i).phase = .building)
    (room : ∀ p ∈ outstanding d, d.built + nextDescNum cfg d.engine (d.threads i).req ≤ d.begun p + cfg.descMax) :
    RingInv cfg (stepInit cfg i d) := by
  have queue := @queueInv_init cfg d i inv.queue building
  have kind := inv.noPerf i (by simp [building])
  have sub := @outstanding_init cfg d i kind
  have below : d.engine.descIdx < cfg.descMax := by
    rw [inv.cursor]
    exact Nat.mod_lt _ cfg.descMax_pos
  have fits := nextDescNum_fits d.engine (d.threads i).req below
  have init := initialized_spec cfg d i
  have away : ∀ p ∈ outstanding d, p ≠ (d.threads i).ptr i := by
    intro p member same
    rcases member with listed | ⟨j, early, here⟩
    · rw [same] at listed
      exact inv.queue.fresh (.inl building) listed
    · have own : j = i := by
        have block := congrArg Ptr.block (here.symm.trans same)
        rwa [Thread.ptr_block, Thread.ptr_block] at block
      rw [own, building] at early
      simp at early
  rw [stepInit_transfer kind] at queue sub ⊢
  refine ⟨queue, ?_, ?_, ?_, ?_⟩
  · intro j
    by_cases here : j = i
    · subst here
      simp only [setThread_self]
      exact fun _ => kind
    · rw [setThread_other _ _ here]
      exact inv.noPerf j
  · have advanced := init.descIdx
    rw [inv.cursor, Nat.mod_add_mod] at advanced
    exact advanced
  · intro p member
    by_cases here : p = (d.threads i).ptr i
    · subst here
      simp only [setThread_engine, setThread_begun, if_true]
      exact init.descIndex.trans inv.cursor
    · have old := (Set.mem_insert_iff.mp (sub member)).resolve_left here
      simp only [setThread_engine, setThread_begun, init.others p here, if_neg here]
      exact inv.index p old
  · apply Ring.Outstanding.mono _ sub (fun _ _ => rfl) (fun _ _ => rfl)
    apply inv.ring.reserve _ room
    · intro q member
      simp only [setThread_begun, away q member, if_false]
    · intro q member
      simp only [setThread_engine, init.others q (away q member)]
    · simp only [setThread_begun, if_true]
    · simpa using init.descNum
    · rw [← inv.cursor]
      exact fits

theorem ringInv_queue {hw : Hardware} (inv : RingInv cfg d) (queueing : (d.threads i).phase = .queueing) :
    RingInv cfg (stepQueue i hw d) := by
  have queue := @queueInv_queue d i hw inv.queue queueing
  have called : (d.threads i).phase ≠ .notCalled := by simp [queueing]
  cases result : transferQueue hw ((d.threads i).ptr i) d.engine with
  | none =>
    rw [stepQueue_rejected result] at queue ⊢
    exact inv.phase queue called (by simp)
  | some engine =>
    rw [stepQueue_accepted result] at queue ⊢
    apply inv.mono queue _ _ (transferQueue_spec result).2.2.2.2.2.2 rfl rfl
    · exact transferQueue_shape result
    · refine outstanding_thread (i := i) ?_ (fun j other => setThread_other _ _ other) ?_
      · intro p listed
        rcases transferQueue_member result listed with old | same
        · exact .inl old
        · exact .inr ⟨i, .inr queueing, same⟩
      · intro early
        rw [setThread_self] at early
        rcases queued_phase (d.threads i) with ⟨phase, -⟩ | phase | phase
        · simp [phase] at early
        · simp [phase] at early
        · simp [phase] at early
    · intro j
      by_cases here : j = i
      · subst here
        rw [setThread_self, queued_kind]
        exact fun _ => inv.noPerf j called
      · rw [setThread_other _ _ here]
        exact inv.noPerf j

theorem ringInv_settle {dumpOk : Bool} {hw : Hardware} (inv : RingInv cfg d)
    (waiting : (d.threads i).phase = .waiting) : RingInv cfg (stepSettle i dumpOk hw d) := by
  have queue := @queueInv_settle d i dumpOk hw inv.queue waiting
  have called : (d.threads i).phase ≠ .notCalled := by simp [waiting]
  by_cases completed : (d.engine.tfer ((d.threads i).ptr i)).state = .completed
  · rw [stepSettle_completed completed] at queue ⊢
    exact inv.phase queue called (by simp)
  · rw [stepSettle_failed completed] at queue ⊢
    by_cases failed : (d.engine.tfer ((d.threads i).ptr i)).state = .failed ∨ dumpOk = false
    · rw [if_pos failed] at queue ⊢
      exact inv.phase queue called (by simp)
    · rw [if_neg failed] at queue ⊢
      have givenUp := givenUp_spec d.engine ((d.threads i).ptr i) hw
      apply inv.mono queue _ _ givenUp.descIdx rfl rfl givenUp.shape
      · refine outstanding_thread (i := i) ?_ (fun j other => setPhase_other _ _ other) (by simp)
        intro p listed
        exact .inl (givenUp.sublist.subset listed)
      · intro j
        by_cases here : j = i
        · subst here
          simp only [setPhase_self]
          exact fun _ => inv.noPerf j called
        · rw [setPhase_other _ _ here]
          exact inv.noPerf j

theorem ringInv_service {wb : BitVec 32} {hw : Hardware} {reached : Nat → Bool} (inv : RingInv cfg d) :
    RingInv cfg (stepService cfg wb hw reached d) := by
  have queue := @queueInv_service cfg d wb hw reached inv.queue
  obtain ⟨done, serviced⟩ := @engineService_serviced cfg hw d.engine wb
  obtain ⟨ring, descUsed, freed, moved, same⟩ := stepService_same cfg wb hw reached d
  rw [same] at queue ⊢
  apply inv.mono queue _ inv.noPerf serviced.descIdx rfl rfl serviced.shape
  intro p member
  rcases member with listed | waiting
  · exact .inl (serviced.remains listed)
  · exact .inr waiting

theorem ringInv_step {action : Action} (stepped : Driver.step cfg d action = some next) (noPerf : action.noPerf)
    (room : RingHasRoom cfg d action next) (inv : RingInv cfg d) : RingInv cfg next := by
  have queue := queueInv_step stepped inv.queue
  cases steps_of_step stepped with
  | call i kind sdesc epAddr uncalled =>
    exact ringInv_call inv uncalled noPerf
  | lock i locking _ =>
    have same : RingInv cfg { d with descLock := some i } := inv.congr rfl rfl rfl rfl rfl rfl
    apply same.phase queue
    · simp [locking]
    · split <;> simp
  | init i building =>
    exact ringInv_init inv building room
  | check i checking =>
    exact inv.phase queue (by simp [checking]) (fun _ => checking)
  | queue i hw queueing =>
    exact ringInv_queue inv queueing
  | settle i dumpOk hw waiting =>
    exact ringInv_settle inv waiting
  | retire i ok phase =>
    have same : RingInv cfg
        { d with
          engine :=
            { d.engine with
              ring := xdmaDescDone (d.engine.tfer ((d.threads i).ptr i)) d.engine.ring
              descUsed := d.engine.descUsed - (d.engine.tfer ((d.threads i).ptr i)).descNum } } :=
      inv.congr rfl rfl rfl rfl rfl rfl
    apply same.phase queue
    · simp [phase]
    · split <;> simp
  | leave i leaving =>
    have moved : RingInv cfg (d.setPhase i .returned) := by
      apply inv.phase _ (by simp [leaving]) (by simp)
      exact queueInv_phase inv.queue
        (fun k placed => Thread.placed_late placed (by simp [leaving]) (.inr (.inr rfl))) (by simp)
    unfold stepLeave
    simp only
    split <;> exact moved.congr rfl rfl rfl rfl rfl rfl
  | service wb hw reached =>
    exact ringInv_service inv
  | perfStop _ =>
    cases list : d.engine.transferList with
    | nil =>
      rw [stepPerfStop_empty list]
      exact inv
    | cons head rest =>
      rw [stepPerfStop_head list] at queue ⊢
      apply inv.mono queue _ inv.noPerf rfl rfl rfl (fun _ => .refl _)
      intro p member
      rcases member with listed | waiting
      · exact .inl ((cyclicStopped_sublist list).subset listed)
      · exact .inr waiting
  | setOffline =>
    exact inv.congr rfl rfl rfl rfl rfl rfl
  | stopEngine =>
    exact inv.congr rfl rfl rfl rfl rfl rfl
  | clearShutdown =>
    exact inv.congr rfl rfl rfl rfl rfl rfl
  | clearOffline =>
    exact inv.congr rfl rfl rfl rfl rfl rfl

/-- With room for it in the ring, a new transfer is written over none that is outstanding. -/
theorem init_writes_apart (inv : RingInv cfg d) (building : (d.threads i).phase = .building)
    (room : ∀ p ∈ outstanding d, d.built + nextDescNum cfg d.engine (d.threads i).req ≤ d.begun p + cfg.descMax)
    {p : Ptr} (listed : p ∈ d.engine.transferList) {s : Nat} (covers : (d.engine.tfer p).covers s) :
    (stepInit cfg i d).engine.ring s = d.engine.ring s := by
  have after := ringInv_init inv building room
  have kind := inv.noPerf i (by simp [building])
  have init := initialized_spec cfg d i
  rw [stepInit_transfer kind] at after ⊢
  have other : p ≠ (d.threads i).ptr i := by
    intro same
    rw [same] at listed
    exact inv.queue.fresh (.inl building) listed
  have old : p ∈ outstanding
      ({ d with
        engine := (d.initialized cfg i).1
        built := d.built + nextDescNum cfg d.engine (d.threads i).req
        begun := fun q => if q = (d.threads i).ptr i then d.built else d.begun q }.setThread i
          { d.threads i with req := (d.initialized cfg i).2, phase := .checking }) := by
    left
    rw [setThread_engine, init.list]
    exact listed
  have new : (d.threads i).ptr i ∈ outstanding
      ({ d with
        engine := (d.initialized cfg i).1
        built := d.built + nextDescNum cfg d.engine (d.threads i).req
        begun := fun q => if q = (d.threads i).ptr i then d.built else d.begun q }.setThread i
          { d.threads i with req := (d.initialized cfg i).2, phase := .checking }) := by
    refine .inr ⟨i, ?_, ?_⟩
    · simp
    · rw [setThread_self]
      rfl
  have apart := after.ring.apart old new other s
  unfold Ring.Covers at apart
  rw [← after.index p old, ← after.index _ new] at apart
  simp only [setThread_engine, init.others p other, init.descIndex, init.descNum] at apart
  rw [setThread_engine, init.ring]
  apply writeRing_outside
  rw [transferBuild_length]
  intro inside
  apply apart ⟨covers, inside.1, _⟩
  have short := List.length_take_le (nextDescNum cfg d.engine (d.threads i).req) (d.threads i).req.remaining
  omega

end Steps

/-- In every run of the two submit calls in which the ring has room for each transfer that is built, the transfers on
    the list lie inside the ring and apart, and building one rewrites none of them. -/
theorem ranges_apart_of_room (cfg : EngineConfig) (d : Driver) (initial : d.Initial cfg) (actions : List Action)
    (noPerf : ∀ action ∈ actions, action.noPerf) (room : EachStep (Driver.step cfg) (RingHasRoom cfg) d actions) :
    EachStep (Driver.step cfg) (StepRangesApart cfg) d actions := by
  apply eachStep_of_invariant _ initial.ringInv (eachStep_and room (eachStep_of_actions noPerf d))
  intro d action next stepped allowed inv
  obtain ⟨room, noPerf⟩ := allowed
  have kept := ringInv_step stepped noPerf room inv
  refine ⟨kept, kept.rangesApart, ?_⟩
  cases steps_of_step stepped with
  | init i building =>
    intro p listed s covers
    exact init_writes_apart inv building room listed covers
  | _ => trivial

def ringful : List SwDesc := ⟨0x1000, 64⟩ :: List.replicate 0x7ff ⟨0x2000, 64⟩

def submitNowait (i : Nat) (sdesc : List SwDesc) : List Action :=
  [.call i .nowait sdesc 0, .init i, .check i, .queue i (reads xdmaStatBusy 0)]

theorem ringful_fills : nextDescNum mmEngine idleDriver.engine ⟨ringful, 0, 0⟩ = 0x800 := by
  have length : ringful.length = 0x800 := by rw [ringful, List.length_cons, List.length_replicate]
  simp [nextDescNum, Request.remaining, length, mmEngine, idleDriver]

set_option maxRecDepth 20000 in
/-- The second write is built over the first, which is still on the list. -/
theorem second_write_overlaps :
    ¬ EachStep (Driver.step mmEngine) (StepRangesApart mmEngine) idleDriver
      (submitNowait 0 ringful ++ submitNowait 1 [⟨0x2000, 64⟩]) := by
  intro fine
  have last := ((eachStep_append rfl).mp fine).2
  have called := (eachStep_cons _ rfl).mp last
  have built := (eachStep_cons _ rfl).mp called.2
  have checked := (eachStep_cons _ rfl).mp built.2
  have queued : RangesApart mmEngine _ := ((eachStep_cons _ rfl).mp checked.2).1.1
  apply queued.apart ⟨0, 0⟩ (by decide) ⟨1, 0⟩ (by decide) (by decide) 0
  constructor
  · show 0 ≤ 0 ∧ 0 < 0 + nextDescNum mmEngine idleDriver.engine ⟨ringful, 0, 0⟩
    rw [ringful_fills]
    decide
  · show (0 + nextDescNum mmEngine idleDriver.engine ⟨ringful, 0, 0⟩) % 0x800 ≤ 0 ∧
      0 < (0 + nextDescNum mmEngine idleDriver.engine ⟨ringful, 0, 0⟩) % 0x800 +
        nextDescNum mmEngine
          { idleDriver.engine with
            descIdx := (0 + nextDescNum mmEngine idleDriver.engine ⟨ringful, 0, 0⟩) % 0x800 }
          ⟨[⟨0x2000, 64⟩], 0, 0⟩
    rw [ringful_fills]
    decide

theorem two_writes_apart :
    EachStep (Driver.step mmEngine) (StepRangesApart mmEngine) idleDriver
      (submitNowait 0 [⟨0x1000, 64⟩] ++ submitNowait 1 [⟨0x2000, 64⟩]) := by
  apply ranges_apart_of_room mmEngine idleDriver (idleDriver_initial _) _ (by simp [submitNowait, Action.noPerf])
  apply (eachStep_cons _ rfl).mpr ⟨trivial, _⟩
  refine (eachStep_cons _ rfl).mpr ⟨?_, ?_⟩
  · intro p member
    rcases member with listed | ⟨i, early, -⟩
    · cases listed
    · rcases i with _ | i
      · rcases early with phase | phase <;> cases phase
      · rcases early with phase | phase <;> cases phase
  apply (eachStep_cons _ rfl).mpr ⟨trivial, _⟩
  apply (eachStep_cons _ rfl).mpr ⟨trivial, _⟩
  apply (eachStep_cons _ rfl).mpr ⟨trivial, _⟩
  refine (eachStep_cons _ rfl).mpr ⟨?_, ?_⟩
  · intro p member
    rcases member with listed | ⟨i, early, -⟩
    · have first : p = ⟨0, 0⟩ := List.mem_singleton.mp listed
      subst first
      decide
    · rcases i with _ | _ | i
      · rcases early with phase | phase <;> cases phase
      · rcases early with phase | phase <;> cases phase
      · rcases early with phase | phase <;> cases phase
  apply (eachStep_cons _ rfl).mpr ⟨trivial, _⟩
  exact (eachStep_cons _ rfl).mpr ⟨trivial, trivial⟩

end CigCard.Xdma
