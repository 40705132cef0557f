import CigCard.Xdma.ControlRegister
import CigCard.Xdma.Dangling
import CigCard.Xdma.RingRanges

namespace CigCard.Xdma

open Transition

def EngineConfig.withMode (cfg : EngineConfig) (nonIncrAddr : Bool) : EngineConfig := { cfg with nonIncrAddr }

/-- The driver of an engine whose address mode can be set. `pending` are the calls of `engine_addrmode_set` that have
    set the flag and not yet written the register, each with the mode it will write, and `read` is what `engine_start`
    has read of the flag and not yet written. History: `mode` is the flag when a transfer was built. -/
structure Moded where
  driver : Driver
  control : BitVec 32
  nonIncrAddr : Bool
  pending : List Bool
  read : Option Bool
  mode : Ptr → Bool

/-- The steps of `engine_addrmode_set` are not under the engine's lock, so anything else can happen between them. The
    first is one step here, though the flag shares its byte with `running`; the second, which a compiler may leave out,
    reads the flag again. Nor is `engine_init_regs`, which an online call begins with. `engine_start` reads the flag
    some time before the end of the critical section that it is in. -/
inductive ModeAction where
  | drive (action : Action)
  | readFlag
  | setFlag (dst : Bool)
  | testFlag (k : Nat)
  | writeMode (k : Nat)
  | initRegs

namespace Moded

def wired (m : Moded) : Wired := ⟨m.driver.engine, m.control⟩

def startMode (m : Moded) : Bool := m.read.getD m.nonIncrAddr

def controlAfter (cfg : EngineConfig) (pollMode : Bool) (m : Moded) : Action → BitVec 32
  | .queue i hw =>
    ((m.wired.transferQueue pollMode m.startMode hw ((m.driver.threads i).ptr i)).getD m.wired).control
  | .settle i dumpOk _ =>
    match (m.driver.engine.tfer ((m.driver.threads i).ptr i)).state with
    | .completed | .failed => m.control
    | _ => if dumpOk then stopControl pollMode else m.control
  | .service wb hw _ => (m.wired.engineService (cfg.withMode m.nonIncrAddr) pollMode m.startMode hw wb).control
  | .perfStop =>
    match m.driver.engine.transferList with
    | [] => m.control
    | _ :: _ => stopControl pollMode
  | .stopEngine => stopControl pollMode
  | .call _ _ _ _ | .lock _ | .init _ | .check _ | .retire _ | .leave _ | .setOffline | .clearShutdown
  | .clearOffline => m.control

/-- The critical sections of these two are the ones that `engine_start` is in. -/
def readAfter (m : Moded) : Action → Option Bool
  | .queue _ _ | .service _ _ _ => none
  | _ => m.read

def modeAfter (m : Moded) : Action → Ptr → Bool
  | .init i => fun p => if p = (m.driver.threads i).ptr i then m.nonIncrAddr else m.mode p
  | _ => m.mode

def step (cfg : EngineConfig) (pollMode : Bool) (m : Moded) : ModeAction → Option Moded
  | .drive action =>
    (m.driver.step (cfg.withMode m.nonIncrAddr) action).map fun driver =>
      { m with
        driver
        control := m.controlAfter cfg pollMode action
        read := m.readAfter action
        mode := m.modeAfter action }
  | .readFlag => if m.read = none then some { m with read := some m.nonIncrAddr } else none
  | .setFlag dst => some { m with nonIncrAddr := dst, pending := m.pending ++ [dst] }
  | .testFlag k => if k < m.pending.length then some { m with pending := m.pending.set k m.nonIncrAddr } else none
  | .writeMode k =>
    (m.pending[k]?).map fun dst =>
      { m with
        control := if dst then m.control ||| xdmaCtrlNonIncrAddr else m.control &&& ~~~xdmaCtrlNonIncrAddr
        pending := m.pending.eraseIdx k }
  | .initRegs => some { m with control := m.control &&& ~~~xdmaCtrlNonIncrAddr }

def run (cfg : EngineConfig) (pollMode : Bool) : Moded → List ModeAction → Option Moded :=
  Transition.run (step cfg pollMode)

structure Initial (cfg : EngineConfig) (m : Moded) : Prop where
  driver : m.driver.Initial (cfg.withMode false)
  flag : m.nonIncrAddr = false
  control : m.control &&& xdmaCtrlRunStop = 0
  pending : m.pending = []
  read : m.read = none

/-- No set call begins while another one is between flag and register, none changes the flag that `engine_start` has
    just read, and no online call takes the mode away from a running engine. -/
def Serial (m : Moded) : ModeAction → Moded → Prop
  | .setFlag dst, _ => m.pending = [] ∧ (m.read = none ∨ dst = m.nonIncrAddr)
  | .initRegs, _ => m.driver.engine.running = true → m.nonIncrAddr = false
  | .drive _, _ | .readFlag, _ | .testFlag _, _ | .writeMode _, _ => True

def Unbuilt (d : Driver) : Prop := outstanding d = ∅ ∧ ∀ i, (d.threads i).phase ≠ .building

/-- And no set call changes the mode while there is a transfer that is built for it. -/
def Quiet (m : Moded) (action : ModeAction) (after : Moded) : Prop :=
  m.Serial action after ∧ ∀ dst, action = .setFlag dst → dst = m.nonIncrAddr ∨ Unbuilt m.driver

def nonIncrBit (m : Moded) : Prop := m.control &&& xdmaCtrlNonIncrAddr ≠ 0

instance (m : Moded) : Decidable m.nonIncrBit := inferInstanceAs (Decidable (_ ≠ _))

/-- The register of a running engine is that of its start but for the address mode, and that of a stopped engine does
    not run it. -/
structure Mirrored (pollMode : Bool) (m : Moded) : Prop where
  running : m.driver.engine.running = true → m.control &&& ~~~xdmaCtrlNonIncrAddr = startControl pollMode false
  stopped : m.driver.engine.running = false → m.control &&& xdmaCtrlRunStop = 0

structure FlagKept (m : Moded) : Prop where
  pending : m.pending = [] ∨ m.pending = [m.nonIncrAddr]
  read : m.read = none ∨ m.read = some m.nonIncrAddr
  bit : m.pending = [] → m.driver.engine.running = true → (m.nonIncrBit ↔ m.nonIncrAddr = true)

def ModesKept (m : Moded) : Prop := ∀ p ∈ outstanding m.driver, m.mode p = m.nonIncrAddr

end Moded

section
variable {cfg : EngineConfig} {pollMode : Bool} {d next : Driver} {m after : Moded}

theorem stepCall_running (i : Nat) (kind : CallKind) (sdesc : List SwDesc) (epAddr : Nat) (d : Driver) :
    (stepCall i kind sdesc epAddr d).engine.running = d.engine.running := by
  cases kind with
  | perf =>
    unfold stepCall
    dsimp only
    split
    · rfl
    · rfl
  | _ => rfl

theorem stepInit_running (cfg : EngineConfig) (i : Nat) (d : Driver) :
    (stepInit cfg i d).engine.running = d.engine.running := by
  unfold stepInit
  dsimp only
  split
  · rfl
  · rfl
  · rfl

/-- An engine with its register before and after an action of the driver. -/
theorem controlAfter_wrote {action : Action}
    (stepped : m.driver.step (cfg.withMode m.nonIncrAddr) action = some next) :
    Wired.Wrote pollMode m.startMode m.wired ⟨next.engine, m.controlAfter cfg pollMode action⟩ := by
  cases steps_of_step stepped with
  | call i kind sdesc epAddr uncalled =>
    exact .nothing rfl (stepCall_running i kind sdesc epAddr m.driver)
  | lock i locking _ => exact .nothing rfl rfl
  | init i building => exact .nothing rfl (stepInit_running _ i m.driver)
  | check i checking => exact .nothing rfl rfl
  | queue i hw queueing =>
    have projected := @Wired.transferQueue_engine pollMode m.startMode hw ((m.driver.threads i).ptr i) m.wired
    dsimp only [Moded.controlAfter]
    cases queued : m.wired.transferQueue pollMode m.startMode hw ((m.driver.threads i).ptr i) with
    | none =>
      rw [queued] at projected
      rw [stepQueue_rejected projected.symm]
      exact .nothing rfl rfl
    | some w =>
      rw [queued] at projected
      rw [stepQueue_accepted projected.symm]
      exact .of_queue queued
  | settle i dumpOk hw waiting =>
    dsimp only [Moded.controlAfter, stepSettle]
    generalize (m.driver.engine.tfer ((m.driver.threads i).ptr i)).state = state
    cases state with
    | completed => exact .nothing rfl rfl
    | failed => exact .nothing rfl rfl
    | _ =>
      cases dumpOk with
      | true => exact .stop rfl rfl
      | false => exact .nothing rfl rfl
  | retire i ok retiring => exact .nothing rfl rfl
  | leave i leaving => exact .nothing rfl (congrArg Engine.running (@stepLeave_frame m.driver i).1)
  | service wb hw reached =>
    obtain ⟨ring, descUsed, freed, moved, same⟩ :=
      stepService_same (cfg.withMode m.nonIncrAddr) wb hw reached m.driver
    rw [same]
    have serviced : Wired.Wrote pollMode m.startMode m.wired
        (m.wired.engineService (cfg.withMode m.nonIncrAddr) pollMode m.startMode hw wb) :=
      Wired.Wrote.of_service wb m.wired
    apply serviced.trans
    apply Wired.Wrote.nothing
    · rfl
    · rw [Wired.engineService_engine]
      rfl
  | perfStop running =>
    dsimp only [Moded.controlAfter]
    cases list : m.driver.engine.transferList with
    | nil =>
      rw [stepPerfStop_empty list]
      exact .nothing rfl rfl
    | cons head rest =>
      rw [stepPerfStop_head list]
      exact .stop rfl rfl
  | setOffline => exact .nothing rfl rfl
  | stopEngine => exact .stop rfl rfl
  | clearShutdown => exact .nothing rfl rfl
  | clearOffline => exact .nothing rfl rfl

theorem outstanding_built (cfg : EngineConfig) (d : Driver) (i : Nat) :
    outstanding (stepInit cfg i d) ⊆ insert ((d.threads i).ptr i) (outstanding d) := by
  by_cases kind : (d.threads i).kind = .perf
  · rw [stepInit_perf kind]
    intro p member
    rcases member with listed | ⟨j, early, here⟩
    · exact Set.mem_insert_of_mem _ (.inl listed)
    · by_cases same : j = i
      · subst same
        rw [setPhase_self] at here
        exact Set.mem_insert_iff.mpr (.inl here)
      · rw [setPhase_other _ _ same] at early here
        exact Set.mem_insert_of_mem _ (.inr ⟨j, early, here⟩)
  · exact outstanding_init kind

theorem outstanding_late {i : Nat} {t : Thread} {p : Ptr} (member : p ∈ outstanding next)
    (list : ∀ q ∈ next.engine.transferList, q ∈ outstanding d) (threads : next.threads = (d.setThread i t).threads)
    (late : t.phase ≠ .checking ∧ t.phase ≠ .queueing) : p ∈ outstanding d := by
  apply @outstanding_thread d next i list _ _ p member
  · intro j other
    rw [threads]
    exact setThread_other _ _ other
  · intro early
    rw [threads, setThread_self] at early
    rcases early with early | early
    · exact absurd early late.1
    · exact absurd early late.2

theorem outstanding_call {i : Nat} {kind : CallKind} {sdesc : List SwDesc} {epAddr : Nat} {p : Ptr}
    (member : p ∈ outstanding (stepCall i kind sdesc epAddr d)) : p ∈ outstanding d := by
  cases kind with
  | submit =>
    refine outstanding_late member (fun q listed => .inl listed) rfl ?_
    dsimp only
    split <;> simp
  | nowait =>
    refine outstanding_late member (fun q listed => .inl listed) rfl ?_
    dsimp only
    split <;> simp
  | perf =>
    cases busy : d.engine.xdmaPerf with
    | some perf =>
      simp only [stepCall, busy] at member
      exact outstanding_late member (fun q listed => .inl listed) rfl (by simp)
    | none =>
      simp only [stepCall, busy] at member
      exact outstanding_late member (fun q listed => .inl listed) rfl (by simp)

theorem outstanding_queue {i : Nat} {hw : Hardware} {p : Ptr} (queueing : (d.threads i).phase = .queueing)
    (member : p ∈ outstanding (stepQueue i hw d)) : p ∈ outstanding d := by
  cases result : transferQueue hw ((d.threads i).ptr i) d.engine with
  | none =>
    rw [stepQueue_rejected result] at member
    exact outstanding_late member (fun q listed => .inl listed) rfl (by simp)
  | some engine =>
    rw [stepQueue_accepted result] at member
    refine outstanding_late member ?_ rfl ?_
    · intro q listed
      rcases transferQueue_member result listed with old | same
      · exact .inl old
      · exact .inr ⟨i, .inr queueing, same⟩
    · rcases queued_phase (d.threads i) with ⟨phase, -⟩ | phase | phase <;> simp [phase]

theorem outstanding_settle {i : Nat} {dumpOk : Bool} {hw : Hardware} {p : Ptr}
    (member : p ∈ outstanding (stepSettle i dumpOk hw d)) : p ∈ outstanding d := by
  by_cases completed : (d.engine.tfer ((d.threads i).ptr i)).state = .completed
  · rw [stepSettle_completed completed] at member
    exact outstanding_late member (fun q listed => .inl listed) rfl (by simp)
  · rw [stepSettle_failed completed] at member
    split at member
    · exact outstanding_late member (fun q listed => .inl listed) rfl (by simp)
    · have shrunk := (givenUp_spec d.engine ((d.threads i).ptr i) hw).sublist
      exact outstanding_late member (fun q listed => .inl (shrunk.subset listed)) rfl (by simp)

/-- Only `transfer_init` makes another transfer outstanding. -/
theorem outstanding_step {action : Action} (stepped : Driver.step cfg d action = some next) (p : Ptr)
    (member : p ∈ outstanding next) :
    p ∈ outstanding d ∨ ∃ i, action = .init i ∧ p = (d.threads i).ptr i := by
  cases steps_of_step stepped with
  | call i kind sdesc epAddr uncalled => exact .inl (outstanding_call member)
  | lock i locking _ =>
    left
    refine outstanding_late member (fun q listed => .inl listed) rfl ?_
    dsimp only
    split <;> simp
  | init i building =>
    rcases Set.mem_insert_iff.mp (outstanding_built cfg d i member) with here | before
    · exact .inr ⟨i, rfl, here⟩
    · exact .inl before
  | check i checking =>
    left
    refine @outstanding_thread d (d.setPhase i _) i (fun q listed => .inl listed)
      (fun j other => setPhase_other _ _ other) ?_ _ member
    intro _
    rw [setPhase_self]
    exact ⟨.inl checking, rfl⟩
  | queue i hw queueing => exact .inl (outstanding_queue queueing member)
  | settle i dumpOk hw waiting => exact .inl (outstanding_settle member)
  | retire i ok retiring =>
    left
    refine outstanding_late member (fun q listed => .inl listed) rfl ?_
    dsimp only
    split <;> simp
  | leave i leaving =>
    left
    obtain ⟨engine, threads, -⟩ := @stepLeave_frame d i
    refine outstanding_late member (fun q listed => .inl ?_) threads (by simp)
    rw [engine] at listed
    exact listed
  | service wb hw reached =>
    obtain ⟨done, serviced⟩ := @engineService_serviced cfg hw d.engine wb
    obtain ⟨ring, descUsed, freed, moved, same⟩ := stepService_same cfg wb hw reached d
    rw [same] at member
    rcases member with listed | waiting
    · exact .inl (.inl (serviced.remains listed))
    · exact .inl (.inr waiting)
  | perfStop running =>
    left
    cases list : d.engine.transferList with
    | nil =>
      rw [stepPerfStop_empty list] at member
      exact member
    | cons head rest =>
      rw [stepPerfStop_head list] at member
      rcases member with listed | waiting
      · exact .inl ((cyclicStopped_sublist list).subset listed)
      · exact .inr waiting
  | setOffline => exact .inl member
  | stopEngine => exact .inl member
  | clearShutdown => exact .inl member
  | clearOffline => exact .inl member

theorem startControl_bits (pollMode nonIncrAddr : Bool) :
    startControl pollMode nonIncrAddr &&& ~~~xdmaCtrlNonIncrAddr = startControl pollMode false ∧
      (startControl pollMode nonIncrAddr &&& xdmaCtrlNonIncrAddr ≠ 0 ↔ nonIncrAddr = true) := by
  revert pollMode nonIncrAddr
  decide

theorem startControl_runs (pollMode : Bool) : startControl pollMode false &&& xdmaCtrlRunStop ≠ 0 := by
  revert pollMode
  decide

theorem stopControl_stops (pollMode : Bool) : stopControl pollMode &&& xdmaCtrlRunStop = 0 := by
  cases pollMode <;> decide

theorem or_mask (control mask : BitVec 32) :
    (control ||| mask) &&& ~~~mask = control &&& ~~~mask ∧ (control ||| mask) &&& mask = mask := by
  constructor
  all_goals
    ext i inside
    simp only [BitVec.getElem_and, BitVec.getElem_or, BitVec.getElem_not]
    cases control[i] <;> cases mask[i] <;> rfl

/-- The write of `engine_addrmode_set` touches one bit. -/
theorem written_bits (control : BitVec 32) (dst : Bool) :
    let written := if dst then control ||| xdmaCtrlNonIncrAddr else control &&& ~~~xdmaCtrlNonIncrAddr
    written &&& ~~~xdmaCtrlNonIncrAddr = control &&& ~~~xdmaCtrlNonIncrAddr ∧
      (written &&& xdmaCtrlNonIncrAddr ≠ 0 ↔ dst = true) := by
  cases dst with
  | true =>
    obtain ⟨others, set⟩ := or_mask control xdmaCtrlNonIncrAddr
    simp only [if_true, others, set, true_and, iff_true]
    decide
  | false => simp [BitVec.and_assoc]

/-- The bit that runs the engine is not the one of the address mode. -/
theorem runStop_outside (control : BitVec 32) :
    control &&& ~~~xdmaCtrlNonIncrAddr &&& xdmaCtrlRunStop = control &&& xdmaCtrlRunStop := by
  rw [BitVec.and_assoc]
  rfl

namespace Moded

theorem Initial.mirrored (initial : m.Initial cfg) : m.Mirrored pollMode where
  running := by
    intro running
    rw [initial.driver.idle] at running
    cases running
  stopped := fun _ => initial.control

theorem Initial.flagKept (initial : m.Initial cfg) : m.FlagKept where
  pending := .inl initial.pending
  read := .inl initial.read
  bit := by
    intro _ running
    rw [initial.driver.idle] at running
    cases running

theorem Initial.outstanding (initial : m.Initial cfg) : Xdma.outstanding m.driver = ∅ := by
  apply Set.eq_empty_of_forall_notMem
  intro p member
  rcases member with listed | ⟨i, early, -⟩
  · rw [initial.driver.empty] at listed
    cases listed
  · rw [initial.driver.uncalled i] at early
    rcases early with early | early <;> cases early

theorem FlagKept.startMode (kept : m.FlagKept) : m.startMode = m.nonIncrAddr := by
  unfold Moded.startMode
  rcases kept.read with none | same
  · rw [none]
    rfl
  · rw [same]
    rfl

/-- A set call or an online call changes at most the bit of the address mode. -/
theorem Mirrored.of_bit {control : BitVec 32} {nonIncrAddr : Bool} {pending : List Bool} (mirrored : m.Mirrored pollMode)
    (others : control &&& ~~~xdmaCtrlNonIncrAddr = m.control &&& ~~~xdmaCtrlNonIncrAddr) :
    Mirrored pollMode { m with control, nonIncrAddr, pending } where
  running := fun now => others.trans (mirrored.running now)
  stopped := by
    intro now
    have before := mirrored.stopped now
    rw [← runStop_outside] at before ⊢
    rw [others]
    exact before

theorem mirrored_drive {a : Action} {driver : Driver}
    (moved : m.driver.step (cfg.withMode m.nonIncrAddr) a = some driver) (mirrored : m.Mirrored pollMode)
    (read : Option Bool) (mode : Ptr → Bool) :
    Mirrored pollMode { m with driver, control := m.controlAfter cfg pollMode a, read, mode } := by
  cases @controlAfter_wrote cfg pollMode _ m _ moved with
  | nothing control running =>
    constructor
    · intro now
      rw [running] at now
      exact (congrArg (· &&& _) control).trans (mirrored.running now)
    · intro now
      rw [running] at now
      exact (congrArg (· &&& _) control).trans (mirrored.stopped now)
  | stop control running =>
    constructor
    · intro now
      rw [running] at now
      cases now
    · exact fun _ => (congrArg (· &&& _) control).trans (stopControl_stops pollMode)
  | start control running =>
    constructor
    · exact fun _ => (congrArg (· &&& _) control).trans (startControl_bits pollMode _).1
    · intro now
      rw [running] at now
      cases now

theorem mirrored_step {action : ModeAction} (stepped : m.step cfg pollMode action = some after)
    (mirrored : m.Mirrored pollMode) : after.Mirrored pollMode := by
  cases action with
  | drive a =>
    obtain ⟨driver, moved, rfl⟩ := Option.map_eq_some_iff.mp stepped
    exact mirrored_drive moved mirrored _ _
  | readFlag =>
    obtain ⟨-, ⟨⟩⟩ := Option.ite_none_right_eq_some.mp stepped
    exact ⟨mirrored.running, mirrored.stopped⟩
  | setFlag dst =>
    cases stepped
    exact mirrored.of_bit rfl
  | testFlag k =>
    obtain ⟨-, ⟨⟩⟩ := Option.ite_none_right_eq_some.mp stepped
    exact mirrored.of_bit rfl
  | writeMode k =>
    obtain ⟨dst, found, rfl⟩ := Option.map_eq_some_iff.mp stepped
    exact mirrored.of_bit (written_bits m.control dst).1
  | initRegs =>
    cases stepped
    exact mirrored.of_bit (written_bits m.control false).1

theorem readAfter_kept (kept : m.FlagKept) (a : Action) :
    m.readAfter a = none ∨ m.readAfter a = some m.nonIncrAddr := by
  cases a with
  | queue i hw => exact .inl rfl
  | service wb hw reached => exact .inl rfl
  | _ => exact kept.read

theorem flagKept_drive {a : Action} {driver : Driver}
    (moved : m.driver.step (cfg.withMode m.nonIncrAddr) a = some driver) (kept : m.FlagKept) (mode : Ptr → Bool) :
    FlagKept { m with driver, control := m.controlAfter cfg pollMode a, read := m.readAfter a, mode } where
  pending := kept.pending
  read := readAfter_kept kept a
  bit := by
    intro settled now
    cases @controlAfter_wrote cfg pollMode _ m _ moved with
    | nothing control running =>
      rw [running] at now
      have same := kept.bit settled now
      unfold nonIncrBit at same ⊢
      rw [← same]
      exact Iff.of_eq (congrArg (· &&& _ ≠ _) control)
    | stop control running =>
      rw [running] at now
      cases now
    | start control running =>
      rw [kept.startMode] at control
      have same := (startControl_bits pollMode m.nonIncrAddr).2
      rw [← same]
      exact Iff.of_eq (congrArg (· &&& _ ≠ _) control)

theorem flagKept_test (kept : m.FlagKept) {k : Nat} (inside : k < m.pending.length) :
    FlagKept { m with pending := m.pending.set k m.nonIncrAddr } := by
  rcases kept.pending with none | only
  · rw [none] at inside
    exact absurd inside (Nat.not_lt_zero k)
  · have first : k = 0 := by
      rw [only] at inside
      exact Nat.lt_one_iff.mp inside
    have same : m.pending.set k m.nonIncrAddr = [m.nonIncrAddr] := by
      rw [only, first]
      rfl
    refine ⟨.inr same, kept.read, ?_⟩
    intro settled
    rw [same] at settled
    cases settled

theorem flagKept_write (kept : m.FlagKept) {k : Nat} {dst : Bool} (found : m.pending[k]? = some dst) :
    FlagKept { m with
      control := if dst then m.control ||| xdmaCtrlNonIncrAddr else m.control &&& ~~~xdmaCtrlNonIncrAddr
      pending := m.pending.eraseIdx k } := by
  rcases kept.pending with none | only
  · rw [none] at found
    cases found
  · rw [only] at found
    cases k with
    | zero =>
      cases found
      refine ⟨.inl ?_, kept.read, fun _ _ => (written_bits m.control m.nonIncrAddr).2⟩
      rw [only]
      rfl
    | succ k => cases found

theorem flagKept_step {action : ModeAction} (stepped : m.step cfg pollMode action = some after)
    (serial : m.Serial action after) (kept : m.FlagKept) : after.FlagKept := by
  cases action with
  | drive a =>
    obtain ⟨driver, moved, rfl⟩ := Option.map_eq_some_iff.mp stepped
    exact flagKept_drive moved kept _
  | readFlag =>
    obtain ⟨-, ⟨⟩⟩ := Option.ite_none_right_eq_some.mp stepped
    exact ⟨kept.pending, .inr rfl, kept.bit⟩
  | setFlag dst =>
    cases stepped
    obtain ⟨alone, unread⟩ := serial
    refine ⟨.inr ?_, ?_, fun settled => absurd settled (List.concat_ne_nil _ _)⟩
    · rw [alone]
      rfl
    · rcases unread with none | same
      · exact .inl none
      · rw [same]
        exact kept.read
  | testFlag k =>
    obtain ⟨inside, ⟨⟩⟩ := Option.ite_none_right_eq_some.mp stepped
    exact flagKept_test kept inside
  | writeMode k =>
    obtain ⟨dst, found, rfl⟩ := Option.map_eq_some_iff.mp stepped
    exact flagKept_write kept found
  | initRegs =>
    cases stepped
    refine ⟨kept.pending, kept.read, ?_⟩
    intro _ now
    rw [serial now]
    exact (written_bits m.control false).2

theorem modesKept_step {action : ModeAction} (stepped : m.step cfg pollMode action = some after)
    (quiet : m.Quiet action after) (kept : m.ModesKept) : after.ModesKept := by
  cases action with
  | drive a =>
    obtain ⟨driver, moved, rfl⟩ := Option.map_eq_some_iff.mp stepped
    intro p member
    rcases outstanding_step moved p member with before | ⟨i, rfl, rfl⟩
    · cases a with
      | init i =>
        show (if p = (m.driver.threads i).ptr i then m.nonIncrAddr else m.mode p) = m.nonIncrAddr
        split
        · rfl
        · exact kept p before
      | _ => exact kept p before
    · exact if_pos rfl
  | setFlag dst =>
    cases stepped
    intro p member
    rcases quiet.2 dst rfl with same | ⟨empty, -⟩
    · rw [same]
      exact kept p member
    · rw [empty] at member
      exact absurd member (Set.notMem_empty p)
  | readFlag =>
    obtain ⟨-, ⟨⟩⟩ := Option.ite_none_right_eq_some.mp stepped
    exact kept
  | testFlag k =>
    obtain ⟨-, ⟨⟩⟩ := Option.ite_none_right_eq_some.mp stepped
    exact kept
  | writeMode k =>
    obtain ⟨dst, found, rfl⟩ := Option.map_eq_some_iff.mp stepped
    exact kept
  | initRegs =>
    cases stepped
    exact kept

def Agreed (m : Moded) : Prop := m.FlagKept ∧ m.ModesKept

theorem agreed_step {action : ModeAction} (stepped : m.step cfg pollMode action = some after)
    (quiet : m.Quiet action after) (agreed : m.Agreed) : after.Agreed :=
  ⟨flagKept_step stepped quiet.1 agreed.1, modesKept_step stepped quiet agreed.2⟩

theorem Initial.agreed (initial : m.Initial cfg) : m.Agreed := by
  constructor
  · exact initial.flagKept
  · intro p member
    rw [initial.outstanding] at member
    exact absurd member (Set.notMem_empty p)

theorem Initial.unbuilt (initial : m.Initial cfg) : Unbuilt m.driver := by
  refine ⟨initial.outstanding, ?_⟩
  intro i building
  rw [initial.driver.uncalled i] at building
  cases building

end Moded

/-- Whatever the engine, the set calls and the online calls do, the register runs the engine exactly while the driver
    takes it to be running, and with the word of its start. The address mode needs set calls that overlap neither with
    each other nor with a start, no online call that takes it away, and it must be left alone while there are transfers
    built for it. -/
theorem control_register_kept (cfg : EngineConfig) (pollMode : Bool) (start last : Moded) (actions : List ModeAction)
    (initial : start.Initial cfg) (ran : Moded.run cfg pollMode start actions = some last) :
    (last.control &&& xdmaCtrlRunStop ≠ 0 ↔ last.driver.engine.running = true) ∧
      (last.driver.engine.running = true →
        last.control &&& ~~~xdmaCtrlNonIncrAddr = startControl pollMode false) ∧
      (EachStep (Moded.step cfg pollMode) Moded.Serial start actions → last.pending = [] →
        last.driver.engine.running = true → (last.nonIncrBit ↔ last.nonIncrAddr = true)) ∧
      (EachStep (Moded.step cfg pollMode) Moded.Quiet start actions → last.pending = [] →
        last.driver.engine.running = true → ∀ p ∈ last.driver.engine.transferList,
          (last.nonIncrBit ↔ last.mode p = true)) := by
  have permitted : EachStep (Moded.step cfg pollMode) (fun _ _ _ => True) start actions :=
    eachStep_of_forall (fun _ _ _ _ => trivial) start actions
  have mirrored : last.Mirrored pollMode :=
    run_invariant (fun _ _ _ stepped _ kept => Moded.mirrored_step stepped kept) initial.mirrored permitted ran
  refine ⟨?_, mirrored.running, ?_, ?_⟩
  · cases running : last.driver.engine.running with
    | false =>
      exact iff_of_false (fun runs => runs (mirrored.stopped running)) Bool.false_ne_true
    | true =>
      have word := mirrored.running running
      have runs := startControl_runs pollMode
      rw [← word, runStop_outside] at runs
      exact iff_of_true runs rfl
  · intro serial
    have kept : last.FlagKept :=
      run_invariant (fun _ _ _ stepped serial kept => Moded.flagKept_step stepped serial kept) initial.flagKept serial
        ran
    exact kept.bit
  · intro quiet settled running p listed
    obtain ⟨flag, modes⟩ : last.Agreed :=
      run_invariant (fun _ _ _ stepped quiet agreed => Moded.agreed_step stepped quiet agreed) initial.agreed quiet ran
    rw [modes p (.inl listed)]
    exact flag.bit settled running

theorem quiet_drive (actions : List Action) :
    EachStep (Moded.step cfg pollMode) Moded.Quiet m (actions.map .drive) := by
  induction actions generalizing m with
  | nil => trivial
  | cons a rest ih =>
    intro next _
    refine ⟨⟨trivial, ?_⟩, ih⟩
    intro dst other
    cases other

end

def idleModed : Moded where
  driver := idleDriver
  control := 0
  nonIncrAddr := false
  pending := []
  read := none
  mode := fun _ => false

theorem idleModed_initial (cfg : EngineConfig) : idleModed.Initial cfg where
  driver := idleDriver_initial _
  flag := rfl
  control := rfl
  pending := rfl
  read := rfl

def nonIncrSubmit : List ModeAction := .setFlag true :: .writeMode 0 :: (submitOne 0).map .drive

theorem nonIncrSubmit_kept :
    ∃ last, Moded.run mmEngine false idleModed nonIncrSubmit = some last ∧
      last.driver.engine.transferList = [⟨0, 0⟩] ∧ last.mode ⟨0, 0⟩ = true ∧ last.nonIncrBit := by
  have quiet : EachStep (Moded.step mmEngine false) Moded.Quiet idleModed nonIncrSubmit := by
    intro next stepped
    constructor
    · exact ⟨⟨rfl, .inl rfl⟩, fun dst _ => .inr (idleModed_initial mmEngine).unbuilt⟩
    · intro later _
      refine ⟨⟨trivial, ?_⟩, quiet_drive _⟩
      intro dst other
      cases other
  have shown : (Moded.run mmEngine false idleModed nonIncrSubmit).map (fun last =>
      (last.driver.engine.transferList, last.mode ⟨0, 0⟩, last.pending, last.driver.engine.running)) =
        some ([⟨0, 0⟩], true, [], true) := by decide +kernel
  obtain ⟨last, ran, seen⟩ := Option.map_eq_some_iff.mp shown
  simp only [Prod.mk.injEq] at seen
  obtain ⟨list, mode, settled, running⟩ := seen
  have kept := control_register_kept mmEngine false idleModed last nonIncrSubmit (idleModed_initial mmEngine) ran
  have bit := kept.2.2.2 quiet settled running ⟨0, 0⟩ (list ▸ List.mem_singleton_self _)
  exact ⟨last, ran, list, mode, bit.mpr mode⟩

-- two calls that overlap leave a running engine in the mode that the flag no longer has
example : (Moded.run mmEngine false idleModed
    ([.setFlag true, .testFlag 0, .setFlag false] ++ (submitOne 0).map .drive ++ [.writeMode 1, .writeMode 0])).map
      (fun last => (last.nonIncrAddr, decide last.nonIncrBit, last.pending)) = some (false, true, []) := by
  decide +kernel

-- an online call takes the mode away from a running engine, and leaves the flag
example : (Moded.run mmEngine false idleModed
    ([.setFlag true, .writeMode 0] ++ (submitOne 0).map .drive ++ [.initRegs])).map
      (fun last => (last.nonIncrAddr, decide last.nonIncrBit, last.pending)) = some (true, false, []) := by
  decide +kernel

-- a call after the submission changes the mode under a transfer that was built for the other one
example : (Moded.run mmEngine false idleModed
    ((submitOne 0).map .drive ++ [.setFlag true, .writeMode 0])).map
      (fun last => (last.driver.engine.transferList, last.mode ⟨0, 0⟩, decide last.nonIncrBit)) =
    some ([⟨0, 0⟩], false, true) := by
  decide +kernel

end CigCard.Xdma
