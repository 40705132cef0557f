import CigCard.Xdma.Interrupts
import CigCard.Xdma.QueueInvariant

namespace CigCard.Xdma

def xdmaCtrlRunStop : BitVec 32 := 1#32 <<< 0
def xdmaCtrlNonIncrAddr : BitVec 32 := 1#32 <<< 25
def xdmaCtrlPollModeWb : BitVec 32 := 1#32 <<< 26

def stopControl (pollMode : Bool) : BitVec 32 :=
  let w := xdmaCtrlIeDescAlignMismatch ||| xdmaCtrlIeMagicStopped ||| xdmaCtrlIeReadError ||| xdmaCtrlIeDescError
  if pollMode then w ||| xdmaCtrlPollModeWb else w ||| xdmaCtrlIeDescStopped ||| xdmaCtrlIeDescCompleted

def startControl (pollMode nonIncrAddr : Bool) : BitVec 32 :=
  let w := xdmaCtrlRunStop ||| xdmaCtrlIeReadError ||| xdmaCtrlIeDescError ||| xdmaCtrlIeDescAlignMismatch |||
    xdmaCtrlIeMagicStopped
  let w := if pollMode then w ||| xdmaCtrlPollModeWb else w ||| xdmaCtrlIeDescStopped ||| xdmaCtrlIeDescCompleted
  if nonIncrAddr then w ||| xdmaCtrlNonIncrAddr else w

structure Wired where
  engine : Engine
  control : BitVec 32

namespace Wired

def xdmaEngineStop (pollMode : Bool) (w : Wired) : Wired := ⟨Xdma.xdmaEngineStop w.engine, stopControl pollMode⟩

def engineStart (pollMode nonIncrAddr : Bool) (hw : Hardware) (w : Wired) : Option Wired :=
  (Xdma.engineStart hw w.engine).map fun engine => ⟨engine, startControl pollMode nonIncrAddr⟩

def transferQueue (pollMode nonIncrAddr : Bool) (hw : Hardware) (p : Ptr) (w : Wired) : Option Wired :=
  if w.engine.shutdownRequest then none
  else
    let engine := { w.engine with transferList := w.engine.transferList ++ [p] }.setTransfer p
      { w.engine.tfer p with state := .submitted }
    let w := { w with engine }
    if w.engine.running = false then some ((w.engineStart pollMode nonIncrAddr hw).getD w) else some w

def finalStops (cfg : EngineConfig) (hw : Hardware) (descCompleted : Nat) (e : Engine) : Bool :=
  match e.transferList with
  | [] => false
  | p :: _ =>
    let t := e.tfer p
    decide (e.hasError cfg) || (decide (descCompleted < t.descNum) && cfg.eopFlush &&
      (t.eopRcvd || (List.range descCompleted).any fun i => (hw.result (t.descIndex + i)).status &&& rxStatusEop ≠ 0))

def engineServiceFinalTransfer (cfg : EngineConfig) (pollMode : Bool) (hw : Hardware) (descCompleted : Nat)
    (w : Wired) : Wired where
  engine := Xdma.engineServiceFinalTransfer cfg hw descCompleted w.engine
  control := if finalStops cfg hw descCompleted w.engine then stopControl pollMode else w.control

def engineServiceResume (pollMode nonIncrAddr : Bool) (hw : Hardware) (w : Wired) : Wired :=
  if w.engine.running = false then
    match w.engine.transferList with
    | _ :: _ => (w.engineStart pollMode nonIncrAddr hw).getD w
    | [] => if w.engine.shutdownRequest then { w with engine := { w.engine with shutdownIdle := true } } else w
  else
    match w.engine.transferList with
    | [] => w.xdmaEngineStop pollMode
    | _ :: _ => w

def serviceStopped (cfg : EngineConfig) (pollMode : Bool) (hw : Hardware) (descWriteback : BitVec 32) (w : Wired) :
    Wired :=
  let w := { w with engine := serviceStatus hw descWriteback w.engine }
  if ¬ w.engine.busy ∨ (cfg.eopFlush = false ∧ wbCount descWriteback ≠ 0) then w.xdmaEngineStop pollMode else w

def servicePrepared (cfg : EngineConfig) (pollMode : Bool) (hw : Hardware) (descWriteback : BitVec 32) (w : Wired) :
    Wired :=
  let w := w.serviceStopped cfg pollMode hw descWriteback
  match w.engine.transferList with
  | [] => w
  | _ :: _ => { w with engine := engineServicePerf (serviceCount hw descWriteback) w.engine }

/-- `nonIncrAddr` is what the `engine_start` in it reads of the flag. -/
def engineService (cfg : EngineConfig) (pollMode nonIncrAddr : Bool) (hw : Hardware) (descWriteback : BitVec 32)
    (w : Wired) : Wired :=
  if w.engine.running = false then { w with engine := { w.engine with status := hw.statusRc } }
  else
    let descCount := serviceCount hw descWriteback
    if descCount = 0 then w.serviceStopped cfg pollMode hw descWriteback
    else
      let w := w.servicePrepared cfg pollMode hw descWriteback
      let counted := engineServiceTransferList (notYetDequeued descCount w.engine.descDequeued) w.engine
      let w := { w with engine := counted.2 }.engineServiceFinalTransfer cfg pollMode hw counted.1
      if cfg.eopFlush then w else w.engineServiceResume pollMode nonIncrAddr hw

variable {cfg : EngineConfig} {pollMode nonIncrAddr : Bool} {hw : Hardware}

theorem transferQueue_engine (p : Ptr) (w : Wired) :
    (w.transferQueue pollMode nonIncrAddr hw p).map Wired.engine = Xdma.transferQueue hw p w.engine := by
  unfold transferQueue Xdma.transferQueue engineStart
  split
  · rfl
  · dsimp only
    split
    · cases Xdma.engineStart hw
        ({ w.engine with transferList := w.engine.transferList ++ [p] }.setTransfer p
          { w.engine.tfer p with state := .submitted }) with
      | none => rfl
      | some engine => rfl
    · rfl

theorem engineServiceResume_engine (w : Wired) :
    (w.engineServiceResume pollMode nonIncrAddr hw).engine = Xdma.engineServiceResume hw w.engine := by
  unfold engineServiceResume Xdma.engineServiceResume engineStart
  split
  · cases list : w.engine.transferList with
    | nil =>
      dsimp only
      split
      · rw [list]
      · rfl
    | cons head rest =>
      cases Xdma.engineStart hw w.engine with
      | none => rfl
      | some engine => rfl
  · cases w.engine.transferList with
    | nil => rfl
    | cons head rest => rfl

theorem serviceStopped_engine (wb : BitVec 32) (w : Wired) :
    (w.serviceStopped cfg pollMode hw wb).engine = Xdma.serviceStopped cfg hw wb w.engine := by
  unfold serviceStopped Xdma.serviceStopped
  dsimp only
  split
  · rfl
  · rfl

theorem servicePrepared_engine (wb : BitVec 32) (w : Wired) :
    (w.servicePrepared cfg pollMode hw wb).engine = Xdma.servicePrepared cfg hw wb w.engine := by
  unfold servicePrepared Xdma.servicePrepared
  rw [← @serviceStopped_engine cfg pollMode]
  generalize w.serviceStopped cfg pollMode hw wb = stopped
  dsimp only
  cases stopped.engine.transferList with
  | nil => rfl
  | cons head rest => rfl

/-- The register is written beside what `engine_service` does. -/
theorem engineService_engine (wb : BitVec 32) (w : Wired) :
    (w.engineService cfg pollMode nonIncrAddr hw wb).engine = Xdma.engineService cfg hw wb w.engine := by
  unfold engineService
  by_cases stopped : w.engine.running = false
  · rw [if_pos stopped, Xdma.engineService, if_pos stopped]
  · rw [if_neg stopped, engineService_running (Bool.eq_true_of_not_eq_false stopped)]
    dsimp only
    split
    · exact serviceStopped_engine wb w
    · rw [← @servicePrepared_engine cfg pollMode]
      split
      · rfl
      · rw [engineServiceResume_engine]
        rfl

/-- What a function leaves in the register: what was there, or the word of its last write, with which the engine
    then agrees. -/
inductive Wrote (pollMode nonIncrAddr : Bool) (before after : Wired) : Prop where
  | nothing (control : after.control = before.control) (running : after.engine.running = before.engine.running)
  | stop (control : after.control = stopControl pollMode) (running : after.engine.running = false)
  | start (control : after.control = startControl pollMode nonIncrAddr) (running : after.engine.running = true)

namespace Wrote

variable {before after third : Wired}

theorem refl (w : Wired) : Wrote pollMode nonIncrAddr w w := .nothing rfl rfl

theorem trans (one : Wrote pollMode nonIncrAddr before after) (two : Wrote pollMode nonIncrAddr after third) :
    Wrote pollMode nonIncrAddr before third := by
  cases two with
  | stop control running => exact .stop control running
  | start control running => exact .start control running
  | nothing control running =>
    cases one with
    | nothing control' running' => exact .nothing (control.trans control') (running.trans running')
    | stop control' running' => exact .stop (control.trans control') (running.trans running')
    | start control' running' => exact .start (control.trans control') (running.trans running')

theorem of_start {w next : Wired} (started : w.engineStart pollMode nonIncrAddr hw = some next) :
    Wrote pollMode nonIncrAddr w next := by
  unfold engineStart at started
  obtain ⟨engine, begun, rfl⟩ := Option.map_eq_some_iff.mp started
  apply Wrote.start rfl
  unfold Xdma.engineStart at begun
  split at begun
  · cases begun
  · split at begun
    · cases begun
    · cases begun
      rfl

theorem of_getD_start (w : Wired) : Wrote pollMode nonIncrAddr w ((w.engineStart pollMode nonIncrAddr hw).getD w) := by
  cases started : w.engineStart pollMode nonIncrAddr hw with
  | none => exact .refl w
  | some next => exact .of_start started

theorem of_queue {p : Ptr} {w next : Wired} (queued : w.transferQueue pollMode nonIncrAddr hw p = some next) :
    Wrote pollMode nonIncrAddr w next := by
  unfold transferQueue at queued
  split at queued
  · cases queued
  · dsimp only at queued
    split at queued
    · cases queued
      apply Wrote.trans _ (of_getD_start _)
      exact .nothing rfl rfl
    · cases queued
      exact .nothing rfl rfl

theorem of_stopped (wb : BitVec 32) (w : Wired) :
    Wrote pollMode nonIncrAddr w (w.serviceStopped cfg pollMode hw wb) := by
  unfold serviceStopped
  dsimp only
  split
  · exact .stop rfl rfl
  · apply Wrote.nothing
    · rfl
    · show (serviceStatus hw wb w.engine).running = w.engine.running
      unfold serviceStatus
      split
      · rfl
      · rfl

theorem of_prepared (wb : BitVec 32) (w : Wired) :
    Wrote pollMode nonIncrAddr w (w.servicePrepared cfg pollMode hw wb) := by
  have stopped : Wrote pollMode nonIncrAddr w (w.serviceStopped cfg pollMode hw wb) := of_stopped wb w
  apply stopped.trans
  unfold servicePrepared
  dsimp only
  split
  · exact .refl _
  · apply Wrote.nothing
    · rfl
    · show (engineServicePerf _ _).running = _
      unfold engineServicePerf
      split
      · rfl
      · rfl

theorem of_final (count : Nat) (w : Wired) :
    Wrote pollMode nonIncrAddr w (w.engineServiceFinalTransfer cfg pollMode hw count) := by
  have running : (Xdma.engineServiceFinalTransfer cfg hw count w.engine).running =
      if finalStops cfg hw count w.engine then false else w.engine.running := by
    unfold Xdma.engineServiceFinalTransfer finalStops
    cases w.engine.transferList with
    | nil => rfl
    | cons p rest =>
      dsimp only
      by_cases error : w.engine.hasError cfg
      · rw [if_pos error, decide_eq_true error]
        rfl
      · simp only [error, if_false, decide_false, Bool.false_or]
        by_cases short : count < (w.engine.tfer p).descNum
        · simp only [short, if_true, decide_true, Bool.true_and]
          cases cfg.eopFlush with
          | false => rfl
          | true =>
            simp only [Bool.true_and, if_true]
            split
            · rfl
            · rfl
        · simp only [short, if_false, decide_false, Bool.false_and]
          rfl
  cases stops : finalStops cfg hw count w.engine with
  | true =>
    rw [stops, if_pos rfl] at running
    exact .stop (if_pos stops) running
  | false =>
    rw [stops] at running
    exact .nothing (if_neg (by simp [stops])) running

theorem of_resume (w : Wired) : Wrote pollMode nonIncrAddr w (w.engineServiceResume pollMode nonIncrAddr hw) := by
  unfold engineServiceResume
  split
  · split
    · exact of_getD_start w
    · split
      · exact .nothing rfl rfl
      · exact .refl w
  · split
    · exact .stop rfl rfl
    · exact .refl w

theorem of_service (wb : BitVec 32) (w : Wired) :
    Wrote pollMode nonIncrAddr w (w.engineService cfg pollMode nonIncrAddr hw wb) := by
  unfold engineService
  split
  · exact .nothing rfl rfl
  · dsimp only
    split
    · exact of_stopped wb w
    · have ready : Wrote pollMode nonIncrAddr w (w.servicePrepared cfg pollMode hw wb) := of_prepared wb w
      apply ready.trans
      generalize w.servicePrepared cfg pollMode hw wb = prepared
      have walked (count : Nat) :
          Wrote pollMode nonIncrAddr prepared ⟨(engineServiceTransferList count prepared.engine).2, prepared.control⟩ :=
        .nothing rfl (@serviceTransferList_keeps _ _ Engine.running (fun _ _ _ => rfl) _ _)
      split
      · exact (walked _).trans (of_final _ _)
      · exact ((walked _).trans (of_final _ _)).trans (of_resume _)

end Wrote

end Wired

end CigCard.Xdma
