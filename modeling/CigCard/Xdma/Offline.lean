import CigCard.Xdma.DriverSteps

namespace CigCard.Xdma

open Transition

structure StaysStopped (before after : Engine) : Prop where
  stopped : after.running = false
  starts : after.starts = before.starts
  list : after.transferList.Sublist before.transferList

def StepStaysStopped (d : Driver) (_ : Action) (next : Driver) : Prop := StaysStopped d.engine next.engine

/-- What `xdma_device_offline` leaves behind in its critical section, and nothing but `xdma_device_online` undoes. -/
def ShutDown (e : Engine) : Prop := e.running = false ∧ e.shutdownRequest = true

def KeepsShutDown (before after : Engine) : Prop := ShutDown after ∧ StaysStopped before after

section Steps

variable {cfg : EngineConfig} {d : Driver} {i : Nat}

theorem ShutDown.unchanged {before after : Engine} (down : ShutDown before) (running : after.running = false)
    (shutdownRequest : after.shutdownRequest = before.shutdownRequest) (starts : after.starts = before.starts)
    (list : after.transferList.Sublist before.transferList) : KeepsShutDown before after :=
  ⟨⟨running, shutdownRequest.trans down.2⟩, ⟨running, starts, list⟩⟩

theorem ShutDown.same {before after : Engine} (down : ShutDown before) (running : after.running = before.running)
    (shutdownRequest : after.shutdownRequest = before.shutdownRequest) (starts : after.starts = before.starts)
    (list : after.transferList = before.transferList) : KeepsShutDown before after :=
  down.unchanged (running.trans down.1) shutdownRequest starts (by rw [list])

theorem shutDown_call {kind : CallKind} {sdesc : List SwDesc} {epAddr : Nat} (down : ShutDown d.engine) :
    KeepsShutDown d.engine (stepCall i kind sdesc epAddr d).engine := by
  cases kind with
  | submit => exact down.same rfl rfl rfl rfl
  | nowait => exact down.same rfl rfl rfl rfl
  | perf =>
    unfold stepCall
    simp only
    split
    · exact down.same rfl rfl rfl rfl
    · exact down.same rfl rfl rfl rfl

theorem shutDown_init (down : ShutDown d.engine) : KeepsShutDown d.engine (stepInit cfg i d).engine := by
  by_cases kind : (d.threads i).kind = .perf
  · rw [stepInit_perf kind]
    exact down.same rfl rfl rfl rfl
  · rw [stepInit_transfer kind]
    exact down.same rfl rfl rfl rfl

/-- A call that passed the test of the offline flag is turned away here. -/
theorem shutDown_queue {hw : Hardware} (down : ShutDown d.engine) :
    KeepsShutDown d.engine (stepQueue i hw d).engine := by
  have rejected : transferQueue hw ((d.threads i).ptr i) d.engine = none := by
    unfold transferQueue
    rw [if_pos down.2]
  rw [stepQueue_rejected rejected]
  exact down.same rfl rfl rfl rfl

theorem shutDown_settle {dumpOk : Bool} {hw : Hardware} (down : ShutDown d.engine) :
    KeepsShutDown d.engine (stepSettle i dumpOk hw d).engine := by
  by_cases completed : (d.engine.tfer ((d.threads i).ptr i)).state = .completed
  · rw [stepSettle_completed completed]
    exact down.same rfl rfl rfl rfl
  · rw [stepSettle_failed completed]
    split
    · exact down.same rfl rfl rfl rfl
    · have givenUp := givenUp_spec d.engine ((d.threads i).ptr i) hw
      exact down.unchanged givenUp.stopped givenUp.shutdownRequest givenUp.starts givenUp.sublist

/-- A service of a stopped engine reads the status and returns. -/
theorem shutDown_service {wb : BitVec 32} {hw : Hardware} {reached : Nat → Bool} (down : ShutDown d.engine) :
    KeepsShutDown d.engine (stepService cfg wb hw reached d).engine := by
  obtain ⟨ring, descUsed, freed, moved, same⟩ := stepService_same cfg wb hw reached d
  rw [same]
  have idle : engineService cfg hw wb d.engine = { d.engine with status := hw.statusRc } := by
    simp only [engineService, down.1, if_true]
  simp only [idle]
  exact down.same rfl rfl rfl rfl

theorem shutDown_perfStop (down : ShutDown d.engine) : KeepsShutDown d.engine (stepPerfStop d).engine := by
  cases list : d.engine.transferList with
  | nil =>
    rw [stepPerfStop_empty list]
    exact down.same rfl rfl rfl rfl
  | cons head rest =>
    rw [stepPerfStop_head list]
    exact down.unchanged rfl rfl rfl (cyclicStopped_sublist list)

theorem shutDown_step {action : Action} {next : Driver} (stepped : Driver.step cfg d action = some next)
    (offline : action ≠ .clearShutdown) (down : ShutDown d.engine) : KeepsShutDown d.engine next.engine := by
  cases steps_of_step stepped with
  | call i kind sdesc epAddr _ =>
    exact shutDown_call down
  | lock i _ _ =>
    exact down.same rfl rfl rfl rfl
  | init i _ =>
    exact shutDown_init down
  | check i _ =>
    exact down.same rfl rfl rfl rfl
  | queue i hw _ =>
    exact shutDown_queue down
  | settle i dumpOk hw _ =>
    exact shutDown_settle down
  | retire i ok phase =>
    exact down.same rfl rfl rfl rfl
  | leave i _ =>
    unfold stepLeave
    simp only
    split <;> exact down.same rfl rfl rfl rfl
  | service wb hw reached =>
    exact shutDown_service down
  | perfStop _ =>
    exact shutDown_perfStop down
  | setOffline =>
    exact down.same rfl rfl rfl rfl
  | stopEngine =>
    exact down.unchanged rfl down.2.symm rfl (List.Sublist.refl _)
  | clearShutdown => exact absurd rfl offline
  | clearOffline =>
    exact down.same rfl rfl rfl rfl

end Steps

/-- From the critical section of `xdma_device_offline` on, whatever state it finds, the engine stays stopped in every
    run without that of `xdma_device_online`. -/
theorem offline_means_stopped (cfg : EngineConfig) (d : Driver) (actions : List Action)
    (offline : ∀ action ∈ actions, action ≠ .clearShutdown) :
    EachStep (Driver.step cfg) StepStaysStopped d (.stopEngine :: actions) := by
  apply (eachStep_cons _ rfl).mpr ⟨⟨rfl, rfl, List.Sublist.refl _⟩, _⟩
  apply eachStep_of_invariant (I := fun d => ShutDown d.engine) (C := fun _ action _ => action ≠ .clearShutdown)
  · intro d action next stepped permitted down
    exact shutDown_step stepped permitted down
  · exact ⟨rfl, rfl⟩
  · exact eachStep_of_actions offline _

/-- The call of `submitOne` passes the test of the offline flag, and is still turned away. -/
theorem submit_after_offline :
    EachStep (Driver.step mmEngine) StepStaysStopped idleDriver (.stopEngine :: submitOne 0) :=
  offline_means_stopped mmEngine idleDriver (submitOne 0) (by simp [submitOne])

end CigCard.Xdma
