import CigCard.Xdma.IrqAlternation

namespace CigCard.Xdma

open Ledger

inductive UserIsrCall where
  | enable (mask : BitVec 32)
  | disable (mask : BitVec 32)

def UserIsrCall.perform (xdev : Device) : UserIsrCall → Device
  | .enable mask => xdmaUserIsrEnable mask xdev
  | .disable mask => xdmaUserIsrDisable mask xdev

structure SameInterrupts (before after : Device) : Prop where
  channels : after.channelIntEnable = before.channelIntEnable
  users : after.userIntEnable = before.userIntEnable
  engines : after.interruptEnableMask = before.interruptEnableMask
  handlers : after.irqs.owner = before.irqs.owner

variable {cfg : Config} {refuses : Nat → Bool} {xdev : Device}

theorem Opened.userIsr (opened : Opened cfg xdev) (call : UserIsrCall) : Opened cfg (call.perform xdev) := by
  cases call with
  | enable mask =>
    refine ⟨opened.standing.congr rfl rfl rfl, opened.wired, opened.channels, ?_, opened.engines⟩
    simp only [UserIsrCall.perform, xdmaUserIsrEnable, userInterruptsEnable, opened.users]
  | disable mask =>
    refine ⟨opened.standing.congr rfl rfl rfl, opened.wired, opened.channels, ?_, opened.engines⟩
    simp only [UserIsrCall.perform, xdmaUserIsrDisable, userInterruptsDisable, opened.users]

theorem Opened.history (opened : Opened cfg xdev) (history : List UserIsrCall) :
    Opened cfg (history.foldl UserIsrCall.perform xdev) := by
  induction history generalizing xdev with
  | nil => exact opened
  | cons call history ih => exact ih (opened.userIsr call)

theorem offline_eq (recorded : Recorded cfg xdev) : xdmaDeviceOffline cfg xdev =
    { xdev with
      irqs := xdev.irqs.releaseAll cfg.lines
      channelIntEnable := 0
      userIntEnable := 0 } := by
  have remembered : Recorded cfg (userInterruptsDisable (~~~0) (channelInterruptsDisable (~~~0) xdev)) :=
    recorded.congr rfl rfl
  rw [xdmaDeviceOffline, irqTeardown_recorded remembered]
  simp [userInterruptsDisable, channelInterruptsDisable]

theorem Opened.engines_kept (opened : Opened cfg xdev) :
    (fun k => if k < cfg.channels then engineInterruptEnable cfg.pollMode else xdev.interruptEnableMask k) =
      xdev.interruptEnableMask := by
  funext k
  by_cases below : k < cfg.channels
  · rw [if_pos below, opened.engines k below]
  · rw [if_neg below]

/-- With interrupts and every line granted, online rebuilds what offline took down. -/
theorem Opened.restored (opened : Opened cfg xdev) (interrupts : cfg.pollMode = false)
    (granted : cfg.grants refuses) :
    SameInterrupts xdev (xdmaDeviceOnline cfg refuses (xdmaDeviceOffline cfg xdev)) := by
  have down := offline_standing opened.standing
  have up := online_granted interrupts opened.wired down granted
  have start : Standing cfg [] (cfg.initEngines (xdmaDeviceOffline cfg xdev)) := by
    rw [initEngines_eq]
    exact down.congr rfl rfl rfl
  obtain ⟨irqLine, msixIrqLine, setup, -⟩ := irqSetup_granted opened.wired start.holds granted
  refine ⟨?_, ?_, ?_, up.holds.owner_eq opened.standing.holds⟩
  · rw [opened.channels, online_eq interrupts, setup, initEngines_eq, offline_eq opened.standing.recorded]
    simp [userInterruptsEnable, channelInterruptsEnable, interrupts]
  · rw [opened.users, online_eq interrupts, setup, initEngines_eq, offline_eq opened.standing.recorded]
    simp [userInterruptsEnable, channelInterruptsEnable]
  · rw [online_eq interrupts, setup, initEngines_eq, offline_eq opened.standing.recorded]
    exact opened.engines_kept

theorem Opened.not_restored (opened : Opened cfg xdev) {after : Device}
    (missing : ∃ line ∈ cfg.lines, after.irqs.owner line.1 ≠ some line.2) : ¬ SameInterrupts xdev after := by
  intro same
  obtain ⟨line, member, free⟩ := missing
  apply free
  rw [same.handlers]
  exact (opened.standing.holds line.1 line.2).mpr member

theorem offline_online_restores_iff {cfg : Config} {refuses : Nat → Bool}
    {channelIntEnable userIntEnable : BitVec 32} {interruptEnableMask : Nat → BitVec 32} {xdev : Device}
    (opened : xdmaDeviceOpen cfg refuses channelIntEnable userIntEnable interruptEnableMask = some xdev)
    (history : List UserIsrCall) (refusesOnline : Nat → Bool) :
    let before := history.foldl UserIsrCall.perform xdev
    SameInterrupts before (xdmaDeviceOnline cfg refusesOnline (xdmaDeviceOffline cfg before)) ↔
      cfg.pollMode = false ∧ cfg.grants refusesOnline := by
  intro before
  have state : Opened cfg before := (open_opened opened).history history
  have down := offline_standing state.standing
  constructor
  · intro same
    by_cases poll : cfg.pollMode = true
    · have empty : Standing cfg [] (xdmaDeviceOnline cfg refusesOnline (xdmaDeviceOffline cfg before)) := by
        simp only [xdmaDeviceOnline, poll, if_true, initEngines_eq]
        exact down.congr rfl rfl rfl
      exact absurd same (state.not_restored empty.missing)
    · have interrupts : cfg.pollMode = false := by simpa using poll
      refine ⟨interrupts, ?_⟩
      by_contra refused
      have outcome := online_refused interrupts down refused
      split_ifs at outcome with atOnce
      · exact state.not_restored outcome.missing same
      · exact state.not_restored outcome.missing same
  · intro both
    obtain ⟨interrupts, granted⟩ := both
    exact state.restored interrupts granted

/-- In poll mode the four lines that open has requested are gone after offline and online. -/
theorem poll_mode_not_restored : ∃ xdev,
    xdmaDeviceOpen (smallCard.config true 2 1 1) (fun _ => false) 0 0 (fun _ => 0) = some xdev ∧
      let before := [UserIsrCall.enable 7].foldl UserIsrCall.perform xdev
      ¬ SameInterrupts before
        (xdmaDeviceOnline (smallCard.config true 2 1 1) (fun _ => false)
          (xdmaDeviceOffline (smallCard.config true 2 1 1) before)) := by
  refine ⟨_, rfl, ?_⟩
  intro before same
  exact absurd same.users (by decide)

theorem interrupt_mode_restored : ∃ xdev,
    xdmaDeviceOpen (smallCard.config false 2 1 1) (fun _ => false) 0 0 (fun _ => 0) = some xdev ∧
      let before := [UserIsrCall.enable 7].foldl UserIsrCall.perform xdev
      SameInterrupts before
        (xdmaDeviceOnline (smallCard.config false 2 1 1) (fun _ => false)
          (xdmaDeviceOffline (smallCard.config false 2 1 1) before)) := by
  refine ⟨_, rfl, ?_⟩
  exact (@offline_online_restores_iff _ (fun _ => false) 0 0 (fun _ => 0) _ rfl [.enable 7] fun _ => false).mpr
    ⟨rfl, fun _ _ => rfl⟩

end CigCard.Xdma
