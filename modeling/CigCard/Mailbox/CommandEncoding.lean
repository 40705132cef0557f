import CigCard.Mailbox.Window

namespace CigCard.Mailbox

open Interaction ByteMemory

def received (memory : Memory) : Option (List Byte) :=
  if load32 memory 0 = 0x5a5aa5a5 then some (load memory 8 (load32 memory 4)) else none

/-- Outside the command's record there are at most three zeros, and then the window is as it was. -/
def OthersKept (before : Memory) (length : Nat) (memory : Memory) : Prop :=
  ∃ padding ≤ 3, (∀ i < padding, memory (8 + length + i) = 0) ∧
    ∀ i, 8 + length + padding ≤ i → i < interruptReg → memory i = before i

def doorbell : Access := .store32 interruptReg 1

def commandWindow (before : Memory) (bytes : List Byte) : Memory :=
  store32 (store (store32 before 0 0x5a5aa5a5) 8 (padded bytes)) 4 bytes.length

section
variable {before memory : Memory} {sendCmd : Command}

theorem Command.padded_fits (sendCmd : Command) : 8 + (padded sendCmd.bytes).length ≤ interruptReg :=
  Mailbox.padded_fits sendCmd.bytes sendCmd.fits (by decide) (by decide)

theorem received_commandWindow (holding : Holding (commandWindow before sendCmd.bytes) memory) :
    received (store32 memory interruptReg 1) = some sendCmd.bytes := by
  have fits := sendCmd.fits
  have rung : Agree (store32 memory interruptReg 1) (commandWindow before sendCmd.bytes) 0 interruptReg :=
    Agree.store holding (.inr (Nat.le_refl _))
  simp only [interruptReg] at fits
  have flag : load32 (store32 memory interruptReg 1) 0 = 0x5a5aa5a5 := by
    rw [load32, number, rung.load (Nat.le_refl _) (by simp [interruptReg]), ← number, ← load32, commandWindow,
      load32_store32_disjoint _ _ _ _ (.inl (by decide)), load32_store_disjoint _ _ _ _ (.inl (by decide)),
      load32_store32, Nat.mod_eq_of_lt (by decide)]
  have length : load32 (store32 memory interruptReg 1) 4 = sendCmd.bytes.length := by
    rw [load32, number, rung.load (Nat.zero_le _) (by simp [interruptReg]), ← number, ← load32, commandWindow,
      load32_store32, Nat.mod_eq_of_lt (by omega)]
  have text : load (store32 memory interruptReg 1) 8 sendCmd.bytes.length = sendCmd.bytes := by
    rw [rung.load (Nat.zero_le _) sendCmd.fits, commandWindow, store32,
      load_store_disjoint _ _ _ _ _ (.inr (by rw [leBytes_length])), padded, ← store_append,
      load_store_disjoint _ _ _ _ _ (.inl (Nat.le_refl _)), load_store_same]
  rw [received, if_pos flag, length, text]

theorem othersKept_commandWindow (holding : Holding (commandWindow before sendCmd.bytes) memory) :
    OthersKept before sendCmd.bytes.length (store32 memory interruptReg 1) := by
  have rung : Agree (store32 memory interruptReg 1) (commandWindow before sendCmd.bytes) 0 interruptReg :=
    Agree.store holding (.inr (Nat.le_refl _))
  have whole := sendCmd.padded_fits
  rw [padded_length] at whole
  apply Exists.intro ((4 - sendCmd.bytes.length % 4) % 4)
  apply And.intro (by omega)
  constructor
  · intro i inside
    have zero : (padded sendCmd.bytes)[sendCmd.bytes.length + i]? = some 0 := by
      rw [padded, List.getElem?_append_right (Nat.le_add_right _ _), Nat.add_sub_cancel_left,
        List.getElem?_replicate, if_pos inside]
    obtain ⟨bound, value⟩ := List.getElem?_eq_some_iff.mp zero
    rw [rung _ (Nat.zero_le _) (by omega), commandWindow, store32_outside _ _ _ _ (.inr (by omega)), Nat.add_assoc,
      store_inside _ _ _ _ bound, value]
  · intro i above below
    rw [rung _ (Nat.zero_le _) below, commandWindow, store32_outside _ _ _ _ (.inr (by omega)),
      store_outside _ _ _ _ (.inr (by rw [padded_length]; omega)), store32_outside _ _ _ _ (.inr (by omega))]

end

theorem load_not_doorbell {α : Type} {program : Host α} (loads : program.Only Access.IsLoad) :
    program.Only (· ≠ doorbell) := by
  apply loads.mono
  intro access load same
  rw [same] at load
  exact load

def afterDoorbell (rounds : Nat) (cmdResult : Memory) : Host (Exit × Memory) := do
  let (loopCount, result) ← awaitClear 1000 0 0
  if loopCount = 1000 ∧ result ≠ 0 then
    xdmaRegWrite interruptReg 0x0
    pure (.timeout, cmdResult)
  else readResult rounds cmdResult

theorem afterDoorbell_only (rounds : Nat) (cmdResult : Memory) : (afterDoorbell rounds cmdResult).Only (· ≠ doorbell) := by
  apply Program.Only.bind (load_not_doorbell (awaitClear_isLoad _ _ _))
  intro out
  obtain ⟨loopCount, result⟩ := out
  dsimp only
  split
  · exact .bind (.perform (by simp [doorbell])) fun _ => .pure _ _
  · exact load_not_doorbell (readResult_isLoad rounds cmdResult)

theorem sendCmd_rings (env : Memory → Memory → Prop) (rounds : Nat) (sendCmd : Command) (cmdResult before : Memory) :
    ∃ memory, Runs (window env) (sendCmdToA53Sync rounds sendCmd cmdResult, before)
      (.call doorbell (fun _ => afterDoorbell rounds cmdResult), memory) := by
  obtain ⟨_, flagged, first⟩ := (window_total env).through (xdmaRegWrite 0 0x5a5aa5a5) _ before
  obtain ⟨_, written, second⟩ := (window_total env).through (writeWords 8 0 sendCmd.bytes) _ flagged
  obtain ⟨_, measured, third⟩ := (window_total env).through (xdmaRegWrite 0x4 sendCmd.bytes.length) _ written
  obtain ⟨_, typed, fourth⟩ := (window_total env).through (xdmaRegWrite typeReg 0x3) _ measured
  exact ⟨typed, first.trans (second.trans (third.trans fourth))⟩

theorem sendCmd_watched (rounds : Nat) (sendCmd : Command) (cmdResult before : Memory) {goal : Memory → Prop}
    (reached : ∀ memory, Holding (commandWindow before sendCmd.bytes) memory → goal memory) :
    Triple (window KeepsOut) (Watch doorbell goal) (Holding before) (sendCmdToA53Sync rounds sendCmd cmdResult)
      (fun _ _ => True) := by
  have whole := sendCmd.padded_fits
  simp only [interruptReg] at whole
  apply xdmaRegWrite_holding _ _ (by simp [doorbell, interruptReg])
  apply writeWords_holding
  · intro addr value below same
    obtain ⟨place, -⟩ := Access.store32.inj same
    simp only [interruptReg] at place
    omega
  apply xdmaRegWrite_holding _ _ (by simp [doorbell, interruptReg])
  apply xdmaRegWrite_holding _ _ (by simp [doorbell, interruptReg, typeReg])
  apply Triple.perform_bind (fun _ _ => True) Holding.stable
  · intro memory holding _
    exact reached memory (holding.of_above (by decide))
  · exact fun _ _ _ _ _ => trivial
  · intro _
    exact Triple.unwatched (afterDoorbell_only rounds cmdResult)

/-- At the doorbell the A53 finds exactly the command, and the rest of the window as it was. -/
theorem command_received (rounds : Nat) (sendCmd : Command) (cmdResult before : Memory) :
    MeetsAt (window KeepsOut) (sendCmdToA53Sync rounds sendCmd cmdResult) before doorbell (fun memory =>
      received (store32 memory interruptReg 1) = some sendCmd.bytes ∧
        OthersKept before sendCmd.bytes.length (store32 memory interruptReg 1)) where
  reached := ⟨_, sendCmd_rings KeepsOut rounds sendCmd cmdResult before⟩
  always := by
    intro rest memory run
    have watched := sendCmd_watched rounds sendCmd cmdResult before (fun _ holding =>
      And.intro (received_commandWindow holding) (othersKept_commandWindow holding))
    exact watched.watched (Agree.refl before 0 interruptReg) run

end CigCard.Mailbox
