import CigCard.Mailbox.FileDownload
import CigCard.Mailbox.Window

namespace CigCard.Mailbox

open Interaction ByteMemory

/-- `acFilePath` of the command record, read as a C string. -/
def acFilePath (memory : Memory) : List Byte := (load memory 4 96).takeWhile (· ≠ 0)

def totalStore (file : HostFile) : Access := .store32 100 file.fileSize

def PathDelivered (file : HostFile) (buffer before : Memory) : Prop :=
  MeetsAt (window KeepsOut) (sendFileToA53Sync (some file) buffer) before (totalStore file)
    (fun memory => acFilePath memory = file.psPath)

def pathWindow (before : Memory) (path : List Byte) : Memory :=
  store (store32 before 0 0x5B5BB5B5) 4 (padded path)

section
variable {file : HostFile}

theorem HostFile.psPath_text (file : HostFile) : ∀ byte ∈ file.psPath, byte ≠ 0 := by
  intro byte member
  rcases List.mem_append.mp member with folder | named
  · intro zero
    rw [zero] at folder
    exact absurd folder (by decide)
  · exact file.text byte named

theorem pathWindow_field (before : Memory) (path : List Byte) (short : path.length ≤ 95) :
    load (pathWindow before path) 4 96 =
      padded path ++ load before (4 + (padded path).length) (96 - (padded path).length) := by
  have fits : (padded path).length ≤ 96 := by rw [padded_length]; omega
  have split := load_add (pathWindow before path) 4 (padded path).length (96 - (padded path).length)
  rw [Nat.add_sub_cancel' fits] at split
  rw [split, pathWindow, load_store_same, load_store_disjoint _ _ _ _ _ (.inr (Nat.le_refl _)), store32,
    load_store_disjoint _ _ _ _ _ (.inr (by rw [leBytes_length]; omega))]

theorem acFilePath_pathWindow (before : Memory) (short : file.psPath.length ≤ 95) :
    acFilePath (pathWindow before file.psPath) = file.psPath ↔
      file.psPath.length % 4 ≠ 0 ∨ before (4 + file.psPath.length) = 0 := by
  rw [acFilePath, pathWindow_field before _ short, padded, List.append_assoc, takeWhile_text _ _ file.psPath_text,
    List.append_right_eq_self]
  by_cases whole : file.psPath.length % 4 = 0
  · obtain ⟨more, enough⟩ : ∃ more, 96 - file.psPath.length = more + 1 := ⟨95 - file.psPath.length, by omega⟩
    rw [whole, List.length_append, List.length_replicate, Nat.sub_zero, Nat.mod_self, List.replicate_zero,
      List.nil_append, Nat.add_zero, enough, load, List.takeWhile_cons]
    by_cases ended : before (4 + file.psPath.length) = 0 <;> simp [ended]
  · obtain ⟨more, enough⟩ : ∃ more, (4 - file.psPath.length % 4) % 4 = more + 1 :=
      ⟨3 - file.psPath.length % 4, by omega⟩
    rw [enough, List.replicate_succ, List.cons_append, List.takeWhile_cons]
    simp [whole]

end

def Access.NotTotal : Access → Prop
  | .store32 addr _ => addr ≠ 100
  | .load32 _ | .store8 _ _ => True

theorem Access.IsLoad.notTotal {access : Access} (load : access.IsLoad) : access.NotTotal := by
  cases access with
  | load32 addr => trivial
  | store32 addr value => cases load
  | store8 addr byte => cases load

theorem xdmaRegWrite_notTotal (addr value : Nat) (other : addr ≠ 100) :
    (xdmaRegWrite addr value).Only Access.NotTotal := .perform other

theorem xdmaMemcpyWrite_notTotal (addr : Nat) (bytes : List Byte) :
    (xdmaMemcpyWrite addr bytes).Only Access.NotTotal := by
  induction bytes generalizing addr with
  | nil => exact .pure _ ()
  | cons byte bytes ih => exact .bind (.perform trivial) fun _ => ih (addr + 1)

theorem awaitResult_notTotal (download : Download) : (awaitResult download).Only Access.NotTotal := by
  apply Program.Only.bind ((awaitClear_isLoad _ _ _).mono fun _ => Access.IsLoad.notTotal)
  intro out
  obtain ⟨loopCount, result⟩ := out
  dsimp only
  split
  · exact .bind (xdmaRegWrite_notTotal interruptReg _ (by decide)) fun _ => .pure _ _
  · apply Program.Only.bind (.perform trivial)
    intro status
    split
    · exact .pure _ _
    · exact .pure _ _

theorem writeChunk_notTotal (i length sync : Nat) (download : Download) :
    (writeChunk i length sync download).Only Access.NotTotal := by
  have read : ∀ addr, (xdmaRegRead addr).Only Access.NotTotal := fun _ => .perform trivial
  apply Program.Only.bind (xdmaRegWrite_notTotal 104 _ (by decide))
  intro _
  apply Program.Only.bind (xdmaRegWrite_notTotal 108 _ (by decide))
  intro _
  apply Program.Only.bind (read 108)
  intro _
  apply Program.Only.bind (xdmaRegWrite_notTotal 110 _ (by decide))
  intro _
  apply Program.Only.bind (xdmaRegWrite_notTotal 111 _ (by decide))
  intro _
  apply Program.Only.bind (read 111)
  intro _
  apply Program.Only.bind (xdmaMemcpyWrite_notTotal _ _)
  intro _
  apply Program.Only.bind (xdmaRegWrite_notTotal typeReg _ (by decide))
  intro _
  apply Program.Only.bind (xdmaRegWrite_notTotal interruptReg _ (by decide))
  intro _
  exact awaitResult_notTotal download

theorem sendChunk_notTotal (file : HostFile) (i length sync : Nat) (download : Download) :
    (sendChunk file i length sync download).Only Access.NotTotal := by
  rw [sendChunk]
  cases file.fread i length with
  | none => exact writeChunk_notTotal _ _ _ _
  | some slice =>
    simp only
    split
    · exact .pure _ _
    · exact writeChunk_notTotal _ _ _ _

theorem sendFullChunks_notTotal (file : HostFile) (remaining i : Nat) (download : Download) :
    (sendFullChunks file remaining i download).Only Access.NotTotal := by
  induction remaining generalizing i download with
  | zero => exact .pure _ _
  | succ remaining ih =>
    apply Program.Only.bind (sendChunk_notTotal file i uDataLen 0 download)
    intro out
    cases out with
    | error failure => exact .pure _ _
    | ok sent => exact ih _ _

theorem path_reached (file : HostFile) (buffer before : Memory) : ∃ rest memory,
    Runs (window KeepsOut) (sendFileToA53Sync (some file) buffer, before) (.call (totalStore file) rest, memory) := by
  obtain ⟨_, flagged, first⟩ := (window_total KeepsOut).through (xdmaRegWrite 0 0x5B5BB5B5) _ before
  obtain ⟨_, written, second⟩ := (window_total KeepsOut).through (writeWords 4 0 file.psPath) _ flagged
  exact ⟨_, written, first.trans second⟩

theorem path_watched (file : HostFile) (short : file.psPath.length ≤ 95) (buffer before : Memory) {goal : Memory → Prop}
    (reached : ∀ memory, Holding (pathWindow before file.psPath) memory → goal memory) :
    Triple (window KeepsOut) (Watch (totalStore file) goal) (Holding before) (sendFileToA53Sync (some file) buffer)
      (fun _ _ => True) := by
  have fits : (padded file.psPath).length ≤ 96 := by rw [padded_length]; omega
  have past : ∀ access, Access.NotTotal access → access ≠ totalStore file := by
    intro access other same
    rw [same] at other
    exact other rfl
  apply xdmaRegWrite_holding _ _ (by simp [totalStore])
  apply writeWords_holding
  · intro addr value below same
    obtain ⟨place, -⟩ := Access.store32.inj same
    omega
  apply Triple.perform_bind (fun _ _ => True) Holding.stable
  · exact fun memory holding _ => reached memory holding
  · exact fun _ _ _ _ _ => trivial
  · intro _
    apply Triple.unwatched
    apply Program.Only.bind ((xdmaRegRead_isLoad 100).mono fun _ load => past _ load.notTotal)
    intro _
    apply Program.Only.bind ((sendFullChunks_notTotal file _ 0 _).mono past)
    intro out
    cases out with
    | error failure => exact .pure _ _
    | ok download =>
      apply Program.Only.bind ((sendChunk_notTotal file _ _ 1 download).mono past)
      intro last
      cases last with
      | error failure => exact .pure _ _
      | ok sent => exact .pure _ _

theorem delivered_iff_window (file : HostFile) (short : file.psPath.length ≤ 95) (buffer before : Memory) :
    PathDelivered file buffer before ↔ acFilePath (pathWindow before file.psPath) = file.psPath := by
  have field : ∀ rest memory,
      Runs (window KeepsOut) (sendFileToA53Sync (some file) buffer, before) (.call (totalStore file) rest, memory) →
        acFilePath memory = acFilePath (pathWindow before file.psPath) := by
    intro rest memory run
    have holding := (path_watched file short buffer before fun _ holding => holding).watched
      (Agree.refl before 0 interruptReg) run
    rw [acFilePath, holding.load (Nat.zero_le _) (by decide), ← acFilePath]
  constructor
  · intro delivered
    obtain ⟨rest, memory, run⟩ := delivered.reached
    rw [← field rest memory run]
    exact delivered.always rest memory run
  · intro same
    apply MeetsAt.mk (path_reached file buffer before)
    intro rest memory run
    rw [field rest memory run]
    exact same

/-- A path whose length is a multiple of four has no terminator of its own: it is read back only where
    the window happened to hold a zero after it. -/
theorem path_delivered_iff (file : HostFile) (short : file.psPath.length ≤ 95) (buffer before : Memory) :
    PathDelivered file buffer before ↔ file.psPath.length % 4 ≠ 0 ∨ before (4 + file.psPath.length) = 0 :=
  (delivered_iff_window file short buffer before).trans (acFilePath_pathWindow before short)

theorem logoName_text : ∀ byte ∈ ([108, 111, 103, 111] : List Byte), byte ≠ 0 := by decide

def logoFile : HostFile where
  name := [108, 111, 103, 111]
  content := []
  named := by decide
  text := logoName_text

theorem logoFile_delivered : PathDelivered logoFile (fun _ => 0) (fun _ => 0) :=
  (path_delivered_iff logoFile (by decide) _ _).mpr (.inr rfl)

theorem logoFile_runs_on : ¬ PathDelivered logoFile (fun _ => 0) (fun _ => 0x41) := by
  rw [delivered_iff_window logoFile (by decide), acFilePath_pathWindow _ (by decide)]
  decide

end CigCard.Mailbox
