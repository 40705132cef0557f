import CigCard.Mailbox.FileEncoding
import CigCard.Mailbox.FileHandshake

namespace CigCard.Mailbox

open Interaction ByteMemory

section
variable {R : Type} {stores : R → List (Nat × List Byte)}

theorem Act.total (access : Access) (card : Card R) : ∃ answer after, Act access card answer after := by
  cases access with
  | load32 addr => exact ⟨load32 card.memory addr, card.hostLoad addr, rfl, rfl⟩
  | store32 addr value => exact ⟨(), card.hostStore32 addr value, rfl⟩
  | store8 addr byte => exact ⟨(), card.hostStore8 addr byte, rfl⟩

end

section
variable {rings : List Ring} {served : List (Job FileResponse)} {card : Card FileResponse} {α β : Type}

theorem Between.act {access : Access} {answer : access.Answer} {after : Card FileResponse}
    (between : Between rings served card) (plain : access.Plain) (acted : Act access card answer after) :
    Between rings served after :=
  ⟨(acted.rings_eq plain).trans between.rings, acted.served_eq.trans between.served,
    between.quiet.act plain acted, acted.awaiting_eq plain between.calm⟩

theorem Between.reaches {program : Host α} (plain : program.Only Access.Plain) {next : α → Host β}
    {goal : Host β × Card FileResponse → Prop} (between : Between rings served card)
    (rest : ∀ value after, Between rings served after → Reaches fileWorld (next value, after) goal) :
    Reaches fileWorld (program.bind next, card) goal := by
  induction program generalizing card with
  | pure value => exact rest value card between
  | call access tail ih =>
    obtain ⟨answer, middle, acted⟩ := Act.total access card
    have later := ih answer (plain.2 answer) (between.act plain.1 acted)
    exact later.after (.act acted)

def Card.acknowledge (card : Card FileResponse) : Card FileResponse :=
  let rung := card.hostStore32 interruptReg 0x01
  { rung with
    memory := store32 (putAll rung.memory (FileResponse.stores ⟨0⟩)) interruptReg 0
    a53 := .idle
    served := rung.served ++ [⟨rung.rings.length, [], ⟨0⟩⟩] }

theorem acknowledge_runs {program : Host α} (idle : card.a53 = .idle) :
    Runs fileWorld (program, card.hostStore32 interruptReg 0x01) (program, card.acknowledge) := by
  have rung : (card.hostStore32 interruptReg 0x01).door ≠ 0 := by simp [Card.door]
  have served := @Move.completes FileResponse FileResponse.stores
    { card.hostStore32 interruptReg 0x01 with a53 := .working (card.hostStore32 interruptReg 0x01).rings.length [] }
    _ [] ⟨0⟩ rfl
  refine .head (.env (.pickUp _ (by simp [idle]) rung)) ?_
  exact served.lift (fun s => (program, s)) fun _ _ moved => .env moved

theorem acknowledge_door : card.acknowledge.door = 0 := by simp [Card.acknowledge, Card.door]

def Answered.Next (rings : List Ring) (served : List (Job FileResponse)) (next : Except Failure Download → Host β)
    (reached : Host β × Card FileResponse) : Prop :=
  ∃ download ring job, reached.1 = next (.ok download) ∧ download.loopCount = 0 ∧
    Between (rings ++ [ring]) (served ++ [job]) reached.2

/-- A chunk that is written while nothing is outstanding can be acknowledged at once. -/
theorem Between.answers (between : Between rings served card) (download : Download)
    (fresh : download.loopCount = 0) (next : Except Failure Download → Host β) :
    Reaches fileWorld (((xdmaRegWrite interruptReg 0x01).bind fun _ => awaitResult download).bind next, card)
      (Answered.Next rings served next) := by
  have status : load32 card.acknowledge.memory resultReg = 0 := status_stored ⟨0⟩ _
  have cleared : card.acknowledge.door = 0 := acknowledge_door
  rw [Program.bind_assoc]
  apply Reaches.after (xdmaRegWrite_runs card interruptReg 0x01 _)
  apply Reaches.after (acknowledge_runs between.quiet.1)
  rw [awaitResult, fresh]
  simp only [Program.bind_eq, Program.bind_assoc]
  apply Reaches.after (awaitClear_clear card.acknowledge cleared 99999 0 download.result _)
  apply Reaches.after (xdmaRegRead_runs _ resultReg 0 _ (by simpa using status))
  apply Reaches.refl
  refine ⟨{ download with loopCount := 0, result := 0 }, ⟨store32 card.memory interruptReg 1, card.a53.isIdle⟩,
    ⟨rings.length + 1, [], ⟨0⟩⟩, rfl, rfl, ?_, ?_, ?_, ?_⟩
  · simp [Card.acknowledge, hostStore32_ring, between.rings]
  · simp [Card.acknowledge, hostStore32_ring, between.rings, between.served]
  · have quiet : card.acknowledge.Quiet := ⟨rfl, cleared⟩
    simpa [Card.Quiet] using quiet
  · simp [Card.hostLoad, cleared]

theorem Between.writes (between : Between rings served card) (i length sync : Nat) (short : length ≤ uDataLen)
    (download : Download) (fresh : download.loopCount = 0) (next : Except Failure Download → Host β) :
    Reaches fileWorld ((writeChunk i length sync download).bind next, card) (Answered.Next rings served next) := by
  have reach : 120 + uDataLen ≤ interruptReg := by decide
  have data : (xdmaMemcpyWrite 120 (load download.buffer 0 length)).Only Access.Plain := by
    apply xdmaMemcpyWrite_plain
    rw [load_length]
    omega
  unfold writeChunk
  simp only [Program.bind_eq, Program.bind_assoc]
  apply between.reaches (xdmaRegWrite_plain _ _ (by decide))
  intro _ card between
  apply between.reaches (xdmaRegWrite_plain _ _ (by decide))
  intro _ card between
  apply between.reaches (xdmaRegRead_plain _)
  intro _ card between
  apply between.reaches (xdmaRegWrite_plain _ _ (by decide))
  intro _ card between
  apply between.reaches (xdmaRegWrite_plain _ _ (by decide))
  intro _ card between
  apply between.reaches (xdmaRegRead_plain _)
  intro _ card between
  apply between.reaches data
  intro _ card between
  apply between.reaches (xdmaRegWrite_plain _ _ (by decide))
  intro _ card between
  rw [← Program.bind_assoc]
  exact between.answers download fresh next

theorem Between.sends {file : HostFile} (small : file.Addressable) {k : Nat} (within : k ≤ file.fullChunks)
    (between : Between rings served card) (sync : Nat) (download : Download) (fresh : download.loopCount = 0)
    (next : Except Failure Download → Host β) :
    Reaches fileWorld ((sendChunk file k (file.chunkLength k) sync download).bind next, card)
      (Answered.Next rings served next) := by
  rw [sendChunk, small.fread_eq within]
  change Reaches _ ((if (file.slice k).length ≠ _ then _ else _ : Host (Except Failure Download)).bind next, card) _
  rw [if_neg (not_not_intro (file.slice_length within))]
  refine between.writes k _ sync (file.chunkLength_le k) _ ?_ next
  exact fresh

theorem Between.sendsFull {file : HostFile} (small : file.Addressable) (remaining k : Nat)
    (count : k + remaining = file.fullChunks) (between : Between rings served card) (download : Download)
    (fresh : download.loopCount = 0) (next : Except Failure Download → Host β) :
    Reaches fileWorld ((sendFullChunks file remaining k download).bind next, card) fun reached =>
      ∃ download rings served, reached.1 = next (.ok download) ∧ download.loopCount = 0 ∧
        Between rings served reached.2 := by
  induction remaining generalizing k download rings served card with
  | zero => exact .refl ⟨download, rings, served, rfl, fresh, between⟩
  | succ remaining ih =>
    have full : k < file.fullChunks := by omega
    have chunk := fun next : Except Failure Download → Host β =>
      between.sends small (Nat.le_of_lt full) 0 download fresh next
    rw [file.chunkLength_full full] at chunk
    rw [sendFullChunks, Program.bind_eq, Program.bind_assoc]
    apply (chunk _).trans
    intro reached holds
    obtain ⟨_, card⟩ := reached
    obtain ⟨download, ring, job, rfl, fresh, between⟩ := holds
    exact ih (k + 1) (by omega) between download fresh

theorem file_deliverable (file : HostFile) (small : file.Addressable) (buffer : Memory)
    (start : Card FileResponse) (rest : start.AtRest) :
    ∃ final, Runs fileWorld (sendFileToA53Sync (some file) buffer, start) (.pure (.ok ()), final) := by
  have between : Between [] [] start := ⟨rest.unrung, rest.unserved, ⟨rest.idle, rest.clear⟩, rest.quiet⟩
  have path_fits : 0 + 4 + file.psPath.length ≤ interruptReg := by
    have named := file.named
    simp only [HostFile.psPath, List.length_append, List.length_cons, List.length_nil, interruptReg]
    omega
  have reached : Reaches fileWorld (sendOpenFile file buffer, start) fun reached => reached.1 = .pure (.ok ()) := by
    apply between.reaches (xdmaRegWrite_plain _ _ (by decide))
    intro _ card between
    apply between.reaches (writeWords_plain 4 0 file.psPath path_fits (by decide))
    intro _ card between
    apply between.reaches (xdmaRegWrite_plain _ _ (by decide))
    intro _ card between
    apply between.reaches (xdmaRegRead_plain _)
    intro _ card between
    apply (between.sendsFull small file.fullChunks 0 (Nat.zero_add _) _ rfl _).trans
    intro reached holds
    obtain ⟨_, card⟩ := reached
    obtain ⟨download, rings, served, rfl, fresh, between⟩ := holds
    have chunk := fun next : Except Failure Download → Host (Except Failure Unit) =>
      between.sends small (Nat.le_refl _) 1 download fresh next
    rw [file.chunkLength_last] at chunk
    apply (chunk _).trans
    intro reached holds
    obtain ⟨_, card⟩ := reached
    obtain ⟨download, ring, job, rfl, -⟩ := holds
    exact .refl rfl
  obtain ⟨⟨_, final⟩, run, rfl⟩ := reached
  exact ⟨final, run⟩

end

def letterFile : HostFile := ⟨[97], [5], by decide, by decide⟩

def freshCard : Card FileResponse := ⟨fun _ => 0, .idle, [], [], false⟩

theorem freshCard_atRest : freshCard.AtRest := ⟨rfl, rfl, rfl, rfl, rfl⟩

/-- Whatever the A53 is doing in the meantime and whatever the window held before, each doorbell is rung
    over the chunk that is its turn; the chunks make up the file, and a call that returns 0 has rung for
    all of them. -/
theorem file_encoding (file : HostFile) (small : file.content.length < 2 ^ 31) (buffer : Memory)
    (start final : Card FileResponse) (last : Host (Except Failure Unit)) (unrung : start.rings = [])
    (above : ∀ ring seen response pending, start.a53 = .answering ring seen response pending →
      ∀ piece ∈ pending, interruptReg ≤ piece.1)
    (run : Runs fileWorld (sendFileToA53Sync (some file) buffer, start) (last, final)) :
    file.fileSize = file.content.length ∧
      (∀ k ring, final.rings[k]? = some ring → HoldsChunk file k ring.memory) ∧
      ((List.range (file.fullChunks + 1)).map file.slice).flatten = file.content ∧
      (last = .pure (.ok ()) → final.rings.length = file.fullChunks + 1 ∧ decoded final.rings = file.content) := by
  have loaded : Loaded start.memory [] start := ⟨fun _ _ _ => rfl, unrung, above⟩
  have size := file.fileSize_eq small
  obtain ⟨encoded, all⟩ := sendOpenFile_encodes (file.addressable_of_small small) buffer loaded run
  have whole : file.content.take file.fileSize = file.content := by rw [size, List.take_length]
  refine ⟨size, encoded, by rw [file.slices_flatten, whole], fun done => ⟨all done, ?_⟩⟩
  rw [encoded.decoded_eq (all done), whole]

theorem letterFile_encoding : ∃ final : Card FileResponse, final.rings.length = 1 ∧ decoded final.rings = [5] := by
  have small := letterFile.addressable_of_small (by decide)
  obtain ⟨final, run⟩ := file_deliverable letterFile small (fun _ => 0) freshCard freshCard_atRest
  obtain ⟨-, -, -, complete⟩ := file_encoding letterFile (by decide) (fun _ => 0) freshCard final _ rfl
    (by simp [freshCard]) run
  exact ⟨final, complete rfl⟩

def longName : List Byte := List.replicate 84 97

theorem longName_text : ∀ byte ∈ longName, byte ≠ 0 := by decide

theorem sendNamedFile_overrun (overrun : Host (Except Failure Unit)) (content : List Byte) (buffer : Memory) :
    sendNamedFile overrun longName content longName_text buffer = overrun := dif_neg (by decide)

/-- After the overrun nothing keeps the call from ringing over a window that holds no chunk. -/
def straySend : Host (Except Failure Unit) := do
  xdmaRegWrite interruptReg 0x01
  pure (.ok ())

theorem longName_unencoded : ∃ (final : Card FileResponse) (ring : Ring),
    Runs fileWorld (sendNamedFile straySend longName [5] longName_text (fun _ => 0), freshCard)
        (.pure (.ok ()), final) ∧
      final.rings[0]? = some ring ∧ load32 ring.memory 100 ≠ 1 := by
  rw [sendNamedFile_overrun]
  have run := @xdmaRegWrite_runs _ FileResponse.stores _ freshCard interruptReg 0x01
    fun _ => (pure (.ok ()) : Host (Except Failure Unit))
  exact ⟨_, _, run, rfl, by decide⟩

/-- Between a doorbell and the 0 that answers it the host leaves the window alone; every chunk that the
    A53 looks at is the window as it was when that chunk was rung, and it takes them in order, each
    once; the call returns 0 only when all of them have been acknowledged with status 0. -/
theorem file_handshake (file : HostFile) (small : file.content.length < 2 ^ 32) (buffer : Memory)
    (start final : Card FileResponse) (last : Host (Except Failure Unit)) (rest : start.AtRest)
    (run : Runs fileWorld (sendFileToA53Sync (some file) buffer, start) (last, final)) :
    (∀ access next, last = .call access next → access.Modifies → final.awaiting = false) ∧
      InOrder final ∧ (file.Addressable → Encoded file final.rings) ∧
      (last = .pure (.ok ()) → Delivered (file.content.length / uDataLen + 1) final) := by
  have between : Between [] [] start := ⟨rest.unrung, rest.unserved, ⟨rest.idle, rest.clear⟩, rest.quiet⟩
  have loaded : Loaded start.memory [] start := ⟨fun _ _ _ => rfl, rest.unrung, by simp [rest.idle]⟩
  have size : file.fileSize = file.content.length := Nat.mod_eq_of_lt small
  obtain ⟨ordered, untouched, delivered⟩ := sendOpenFile_handles file buffer between run
  rw [HostFile.fullChunks, size] at delivered
  exact ⟨untouched, ordered, fun small => (sendOpenFile_encodes small buffer loaded run).1, delivered⟩

theorem letterFile_handshake : ∃ final : Card FileResponse, InOrder final ∧ Delivered 1 final := by
  have small := letterFile.addressable_of_small (by decide)
  obtain ⟨final, run⟩ := file_deliverable letterFile small (fun _ => 0) freshCard freshCard_atRest
  obtain ⟨-, ordered, -, delivered⟩ :=
    file_handshake letterFile (by decide) (fun _ => 0) freshCard final _ freshCard_atRest run
  exact ⟨final, ordered, delivered rfl⟩

theorem letter_text : ∀ byte ∈ ([97] : List Byte), byte ≠ 0 := by decide

def wrappedFile : HostFile where
  name := [97]
  content := List.replicate (2 ^ 32 + 5) 0
  named := by decide
  text := letter_text

theorem wrappedFile_length : wrappedFile.content.length = 2 ^ 32 + 5 := List.length_replicate

theorem wrappedFile_fullChunks : wrappedFile.fullChunks = 0 := by
  rw [HostFile.fullChunks, HostFile.fileSize, wrappedFile_length]
  decide

theorem wrappedFile_addressable : wrappedFile.Addressable := by
  rw [HostFile.Addressable, wrappedFile_fullChunks]
  decide

theorem Delivered.unique {chunks other : Nat} {card : Card FileResponse} (delivered : Delivered chunks card)
    (also : Delivered other card) : chunks = other :=
  delivered.rings.symm.trans also.rings

/-- Either bound is needed: an overrun may return 0 with nothing sent, and 0 is returned for the first
    five bytes of a file of 2^32 + 5. -/
theorem undelivered : (∃ final : Card FileResponse,
      Runs fileWorld (sendNamedFile (pure (.ok ())) longName [] longName_text (fun _ => 0), freshCard)
        (.pure (.ok ()), final) ∧ ¬ Delivered 1 final) ∧
    ∃ final : Card FileResponse,
      Runs fileWorld (sendFileToA53Sync (some wrappedFile) (fun _ => 0), freshCard) (.pure (.ok ()), final) ∧
        ¬ Delivered (wrappedFile.content.length / uDataLen + 1) final := by
  constructor
  · refine ⟨freshCard, ?_, fun delivered => ?_⟩
    · rw [sendNamedFile_overrun]
      exact .refl
    · exact absurd delivered.rings (by decide)
  · obtain ⟨final, run⟩ :=
      file_deliverable wrappedFile wrappedFile_addressable (fun _ => 0) freshCard freshCard_atRest
    have between : Between [] [] freshCard := ⟨rfl, rfl, ⟨rfl, rfl⟩, rfl⟩
    have sent := (sendOpenFile_handles wrappedFile (fun _ => 0) between run).2.2 rfl
    refine ⟨final, run, fun delivered => ?_⟩
    have same := delivered.unique sent
    rw [wrappedFile_fullChunks, wrappedFile_length] at same
    exact absurd same (by decide)

end CigCard.Mailbox
