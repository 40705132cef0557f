import CigCard.Mailbox.Card

namespace CigCard.Mailbox

open Interaction ByteMemory

def uDataLen : Nat := 0xF600

/-- A file that `fopen` has accepted under a name whose path fits `ps_path[96]`: twelve bytes of folder,
    the name and the terminator. -/
structure HostFile where
  name : List Byte
  content : List Byte
  named : name.length < 84
  text : ∀ byte ∈ name, byte ≠ 0

def HostFile.fileSize (file : HostFile) : Nat := file.content.length % 2 ^ 32

/-- `sprintf (ps_path, "/etc/common/%s", file_path)` -/
def HostFile.psPath (file : HostFile) : List Byte :=
  [47, 101, 116, 99, 47, 99, 111, 109, 109, 111, 110, 47] ++ file.name

/-- `fseek (pInFile, i * UDATALEN, SEEK_SET)` and then `fread` of `count` bytes; the offset is computed
    in a 32-bit `int`, and `fseek` refuses a negative one. -/
def HostFile.fread (file : HostFile) (i count : Nat) : Option (List Byte) :=
  let offset := i * uDataLen % 2 ^ 32
  if 2 ^ 31 ≤ offset then none else some ((file.content.drop offset).take count)

inductive Failure where
  | openError
  | readError
  | timeout
  | resultError
  deriving DecidableEq

def Failure.code : Failure → Nat
  | .readError => 1
  | .openError | .timeout | .resultError => 0xffffffff

structure Download where
  buffer : Memory
  readSize : Nat
  loopCount : Nat
  result : Nat

def checksum (buffer : Memory) (readSize : Nat) : Nat :=
  (load buffer 0 readSize).foldl (fun sum byte => (sum + byte.toNat) % 2 ^ 32) 0

def awaitResult (download : Download) : Host (Except Failure Download) := do
  let (loopCount, result) ← awaitClear (100000 - download.loopCount) download.loopCount download.result
  if loopCount = 100000 ∧ result ≠ 0 then
    xdmaRegWrite interruptReg 0x0
    pure (.error .timeout)
  else
    let result ← xdmaRegRead resultReg
    if result ≠ 0 then pure (.error .resultError)
    else pure (.ok { download with loopCount, result })

def writeChunk (i length sync : Nat) (download : Download) : Host (Except Failure Download) := do
  xdmaRegWrite 104 (i * uDataLen)
  xdmaRegWrite 108 length
  let _ ← xdmaRegRead 108
  xdmaRegWrite 110 sync
  xdmaRegWriteBytes 111 (checksum download.buffer download.readSize % 256)
  let _ ← xdmaRegRead 111
  xdmaMemcpyWrite 120 (load download.buffer 0 length)
  xdmaRegWrite typeReg 0x4
  xdmaRegWrite interruptReg 0x01
  awaitResult download

/-- One chunk. Where `fseek` fails the code goes on with the cleared buffer and the old `read_size`. -/
def sendChunk (file : HostFile) (i length sync : Nat) (download : Download) : Host (Except Failure Download) :=
  let cleared := store download.buffer 0 (List.replicate length 0)
  match file.fread i length with
  | some slice =>
    if slice.length ≠ length then pure (.error .readError)
    else writeChunk i length sync { download with buffer := store cleared 0 slice, readSize := slice.length }
  | none => writeChunk i length sync { download with buffer := cleared }

def sendFullChunk (file : HostFile) (i : Nat) : Download → Host (Except Failure Download) :=
  sendChunk file i uDataLen 0

def sendLastChunk (file : HostFile) (i b : Nat) : Download → Host (Except Failure Download) :=
  sendChunk file i b 1

def sendFullChunks (file : HostFile) : Nat → Nat → Download → Host (Except Failure Download)
  | 0, _, download => pure (.ok download)
  | remaining + 1, i, download => do
    match ← sendFullChunk file i download with
    | .error failure => pure (.error failure)
    | .ok download => sendFullChunks file remaining (i + 1) download

def sendOpenFile (file : HostFile) (buffer : Memory) : Host (Except Failure Unit) := do
  xdmaRegWrite 0 0x5B5BB5B5
  writeWords 4 0 file.psPath
  xdmaRegWrite 100 file.fileSize
  let _ ← xdmaRegRead 100
  let a := file.fileSize / uDataLen
  let b := file.fileSize % uDataLen
  match ← sendFullChunks file a 0 ⟨buffer, 0, 0, 0⟩ with
  | .error failure => pure (.error failure)
  | .ok download =>
    match ← sendLastChunk file a b download with
    | .error failure => pure (.error failure)
    | .ok _ => pure (.ok ())

/-- `send_file_to_a53_sync`: `none` is a file that cannot be opened, `buffer` what `malloc` hands out. -/
def sendFileToA53Sync (file : Option HostFile) (buffer : Memory) : Host (Except Failure Unit) :=
  match file with
  | none => pure (.error .openError)
  | some file => sendOpenFile file buffer

/-- The call for a name of any length. `overrun` is what becomes of it once `sprintf` has written past
    `ps_path`, which C leaves open. -/
def sendNamedFile (overrun : Host (Except Failure Unit)) (name content : List Byte)
    (text : ∀ byte ∈ name, byte ≠ 0) (buffer : Memory) : Host (Except Failure Unit) :=
  if named : name.length < 84 then sendFileToA53Sync (some ⟨name, content, named, text⟩) buffer else overrun

structure FileResponse where
  status : BitVec 32

def FileResponse.stores (response : FileResponse) : List (Nat × List Byte) :=
  [(resultReg, leBytes 4 response.status.toNat)]

abbrev fileWorld : World Access Access.Answer (Card FileResponse) := world FileResponse.stores

def HostFile.fullChunks (file : HostFile) : Nat := file.fileSize / uDataLen

def HostFile.chunkLength (file : HostFile) (k : Nat) : Nat :=
  if k < file.fullChunks then uDataLen else file.fileSize % uDataLen

def HostFile.slice (file : HostFile) (k : Nat) : List Byte :=
  (file.content.drop (k * uDataLen)).take (file.chunkLength k)

theorem HostFile.chunkLength_full (file : HostFile) {k : Nat} (full : k < file.fullChunks) :
    file.chunkLength k = uDataLen := if_pos full

theorem HostFile.chunkLength_last (file : HostFile) :
    file.chunkLength file.fullChunks = file.fileSize % uDataLen := if_neg (Nat.lt_irrefl _)

theorem HostFile.chunkLength_le (file : HostFile) (k : Nat) : file.chunkLength k ≤ uDataLen := by
  unfold HostFile.chunkLength
  split
  · exact Nat.le_refl _
  · exact Nat.le_of_lt (Nat.mod_lt file.fileSize (by decide : 0 < uDataLen))

end CigCard.Mailbox
