import CigCard.ByteMemory.LittleEndian
import CigCard.Interaction.Program
import CigCard.Video.Buffers

namespace CigCard.Video

open Interaction ByteMemory

def rwMaxSize : Nat := 0x7ffff000

structure Ioctl where
  rc : Int
  error : Int
  done : Nat

/-- What `send_one_frame` asks of the system. `sendOneFrame` stands for the call itself and
    `stackWord` is the content of a local variable that has not been initialised. -/
inductive Call where
  | sendOneFrame (buffer : Memory)
  | openDevice
  | printSeq (sendCount : Nat)
  | stackWord
  | regRw (addr : Nat) (write value : Int)
  | lseek (offset : Nat)
  | write (bytes : List Byte)
  | apertureWrite (bytes : List Byte) (epAddr aperture : Nat)

abbrev Call.Answer : Call → Type
  | .sendOneFrame _ => Unit
  | .openDevice => Bool
  | .printSeq _ => Unit
  | .stackWord => Int
  | .regRw .. => Int
  | .lseek _ => Int
  | .write _ => Int
  | .apertureWrite .. => Ioctl

abbrev Transfer (α : Type) := Program Call Call.Answer α

def ssize (count : Nat) : Int := if count < 2 ^ 63 then count else count - 2 ^ 64

def writeLoop (buffer : Memory) (size buf offset count : Nat) : Transfer Int :=
  if count < size then
    let bytes := min (size - count) rwMaxSize
    (if offset ≠ 0 then Program.perform (Call.lseek offset) else Program.pure (offset : Int)).bind fun sought =>
      if sought ≠ offset then .pure (-5)
      else (Program.perform (Call.write (load buffer buf bytes))).bind fun rc =>
        if rc < 0 then .pure (-5)
        else if rc ≠ bytes then .pure (ssize (count + rc.toNat))
        else writeLoop buffer size (buf + bytes) (offset + bytes) (count + bytes)
  else .pure (ssize count)
termination_by size - count
decreasing_by
  simp only [rwMaxSize]
  omega

def writeFromBuffer (buffer : Memory) (size base : Nat) : Transfer Int := writeLoop buffer size 0 base 0

def pollReady (waitAddr : Nat) (count : Int) : Nat → Transfer Bool
  | 0 => pure false
  | rounds + 1 => do
    let readValue ← Program.perform (Call.regRw waitAddr 0 0)
    let _ ← Program.perform (Call.regRw 0x100c4 0 0)
    if readValue = 3 then pollReady waitAddr count rounds
    else if count = 3 then pollReady waitAddr count rounds
    else pure true

def waitFpgaReady (waitAddr rounds : Nat) : Transfer Bool := do
  let count ← Program.perform Call.stackWord
  pollReady waitAddr count rounds

def setFpgaWait (waitAddr : Nat) : Transfer Int := Program.perform (Call.regRw waitAddr 1 1)

def writeFrame (globals : Globals) (buffer : Memory) (sendCount : Nat) : Transfer (Except Int Nat) :=
  if globals.aperture ≠ 0 then do
    let bytes := load buffer 0 globals.size
    let io ← Program.perform
      (Call.apertureWrite bytes (bufferAddr globals.addr sendCount) (globals.aperture % 2 ^ 32))
    if io.rc < 0 ∨ io.error ≠ 0 then pure (.error (min io.rc 0)) else pure (.ok io.done)
  else do
    let rc ← writeFromBuffer buffer globals.size (bufferAddr globals.addr sendCount)
    if rc < 0 then pure (.error rc) else pure (.ok rc.toNat)

/-- After the DMA. Less than the whole frame is an underflow, which only changes the return value. -/
def publishFrame (globals : Globals) (sendCount bytesDone : Nat) : Transfer (Option (Int × Nat)) := do
  let _ ← setFpgaWait globals.waitAddr
  pure (some (if bytesDone < globals.size then -5 else 0, (sendCount + 1) % 2 ^ 64))

def testDma (globals : Globals) (rounds : Nat) (buffer : Memory) (sendCount : Nat) :
    Transfer (Option (Int × Nat)) := do
  let opened ← Program.perform Call.openDevice
  if opened then
    let _ ← Program.perform (Call.printSeq sendCount)
    let ready ← waitFpgaReady globals.waitAddr rounds
    if ready then
      match ← writeFrame globals buffer sendCount with
      | .error rc => pure (some (rc, sendCount))
      | .ok bytesDone => publishFrame globals sendCount bytesDone
    else pure none
  else pure (some (-22, sendCount))

def sendFrames (globals : Globals) (rounds : Nat) : List Memory → Nat → Transfer Nat
  | [], sendCount => pure sendCount
  | buffer :: buffers, sendCount => do
    let _ ← Program.perform (Call.sendOneFrame buffer)
    match ← testDma globals rounds buffer sendCount with
    | some (_, sendCount) => sendFrames globals rounds buffers sendCount
    | none => pure sendCount

end CigCard.Video
