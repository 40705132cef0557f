import CigCard.Video.Fpga

namespace CigCard.Video

open Interaction ByteMemory

/-- A channel set up as the scripts do it: no aperture, and frames that one `write` can take. -/
structure Plain (globals : Globals) : Prop where
  windowless : globals.aperture = 0
  based : 0 < globals.addr
  sized : 0 < globals.size ∧ globals.size ≤ rwMaxSize
  register : (0x100c4 : Nat) ≠ globals.waitAddr

def partOf (size : Nat) (buffer : Memory) (carried : Nat) : List Byte := (load buffer 0 size).take carried

namespace Fpga

def seeking (fpga : Fpga) (address : Nat) (buffer : Memory) (sendCount : Nat) : Fpga :=
  { fpga with position := address, attempt := ⟨buffer, sendCount, []⟩ }

def written (fpga : Fpga) (address size : Nat) (buffer : Memory) (sendCount carried : Nat) : Fpga :=
  (fpga.seeking address buffer sendCount).sent (store fpga.memory address (partOf size buffer carried)) address
    [.written address size (partOf size buffer carried)]

end Fpga

section
variable {globals : Globals} {fpga : Fpga}

def afterWrite (globals : Globals) (rounds : Nat) (buffers : List Memory) (sendCount : Nat)
    (out : Except Int Nat) : Transfer Nat :=
  (match out with
    | .error rc => Program.pure (some (rc, sendCount))
    | .ok bytesDone => publishFrame globals sendCount bytesDone).bind fun
      | some (_, sendCount) => sendFrames globals rounds buffers sendCount
      | none => .pure sendCount

def Fpga.through (globals : Globals) (fpga : Fpga) (buffer : Memory) (sendCount : Nat) : Fpga :=
  ((fpga.written (bufferAddr globals.addr sendCount) globals.size buffer sendCount globals.size).publish
    globals).consume globals

end

end CigCard.Video
