import CigCard.Interaction.RelyGuarantee
import CigCard.Video.SendFrame

namespace CigCard.Video

open Interaction ByteMemory

/-- Bytes that went out in one call: where to, how many were asked for, and those that were carried. The
    aperture is 0 for `write`; `began i` is where the transfer that carried byte `i` began. -/
structure Piece where
  address : Nat
  asked : Nat
  bytes : List Byte
  aperture : Nat
  began : Nat → Nat

def Piece.written (address asked : Nat) (bytes : List Byte) : Piece := ⟨address, asked, bytes, 0, fun _ => 0⟩

/-- Where a byte lands, counted from the address. `xdma_xfer_aperture` begins each transfer at its offset
    masked with `aperture - 1`, and starts over at the end of the window. -/
def apertureSpot (aperture : Nat) (began : Nat → Nat) (i : Nat) : Nat :=
  ((began i &&& (aperture - 1)) + (i - began i)) % aperture

def Piece.spot (piece : Piece) : Nat → Nat := apertureSpot piece.aperture piece.began

/-- The pending call of `send_one_frame`: its argument, the number it printed, and what it has sent. -/
structure Attempt where
  buffer : Memory
  sendCount : Nat
  pieces : List Piece

structure Published where
  attempt : Attempt
  content : List Byte

/-- The card as one video channel sees it: device memory, the file position of the DMA device, and the
    FPGA with the buffer that it shows next and the number of filled ones. `attempt`, `published` and
    `consumed` are history. -/
structure Fpga where
  memory : Memory
  position : Nat
  next : Nat
  filled : Nat
  attempt : Attempt
  published : List Published
  consumed : List (Nat × List Byte)

def Globals.InBuffer (globals : Globals) (slot address : Nat) : Prop :=
  bufferAddr globals.addr slot ≤ address ∧ address < bufferAddr globals.addr slot + globals.size

namespace Fpga

def nextToFill (fpga : Fpga) : Nat := (fpga.next + fpga.filled) % 3

def content (globals : Globals) (fpga : Fpga) (slot : Nat) : List Byte :=
  load fpga.memory (bufferAddr globals.addr slot) globals.size

def publish (globals : Globals) (fpga : Fpga) : Fpga :=
  { fpga with
    filled := fpga.filled + 1
    published := fpga.published ++ [⟨fpga.attempt, fpga.content globals fpga.nextToFill⟩] }

def consume (globals : Globals) (fpga : Fpga) : Fpga :=
  { fpga with
    next := (fpga.next + 1) % 3
    filled := fpga.filled - 1
    consumed := fpga.consumed ++ [(fpga.next, fpga.content globals fpga.next)] }

def sent (fpga : Fpga) (memory : Memory) (position : Nat) (pieces : List Piece) : Fpga :=
  { fpga with memory, position, attempt := { fpga.attempt with pieces := fpga.attempt.pieces ++ pieces } }

def Confined (fpga : Fpga) (memory : Memory) (address count : Nat) : Prop :=
  ∀ i, i < address ∨ address + count ≤ i → memory i = fpga.memory i

inductive Acts (globals : Globals) (fpga : Fpga) : (call : Call) → call.Answer → Fpga → Prop where
  | sendOneFrame (buffer : Memory) :
      Acts globals fpga (.sendOneFrame buffer) () { fpga with attempt := ⟨buffer, fpga.attempt.sendCount, []⟩ }
  | openDevice (opened : Bool) : Acts globals fpga .openDevice opened fpga
  | printSeq (sendCount : Nat) :
      Acts globals fpga (.printSeq sendCount) () { fpga with attempt := { fpga.attempt with sendCount } }
  | stackWord (word : Int) : Acts globals fpga .stackWord word fpga
  | readReady (value : Int) : Acts globals fpga (.regRw globals.waitAddr 0 value) fpga.filled fpga
  | publish (answer : Int) : Acts globals fpga (.regRw globals.waitAddr 1 1) answer (fpga.publish globals)
  | otherRegister (addr : Nat) (write value answer : Int) (other : addr ≠ globals.waitAddr) :
      Acts globals fpga (.regRw addr write value) answer fpga
  | lseek (offset : Nat) : Acts globals fpga (.lseek offset) offset { fpga with position := offset }
  | lseekFails (offset position : Nat) (answer : Int) (differs : answer ≠ offset) :
      Acts globals fpga (.lseek offset) answer { fpga with position }
  | write (bytes : List Byte) (count : Nat) (memory : Memory) (position : Nat) (some : count ≤ bytes.length)
      (confined : fpga.Confined memory fpga.position bytes.length)
      (carried : load memory fpga.position count = bytes.take count) :
      Acts globals fpga (.write bytes) count
        (fpga.sent memory position [.written fpga.position bytes.length (bytes.take count)])
  | writeFails (bytes : List Byte) (answer : Int) (memory : Memory) (position : Nat) (negative : answer < 0)
      (confined : fpga.Confined memory fpga.position bytes.length) :
      Acts globals fpga (.write bytes) answer (fpga.sent memory position [])
  -- with an aperture of 0 the driver makes no progress
  | apertureWrite (bytes : List Byte) (epAddr aperture : Nat) (io : Ioctl) (began : Nat → Nat) (memory : Memory)
      (done : io.rc = 0 ∧ io.error = 0 ∧ io.done ≤ bytes.length) (stuck : aperture = 0 → io.done = 0)
      (before : ∀ i, began i ≤ i) (confined : fpga.Confined memory epAddr (min aperture bytes.length))
      (carried : ∀ i < io.done,
        (∀ j, i < j → j < io.done → apertureSpot aperture began j ≠ apertureSpot aperture began i) →
          some (memory (epAddr + apertureSpot aperture began i)) = bytes[i]?) :
      Acts globals fpga (.apertureWrite bytes epAddr aperture) io
        (fpga.sent memory fpga.position [⟨epAddr, bytes.length, bytes.take io.done, aperture, began⟩])
  | apertureWriteFails (bytes : List Byte) (epAddr aperture : Nat) (io : Ioctl) (memory : Memory)
      (failed : io.rc < 0 ∨ io.error ≠ 0) (confined : fpga.Confined memory epAddr (min aperture bytes.length)) :
      Acts globals fpga (.apertureWrite bytes epAddr aperture) io (fpga.sent memory fpga.position [])

inductive Moves (globals : Globals) (fpga : Fpga) : Fpga → Prop where
  | consume (filled : 0 < fpga.filled) : Moves globals fpga (fpga.consume globals)

end Fpga

def fpgaWorld (globals : Globals) : World Call Call.Answer Fpga where
  act call before answer after := before.Acts globals call answer after
  env before after := before.Moves globals after

end CigCard.Video
