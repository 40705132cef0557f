import CigCard.ByteMemory.Bits

namespace CigCard.Xdma

open ByteMemory

def completionLoopMax : Nat := 100

/-- What is behind the shift block: the TDO for the last of the TMS and TDI bits that were driven so far, and how many
    reads of the control register find each transaction still going on. -/
structure Jtag where
  answer : List (Bool × Bool) → Bool
  busy : Nat → Nat

/-- The registers of the shift block, the bits that it has driven, and LENGTH at each of its transactions. -/
structure ShiftBlock where
  length : BitVec 32
  tms : BitVec 32
  tdi : BitVec 32
  tdo : BitVec 32
  driven : List (Bool × Bool)
  transactions : List (BitVec 32)

def answers (jtag : Jtag) (driven : List (Bool × Bool)) : List (Bool × Bool) → List Bool
  | [] => []
  | pins :: rest => jtag.answer (driven ++ [pins]) :: answers jtag (driven ++ [pins]) rest

/-- The block shifts LENGTH bits. -/
def ShiftBlock.shift (jtag : Jtag) (block : ShiftBlock) : ShiftBlock :=
  let pins := (List.range block.length.toNat).map fun i => (block.tms.getLsbD i, block.tdi.getLsbD i)
  { block with
    tdo := (BitVec.ofBoolListLE (answers jtag block.driven pins)).setWidth 32
    driven := block.driven ++ pins
    transactions := block.transactions ++ [block.length] }

/-- The reads of the control register: whether one of `count` finds a shift done that so many find going on. -/
def pollDone : Nat → Nat → Bool
  | 0, _ => false
  | _ + 1, 0 => true
  | count + 1, busy + 1 => pollDone count busy

def xvcShiftBits (jtag : Jtag) (tmsBits tdiBits : BitVec 32) (block : ShiftBlock) : Option (BitVec 32) × ShiftBlock :=
  let busy := jtag.busy block.transactions.length
  let block := { block with tms := tmsBits, tdi := tdiBits }.shift jtag
  (if pollDone completionLoopMax busy then some block.tdo else none, block)

inductive XvcFault where
  | outOfBounds
  | outOfFuel
deriving DecidableEq

structure XvcRun where
  block : ShiftBlock
  tdoBuf : Memory

def xvcRound (jtag : Jtag) (tmsBuf tdiBuf : Memory) (totalBytes bits bitsLeft : BitVec 32) (run : XvcRun) :
    Except XvcFault (Bool × XvcRun) :=
  let bytes := (bits >>> 3).toNat
  let block := if bitsLeft < 32 then { run.block with length := bitsLeft } else run.block
  let shiftBytes := if bitsLeft < 32 then ((bitsLeft + 7) >>> 3).toNat else 4
  if totalBytes.toNat < bytes + shiftBytes then .error .outOfBounds
  else
    let tmsStore := BitVec.ofNat 32 (number tmsBuf bytes shiftBytes)
    let tdiStore := BitVec.ofNat 32 (number tdiBuf bytes shiftBytes)
    match xvcShiftBits jtag tmsStore tdiStore block with
    | (none, block) => .ok (false, { run with block })
    | (some tdoStore, block) => .ok (true, ⟨block, store run.tdoBuf bytes (leBytes shiftBytes tdoStore.toNat)⟩)

def xvcLoop (jtag : Jtag) (tmsBuf tdiBuf : Memory) (totalBits totalBytes : BitVec 32) :
    Nat → BitVec 32 → BitVec 32 → XvcRun → Except XvcFault (Int × XvcRun)
  | 0, _, _, _ => .error .outOfFuel
  | fuel + 1, bits, bitsLeft, run =>
    if bits < totalBits then
      match xvcRound jtag tmsBuf tdiBuf totalBytes bits bitsLeft run with
      | .error fault => .error fault
      | .ok (false, run) => .ok (-110, run)
      | .ok (true, run) => xvcLoop jtag tmsBuf tdiBuf totalBits totalBytes fuel (bits + 32) (bitsLeft - 32) run
    else .ok (0, run)

structure XvcIoc where
  opcode : BitVec 32
  length : BitVec 32
  tmsBuf : Memory
  tdiBuf : Memory

/-- What the kernel answers to the call: `xcdev_check`, whether it is `XDMA_IOCXVC`, how many bytes each copy leaves
    uncopied, and whether `kmalloc` gives a buffer, with what is in it. -/
structure XvcKernel where
  check : Int
  known : Bool
  objUncopied : Nat
  granted : Bool
  tmsUncopied : Nat
  tdiUncopied : Nat
  tdoUncopied : Nat
  garbage : Memory

structure XvcEnd where
  rv : Int
  run : XvcRun
  out : Option Memory

def xvcTotalBytes (totalBits : BitVec 32) : BitVec 32 := (totalBits + 7) >>> 3

def XvcKernel.Admits (kernel : XvcKernel) (obj : XvcIoc) : Prop :=
  0 ≤ kernel.check ∧ kernel.known = true ∧ kernel.objUncopied = 0 ∧ (obj.opcode = 1 ∨ obj.opcode = 2) ∧
    kernel.granted = true ∧ kernel.tmsUncopied = 0 ∧ kernel.tdiUncopied = 0

instance (kernel : XvcKernel) (obj : XvcIoc) : Decidable (kernel.Admits obj) :=
  inferInstanceAs (Decidable (_ ∧ _ ∧ _ ∧ _ ∧ _ ∧ _ ∧ _))

def xvcShiftAll (jtag : Jtag) (kernel : XvcKernel) (obj : XvcIoc) (fuel : Nat) (block : ShiftBlock) :
    Except XvcFault XvcEnd :=
  let totalBits := obj.length
  let block := if 32 ≤ totalBits then { block with length := 32 } else block
  match xvcLoop jtag obj.tmsBuf obj.tdiBuf totalBits (xvcTotalBytes totalBits) fuel 0 totalBits ⟨block, kernel.garbage⟩ with
  | .error fault => .error fault
  | .ok (rv, run) =>
    if rv < 0 then .ok ⟨rv, run, none⟩
    else .ok ⟨kernel.tdoUncopied, run, some (if obj.opcode = 2 then obj.tdiBuf else run.tdoBuf)⟩

def xvcIoctl (jtag : Jtag) (kernel : XvcKernel) (obj : XvcIoc) (fuel : Nat) (block : ShiftBlock) :
    Except XvcFault XvcEnd :=
  let fails := fun rv : Int => Except.ok ⟨rv, ⟨block, kernel.garbage⟩, none⟩
  if kernel.check < 0 then fails kernel.check
  else if kernel.known = false then fails (-515)
  else if kernel.objUncopied ≠ 0 then fails kernel.objUncopied
  else if obj.opcode ≠ 1 ∧ obj.opcode ≠ 2 then fails (-22)
  else if kernel.granted = false then fails (-12)
  else if kernel.tmsUncopied ≠ 0 then fails kernel.tmsUncopied
  else if kernel.tdiUncopied ≠ 0 then fails kernel.tdiUncopied
  else xvcShiftAll jtag kernel obj fuel block

end CigCard.Xdma
