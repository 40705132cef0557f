import CigCard.Interaction.Program
import CigCard.ByteMemory.LittleEndian

namespace CigCard.Mailbox

open Interaction ByteMemory

inductive Access where
  | load32 (addr : Nat)
  | store32 (addr value : Nat)
  | store8 (addr : Nat) (byte : Byte)

abbrev Access.Answer : Access → Type
  | .load32 _ => Nat
  | .store32 _ _ | .store8 _ _ => Unit

instance (access : Access) : Nonempty access.Answer := by
  cases access with
  | load32 addr => exact ⟨(0 : Nat)⟩
  | store32 addr value => exact ⟨()⟩
  | store8 addr byte => exact ⟨()⟩

abbrev Host (α : Type) := Program Access Access.Answer α

def xdmaRegRead (addr : Nat) : Host Nat := .perform (Access.load32 addr)

def xdmaRegWrite (addr value : Nat) : Host Unit := .perform (Access.store32 addr value)

/-- The value is cut to a byte, but the store that carries it is a 32-bit one. -/
def xdmaRegWriteBytes (addr : Nat) (value : Nat) : Host Unit := .perform (Access.store32 addr (value % 256))

def xdmaMemcpyWrite (addr : Nat) : List Byte → Host Unit
  | [] => pure ()
  | byte :: bytes => do
    Program.perform (Access.store8 addr byte)
    xdmaMemcpyWrite (addr + 1) bytes

/-- Interrupt register: the host writes 1 to ring, the A53 writes 0 when it is done. -/
def interruptReg : Nat := 0x30300

def typeReg : Nat := 0x30304

def resultReg : Nat := 0x30308

/-- The `do … while (1)` loop that writes a string four bytes at a time; the last word is padded
    with zeros. -/
def writeWords (base cursor : Nat) : List Byte → Host Unit
  | [] => pure ()
  | b0 :: b1 :: b2 :: b3 :: rest => do
    xdmaRegWrite (cursor + base) (leNumber [b0, b1, b2, b3])
    writeWords base (cursor + 4) rest
  | rest => xdmaRegWrite (cursor + base) (leNumber rest)

/-- The `while (loop_count < limit)` loop on the interrupt register, `remaining` being
    `limit - loop_count`. Returns `loop_count` and `result` as the loop leaves them. -/
def awaitClear : Nat → Nat → Nat → Host (Nat × Nat)
  | 0, loopCount, result => pure (loopCount, result)
  | remaining + 1, loopCount, _ => do
    let result ← xdmaRegRead interruptReg
    if result = 0 then pure (loopCount, result) else awaitClear remaining (loopCount + 1) result

def Access.Plain : Access → Prop
  | .load32 _ => True
  | .store32 addr _ => addr + 4 ≤ interruptReg ∨ interruptReg + 4 ≤ addr
  | .store8 addr _ => addr < interruptReg

def Access.IsLoad : Access → Prop
  | .load32 _ => True
  | .store32 _ _ | .store8 _ _ => False

theorem xdmaRegWrite_plain (addr value : Nat) (elsewhere : addr + 4 ≤ interruptReg ∨ interruptReg + 4 ≤ addr) :
    (xdmaRegWrite addr value).Only Access.Plain := .perform elsewhere

theorem xdmaRegRead_plain (addr : Nat) : (xdmaRegRead addr).Only Access.Plain := .perform trivial

theorem writeWords_plain (base cursor : Nat) (bytes : List Byte)
    (fits : cursor + base + bytes.length ≤ interruptReg) (aligned : (cursor + base) % 4 = 0) :
    (writeWords base cursor bytes).Only Access.Plain := by
  induction cursor, bytes using writeWords.induct with
  | case1 cursor => exact .pure _ ()
  | case2 cursor b0 b1 b2 b3 rest ih =>
    simp only [List.length_cons] at fits
    exact .bind (.perform (.inl (by omega))) fun _ => ih (by omega) (by omega)
  | case3 cursor rest nonempty short =>
    have some_left : 0 < rest.length := List.length_pos_iff.mpr nonempty
    rw [writeWords.eq_3 base cursor rest nonempty short]
    simp only [interruptReg] at fits
    exact .perform (.inl (by simp only [interruptReg]; omega))

theorem xdmaMemcpyWrite_plain (addr : Nat) (bytes : List Byte) (below : addr + bytes.length ≤ interruptReg) :
    (xdmaMemcpyWrite addr bytes).Only Access.Plain := by
  induction bytes generalizing addr with
  | nil => exact .pure _ ()
  | cons byte bytes ih =>
    simp only [List.length_cons] at below
    have here : addr < interruptReg := by omega
    exact .bind (.perform here) fun _ => ih (addr + 1) (by omega)

theorem xdmaRegRead_isLoad (addr : Nat) : (xdmaRegRead addr).Only Access.IsLoad := .perform trivial

theorem awaitClear_isLoad (remaining loopCount result : Nat) :
    (awaitClear remaining loopCount result).Only Access.IsLoad := by
  induction remaining generalizing loopCount result with
  | zero => exact .pure _ _
  | succ remaining ih =>
    apply Program.Only.bind (xdmaRegRead_isLoad _)
    intro value
    split
    · exact .pure _ _
    · exact ih _ _

end CigCard.Mailbox
