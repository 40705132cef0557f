import CigCard.Mailbox.CommandText

namespace CigCard.LinkMargin

open Interaction ByteMemory Mailbox

/-- What `get_cmd_result` finds in the global `cmd_result`. `command` numbers the latest command sent and
    `origin` the one whose result is in the buffer; both are history and not seen by the code. -/
structure Parsed where
  command : Nat
  origin : Option Nat
  value : Nat
  deriving DecidableEq

structure Reading where
  dev : Byte
  reg : BitVec 16
  parsed : Parsed
  deriving DecidableEq

def Reading.value (reading : Reading) : Byte := BitVec.ofNat 8 reading.parsed.value

inductive Change where
  | clear (mask : Byte)
  | set (mask : Byte)
  | lower
  deriving DecidableEq

def Change.apply : Change → Byte → Byte
  | .clear mask, value => value &&& ~~~mask
  | .set mask, value => value ||| mask
  | .lower, value => 0x80 ||| ((value &&& 0x3f) - 1)

/-- A command on the I2C bus. A write that puts a register back carries the reading it changed. -/
inductive Request where
  | read (channel : Nat) (dev : Byte) (reg : BitVec 16)
  | write (channel : Nat) (dev : Byte) (reg : BitVec 16) (value : Byte) (basis : Option (Reading × Change))
  deriving DecidableEq

def transferText (channel : Nat) (count : String) (dev : Byte) (reg : BitVec 16) : List Byte :=
  ascii "i2ctransfer -f -y " ++ formatD channel ++ ascii count ++ formatHex2 (dev / 2) ++ ascii " 0x" ++
    formatHex2 (reg.extractLsb' 8 8) ++ ascii " 0x" ++ formatHex2 (reg.extractLsb' 0 8)

def Request.text : Request → List Byte
  | .read channel dev reg => transferText channel " w2@0x" dev reg ++ ascii " r1\n"
  | .write channel dev reg value _ =>
    transferText channel " w3@0x" dev reg ++ ascii " 0x" ++ formatHex4 value ++ ascii "\n"

theorem Request.text_length (request : Request) : request.text.length < 256 := by
  cases request with
  | read channel dev reg =>
    have short := formatD_length channel
    simp only [Request.text, transferText, ascii, List.length_append, List.length_map, formatHex2_length]
    simp
    omega
  | write channel dev reg value basis =>
    have short := formatD_length channel
    simp only [Request.text, transferText, ascii, List.length_append, List.length_map, formatHex2_length,
      formatHex4_length]
    simp
    omega

theorem Request.text_fits (request : Request) : 8 + request.text.length ≤ interruptReg := by
  have short := request.text_length
  simp only [interruptReg]
  omega

def Request.command (request : Request) : Command where
  bytes := request.text
  fits := request.text_fits

inductive Call where
  | sendCmdToA53Sync (request : Request)
  | getCmdResult

abbrev Call.Answer : Call → Type
  | .sendCmdToA53Sync _ => Exit
  | .getCmdResult => Parsed

abbrev Margin (α : Type) := Program Call Call.Answer α

def iicReg16Rd8 (channel : Nat) (dev : Byte) (reg : BitVec 16) : Margin Reading := do
  let _ ← Program.perform (Call.sendCmdToA53Sync (.read channel dev reg))
  let parsed ← Program.perform Call.getCmdResult
  pure ⟨dev, reg, parsed⟩

def iicReg16Wr8 (channel : Nat) (dev : Byte) (reg : BitVec 16) (value : Byte)
    (basis : Option (Reading × Change)) : Margin Unit := do
  let _ ← Program.perform (Call.sendCmdToA53Sync (.write channel dev reg value basis))
  pure ()

def writeBack (channel : Nat) (dev : Byte) (reg : BitVec 16) (reading : Reading) (change : Change) : Margin Unit :=
  iicReg16Wr8 channel dev reg (change.apply reading.value) (some (reading, change))

def REG01 : BitVec 16 := 0x0001
def RLMS95 : BitVec 16 := 0x1495
def RLMSA4 : BitVec 16 := 0x14A4
def RLMS4 : BitVec 16 := 0x1404
def RLMS3 : BitVec 16 := 0x1403
def CNT0 : BitVec 16 := 0x0022
def CTRL3 : BitVec 16 := 0x0013

def SE : Byte := 0x80
def DE : Byte := 0x90

structure Amplitudes where
  seTxAmpOrg : Byte
  deTxAmpOrg : Byte

def rateCode (reading : Reading) : Byte := (reading.value &&& 0xc) >>> 2

def deAmplitude (rdData old : Byte) : Byte :=
  if rdData = 0x0 then 25 else if rdData = 0x1 then 32 else if rdData = 0x2 then 37 else if rdData = 0x3 then 37 else old

/-- There is no branch for the rate code 3. -/
def seAmplitude (rdData old : Byte) : Byte :=
  if rdData = 0x0 then 41 else if rdData = 0x1 then 41 else if rdData = 0x2 then 41 else old

def clearBoth (channel : Nat) (reg : BitVec 16) (mask : Byte) : Margin Unit := do
  let se ← iicReg16Rd8 channel SE reg
  let de ← iicReg16Rd8 channel DE reg
  writeBack channel SE reg se (.clear mask)
  writeBack channel DE reg de (.clear mask)

def linkMarginInit (channel : Nat) (amplitudes : Amplitudes) : Margin Amplitudes := do
  let deRate ← iicReg16Rd8 channel DE REG01
  let deTxAmpOrg := deAmplitude (rateCode deRate) amplitudes.deTxAmpOrg
  iicReg16Wr8 channel DE RLMS95 deTxAmpOrg none
  let seRate ← iicReg16Rd8 channel SE REG01
  let seTxAmpOrg := seAmplitude (rateCode seRate) amplitudes.seTxAmpOrg
  iicReg16Wr8 channel SE RLMS95 seTxAmpOrg none
  clearBoth channel RLMSA4 0x3f
  clearBoth channel RLMS4 0x1
  clearBoth channel RLMS3 0x80
  clearBoth channel RLMS95 0x80
  let _ ← iicReg16Rd8 channel SE CNT0
  let _ ← iicReg16Rd8 channel DE CNT0
  pure ⟨seTxAmpOrg, deTxAmpOrg⟩

def awaitLink (channel : Nat) : Nat → Byte × Byte → Margin (Byte × Byte)
  | 0, last => pure last
  | remaining + 1, _ => do
    let deCnt0 ← iicReg16Rd8 channel DE CNT0
    let deCtrl3 ← iicReg16Rd8 channel DE CTRL3
    if deCnt0.value = 0 ∧ deCtrl3.value &&& 0x80 ≠ 0 then pure (deCnt0.value, deCtrl3.value)
    else awaitLink channel remaining (deCnt0.value, deCtrl3.value)

def awaitLock (channel : Nat) : Nat → Margin Unit
  | 0 => pure ()
  | remaining + 1 => do
    let deCtrl3 ← iicReg16Rd8 channel DE CTRL3
    if deCtrl3.value &&& 0x40 ≠ 0 then pure () else awaitLock channel remaining

def globalAdapt (channel : Nat) (change : Change) : Margin Unit := do
  let deRlms3 ← iicReg16Rd8 channel DE RLMS3
  writeBack channel DE RLMS3 deRlms3 change

def lowerAmplitude (channel : Nat) : Margin (Byte × Byte) := do
  let seRlms95 ← iicReg16Rd8 channel SE RLMS95
  let seTxAmp := (seRlms95.value &&& 0x3f) - 1
  writeBack channel SE RLMS95 seRlms95 .lower
  globalAdapt channel (.set 0x80)
  globalAdapt channel (.clear 0x80)
  awaitLock channel 100
  let _ ← iicReg16Rd8 channel DE CNT0
  let deCnt0 ← iicReg16Rd8 channel DE CNT0
  pure (deCnt0.value, seTxAmp)

/-- The `do … while` loop. `none`: still running after the given number of rounds. -/
def sweep (channel : Nat) : Nat → Margin (Option Byte)
  | 0 => pure none
  | rounds + 1 => do
    let (deCnt0, seTxAmp) ← lowerAmplitude channel
    if deCnt0 = 0 ∧ seTxAmp > 10 then sweep channel rounds else pure (some seTxAmp)

inductive Outcome where
  | linkError
  | sweeping
  | margin (linkMargin : Nat)

def linkMargin (seTxAmpOrg seTxAmp : Byte) : Nat :=
  (((seTxAmpOrg.toNat - seTxAmp.toNat : Int) * 10) % 2 ^ 32).toNat

/-- `garbage` is what the uninitialised `de_cnt0` and `de_ctrl3` hold. -/
def forwardLinkMargin (channel rounds : Nat) (seTxAmpOrg : Byte) (garbage : Byte × Byte) : Margin Outcome := do
  let (deCnt0, deCtrl3) ← awaitLink channel 20 garbage
  if deCnt0 ≠ 0 ∨ deCtrl3 &&& 0x80 = 0 then pure .linkError
  else
    match ← sweep channel rounds with
    | none => pure .sweeping
    | some seTxAmp =>
      iicReg16Wr8 channel SE RLMS95 (0x80 ||| seTxAmpOrg) none
      globalAdapt channel (.set 0x80)
      globalAdapt channel (.clear 0x80)
      pure (.margin (linkMargin seTxAmpOrg seTxAmp))

def initThenForward (channel rounds : Nat) (amplitudes : Amplitudes) (garbage : Byte × Byte) : Margin Outcome := do
  let amplitudes ← linkMarginInit channel amplitudes
  forwardLinkMargin channel rounds amplitudes.seTxAmpOrg garbage

end CigCard.LinkMargin
