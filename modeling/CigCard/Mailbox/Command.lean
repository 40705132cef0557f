import CigCard.Mailbox.Card

namespace CigCard.Mailbox

open Interaction ByteMemory

def resultBufLength : Nat := 4096

/-- A command string that fits below the interrupt register, as the 256-byte buffers and the
    command-line argument that the callers pass all do. -/
structure Command where
  bytes : List Byte
  fits : 8 + bytes.length ≤ interruptReg

/-- How a call of `send_cmd_to_a53_sync` ends. `copying` is no return: the copy loop was still running
    after the given number of rounds. -/
inductive Exit where
  | timeout
  | resultError
  | flagError
  | ok
  | copying
  deriving DecidableEq

def Exit.code : Exit → Option Nat
  | .timeout | .resultError | .flagError => some 0xffffffff
  | .ok => some 0
  | .copying => none

def copyStart (resultLength : Nat) : Nat :=
  if resultLength < resultBufLength then 0 else resultLength - resultLength % resultBufLength

/-- The loop that fetches the result; `cursor` and `bufCursor` are `uint32_t`. -/
def copyResult (resultLength : Nat) : Nat → Nat → Nat → Memory → Host (Exit × Memory)
  | 0, _, _, cmdResult => pure (.copying, cmdResult)
  | rounds + 1, cursor, bufCursor, cmdResult =>
    if cursor < resultLength then do
      let word ← xdmaRegRead ((0x8008 + cursor) % 2 ^ 32)
      copyResult resultLength rounds ((cursor + 4) % 2 ^ 32) ((bufCursor + 4) % 2 ^ 32)
        (store32 cmdResult bufCursor word)
    else pure (.ok, cmdResult)

def readResult (rounds : Nat) (cmdResult : Memory) : Host (Exit × Memory) := do
  let result ← xdmaRegRead resultReg
  if result ≠ 0 then pure (.resultError, cmdResult)
  else
    let word ← xdmaRegRead 0x8000
    if word ≠ 0x5a5aa5a5 then pure (.flagError, cmdResult)
    else
      let resultLength ← xdmaRegRead 0x8004
      copyResult resultLength rounds (copyStart resultLength) 0
        (store cmdResult 0 (List.replicate resultBufLength 0))

theorem copyResult_isLoad (resultLength rounds cursor bufCursor : Nat) (cmdResult : Memory) :
    (copyResult resultLength rounds cursor bufCursor cmdResult).Only Access.IsLoad := by
  induction rounds generalizing cursor bufCursor cmdResult with
  | zero => exact .pure _ _
  | succ rounds ih =>
    unfold copyResult
    split
    · exact .bind (.perform trivial) fun word => ih _ _ _
    · exact .pure _ _

theorem readResult_isLoad (rounds : Nat) (cmdResult : Memory) :
    (readResult rounds cmdResult).Only Access.IsLoad := by
  apply Program.Only.bind (.perform trivial)
  intro status
  split
  · exact .pure _ _
  · apply Program.Only.bind (.perform trivial)
    intro flag
    split
    · exact .pure _ _
    · exact .bind (.perform trivial) fun length => copyResult_isLoad _ _ _ _ _

/-- `send_cmd_to_a53_sync`; the global buffer `cmd_result` is passed through. -/
def sendCmdToA53Sync (rounds : Nat) (sendCmd : Command) (cmdResult : Memory) : Host (Exit × Memory) := do
  xdmaRegWrite 0 0x5a5aa5a5
  writeWords 8 0 sendCmd.bytes
  xdmaRegWrite 0x4 sendCmd.bytes.length
  xdmaRegWrite typeReg 0x3
  xdmaRegWrite interruptReg 0x01
  let (loopCount, result) ← awaitClear 1000 0 0
  if loopCount = 1000 ∧ result ≠ 0 then
    xdmaRegWrite interruptReg 0x0
    pure (.timeout, cmdResult)
  else readResult rounds cmdResult

def sendCmds (rounds : Nat) : List Command → Memory → Host (List (Exit × Memory))
  | [], _ => pure []
  | sendCmd :: rest, cmdResult => do
    let returned ← sendCmdToA53Sync rounds sendCmd cmdResult
    if returned.1 = .copying then pure [returned]
    else
      let others ← sendCmds rounds rest returned.2
      pure (returned :: others)

def isSpace (byte : Byte) : Bool := byte = 32 ∨ (9 ≤ byte.toNat ∧ byte.toNat ≤ 13)

def hexDigit (byte : Byte) : Option Nat :=
  let n := byte.toNat
  if 48 ≤ n ∧ n ≤ 57 then some (n - 48)
  else if 97 ≤ n ∧ n ≤ 102 then some (n - 87)
  else if 65 ≤ n ∧ n ≤ 70 then some (n - 55)
  else none

def hexValue : List Byte → Nat → Nat
  | [], value => value
  | byte :: bytes, value =>
    match hexDigit byte with
    | some digit => hexValue bytes (16 * value + digit)
    | none => value

def skipHexMark : List Byte → List Byte
  | 48 :: 120 :: rest | 48 :: 88 :: rest => rest
  | text => text

/-- `strtol (text, NULL, 16)` on a 64-bit `long`. -/
def strtol16 (text : List Byte) : Int :=
  match text.dropWhile isSpace with
  | 45 :: rest => -(min (hexValue (skipHexMark rest) 0) (2 ^ 63) : Nat)
  | 43 :: rest => (min (hexValue (skipHexMark rest) 0) (2 ^ 63 - 1) : Nat)
  | rest => (min (hexValue (skipHexMark rest) 0) (2 ^ 63 - 1) : Nat)

def cString (memory : Memory) (limit : Nat) : List Byte := (load memory 0 limit).takeWhile (· ≠ 0)

def getCmdResult (cmdResult : Memory) : Nat := (strtol16 (cString cmdResult resultBufLength) % 2 ^ 32).toNat

example : strtol16 [48, 120, 49, 102, 10] = 0x1f := by decide

end CigCard.Mailbox
