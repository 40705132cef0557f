import CigCard.SerDes.I2cText

namespace CigCard.SerDes

open ByteMemory Mailbox

structure DataElement where
  dev : Byte
  reg : BitVec 16
  data : Byte
  bits : Byte
  delay : BitVec 16
  deriving DecidableEq

inductive BusAction where
  | sendCmd (text : List Byte)
  | usleep (usec : Nat)

def BusAction.text : BusAction → Option (List Byte)
  | .sendCmd text => some text
  | .usleep _ => none

def detectText (channel : BitVec 32) : List Byte := ascii "i2cdetect -r -y " ++ formatD channel.toNat

def transferText (channel : BitVec 32) (dev : Byte) (reg : BitVec 16) (data : Byte) : List Byte :=
  ascii "i2ctransfer -f -y " ++ formatD channel.toNat ++ ascii " w3@0x" ++ formatHex2 dev ++ ascii " 0x" ++
    formatHex2 (reg.extractLsb' 8 8) ++ ascii " 0x" ++ formatHex2 (reg.extractLsb' 0 8) ++ ascii " 0x" ++
    formatHex4 data ++ ascii "\n"

def setText (channel : BitVec 32) (dev : Byte) (reg : BitVec 16) (data : Byte) : List Byte :=
  ascii "i2cset -f -y " ++ formatD channel.toNat ++ ascii " 0x" ++ formatHex2 dev ++ ascii " 0x" ++
    formatHex2 (reg.extractLsb' 0 8) ++ ascii " 0x" ++ formatHex4 data ++ ascii "\n"

/-- The global `cmd` after the two `if`s: for any other width it keeps what it held. -/
def nextCmd (channel : BitVec 32) (cmd : List Byte) (elem : DataElement) : List Byte :=
  if elem.bits = 0x10 then transferText channel (elem.dev / 2) elem.reg elem.data
  else if elem.bits = 0x08 then setText channel (elem.dev / 2) elem.reg elem.data
  else cmd

def playElements (channel : BitVec 32) : List Byte → List DataElement → List BusAction
  | _, [] => []
  | cmd, elem :: elems =>
    .sendCmd (nextCmd channel cmd elem) :: .usleep (elem.delay.toNat * 1000) ::
      playElements channel (nextCmd channel cmd elem) elems

def elementChannelProcess (channel : BitVec 32) (elems : List DataElement) : List BusAction :=
  .sendCmd (detectText channel) ::
    (playElements channel (detectText channel) elems ++ [.sendCmd (detectText channel)])

/-- The two widths of a register number that the code has a command for. -/
def DataElement.Supported (elem : DataElement) : Prop := elem.bits = 0x10 ∨ elem.bits = 0x08

instance (elem : DataElement) : Decidable elem.Supported :=
  inferInstanceAs (Decidable (elem.bits = 0x10 ∨ elem.bits = 0x08))

def DataElement.write (channel : BitVec 32) (elem : DataElement) : I2cWrite :=
  ⟨channel.toInt, elem.dev.toNat / 2, elem.reg.toNat, elem.data.toNat⟩

def tableWrites (channel : BitVec 32) (elems : List DataElement) : List I2cWrite :=
  (elems.filter fun elem => decide elem.Supported).map (DataElement.write channel)

/-- Between the two `i2cdetect` commands the I2C writes are those of the table. -/
def TablePlayed (channel : BitVec 32) (elems : List DataElement) : Prop :=
  ∃ middle, (elementChannelProcess channel elems).filterMap BusAction.text =
      detectText channel :: (middle ++ [detectText channel]) ∧
    middle.filterMap parseWrite = tableWrites channel elems

section
variable {channel : BitVec 32}

theorem ascii_visible (text : String) (visible : (ascii text).all (fun byte => decide (33 ≤ byte.toNat)) = true) :
    Visible (ascii text) :=
  fun byte member => of_decide_eq_true (List.all_eq_true.mp visible byte member)

theorem hexWord_visible (byte : Byte) : Visible (ascii "0x" ++ formatHex2 byte) :=
  (ascii_visible "0x" (by decide)).append (formatHex2_visible byte)

theorem dataWord_visible (byte : Byte) : Visible (ascii "0x" ++ formatHex4 byte) :=
  (ascii_visible "0x" (by decide)).append (formatHex4_visible byte)

theorem ascii_nonempty {text : String} (rest : List Byte) (nonempty : ascii text ≠ []) : ascii text ++ rest ≠ [] :=
  List.append_ne_nil_of_left_ne_nil nonempty rest

theorem tokens_text {text : String} {rest : List Byte}
    (visible : (ascii text).all (fun byte => decide (33 ≤ byte.toNat)) = true) (nonempty : ascii text ≠ []) :
    tokens (ascii text ++ 32 :: rest) = ascii text :: tokens rest :=
  tokens_word (ascii_visible _ visible) nonempty 32 (by decide) rest

theorem tokens_channel {rest : List Byte} :
    tokens (formatD channel.toNat ++ 32 :: rest) = formatD channel.toNat :: tokens rest :=
  tokens_word (formatD_visible _) (formatD_nonempty _) 32 (by decide) rest

theorem tokens_hexWord (byte : Byte) {rest : List Byte} :
    tokens ((ascii "0x" ++ formatHex2 byte) ++ 32 :: rest) = (ascii "0x" ++ formatHex2 byte) :: tokens rest :=
  tokens_word (hexWord_visible _) (ascii_nonempty _ (by decide)) 32 (by decide) rest

theorem tokens_dataWord (byte : Byte) {rest : List Byte} :
    tokens ((ascii "0x" ++ formatHex4 byte) ++ 10 :: rest) = (ascii "0x" ++ formatHex4 byte) :: tokens rest :=
  tokens_word (dataWord_visible _) (ascii_nonempty _ (by decide)) 10 (by decide) rest

theorem tokens_detectText : tokens (detectText channel) =
    [ascii "i2cdetect", ascii "-r", ascii "-y", formatD channel.toNat] := by
  have split : detectText channel =
      ascii "i2cdetect" ++ 32 :: (ascii "-r" ++ 32 :: (ascii "-y" ++ 32 :: formatD channel.toNat)) := rfl
  rw [split, tokens_text (by decide) (by decide), tokens_text (by decide) (by decide),
    tokens_text (by decide) (by decide), tokens_last (formatD_visible _) (formatD_nonempty _)]

theorem tokens_setText (dev : Byte) (reg : BitVec 16) (data : Byte) : tokens (setText channel dev reg data) =
    [ascii "i2cset", ascii "-f", ascii "-y", formatD channel.toNat, ascii "0x" ++ formatHex2 dev,
      ascii "0x" ++ formatHex2 (reg.extractLsb' 0 8), ascii "0x" ++ formatHex4 data] := by
  have split : setText channel dev reg data = ascii "i2cset" ++ 32 :: (ascii "-f" ++ 32 :: (ascii "-y" ++ 32 ::
      (formatD channel.toNat ++ 32 :: ((ascii "0x" ++ formatHex2 dev) ++ 32 ::
        ((ascii "0x" ++ formatHex2 (reg.extractLsb' 0 8)) ++ 32 :: ((ascii "0x" ++ formatHex4 data) ++ 10 :: [])))))) := by
    have head : ascii "i2cset -f -y " = ascii "i2cset" ++ 32 :: (ascii "-f" ++ 32 :: (ascii "-y" ++ [32])) := by decide
    have mark : ascii " 0x" = 32 :: ascii "0x" := by decide
    have line : ascii "\n" = [10] := by decide
    rw [setText, head, mark, line]
    simp only [List.append_assoc, List.cons_append, List.nil_append]
  rw [split, tokens_text (by decide) (by decide), tokens_text (by decide) (by decide),
    tokens_text (by decide) (by decide), tokens_channel, tokens_hexWord, tokens_hexWord, tokens_dataWord, tokens_nil]

theorem tokens_transferText (dev : Byte) (reg : BitVec 16) (data : Byte) : tokens (transferText channel dev reg data) =
    [ascii "i2ctransfer", ascii "-f", ascii "-y", formatD channel.toNat, ascii "w3@0x" ++ formatHex2 dev,
      ascii "0x" ++ formatHex2 (reg.extractLsb' 8 8), ascii "0x" ++ formatHex2 (reg.extractLsb' 0 8),
      ascii "0x" ++ formatHex4 data] := by
  have split : transferText channel dev reg data = ascii "i2ctransfer" ++ 32 :: (ascii "-f" ++ 32 :: (ascii "-y" ++ 32 ::
      (formatD channel.toNat ++ 32 :: ((ascii "w3@0x" ++ formatHex2 dev) ++ 32 ::
        ((ascii "0x" ++ formatHex2 (reg.extractLsb' 8 8)) ++ 32 :: ((ascii "0x" ++ formatHex2 (reg.extractLsb' 0 8)) ++ 32 ::
          ((ascii "0x" ++ formatHex4 data) ++ 10 :: []))))))) := by
    have head : ascii "i2ctransfer -f -y " = ascii "i2ctransfer" ++ 32 :: (ascii "-f" ++ 32 :: (ascii "-y" ++ [32])) := by
      decide
    have message : ascii " w3@0x" = 32 :: ascii "w3@0x" := by decide
    have mark : ascii " 0x" = 32 :: ascii "0x" := by decide
    have line : ascii "\n" = [10] := by decide
    rw [transferText, head, message, mark, line]
    simp only [List.append_assoc, List.cons_append, List.nil_append]
  have visible : Visible (ascii "w3@0x" ++ formatHex2 dev) :=
    (ascii_visible _ (by decide)).append (formatHex2_visible dev)
  rw [split, tokens_text (by decide) (by decide), tokens_text (by decide) (by decide),
    tokens_text (by decide) (by decide), tokens_channel,
    tokens_word visible (ascii_nonempty _ (by decide)) 32 (by decide), tokens_hexWord, tokens_hexWord, tokens_dataWord,
    tokens_nil]

theorem parseWrite_detectText : parseWrite (detectText channel) = none := by
  rw [parseWrite, tokens_detectText]
  rfl

/-- `i2cset` carries the low byte of the register number only. -/
theorem parseWrite_setText (dev : Byte) (reg : BitVec 16) (data : Byte) :
    parseWrite (setText channel dev reg data) = some ⟨channel.toInt, dev.toNat, reg.toNat % 256, data.toNat⟩ := by
  have low : (reg.extractLsb' 0 8).toNat = reg.toNat % 256 := by
    rw [BitVec.extractLsb'_toNat, Nat.shiftRight_zero]
  have other : ∀ words : List (List Byte), words.length = 7 → parseTransfer words = none := by
    intro words seven
    unfold parseTransfer
    split
    · simp at seven
    · rfl
  rw [parseWrite, tokens_setText, other _ rfl, Option.none_or, parseSet, if_pos ⟨rfl, rfl, rfl⟩, parseInt_formatD,
    parseHex_formatHex2, parseHex_formatHex2, parseHex_formatHex4, low]
  rfl

theorem parseWrite_transferText (dev : Byte) (reg : BitVec 16) (data : Byte) :
    parseWrite (transferText channel dev reg data) = some ⟨channel.toInt, dev.toNat, reg.toNat, data.toNat⟩ := by
  have bound := reg.isLt
  have bytes : 256 * (reg.extractLsb' 8 8).toNat + (reg.extractLsb' 0 8).toNat = reg.toNat := by
    rw [BitVec.extractLsb'_toNat, BitVec.extractLsb'_toNat, Nat.shiftRight_zero, Nat.shiftRight_eq_div_pow]
    omega
  have address : (ascii "w3@0x" ++ formatHex2 dev).drop 3 = ascii "0x" ++ formatHex2 dev := rfl
  rw [parseWrite, tokens_transferText, parseTransfer, if_pos ⟨rfl, rfl, rfl, rfl⟩, parseInt_formatD, address,
    parseHex_formatHex2, parseHex_formatHex2, parseHex_formatHex2, parseHex_formatHex4]
  simp only [Option.bind_eq_bind, Option.bind_some, bytes]
  rfl

theorem parseWrite_nextCmd (cmd : List Byte) (elem : DataElement) : parseWrite (nextCmd channel cmd elem) =
    if elem.bits = 0x10 then some (elem.write channel)
    else if elem.bits = 0x08 then some { elem.write channel with reg := elem.reg.toNat % 256 }
    else parseWrite cmd := by
  have half : (elem.dev / 2).toNat = elem.dev.toNat / 2 := by
    rw [BitVec.toNat_udiv]
    rfl
  unfold nextCmd
  split
  · rw [parseWrite_transferText, half]
    rfl
  · split
    · rw [parseWrite_setText, half]
      rfl
    · rfl

end

end CigCard.SerDes
