import CigCard.Mailbox.Command

namespace CigCard.Mailbox

open ByteMemory

def ascii (text : String) : List Byte := text.toList.map fun c => BitVec.ofNat 8 c.toNat

def digitChar (digit : Nat) : Byte := if digit < 10 then BitVec.ofNat 8 (48 + digit) else BitVec.ofNat 8 (87 + digit)

def decimalDigits : Nat → Nat → List Byte → List Byte
  | 0, _, rest => rest
  | fuel + 1, n, rest =>
    if n < 10 then digitChar n :: rest else decimalDigits fuel (n / 10) (digitChar (n % 10) :: rest)

/-- `%d` of a `uint32_t`, which is printed as a signed number. -/
def formatD (n : Nat) : List Byte :=
  if n < 2 ^ 31 then decimalDigits 10 n [] else 45 :: decimalDigits 10 (2 ^ 32 - n) []

def formatHex2 (byte : Byte) : List Byte := [digitChar (byte.toNat / 16), digitChar (byte.toNat % 16)]

def formatHex4 (byte : Byte) : List Byte := [digitChar 0, digitChar 0] ++ formatHex2 byte

@[simp] theorem formatHex2_length (byte : Byte) : (formatHex2 byte).length = 2 := rfl

@[simp] theorem formatHex4_length (byte : Byte) : (formatHex4 byte).length = 4 := rfl

theorem decimalDigits_length (fuel n : Nat) (rest : List Byte) :
    (decimalDigits fuel n rest).length ≤ fuel + rest.length := by
  induction fuel generalizing n rest with
  | zero => simp [decimalDigits]
  | succ fuel ih =>
    unfold decimalDigits
    split
    · simp only [List.length_cons]
      omega
    · have longer := ih (n / 10) (digitChar (n % 10) :: rest)
      simp only [List.length_cons] at longer
      omega

theorem formatD_length (n : Nat) : (formatD n).length ≤ 11 := by
  have positive := decimalDigits_length 10 n []
  have negative := decimalDigits_length 10 (2 ^ 32 - n) []
  simp only [List.length_nil] at positive negative
  unfold formatD
  split
  · omega
  · simp only [List.length_cons]
    omega

example : formatD 17 = ascii "17" := by decide

example : formatHex4 0x1f = ascii "001f" := by decide

end CigCard.Mailbox
