import CigCard.Mailbox.CommandText

namespace CigCard.Tools

open ByteMemory Mailbox

def digitsValue (radix : Nat) : List Byte → Nat → Nat
  | [], value => value
  | byte :: bytes, value =>
    match hexDigit byte with
    | some digit => if digit < radix then digitsValue radix bytes (radix * value + digit) else value
    | none => value

def magnitude : List Byte → Nat
  | 48 :: 120 :: rest | 48 :: 88 :: rest => hexValue rest 0
  | 48 :: rest => digitsValue 8 rest 0
  | text => digitsValue 10 text 0

def saturated (negative : Bool) (value : Nat) : BitVec 64 :=
  if 2 ^ 64 ≤ value then -1 else if negative then -BitVec.ofNat 64 value else BitVec.ofNat 64 value

def strtoul (text : List Byte) : BitVec 64 :=
  match text.dropWhile isSpace with
  | 45 :: rest => saturated true (magnitude rest)
  | 43 :: rest => saturated false (magnitude rest)
  | rest => saturated false (magnitude rest)

def hexDigits : Nat → Nat → List Byte
  | 0, _ => []
  | count + 1, value => hexDigits count (value / 16) ++ [digitChar (value % 16)]

def hexText (count value : Nat) : List Byte := 48 :: 120 :: hexDigits count value

example : hexText 4 0x1f = ascii "0x001f" := by decide

example : strtoul (ascii " -017,") = -15 := by decide

theorem hexDigit_digitChar : ∀ digit < 16, hexDigit (digitChar digit) = some digit := by decide

theorem hexValue_hexDigits (count value : Nat) (rest : List Byte) (start : Nat) :
    hexValue (hexDigits count value ++ rest) start = hexValue rest (16 ^ count * start + value % 16 ^ count) := by
  induction count generalizing value rest start with
  | zero => simp [hexDigits, Nat.mod_one]
  | succ count ih =>
    have low := hexDigit_digitChar (value % 16) (Nat.mod_lt _ (by decide))
    have next : 16 * (16 ^ count * start + value / 16 % 16 ^ count) + value % 16 =
        16 ^ (count + 1) * start + value % 16 ^ (count + 1) := by
      rw [Nat.pow_succ, Nat.mul_comm (16 ^ count) 16, Nat.mod_mul, Nat.mul_add, Nat.mul_assoc]
      omega
    rw [hexDigits, List.append_assoc, ih, List.singleton_append, hexValue, low]
    exact congrArg (hexValue rest) next

theorem strtoul_hexText {count value : Nat} (small : value < 16 ^ count) (wide : value < 2 ^ 64) :
    strtoul (hexText count value) = BitVec.ofNat 64 value := by
  have digits := hexValue_hexDigits count value [] 0
  rw [List.append_nil, Nat.mul_zero, Nat.zero_add, Nat.mod_eq_of_lt small] at digits
  have start : (hexText count value).dropWhile isSpace = 48 :: 120 :: hexDigits count value := rfl
  unfold strtoul
  rw [start]
  show saturated false (hexValue (hexDigits count value) 0) = _
  rw [digits, hexValue, saturated, if_neg (Nat.not_le.mpr wide)]
  rfl

end CigCard.Tools
