import CigCard.Mailbox.CommandText
import Mathlib.Tactic.IntervalCases

namespace CigCard.SerDes

open ByteMemory Mailbox

def isBlank (byte : Byte) : Bool := byte = 32 ∨ byte = 10

def tokens (text : List Byte) : List (List Byte) := (text.splitOnP isBlank).filter (· ≠ [])

def hexNumber : List Byte → Nat → Option Nat
  | [], value => some value
  | byte :: bytes, value => (hexDigit byte).bind fun digit => hexNumber bytes (16 * value + digit)

def parseHex : List Byte → Option Nat
  | 48 :: 120 :: digit :: digits => hexNumber (digit :: digits) 0
  | _ => none

def decimalNumber : List Byte → Nat → Option Nat
  | [], value => some value
  | byte :: bytes, value =>
    if 48 ≤ byte.toNat ∧ byte.toNat ≤ 57 then decimalNumber bytes (10 * value + (byte.toNat - 48)) else none

def parseInt : List Byte → Option Int
  | [] => none
  | 45 :: digits => if digits = [] then none else (decimalNumber digits 0).map fun n => -Int.ofNat n
  | digits => (decimalNumber digits 0).map Int.ofNat

structure I2cWrite where
  bus : Int
  dev : Nat
  reg : Nat
  data : Nat
  deriving DecidableEq

/-- `i2ctransfer -f -y bus w3@dev hi lo value` -/
def parseTransfer : List (List Byte) → Option I2cWrite
  | [tool, force, yes, bus, message, hi, lo, value] =>
    if tool = ascii "i2ctransfer" ∧ force = ascii "-f" ∧ yes = ascii "-y" ∧ message.take 3 = ascii "w3@" then do
      let bus ← parseInt bus
      let dev ← parseHex (message.drop 3)
      let hi ← parseHex hi
      let lo ← parseHex lo
      let data ← parseHex value
      pure ⟨bus, dev, 256 * hi + lo, data⟩
    else none
  | _ => none

/-- `i2cset -f -y bus dev reg value` -/
def parseSet : List (List Byte) → Option I2cWrite
  | [tool, force, yes, bus, dev, reg, value] =>
    if tool = ascii "i2cset" ∧ force = ascii "-f" ∧ yes = ascii "-y" then do
      let bus ← parseInt bus
      let dev ← parseHex dev
      let reg ← parseHex reg
      let data ← parseHex value
      pure ⟨bus, dev, reg, data⟩
    else none
  | _ => none

def parseWrite (text : List Byte) : Option I2cWrite := (parseTransfer (tokens text)).or (parseSet (tokens text))

def Visible (word : List Byte) : Prop := ∀ byte ∈ word, 33 ≤ byte.toNat

theorem Visible.append {left right : List Byte} (first : Visible left) (second : Visible right) :
    Visible (left ++ right) := by
  intro byte member
  rcases List.mem_append.mp member with member | member
  · exact first byte member
  · exact second byte member

theorem Visible.not_blank {word : List Byte} (visible : Visible word) : ∀ byte ∈ word, isBlank byte = false := by
  intro byte member
  have above := visible byte member
  have space : byte ≠ 32 := by
    intro same
    rw [same] at above
    exact absurd above (by decide)
  have line : byte ≠ 10 := by
    intro same
    rw [same] at above
    exact absurd above (by decide)
  apply decide_eq_false
  intro blank
  rcases blank with same | same
  · exact space same
  · exact line same

theorem tokens_nil : tokens [] = [] := by
  simp [tokens]

theorem tokens_word {word : List Byte} (visible : Visible word) (nonempty : word ≠ []) (blank : Byte)
    (ends : isBlank blank = true) (rest : List Byte) : tokens (word ++ blank :: rest) = word :: tokens rest := by
  rw [tokens, List.splitOnP_append_cons_of_forall_mem visible.not_blank blank ends, List.filter_cons, tokens,
    if_pos (by simpa using nonempty)]

theorem tokens_last {word : List Byte} (visible : Visible word) (nonempty : word ≠ []) : tokens word = [word] := by
  rw [tokens, List.splitOnP_eq_singleton visible.not_blank, List.filter_singleton]
  simp [nonempty]

theorem hexDigit_digitChar : ∀ digit < 16, hexDigit (digitChar digit) = some digit := by decide

theorem digitChar_visible : ∀ digit < 16, 33 ≤ (digitChar digit).toNat := by decide

theorem hexNumber_formatHex2 (byte : Byte) (value : Nat) :
    hexNumber (formatHex2 byte) value = some (256 * value + byte.toNat) := by
  have bound := byte.isLt
  have split : 16 * (16 * value + byte.toNat / 16) + byte.toNat % 16 = 256 * value + byte.toNat := by omega
  simp only [formatHex2, hexNumber, hexDigit_digitChar _ (show byte.toNat / 16 < 16 by omega),
    hexDigit_digitChar _ (show byte.toNat % 16 < 16 by omega), Option.bind_some, split]

theorem parseHex_formatHex2 (byte : Byte) : parseHex (ascii "0x" ++ formatHex2 byte) = some byte.toNat := by
  have read := hexNumber_formatHex2 byte 0
  rw [Nat.mul_zero, Nat.zero_add] at read
  exact read

theorem parseHex_formatHex4 (byte : Byte) : parseHex (ascii "0x" ++ formatHex4 byte) = some byte.toNat := by
  have zero : hexDigit (digitChar 0) = some 0 := by decide
  have whole : parseHex (ascii "0x" ++ formatHex4 byte) = hexNumber (formatHex4 byte) 0 := rfl
  rw [whole, formatHex4, List.cons_append, hexNumber, zero, Option.bind_some, List.cons_append, hexNumber, zero,
    Option.bind_some, List.nil_append, hexNumber_formatHex2]
  simp

theorem formatHex2_visible (byte : Byte) : Visible (formatHex2 byte) := by
  have bound := byte.isLt
  intro digit member
  simp only [formatHex2, List.mem_cons, List.not_mem_nil, or_false] at member
  rcases member with rfl | rfl
  · exact digitChar_visible _ (by omega)
  · exact digitChar_visible _ (by omega)

theorem formatHex4_visible (byte : Byte) : Visible (formatHex4 byte) := by
  apply Visible.append _ (formatHex2_visible byte)
  intro digit member
  simp only [List.mem_cons, List.not_mem_nil, or_false, or_self] at member
  rw [member]
  decide

theorem digitChar_decimal : ∀ digit < 10,
    48 ≤ (digitChar digit).toNat ∧ (digitChar digit).toNat ≤ 57 ∧ (digitChar digit).toNat - 48 = digit := by
  decide

theorem decimalNumber_digit (digit value : Nat) (small : digit < 10) (rest : List Byte) :
    decimalNumber (digitChar digit :: rest) value = decimalNumber rest (10 * value + digit) := by
  obtain ⟨low, high, same⟩ := digitChar_decimal digit small
  rw [decimalNumber, if_pos ⟨low, high⟩, same]

/-- The digits of `n` in front of a text are read as `n` before the text. -/
theorem decimalNumber_decimalDigits (fuel n : Nat) (rest : List Byte) (small : n < 10 ^ fuel) :
    decimalNumber (decimalDigits fuel n rest) 0 = decimalNumber rest n := by
  induction fuel generalizing n rest with
  | zero =>
    rw [Nat.pow_zero, Nat.lt_one_iff] at small
    rw [decimalDigits, small]
  | succ fuel ih =>
    rw [Nat.pow_succ] at small
    rw [decimalDigits]
    split
    · rw [decimalNumber_digit _ _ ‹_›, Nat.mul_zero, Nat.zero_add]
    · rw [ih (n / 10) _ (by omega), decimalNumber_digit _ _ (Nat.mod_lt n (by decide)), Nat.div_add_mod]

theorem decimalDigits_cons (fuel n : Nat) (rest : List Byte) :
    ∃ digit < 10, ∃ more, decimalDigits (fuel + 1) n rest = digitChar digit :: more := by
  induction fuel generalizing n rest with
  | zero =>
    rw [decimalDigits]
    split
    · exact ⟨n, ‹_›, rest, rfl⟩
    · exact ⟨n % 10, Nat.mod_lt n (by decide), rest, rfl⟩
  | succ fuel ih =>
    rw [decimalDigits]
    split
    · exact ⟨n, ‹_›, rest, rfl⟩
    · exact ih _ _

theorem decimalDigits_visible (fuel n : Nat) {rest : List Byte} (visible : Visible rest) :
    Visible (decimalDigits fuel n rest) := by
  have cons : ∀ digit < 10, ∀ more, Visible more → Visible (digitChar digit :: more) := by
    intro digit small more seen byte member
    rcases List.mem_cons.mp member with rfl | member
    · exact digitChar_visible digit (by omega)
    · exact seen byte member
  induction fuel generalizing n rest with
  | zero => exact visible
  | succ fuel ih =>
    rw [decimalDigits]
    split
    · exact cons n ‹_› rest visible
    · exact ih _ (cons _ (Nat.mod_lt n (by decide)) rest visible)

theorem formatD_visible (n : Nat) : Visible (formatD n) := by
  have empty : Visible [] := fun byte member => absurd member (by simp)
  unfold formatD
  split
  · exact decimalDigits_visible 10 n empty
  · have sign : Visible [45] := by
      intro byte member
      rw [List.mem_singleton.mp member]
      decide
    exact sign.append (decimalDigits_visible 10 _ empty)

theorem formatD_nonempty (n : Nat) : formatD n ≠ [] := by
  unfold formatD
  split
  · obtain ⟨digit, -, more, same⟩ := decimalDigits_cons 9 n []
    rw [same]
    exact List.cons_ne_nil _ _
  · exact List.cons_ne_nil _ _

theorem parseInt_digit (digit : Nat) (small : digit < 10) (more : List Byte) : parseInt (digitChar digit :: more) =
    (decimalNumber (digitChar digit :: more) 0).map Int.ofNat := by
  interval_cases digit <;> rfl

theorem parseInt_minus (digits : List Byte) (nonempty : digits ≠ []) :
    parseInt (45 :: digits) = (decimalNumber digits 0).map fun n => -Int.ofNat n :=
  if_neg nonempty

/-- `%d` and back again, for every value of the `uint32_t`. -/
theorem parseInt_formatD (n : BitVec 32) : parseInt (formatD n.toNat) = some n.toInt := by
  have bound := n.isLt
  have signed := BitVec.toInt_eq_toNat_cond n
  rw [formatD]
  split
  · obtain ⟨digit, small, more, same⟩ := decimalDigits_cons 9 n.toNat []
    have read := decimalNumber_decimalDigits 10 n.toNat [] (by omega)
    rw [same] at read ⊢
    rw [parseInt_digit digit small, read, decimalNumber, Option.map_some, signed, if_pos (by omega)]
    rfl
  · obtain ⟨digit, small, more, same⟩ := decimalDigits_cons 9 (2 ^ 32 - n.toNat) []
    have read := decimalNumber_decimalDigits 10 (2 ^ 32 - n.toNat) [] (by omega)
    rw [same] at read ⊢
    rw [parseInt_minus _ (List.cons_ne_nil _ _), read, decimalNumber, Option.map_some, signed, if_neg (by omega),
      Option.some.injEq, Int.ofNat_eq_natCast]
    omega

end CigCard.SerDes
