import CigCard.ByteMemory.LittleEndian

namespace ByteMemory

def bit (memory : Memory) (i : Nat) : Bool := (memory (i / 8)).getLsbD (i % 8)

theorem leNumber_testBit (bytes : List Byte) (i : Nat) :
    (leNumber bytes).testBit i = ((bytes[i / 8]?).getD 0).getLsbD (i % 8) := by
  induction bytes generalizing i with
  | nil => simp [leNumber]
  | cons byte bytes ih =>
    have sum : leNumber (byte :: bytes) = 2 ^ 8 * leNumber bytes + byte.toNat := Nat.add_comm _ _
    rw [sum, Nat.testBit_two_pow_mul_add _ byte.isLt]
    split
    · next low =>
      rw [Nat.div_eq_of_lt low, Nat.mod_eq_of_lt low]
      rfl
    · next high =>
      obtain ⟨j, rfl⟩ : ∃ j, i = j + 8 := ⟨i - 8, by omega⟩
      rw [Nat.add_sub_cancel, ih, Nat.add_div_right _ (by decide), Nat.add_mod_right]
      rfl

theorem number_testBit (memory : Memory) (address count i : Nat) (bound : i < 8 * count) :
    (number memory address count).testBit i = bit memory (8 * address + i) := by
  have place : (8 * address + i) / 8 = address + i / 8 := by omega
  have part : (8 * address + i) % 8 = i % 8 := by omega
  rw [number, leNumber_testBit, load_getElem? _ _ _ _ (by omega), bit, place, part]
  rfl

theorem leBytes_getElem? (count value j : Nat) (bound : j < count) :
    (leBytes count value)[j]? = some (BitVec.ofNat 8 (value / 256 ^ j)) := by
  induction count generalizing value j with
  | zero => omega
  | succ count ih =>
    cases j with
    | zero => simp [leBytes]
    | succ j =>
      rw [leBytes, List.getElem?_cons_succ, ih _ _ (by omega), Nat.div_div_eq_div_mul, ← Nat.pow_succ']

theorem bit_store_leBytes (memory : Memory) (address count value i : Nat) (bound : i < 8 * count) :
    bit (store memory address (leBytes count value)) (8 * address + i) = value.testBit i := by
  have place : (8 * address + i) / 8 = address + i / 8 := by omega
  have part : (8 * address + i) % 8 = i % 8 := by omega
  have inside : i / 8 < (leBytes count value).length := by
    rw [leBytes_length]
    omega
  have byte := leBytes_getElem? count value (i / 8) (by omega)
  rw [List.getElem?_eq_getElem inside, Option.some.injEq] at byte
  have power : 256 ^ (i / 8) = 2 ^ (8 * (i / 8)) := by
    rw [Nat.pow_mul]
  have low : i % 8 < 8 := Nat.mod_lt _ (by decide)
  rw [bit, place, part, store_inside _ _ _ _ inside, byte, BitVec.getLsbD_ofNat, power, Nat.testBit_div_two_pow,
    Nat.mod_add_div]
  simp [low]

theorem bit_store_below (memory : Memory) (address i : Nat) (bytes : List Byte) (below : i < 8 * address) :
    bit (store memory address bytes) i = bit memory i := by
  rw [bit, bit, store_outside _ _ _ _ (.inl (by omega))]

end ByteMemory
