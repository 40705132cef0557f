import Mathlib.Data.List.TakeWhile
import Mathlib.Data.BitVec

namespace ByteMemory

abbrev Byte := BitVec 8

abbrev Memory := Nat → Byte

def leNumber : List Byte → Nat
  | [] => 0
  | byte :: bytes => byte.toNat + 256 * leNumber bytes

def leBytes : Nat → Nat → List Byte
  | 0, _ => []
  | count + 1, value => BitVec.ofNat 8 value :: leBytes count (value / 256)

@[simp] theorem leBytes_length (count value : Nat) : (leBytes count value).length = count := by
  induction count generalizing value with
  | zero => rfl
  | succ count ih => simp [leBytes, ih]

theorem leBytes_take (part count value : Nat) (bound : part ≤ count) :
    (leBytes count value).take part = leBytes part value := by
  induction part generalizing count value with
  | zero => simp [leBytes]
  | succ part ih =>
    obtain ⟨rest, rfl⟩ : ∃ rest, count = rest + 1 := ⟨count - 1, by omega⟩
    simp only [leBytes, List.take_succ_cons, ih rest (value / 256) (by omega)]

theorem leNumber_leBytes (count value : Nat) : leNumber (leBytes count value) = value % 256 ^ count := by
  induction count generalizing value with
  | zero => simp [leBytes, leNumber, Nat.mod_one]
  | succ count ih =>
    simp only [leBytes, leNumber, ih, BitVec.toNat_ofNat]
    change value % 256 + 256 * (value / 256 % 256 ^ count) = value % 256 ^ (count + 1)
    rw [Nat.pow_succ, Nat.mul_comm (256 ^ count), Nat.mod_mul]

@[simp] theorem leBytes_zero (count : Nat) : leBytes count 0 = List.replicate count 0 := by
  induction count with
  | zero => rfl
  | succ count ih => simp [leBytes, ih, List.replicate_succ]

theorem leBytes_padded (bytes : List Byte) (count : Nat) (bound : bytes.length ≤ count) :
    leBytes count (leNumber bytes) = bytes ++ List.replicate (count - bytes.length) 0 := by
  induction bytes generalizing count with
  | nil => simp [leNumber]
  | cons byte bytes ih =>
    obtain ⟨rest, rfl⟩ : ∃ rest, count = rest + 1 := ⟨count - 1, by simp only [List.length_cons] at bound; omega⟩
    simp only [List.length_cons] at bound
    have low := byte.isLt
    have quotient : (byte.toNat + 256 * leNumber bytes) / 256 = leNumber bytes := by omega
    have same : BitVec.ofNat 8 (byte.toNat + 256 * leNumber bytes) = byte := by
      apply BitVec.eq_of_toNat_eq
      simp only [BitVec.toNat_ofNat]
      omega
    simp only [leBytes, leNumber, quotient, same, ih rest (by omega), List.length_cons, List.cons_append,
      Nat.add_sub_add_right]

theorem leBytes_leNumber (bytes : List Byte) : leBytes bytes.length (leNumber bytes) = bytes := by
  rw [leBytes_padded _ _ (Nat.le_refl _), Nat.sub_self, List.replicate_zero, List.append_nil]

def load (memory : Memory) (address : Nat) : Nat → List Byte
  | 0 => []
  | count + 1 => memory address :: load memory (address + 1) count

def store (memory : Memory) (address : Nat) (bytes : List Byte) : Memory := fun at_ =>
  if address ≤ at_ then (bytes[at_ - address]?).getD (memory at_) else memory at_

@[simp] theorem load_length (memory : Memory) (address count : Nat) :
    (load memory address count).length = count := by
  induction count generalizing address with
  | zero => rfl
  | succ count ih => simp [load, ih]

theorem load_getElem? (memory : Memory) (address count i : Nat) (bound : i < count) :
    (load memory address count)[i]? = some (memory (address + i)) := by
  induction count generalizing address i with
  | zero => omega
  | succ count ih =>
    cases i with
    | zero => rfl
    | succ i =>
      simp only [load, List.getElem?_cons_succ, ih (address + 1) i (by omega)]
      congr 2
      omega

theorem load_congr {left right : Memory} {address count : Nat}
    (same : ∀ i, address ≤ i → i < address + count → left i = right i) :
    load left address count = load right address count := by
  induction count generalizing address with
  | zero => rfl
  | succ count ih =>
    simp only [load]
    rw [same address (Nat.le_refl _) (by omega), ih (fun i low high => same i (by omega) (by omega))]

theorem load_take (memory : Memory) (address part count : Nat) (bound : part ≤ count) :
    (load memory address count).take part = load memory address part := by
  induction part generalizing address count with
  | zero => simp [load]
  | succ part ih =>
    obtain ⟨rest, rfl⟩ : ∃ rest, count = rest + 1 := ⟨count - 1, by omega⟩
    simp only [load, List.take_succ_cons, ih (address + 1) rest (by omega)]

theorem load_add (memory : Memory) (address first second : Nat) :
    load memory address (first + second) = load memory address first ++ load memory (address + first) second := by
  induction first generalizing address with
  | zero => rw [Nat.zero_add, Nat.add_zero, load, List.nil_append]
  | succ first ih =>
    rw [Nat.succ_add, load, ih, load, List.cons_append, Nat.add_assoc, Nat.add_comm 1 first]

@[simp] theorem store_nil (memory : Memory) (address : Nat) : store memory address [] = memory := by
  funext i
  simp [store]

theorem store_outside (memory : Memory) (address i : Nat) (bytes : List Byte)
    (outside : i < address ∨ address + bytes.length ≤ i) : store memory address bytes i = memory i := by
  unfold store
  split
  · rw [List.getElem?_eq_none (by omega)]
    rfl
  · rfl

theorem store_inside (memory : Memory) (address i : Nat) (bytes : List Byte) (bound : i < bytes.length) :
    store memory address bytes (address + i) = bytes[i] := by
  simp [store, List.getElem?_eq_getElem bound]

theorem store_cons (memory : Memory) (address : Nat) (byte : Byte) (bytes : List Byte) :
    store (store memory address [byte]) (address + 1) bytes = store memory address (byte :: bytes) := by
  funext i
  rcases Nat.lt_trichotomy i address with below | rfl | above
  · rw [store_outside _ _ _ _ (.inl (by omega)), store_outside _ _ _ _ (.inl below),
      store_outside _ _ _ _ (.inl below)]
  · rw [store_outside _ _ _ _ (.inl (by omega))]
    simp [store]
  · obtain ⟨k, rfl⟩ : ∃ k, i = address + (k + 1) := ⟨i - address - 1, by omega⟩
    simp [store, show address + 1 ≤ address + (k + 1) by omega,
      show address + (k + 1) - (address + 1) = k by omega, show address + (k + 1) - address = k + 1 by omega]

theorem store_append (memory : Memory) (address : Nat) (first second : List Byte) :
    store (store memory address first) (address + first.length) second = store memory address (first ++ second) := by
  induction first generalizing memory address with
  | nil => rw [store_nil, List.length_nil, Nat.add_zero, List.nil_append]
  | cons byte first ih =>
    rw [← store_cons memory address byte first, List.length_cons, Nat.add_comm first.length 1, ← Nat.add_assoc,
      ih, store_cons, List.cons_append]

theorem load_store_same (memory : Memory) (address : Nat) (bytes : List Byte) :
    load (store memory address bytes) address bytes.length = bytes := by
  apply List.ext_getElem?
  intro i
  by_cases bound : i < bytes.length
  · rw [load_getElem? _ _ _ _ bound, store_inside _ _ _ _ bound, List.getElem?_eq_getElem bound]
  · rw [List.getElem?_eq_none (by simpa using bound), List.getElem?_eq_none (by omega)]

theorem load_store_disjoint (memory : Memory) (address at_ count : Nat) (bytes : List Byte)
    (disjoint : address + count ≤ at_ ∨ at_ + bytes.length ≤ address) :
    load (store memory at_ bytes) address count = load memory address count :=
  load_congr fun i _ _ => store_outside memory at_ i bytes (by omega)

theorem store_load_same (memory : Memory) (address count : Nat) :
    store memory address (load memory address count) = memory := by
  funext i
  by_cases inside : address ≤ i ∧ i < address + count
  · obtain ⟨k, rfl⟩ := Nat.exists_eq_add_of_le inside.1
    have within : k < (load memory address count).length := by
      rw [load_length]
      omega
    have cell := load_getElem? memory address count k (by omega)
    rw [List.getElem?_eq_getElem within, Option.some.injEq] at cell
    rw [store_inside _ _ _ _ within, cell]
  · rw [store_outside]
    rw [load_length]
    omega

theorem takeWhile_text (text rest : List Byte) (clean : ∀ byte ∈ text, byte ≠ 0) :
    (text ++ rest).takeWhile (· ≠ 0) = text ++ rest.takeWhile (· ≠ 0) := by
  apply List.takeWhile_append_of_pos
  intro byte member
  exact decide_eq_true (clean byte member)

/-- A C string read from a field that is longer than it. -/
theorem takeWhile_load_iff (memory : Memory) (address limit : Nat) (text : List Byte) (short : text.length < limit) :
    (load memory address limit).takeWhile (· ≠ 0) = text ↔
      load memory address text.length = text ∧ (∀ byte ∈ text, byte ≠ 0) ∧ memory (address + text.length) = 0 := by
  obtain ⟨more, room⟩ : ∃ more, limit = text.length + (more + 1) := ⟨limit - text.length - 1, by omega⟩
  have split := load_add memory address text.length (more + 1)
  rw [← room, load] at split
  constructor
  · intro found
    have clean : ∀ byte ∈ text, byte ≠ 0 := by
      intro byte member
      rw [← found] at member
      simpa using List.mem_takeWhile_imp member
    have start : load memory address text.length = text := by
      have front : text <+: load memory address limit := by
        conv_lhs => rw [← found]
        exact List.takeWhile_prefix _
      rw [← load_take memory address text.length limit (Nat.le_of_lt short)]
      exact (List.prefix_iff_eq_take.mp front).symm
    rw [start] at split
    rw [split, takeWhile_text _ _ clean, List.append_right_eq_self, List.takeWhile_cons] at found
    apply And.intro start
    apply And.intro clean
    by_contra nonzero
    simp at found
    exact nonzero found
  · intro held
    obtain ⟨start, clean, ended⟩ := held
    rw [start, ended] at split
    rw [split, takeWhile_text _ _ clean]
    simp

def number (memory : Memory) (address count : Nat) : Nat := leNumber (load memory address count)

theorem number_lt (memory : Memory) (address count : Nat) : number memory address count < 256 ^ count := by
  have same := leNumber_leBytes count (number memory address count)
  have bytes := leBytes_leNumber (load memory address count)
  rw [load_length] at bytes
  rw [number, bytes] at same
  rw [number, same]
  exact Nat.mod_lt _ (Nat.pow_pos (by decide))

def load32 (memory : Memory) (address : Nat) : Nat := number memory address 4

/-- A 32-bit store keeps the low four bytes of the value, as the cast to `uint32_t` does. -/
def store32 (memory : Memory) (address value : Nat) : Memory := store memory address (leBytes 4 value)

theorem number_store_same (memory : Memory) (address part count value : Nat) (bound : part ≤ count) :
    number (store memory address (leBytes count value)) address part = value % 256 ^ part := by
  have whole := load_store_same memory address (leBytes count value)
  rw [leBytes_length] at whole
  rw [number, ← load_take _ _ part count bound, whole, leBytes_take _ _ _ bound, leNumber_leBytes]

theorem number_store_disjoint (memory : Memory) (address at_ count : Nat) (bytes : List Byte)
    (disjoint : address + count ≤ at_ ∨ at_ + bytes.length ≤ address) :
    number (store memory at_ bytes) address count = number memory address count := by
  rw [number, load_store_disjoint _ _ _ _ _ disjoint, number]

@[simp] theorem load32_store32 (memory : Memory) (address value : Nat) :
    load32 (store32 memory address value) address = value % 2 ^ 32 :=
  number_store_same memory address 4 4 value (by decide)

theorem load32_store_disjoint (memory : Memory) (address at_ : Nat) (bytes : List Byte)
    (disjoint : address + 4 ≤ at_ ∨ at_ + bytes.length ≤ address) :
    load32 (store memory at_ bytes) address = load32 memory address :=
  number_store_disjoint memory address at_ 4 bytes disjoint

theorem load32_store32_disjoint (memory : Memory) (address at_ value : Nat)
    (disjoint : address + 4 ≤ at_ ∨ at_ + 4 ≤ address) :
    load32 (store32 memory at_ value) address = load32 memory address :=
  load32_store_disjoint memory address at_ _ (by simpa using disjoint)

theorem store32_outside (memory : Memory) (address i value : Nat) (outside : i < address ∨ address + 4 ≤ i) :
    store32 memory address value i = memory i :=
  store_outside memory address i _ (by simpa using outside)

theorem store32_load32 (memory source : Memory) (address origin i : Nat) (bound : i < 4) :
    store32 memory address (load32 source origin) (address + i) = source (origin + i) := by
  have copied : leBytes 4 (load32 source origin) = load source origin 4 := by
    have round := leBytes_leNumber (load source origin 4)
    rwa [load_length] at round
  rw [store32, copied, store_inside _ _ _ _ (by simpa using bound)]
  have cell := load_getElem? source origin 4 i bound
  rwa [List.getElem?_eq_getElem (by simpa using bound), Option.some.injEq] at cell

def Agree (left right : Memory) (low high : Nat) : Prop := ∀ i, low ≤ i → i < high → left i = right i

theorem Agree.refl (memory : Memory) (low high : Nat) : Agree memory memory low high := fun _ _ _ => rfl

theorem Agree.store {left right : Memory} {low high address : Nat} {bytes : List Byte}
    (agree : Agree left right low high) (outside : address + bytes.length ≤ low ∨ high ≤ address) :
    Agree (store left address bytes) right low high := by
  intro i above below
  rw [store_outside _ _ _ _ (by omega)]
  exact agree i above below

theorem Agree.store_both {left right : Memory} {low high : Nat} (agree : Agree left right low high)
    (address : Nat) (bytes : List Byte) :
    Agree (ByteMemory.store left address bytes) (ByteMemory.store right address bytes) low high := by
  intro i above below
  simp only [ByteMemory.store, agree i above below]

theorem Agree.load {left right : Memory} {low high address count : Nat} (agree : Agree left right low high)
    (above : low ≤ address) (below : address + count ≤ high) :
    load left address count = load right address count :=
  load_congr fun i first last => agree i (by omega) (by omega)

end ByteMemory
