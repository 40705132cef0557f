import CigCard.Mailbox.Command
import CigCard.Interaction.RelyGuarantee

namespace CigCard.Mailbox

open Interaction ByteMemory

/-- The host's accesses to the mapped window itself, with no record of what the A53 has in hand. -/
def WindowAct : (access : Access) → Memory → access.Answer → Memory → Prop
  | .load32 addr, before, value, after => value = load32 before addr ∧ after = before
  | .store32 addr value, before, _, after => after = store32 before addr value
  | .store8 addr byte, before, _, after => after = store before addr [byte]

def window (env : Memory → Memory → Prop) : World Access Access.Answer Memory where
  act := WindowAct
  env := env

/-- The A53 leaves everything below the interrupt register alone. -/
def KeepsOut (before after : Memory) : Prop := Agree after before 0 interruptReg

/-- While the interrupt register is up the A53 may change anything, and once it is down nothing. -/
def Driven (before _ : Memory) : Prop := load32 before interruptReg ≠ 0

theorem window_total (env : Memory → Memory → Prop) : (window env).Total := by
  intro access memory
  cases access with
  | load32 addr => exact ⟨load32 memory addr, memory, rfl, rfl⟩
  | store32 addr value => exact ⟨(), store32 memory addr value, rfl⟩
  | store8 addr byte => exact ⟨(), store memory addr [byte], rfl⟩

theorem xdmaRegRead_passes {α : Type} (env : Memory → Memory → Prop) (memory : Memory) (addr : Nat) (next : Nat → Host α) :
    Runs (window env) ((xdmaRegRead addr).bind next, memory) (next (load32 memory addr), memory) := by
  have acted : WindowAct (.load32 addr) memory (load32 memory addr) memory := ⟨rfl, rfl⟩
  exact Runs.act acted

/-- The bytes that `writeWords` stores: the text and the zeros that fill its last word. -/
def padded (bytes : List Byte) : List Byte := bytes ++ List.replicate ((4 - bytes.length % 4) % 4) 0

theorem padded_length (bytes : List Byte) : (padded bytes).length = bytes.length + (4 - bytes.length % 4) % 4 := by
  simp [padded]

theorem padded_word (b0 b1 b2 b3 : Byte) (rest : List Byte) :
    padded (b0 :: b1 :: b2 :: b3 :: rest) = leBytes 4 (leNumber [b0, b1, b2, b3]) ++ padded rest := by
  have word : leBytes 4 (leNumber [b0, b1, b2, b3]) = [b0, b1, b2, b3] := leBytes_leNumber [b0, b1, b2, b3]
  have cut : (rest.length + 1 + 1 + 1 + 1) % 4 = rest.length % 4 := by omega
  simp only [padded, word, List.length_cons, cut, List.cons_append, List.nil_append]

theorem padded_short (bytes : List Byte) (nonempty : bytes ≠ []) (short : bytes.length < 4) :
    padded bytes = leBytes 4 (leNumber bytes) := by
  have positive : 0 < bytes.length := List.length_pos_iff.mpr nonempty
  have fill : (4 - bytes.length % 4) % 4 = 4 - bytes.length := by omega
  rw [leBytes_padded _ _ (Nat.le_of_lt short), padded, fill]

theorem length_lt_four {bytes : List Byte}
    (short : ∀ b0 b1 b2 b3 rest, bytes = b0 :: b1 :: b2 :: b3 :: rest → False) : bytes.length < 4 := by
  rcases bytes with _ | ⟨b0, _ | ⟨b1, _ | ⟨b2, _ | ⟨b3, rest⟩⟩⟩⟩
  · simp
  · simp
  · simp
  · simp
  · exact absurd rfl (short b0 b1 b2 b3 rest)

theorem padded_fits {address limit : Nat} (bytes : List Byte) (fits : address + bytes.length ≤ limit)
    (aligned : address % 4 = 0) (whole : limit % 4 = 0) : address + (padded bytes).length ≤ limit := by
  rw [padded_length]
  omega

def Holding (target memory : Memory) : Prop := Agree memory target 0 interruptReg

variable {target : Memory} {access : Access} {goal : Memory → Prop} {α : Type} {post : α → Memory → Prop}

theorem Holding.stable : Stable (window KeepsOut) (Holding target) := by
  intro before after holding kept i low high
  exact (kept i low high).trans (holding i low high)

theorem Holding.of_above {memory : Memory} {addr value : Nat} (holding : Holding (store32 target addr value) memory)
    (above : interruptReg ≤ addr) : Holding target memory := by
  intro i low high
  rw [holding i low high, store32_outside _ _ _ _ (.inl (by omega))]

theorem xdmaRegWrite_holding (addr value : Nat) (elsewhere : Access.store32 addr value ≠ access) {next : Unit → Host α}
    (continues : Triple (window KeepsOut) (Watch access goal) (Holding (store32 target addr value)) (next ()) post) :
    Triple (window KeepsOut) (Watch access goal) (Holding target) ((xdmaRegWrite addr value).bind next) post := by
  apply Triple.perform_bind (fun _ => Holding (store32 target addr value)) Holding.stable
  · exact fun _ _ same => absurd same elsewhere
  · intro memory answer after holding acted
    obtain rfl := acted
    exact Agree.store_both holding addr (leBytes 4 value)
  · exact fun _ => continues

theorem writeWords_holding (base cursor : Nat) (bytes : List Byte)
    (elsewhere : ∀ addr value, addr + 4 ≤ cursor + base + (padded bytes).length → Access.store32 addr value ≠ access)
    {next : Unit → Host α}
    (continues : Triple (window KeepsOut) (Watch access goal)
      (Holding (store target (cursor + base) (padded bytes))) (next ()) post) :
    Triple (window KeepsOut) (Watch access goal) (Holding target) ((writeWords base cursor bytes).bind next) post := by
  induction cursor, bytes using writeWords.induct generalizing target with
  | case1 cursor =>
    rwa [padded, List.length_nil, List.nil_append, List.replicate_zero, store_nil] at continues
  | case2 cursor b0 b1 b2 b3 rest ih =>
    rw [padded_word, List.length_append, leBytes_length] at elsewhere
    rw [padded_word, ← store_append, leBytes_length] at continues
    rw [writeWords, Program.bind_eq, Program.bind_assoc]
    apply xdmaRegWrite_holding _ _ (elsewhere _ _ (by omega))
    apply ih
    · exact fun addr value below => elsewhere addr value (by omega)
    · rwa [Nat.add_right_comm cursor 4 base]
  | case3 cursor rest nonempty short =>
    rw [padded_short rest nonempty (length_lt_four short)] at elsewhere continues
    rw [leBytes_length] at elsewhere
    rw [writeWords.eq_3 base cursor rest nonempty short]
    exact xdmaRegWrite_holding _ _ (elsewhere _ _ (Nat.le_refl _)) continues

end CigCard.Mailbox
