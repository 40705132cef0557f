import CigCard.Mailbox.Window

namespace CigCard.Mailbox

open Interaction ByteMemory

def mapSize : Nat := 1024 * 1024

def Access.InMap : Access → Prop
  | .load32 addr | .store32 addr _ => addr + 4 ≤ mapSize
  | .store8 addr _ => addr < mapSize

def copyLoop (resultLength rounds : Nat) (cmdResult : Memory) : Host (Exit × Memory) :=
  copyResult resultLength rounds (copyStart resultLength) 0 cmdResult

structure CopySafe (resultLength : BitVec 32) : Prop where
  ends : ∃ rounds, ∀ cmdResult, (copyLoop resultLength.toNat rounds cmdResult).Leaves fun out => out.1 ≠ .copying
  writes : ∀ rounds cmdResult, (copyLoop resultLength.toNat rounds cmdResult).Leaves fun out =>
    ∀ i, resultBufLength ≤ i → out.2 i = cmdResult i
  reads : ∀ rounds cmdResult, (copyLoop resultLength.toNat rounds cmdResult).Only Access.InMap

/-- Nothing to copy, a result inside the window, or a length so close to 2^32 that every read address
    wraps round to the start of the window. -/
def CopyFits (resultLength : Nat) : Prop :=
  resultLength % resultBufLength = 0 ∨ 0x8008 + resultLength ≤ mapSize ∨
    (2 ^ 32 - 0x8000 ≤ resultLength - resultLength % resultBufLength ∧ resultLength < 2 ^ 32 - 3)

theorem copyStart_eq (resultLength : Nat) : copyStart resultLength = resultLength - resultLength % resultBufLength := by
  unfold copyStart
  split
  · rw [Nat.mod_eq_of_lt ‹_›, Nat.sub_self]
  · rfl

theorem copyStart_le (resultLength : Nat) : copyStart resultLength ≤ resultLength := by
  rw [copyStart_eq]
  exact Nat.sub_le _ _

theorem copyStart_aligned (resultLength : Nat) : copyStart resultLength % resultBufLength = 0 := by
  rw [copyStart_eq]
  simp only [resultBufLength]
  omega

section
variable {resultLength rounds cursor bufCursor : Nat} {cmdResult : Memory}

theorem copyResult_next (more : cursor < resultLength) (room : cursor + 4 < 2 ^ 32) (roomBuf : bufCursor + 4 < 2 ^ 32) :
    copyResult resultLength (rounds + 1) cursor bufCursor cmdResult =
      (xdmaRegRead ((0x8008 + cursor) % 2 ^ 32)).bind fun word =>
        copyResult resultLength rounds (cursor + 4) (bufCursor + 4) (store32 cmdResult bufCursor word) := by
  rw [copyResult, if_pos more, Nat.mod_eq_of_lt room, Nat.mod_eq_of_lt roomBuf, Program.bind_eq]

theorem copyResult_done (last : resultLength ≤ cursor) :
    copyResult resultLength (rounds + 1) cursor bufCursor cmdResult = .pure (.ok, cmdResult) := by
  rw [copyResult, if_neg (Nat.not_lt.mpr last)]
  rfl

structure Paced (resultLength cursor bufCursor : Nat) : Prop where
  position : cursor = copyStart resultLength + bufCursor
  aligned : bufCursor % 4 = 0
  short : resultLength < 2 ^ 32 - 3

theorem Paced.first (short : resultLength < 2 ^ 32 - 3) : Paced resultLength (copyStart resultLength) 0 :=
  ⟨rfl, rfl, short⟩

theorem Paced.next (paced : Paced resultLength cursor bufCursor) : Paced resultLength (cursor + 4) (bufCursor + 4) := by
  obtain ⟨position, aligned, short⟩ := paced
  exact ⟨by omega, by omega, short⟩

theorem Paced.room (paced : Paced resultLength cursor bufCursor) (more : cursor < resultLength) :
    cursor + 4 < 2 ^ 32 ∧ bufCursor + 4 ≤ resultBufLength := by
  obtain ⟨position, aligned, short⟩ := paced
  have start := copyStart_eq resultLength
  simp only [resultBufLength] at start ⊢
  omega

theorem Paced.next_eq (paced : Paced resultLength cursor bufCursor) (more : cursor < resultLength) :
    copyResult resultLength (rounds + 1) cursor bufCursor cmdResult =
      (xdmaRegRead ((0x8008 + cursor) % 2 ^ 32)).bind fun word =>
        copyResult resultLength rounds (cursor + 4) (bufCursor + 4) (store32 cmdResult bufCursor word) := by
  obtain ⟨room, inside⟩ := paced.room more
  simp only [resultBufLength] at inside
  exact copyResult_next more room (by omega)

theorem Paced.ends (paced : Paced resultLength cursor bufCursor) (enough : resultLength - cursor < rounds) :
    (copyResult resultLength rounds cursor bufCursor cmdResult).Leaves fun out => out.1 ≠ .copying := by
  induction rounds generalizing cursor bufCursor cmdResult with
  | zero => omega
  | succ rounds ih =>
    by_cases more : cursor < resultLength
    · rw [paced.next_eq more]
      exact .skip fun word => ih paced.next (by omega)
    · rw [copyResult_done (Nat.not_lt.mp more)]
      exact fun same => by cases same

theorem Paced.writes (paced : Paced resultLength cursor bufCursor) :
    (copyResult resultLength rounds cursor bufCursor cmdResult).Leaves fun out =>
      ∀ i, resultBufLength ≤ i → out.2 i = cmdResult i := by
  induction rounds generalizing cursor bufCursor cmdResult with
  | zero => exact fun i _ => rfl
  | succ rounds ih =>
    by_cases more : cursor < resultLength
    · rw [paced.next_eq more]
      obtain ⟨-, inside⟩ := paced.room more
      intro word
      apply (ih paced.next).mono
      intro out kept i above
      rw [kept i above, store32_outside _ _ _ _ (.inr (by omega))]
    · rw [copyResult_done (Nat.not_lt.mp more)]
      exact fun i _ => rfl

theorem Paced.reads (paced : Paced resultLength cursor bufCursor)
    (inside : ∀ i, cursor ≤ i → i < resultLength → i % 4 = 0 → (0x8008 + i) % 2 ^ 32 + 4 ≤ mapSize) :
    (copyResult resultLength rounds cursor bufCursor cmdResult).Only Access.InMap := by
  induction rounds generalizing cursor bufCursor cmdResult with
  | zero => exact .pure _ _
  | succ rounds ih =>
    by_cases more : cursor < resultLength
    · rw [paced.next_eq more]
      have start := copyStart_aligned resultLength
      obtain ⟨position, aligned, short⟩ := paced
      simp only [resultBufLength] at start
      have here := inside cursor (Nat.le_refl _) more (by omega)
      exact .bind (.perform here) fun word =>
        ih (Paced.next ⟨position, aligned, short⟩) fun i above => inside i (by omega)
    · rw [copyResult_done (Nat.not_lt.mp more)]
      exact .pure _ _

theorem Paced.reads_all (paced : Paced resultLength cursor bufCursor) (k : Nat)
    (only : (copyResult resultLength (k + 1) cursor bufCursor cmdResult).Only Access.InMap)
    (more : cursor + 4 * k < resultLength) : (0x8008 + (cursor + 4 * k)) % 2 ^ 32 + 4 ≤ mapSize := by
  induction k generalizing cursor bufCursor cmdResult with
  | zero =>
    rw [paced.next_eq (by omega)] at only
    exact only.1
  | succ k ih =>
    rw [paced.next_eq (by omega)] at only
    have rest := ih paced.next (only.2 0) (by omega)
    rwa [show cursor + 4 + 4 * k = cursor + 4 * (k + 1) by omega] at rest

/-- Within three of 2^32 `cursor` wraps to zero before it gets there. -/
theorem copyResult_forever (huge : 2 ^ 32 - 3 ≤ resultLength) (aligned : cursor % 4 = 0) (small : cursor < 2 ^ 32) :
    (copyResult resultLength rounds cursor bufCursor cmdResult).Leaves fun out => out.1 = .copying := by
  induction rounds generalizing cursor bufCursor cmdResult with
  | zero => exact rfl
  | succ rounds ih =>
    rw [copyResult, if_pos (by omega), Program.bind_eq]
    exact .skip fun word => ih (by omega) (Nat.mod_lt _ (by decide))

end

theorem CopyFits.short {resultLength : Nat} (fits : CopyFits resultLength) (small : resultLength < 2 ^ 32) :
    resultLength < 2 ^ 32 - 3 := by
  simp only [CopyFits, resultBufLength, mapSize] at fits
  omega

theorem CopyFits.inside {resultLength : Nat} (fits : CopyFits resultLength) (i : Nat) (above : copyStart resultLength ≤ i)
    (below : i < resultLength) (aligned : i % 4 = 0) : (0x8008 + i) % 2 ^ 32 + 4 ≤ mapSize := by
  rw [copyStart_eq] at above
  simp only [CopyFits, resultBufLength, mapSize] at fits above ⊢
  omega

theorem CopyFits.safe {resultLength : BitVec 32} (fits : CopyFits resultLength.toNat) : CopySafe resultLength where
  ends := ⟨resultLength.toNat + 1, fun _ => (Paced.first (fits.short resultLength.isLt)).ends (by omega)⟩
  writes := fun _ _ => (Paced.first (fits.short resultLength.isLt)).writes
  reads := fun _ _ => (Paced.first (fits.short resultLength.isLt)).reads fits.inside

theorem CopySafe.short {resultLength : BitVec 32} (safe : CopySafe resultLength) : resultLength.toNat < 2 ^ 32 - 3 := by
  obtain ⟨rounds, ends⟩ := safe.ends
  by_contra huge
  have start := copyStart_aligned resultLength.toNat
  have below := copyStart_le resultLength.toNat
  have small := resultLength.isLt
  simp only [resultBufLength] at start
  have forever : (copyLoop resultLength.toNat rounds (fun _ => 0)).Leaves fun out => out.1 = .copying :=
    copyResult_forever (Nat.not_lt.mp huge) (by omega) (by omega)
  exact Program.Leaves.clash forever (ends fun _ => 0) fun out copying done => done copying

theorem CopySafe.fits {resultLength : BitVec 32} (safe : CopySafe resultLength) : CopyFits resultLength.toNat := by
  have short := safe.short
  have start := copyStart_eq resultLength.toNat
  have read := fun k => (Paced.first short).reads_all k (safe.reads (k + 1) (fun _ => 0))
  have first := read 0
  have last := read ((resultLength.toNat % resultBufLength - 1) / 4)
  simp only [CopyFits, resultBufLength, mapSize] at *
  omega

/-- The copy loop ends, and stays inside `cmd_result` and the window, for exactly these lengths. -/
theorem copy_safe_iff (resultLength : BitVec 32) : CopySafe resultLength ↔ CopyFits resultLength.toNat :=
  ⟨CopySafe.fits, CopyFits.safe⟩

theorem longest_copy_unsafe : ¬ CopySafe 0xffffffff := by
  intro safe
  exact absurd safe.short (by decide)

end CigCard.Mailbox
