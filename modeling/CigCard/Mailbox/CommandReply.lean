import CigCard.Mailbox.Command
import CigCard.Mailbox.Handshake

namespace CigCard.Mailbox

open Interaction ByteMemory

structure CommandResponse where
  flag : Nat
  status : Nat
  bytes : List Byte
  fits : 0x8008 + bytes.length ≤ interruptReg

def CommandResponse.stores (response : CommandResponse) : List (Nat × List Byte) :=
  [(0x8000, leBytes 4 response.flag), (0x8004, leBytes 4 response.bytes.length), (0x8008, response.bytes),
    (resultReg, leBytes 4 response.status)]

theorem commandStores_spare : SparesDoor CommandResponse.stores := by
  intro response piece member
  have fits := response.fits
  simp only [CommandResponse.stores, List.mem_cons, List.not_mem_nil, or_false] at member
  rcases member with rfl | rfl | rfl | rfl <;> simp [interruptReg, resultReg] at fits ⊢
  omega

structure Answered (response : CommandResponse) (memory : Memory) : Prop where
  flag : load32 memory 0x8000 = response.flag % 2 ^ 32
  length : load32 memory 0x8004 = response.bytes.length
  bytes : load memory 0x8008 response.bytes.length = response.bytes
  status : load32 memory resultReg = response.status % 2 ^ 32

theorem answered_stores (response : CommandResponse) (window : Memory) :
    Answered response (store32 (putAll window response.stores) interruptReg 0) := by
  have fits := response.fits
  simp only [interruptReg] at fits
  have unfolded : putAll window response.stores =
      store (store (store (store window 0x8000 (leBytes 4 response.flag)) 0x8004
        (leBytes 4 response.bytes.length)) 0x8008 response.bytes) resultReg (leBytes 4 response.status) := rfl
  rw [unfolded]
  refine ⟨?_, ?_, ?_, ?_⟩
  · rw [load32_store32_disjoint _ _ _ _ (by simp [interruptReg]),
      load32_store_disjoint _ _ _ _ (by simp [resultReg]), load32_store_disjoint _ _ _ _ (by simp),
      load32_store_disjoint _ _ _ _ (by simp)]
    exact number_store_same window 0x8000 4 4 response.flag (by decide)
  · rw [load32_store32_disjoint _ _ _ _ (by simp [interruptReg]),
      load32_store_disjoint _ _ _ _ (by simp [resultReg]), load32_store_disjoint _ _ _ _ (by simp)]
    have exact_ := number_store_same (store window 0x8000 (leBytes 4 response.flag)) 0x8004 4 4
      response.bytes.length (by decide)
    rwa [Nat.mod_eq_of_lt (by omega)] at exact_
  · rw [store32, load_store_disjoint _ _ _ _ _ (by simp [interruptReg]; omega),
      load_store_disjoint _ _ _ _ _ (by simp [resultReg]; omega), load_store_same]
  · rw [load32_store32_disjoint _ _ _ _ (by simp [interruptReg, resultReg])]
    exact number_store_same _ resultReg 4 4 response.status (by decide)

abbrev commandWorld : World Access Access.Answer (Card CommandResponse) := world CommandResponse.stores

/-- The part of the result that `cmd_result` holds: all of it, or the tail from the last multiple of
    the buffer length on. -/
def Copied (bytes : List Byte) (cmdResult : Memory) : Prop :=
  ∀ i, copyStart bytes.length + i < bytes.length → bytes[copyStart bytes.length + i]? = some (cmdResult i)

structure Replied (rings : List Ring) (job : Job CommandResponse) (card : Card CommandResponse) : Prop where
  rings : card.rings = rings
  quiet : card.Quiet
  served : job ∈ card.served
  answered : Answered job.response card.memory

variable {rings : List Ring} {job : Job CommandResponse}

theorem Replied.stable : Stable commandWorld (Replied rings job) :=
  fun _ _ replied moved => absurd moved replied.quiet.stuck

theorem Replied.hostLoad {card : Card CommandResponse} (replied : Replied rings job card) (addr : Nat) :
    Replied rings job (card.hostLoad addr) := by
  refine ⟨by simp [replied.rings], ?_, by simp [replied.served], by simpa using replied.answered⟩
  simpa [Card.Quiet] using replied.quiet

def anything : Access → Card CommandResponse → Prop := fun _ _ => True

/-- The copy loop keeps `cursor = start + bufCursor` and the buffer equal to the result below `bufCursor`. -/
theorem copyResult_triple (rounds cursor bufCursor : Nat) (cmdResult : Memory)
    (position : cursor = copyStart job.response.bytes.length + bufCursor)
    (copied : ∀ i < bufCursor, cursor - bufCursor + i < job.response.bytes.length →
      job.response.bytes[cursor - bufCursor + i]? = some (cmdResult i)) :
    Triple commandWorld anything (Replied rings job)
      (copyResult job.response.bytes.length rounds cursor bufCursor cmdResult) (fun out s =>
        Replied rings job s ∧ out.1 ≠ .timeout ∧ (out.1 = .ok → Copied job.response.bytes out.2)) := by
  have fits := job.response.fits
  simp only [interruptReg] at fits
  induction rounds generalizing cursor bufCursor cmdResult with
  | zero => exact .pure Replied.stable fun s replied => ⟨replied, by simp, by simp⟩
  | succ rounds ih =>
    unfold copyResult
    by_cases more : cursor < job.response.bytes.length
    · rw [if_pos more, Nat.mod_eq_of_lt (by omega), Nat.mod_eq_of_lt (by omega), Nat.mod_eq_of_lt (by omega)]
      refine Triple.perform_bind (fun word s => Replied rings job s ∧ word = load32 s.memory (0x8008 + cursor))
        Replied.stable (fun _ _ => trivial) ?_ ?_
      · intro s word t replied acted
        obtain ⟨rfl, rfl⟩ := acted
        exact ⟨replied.hostLoad _, by simp⟩
      · intro word state both
        obtain ⟨replied, fetched⟩ := both
        refine ih (cursor + 4) (bufCursor + 4) _ (by omega) ?_ state replied
        intro i below inside
        rw [show cursor + 4 - (bufCursor + 4) = cursor - bufCursor by omega] at inside ⊢
        by_cases old : i < bufCursor
        · rw [store32_outside _ _ _ _ (.inl old)]
          exact copied i old inside
        · obtain ⟨k, rfl⟩ : ∃ k, i = bufCursor + k := ⟨i - bufCursor, by omega⟩
          have place : cursor - bufCursor + (bufCursor + k) = cursor + k := by omega
          rw [place] at inside ⊢
          have cell := load_getElem? state.memory 0x8008 _ _ inside
          rw [replied.answered.bytes] at cell
          rw [cell, fetched, store32_load32 _ _ _ _ _ (by omega)]
          congr 2
          omega
    · rw [if_neg more]
      refine .pure Replied.stable fun s replied => ⟨replied, by simp, fun _ i inside => ?_⟩
      have start : cursor - bufCursor = copyStart job.response.bytes.length := by omega
      rw [start] at copied
      exact copied i (by omega) inside

theorem readResult_triple (rounds : Nat) (cmdResult : Memory) :
    Triple commandWorld anything (Replied rings job) (readResult rounds cmdResult) (fun out s =>
      Replied rings job s ∧ out.1 ≠ .timeout ∧ (out.1 = .ok → Copied job.response.bytes out.2)) := by
  have reads : ∀ (addr : Nat) (s : Card CommandResponse) (word : Nat) (t : Card CommandResponse),
      Replied rings job s → Act (.load32 addr) s word t → Replied rings job t ∧ word = load32 t.memory addr := by
    intro addr s word t replied acted
    obtain ⟨rfl, rfl⟩ := acted
    exact ⟨replied.hostLoad _, by simp⟩
  have stops : ∀ exit : Exit, exit ≠ .timeout → exit ≠ .ok → Triple commandWorld anything (Replied rings job)
      (.pure (exit, cmdResult)) (fun out s =>
        Replied rings job s ∧ out.1 ≠ .timeout ∧ (out.1 = .ok → Copied job.response.bytes out.2)) :=
    fun exit late failed => .pure Replied.stable fun s replied => ⟨replied, late, fun done => absurd done failed⟩
  refine Triple.perform_bind (fun _ => Replied rings job) Replied.stable (fun _ _ => trivial)
    (fun s word t replied acted => (reads _ s word t replied acted).1) fun status => ?_
  split
  · exact stops .resultError (by decide) (by decide)
  · refine Triple.perform_bind (fun _ => Replied rings job) Replied.stable (fun _ _ => trivial)
      (fun s word t replied acted => (reads _ s word t replied acted).1) fun flag => ?_
    split
    · exact stops .flagError (by decide) (by decide)
    · refine Triple.perform_bind (fun length s => Replied rings job s ∧ length = load32 s.memory 0x8004)
        Replied.stable (fun _ _ => trivial) (reads _) fun length => ?_
      intro state both
      obtain ⟨replied, fetched⟩ := both
      rw [replied.answered.length] at fetched
      subst fetched
      exact copyResult_triple rounds _ 0 _ (by omega) (by omega) state replied

end CigCard.Mailbox
