import CigCard.Video.FrameRun

namespace CigCard.Video

open Interaction ByteMemory

variable {globals : Globals} {fpga : Fpga}

theorem bufferAddr_mod (addr slot : Nat) : bufferAddr addr (slot % 3) = bufferAddr addr slot := by
  simp only [bufferAddr, Nat.mod_mod]

theorem content_mod (globals : Globals) (fpga : Fpga) (slot : Nat) :
    fpga.content globals (slot % 3) = fpga.content globals slot := by
  simp only [Fpga.content, bufferAddr_mod]

theorem inBuffer_apart (fits : globals.size ≤ bufAddrStep) {first second address : Nat}
    (different : first % 3 ≠ second % 3) (inside : globals.InBuffer first address) :
    ¬ globals.InBuffer second address := by
  obtain ⟨low, high⟩ := inside
  intro other
  obtain ⟨low', high'⟩ := other
  simp only [bufferAddr, bufAddrStep] at *
  omega

/-- Host and FPGA agree: the frames shown are the first ones published, in order and with the content
    that was published, and those not yet shown are still in their buffers. -/
structure Tally (globals : Globals) (fpga : Fpga) : Prop where
  next : fpga.next = fpga.consumed.length % 3
  total : fpga.published.length = fpga.consumed.length + fpga.filled
  full : fpga.filled ≤ 3
  shown : ∀ k, k < fpga.consumed.length →
    fpga.consumed[k]? = fpga.published[k]?.map fun frame => (k % 3, frame.content)
  waiting : ∀ k frame, fpga.consumed.length ≤ k → fpga.published[k]? = some frame →
    fpga.content globals k = frame.content

namespace Tally

theorem nextToFill (tally : Tally globals fpga) : fpga.nextToFill = fpga.published.length % 3 := by
  simp only [Fpga.nextToFill, tally.next, tally.total]
  omega

theorem consume (tally : Tally globals fpga) (filled : 0 < fpga.filled) :
    Tally globals (fpga.consume globals) := by
  have total := tally.total
  have full := tally.full
  constructor
  · simp only [Fpga.consume, List.length_append, List.length_singleton, tally.next]
    omega
  · simp only [Fpga.consume, List.length_append, List.length_singleton]
    omega
  · simp only [Fpga.consume]
    omega
  · intro k bound
    simp only [Fpga.consume, List.length_append, List.length_singleton] at bound ⊢
    by_cases earlier : k < fpga.consumed.length
    · rw [List.getElem?_append_left earlier]
      exact tally.shown k earlier
    · have last : k = fpga.consumed.length := by omega
      subst last
      have inside : fpga.consumed.length < fpga.published.length := by omega
      have entry := List.getElem?_eq_getElem inside
      have kept := tally.waiting _ _ (Nat.le_refl _) entry
      rw [List.getElem?_concat_length, entry, tally.next, content_mod, kept]
      rfl
  · intro k frame late entry
    simp only [Fpga.consume, List.length_append, List.length_singleton] at late
    exact tally.waiting k frame (by omega) entry

theorem publish (tally : Tally globals fpga) (room : fpga.filled < 3) : Tally globals (fpga.publish globals) := by
  have total := tally.total
  constructor
  · exact tally.next
  · simp only [Fpga.publish, List.length_append, List.length_singleton]
    omega
  · exact room
  · intro k shown
    change k < fpga.consumed.length at shown
    have earlier : k < fpga.published.length := by omega
    simp only [Fpga.publish]
    rw [List.getElem?_append_left earlier]
    exact tally.shown k shown
  · intro k frame late entry
    simp only [Fpga.publish] at entry
    by_cases earlier : k < fpga.published.length
    · rw [List.getElem?_append_left earlier] at entry
      exact tally.waiting k frame late entry
    · have bound := (List.getElem?_eq_some_iff.mp entry).1
      simp only [List.length_append, List.length_singleton] at bound
      have last : k = fpga.published.length := by omega
      subst last
      rw [List.getElem?_concat_length, tally.nextToFill, content_mod] at entry
      cases entry
      rfl

theorem sent (tally : Tally globals fpga) (fits : globals.size ≤ bufAddrStep) (room : fpga.filled < 3)
    {memory : Memory} {address count : Nat} (confined : fpga.Confined memory address count)
    (inside : ∀ i, address ≤ i → i < address + count → globals.InBuffer fpga.published.length i)
    (position : Nat) (pieces : List Piece) : Tally globals (fpga.sent memory position pieces) := by
  have total := tally.total
  refine ⟨tally.next, tally.total, tally.full, tally.shown, ?_⟩
  intro k frame late entry
  have bound := (List.getElem?_eq_some_iff.mp entry).1
  change k < fpga.published.length at bound
  change fpga.consumed.length ≤ k at late
  rw [← tally.waiting k frame late entry]
  apply load_congr
  intro i low high
  apply confined
  by_contra touched
  have different : fpga.published.length % 3 ≠ k % 3 := by omega
  exact inBuffer_apart fits different (inside i (by omega) (by omega)) ⟨low, high⟩

end Tally

def Level (globals : Globals) (sendCount : Nat) (fpga : Fpga) : Prop :=
  Tally globals fpga ∧ fpga.published.length = sendCount

def Room (globals : Globals) (sendCount : Nat) (fpga : Fpga) : Prop :=
  Level globals sendCount fpga ∧ fpga.filled < 3

theorem Level.stable (sendCount : Nat) : Stable (fpgaWorld globals) (Level globals sendCount) := by
  intro before after level moved
  cases moved with
  | consume filled => exact ⟨level.1.consume filled, level.2⟩

theorem Room.stable (sendCount : Nat) : Stable (fpgaWorld globals) (Room globals sendCount) := by
  intro before after room moved
  cases moved with
  | consume filled =>
    have below := room.2
    refine ⟨⟨room.1.1.consume filled, room.1.2⟩, ?_⟩
    simp only [Fpga.consume]
    omega

theorem Room.sent {sendCount : Nat} (room : Room globals sendCount fpga) (fits : globals.size ≤ bufAddrStep)
    {memory : Memory} {address count : Nat} (confined : fpga.Confined memory address count)
    (low : bufferAddr globals.addr sendCount ≤ address)
    (high : address + count ≤ bufferAddr globals.addr sendCount + globals.size)
    (position : Nat) (pieces : List Piece) : Room globals sendCount (fpga.sent memory position pieces) := by
  obtain ⟨⟨tally, rfl⟩, below⟩ := room
  refine ⟨⟨tally.sent fits below confined (fun i from_ upTo => ⟨?_, ?_⟩) position pieces, rfl⟩, below⟩ <;> omega

def Fpga.Touches (fpga : Fpga) : Call → Nat → Prop
  | .write bytes, address => fpga.position ≤ address ∧ address < fpga.position + bytes.length
  | .apertureWrite bytes epAddr _, address => epAddr ≤ address ∧ address < epAddr + bytes.length
  | _, _ => False

def Fpga.Free (globals : Globals) (fpga : Fpga) (address : Nat) : Prop :=
  globals.InBuffer fpga.nextToFill address ∧ ∀ k < fpga.filled, ¬ globals.InBuffer (fpga.next + k) address

structure InStep (globals : Globals) (call : Call) (fpga : Fpga) : Prop where
  tally : Tally globals fpga
  free : ∀ address, fpga.Touches call address → fpga.Free globals address
  numbered : ∀ sendCount, call = .printSeq sendCount → sendCount % 3 = fpga.nextToFill

theorem Room.free {sendCount : Nat} (room : Room globals sendCount fpga) (fits : globals.size ≤ bufAddrStep)
    {address : Nat} (inside : globals.InBuffer sendCount address) : fpga.Free globals address := by
  obtain ⟨⟨tally, rfl⟩, below⟩ := room
  have total := tally.total
  have next := tally.next
  constructor
  · rw [tally.nextToFill]
    simpa only [Globals.InBuffer, bufferAddr_mod] using inside
  · intro k filled
    apply inBuffer_apart fits _ inside
    omega

theorem Level.inStep {sendCount : Nat} (level : Level globals sendCount fpga) {call : Call}
    (quiet : ∀ address, ¬ fpga.Touches call address)
    (numbered : ∀ number, call = .printSeq number → number = sendCount) : InStep globals call fpga := by
  refine ⟨level.1, fun address touched => absurd touched (quiet address), ?_⟩
  intro number printed
  rw [numbered number printed, level.1.nextToFill, level.2]

theorem Room.inStep {sendCount : Nat} (room : Room globals sendCount fpga) (fits : globals.size ≤ bufAddrStep)
    {call : Call} (touched : ∀ address, fpga.Touches call address → globals.InBuffer sendCount address)
    (silent : ∀ number, call ≠ .printSeq number) : InStep globals call fpga :=
  ⟨room.1.1, fun address there => room.free fits (touched address there),
    fun number printed => absurd printed (silent number)⟩

section
variable {sendCount : Nat}

end

structure Fpga.Empty (fpga : Fpga) : Prop where
  next : fpga.next = 0
  filled : fpga.filled = 0
  published : fpga.published = []
  consumed : fpga.consumed = []

theorem Fpga.Empty.level (empty : fpga.Empty) : Level globals 0 fpga := by
  refine ⟨⟨?_, ?_, ?_, ?_, ?_⟩, ?_⟩ <;> simp [empty.next, empty.filled, empty.published, empty.consumed]

def dark : Memory := fun _ => 0

end CigCard.Video
