import CigCard.Video.TripleBuffer

namespace CigCard.Video

open Interaction ByteMemory

def Piece.Straight (piece : Piece) : Prop := ∀ i < piece.bytes.length, piece.spot i = i

def Consecutive : Nat → List Piece → Prop
  | _, [] => True
  | address, piece :: pieces =>
    piece.address = address ∧ piece.Straight ∧ Consecutive (address + piece.bytes.length) pieces

def carriedBytes (pieces : List Piece) : List Byte := pieces.flatMap Piece.bytes

def Complete (pieces : List Piece) : Prop := ∀ piece ∈ pieces, piece.bytes.length = piece.asked

/-- What is asked for fits the aperture, and no transfer begins at an offset that the mask changes. -/
def Piece.Fits (piece : Piece) : Prop :=
  piece.aperture = 0 ∨ piece.asked ≤ piece.aperture ∧
    ∀ i < piece.asked, piece.began i &&& (piece.aperture - 1) = piece.began i

def Fit (pieces : List Piece) : Prop := ∀ piece ∈ pieces, piece.Fits

/-- The whole frame has been written to the buffer of the call, from its first byte on. -/
structure Attempt.Whole (globals : Globals) (attempt : Attempt) : Prop where
  placed : Consecutive (bufferAddr globals.addr attempt.sendCount) attempt.pieces
  carried : carriedBytes attempt.pieces = load attempt.buffer 0 globals.size

theorem Piece.written_straight (address asked : Nat) (bytes : List Byte) : (Piece.written address asked bytes).Straight := by
  intro i inside
  simp [Piece.spot, Piece.written, apertureSpot]

theorem carriedBytes_snoc (pieces : List Piece) (piece : Piece) :
    carriedBytes (pieces ++ [piece]) = carriedBytes pieces ++ piece.bytes := by
  simp [carriedBytes]

theorem Consecutive.snoc_iff {address : Nat} {pieces : List Piece} {piece : Piece} :
    Consecutive address (pieces ++ [piece]) ↔ Consecutive address pieces ∧
      piece.address = address + (carriedBytes pieces).length ∧ piece.Straight := by
  induction pieces generalizing address with
  | nil => simp [Consecutive, carriedBytes]
  | cons first pieces ih =>
    have length : (carriedBytes (first :: pieces)).length = first.bytes.length + (carriedBytes pieces).length := by
      simp [carriedBytes]
    simp only [List.cons_append, Consecutive, ih, length, Nat.add_assoc, and_assoc]

theorem Complete.snoc {pieces : List Piece} (complete : Complete pieces) {piece : Piece}
    (whole : piece.bytes.length = piece.asked) : Complete (pieces ++ [piece]) := by
  intro other member
  rcases List.mem_append.mp member with before | last
  · exact complete other before
  · rw [List.mem_singleton.mp last]
    exact whole

theorem Fit.snoc {pieces : List Piece} (fit : Fit pieces) {piece : Piece} (fits : piece.Fits) :
    Fit (pieces ++ [piece]) := by
  intro other member
  rcases List.mem_append.mp member with before | last
  · exact fit other before
  · rw [List.mem_singleton.mp last]
    exact fits

variable {globals : Globals} {fpga : Fpga}

def Judged (globals : Globals) (attempt : Attempt) : Prop :=
  attempt.Whole globals ↔ Complete attempt.pieces ∧ Fit attempt.pieces

def Accounted (globals : Globals) (fpga : Fpga) : Prop := ∀ frame ∈ fpga.published, Judged globals frame.attempt

structure Filling (globals : Globals) (buffer : Memory) (sendCount count : Nat) (attempt : Attempt) : Prop where
  frame : attempt.buffer = buffer
  number : attempt.sendCount = sendCount
  placed : Consecutive (bufferAddr globals.addr sendCount) attempt.pieces
  complete : Complete attempt.pieces
  fit : Fit attempt.pieces
  carried : carriedBytes attempt.pieces = load buffer 0 count

namespace Filling

variable {buffer : Memory} {sendCount count : Nat} {attempt : Attempt}

theorem start (globals : Globals) (buffer : Memory) (sendCount : Nat) :
    Filling globals buffer sendCount 0 ⟨buffer, sendCount, []⟩ :=
  ⟨rfl, rfl, trivial, by simp [Complete], by simp [Fit], rfl⟩

theorem finish (filling : Filling globals buffer sendCount globals.size attempt) : Judged globals attempt := by
  obtain ⟨rfl, rfl, placed, complete, fit, carried⟩ := filling
  exact ⟨fun _ => ⟨complete, fit⟩, fun _ => ⟨placed, carried⟩⟩

theorem whole (filling : Filling globals buffer sendCount count attempt) (bytes : Nat) :
    Filling globals buffer sendCount (count + bytes)
      { attempt with pieces := attempt.pieces ++
        [.written (bufferAddr globals.addr sendCount + count) bytes (load buffer count bytes)] } := by
  obtain ⟨rfl, rfl, placed, complete, fit, carried⟩ := filling
  refine ⟨rfl, rfl, Consecutive.snoc_iff.mpr ⟨placed, ?_, Piece.written_straight _ _ _⟩, complete.snoc ?_,
    fit.snoc (.inl rfl), ?_⟩
  · rw [carried, load_length]
    rfl
  · exact load_length ..
  · rw [carriedBytes_snoc, carried, load_add, Nat.zero_add]
    rfl

theorem short (filling : Filling globals buffer sendCount count attempt) {piece : Piece}
    (fewer : piece.bytes.length < piece.asked) (inside : count + piece.asked ≤ globals.size) :
    Judged globals { attempt with pieces := attempt.pieces ++ [piece] } := by
  constructor
  · intro whole
    have carried := congrArg List.length whole.carried
    simp only [carriedBytes_snoc, filling.carried, List.length_append, load_length] at carried
    omega
  · intro complete
    have last := complete.1 piece (List.mem_append_right _ (List.mem_singleton_self _))
    omega

/-- The piece that ends the frame: only its order in the buffer is left to judge. -/
theorem last (filling : Filling globals buffer sendCount count attempt) {piece : Piece}
    (place : piece.address = bufferAddr globals.addr sendCount + count)
    (carried : load buffer 0 count ++ piece.bytes = load buffer 0 globals.size)
    (complete : piece.bytes.length = piece.asked) (straight : piece.Straight ↔ piece.Fits) :
    Judged globals { attempt with pieces := attempt.pieces ++ [piece] } := by
  obtain ⟨rfl, rfl, placed, before, fit, loaded⟩ := filling
  have length : (carriedBytes attempt.pieces).length = count := by rw [loaded, load_length]
  constructor
  · intro whole
    have ordered := (Consecutive.snoc_iff.mp whole.placed).2.2
    exact ⟨before.snoc complete, fit.snoc (straight.mp ordered)⟩
  · intro judged
    have fits := judged.2 piece (List.mem_append_right _ (List.mem_singleton_self _))
    refine ⟨Consecutive.snoc_iff.mpr ⟨placed, by rw [length, place], straight.mpr fits⟩, ?_⟩
    rw [carriedBytes_snoc, loaded, carried]

end Filling

theorem history_stable (fact : Nat → Attempt → List Published → Prop) :
    Stable (fpgaWorld globals) fun fpga => fact fpga.position fpga.attempt fpga.published := by
  intro before after holds moved
  cases moved
  exact holds

abbrev accounted (globals : Globals) : Call → Fpga → Prop := fun _ fpga => Accounted globals fpga

def Sending (globals : Globals) (fact : Attempt → Prop) (fpga : Fpga) : Prop :=
  Accounted globals fpga ∧ fact fpga.attempt

theorem Sending.stable (fact : Attempt → Prop) : Stable (fpgaWorld globals) (Sending globals fact) :=
  history_stable fun _ attempt published => (∀ frame ∈ published, Judged globals frame.attempt) ∧ fact attempt

section
variable {buffer : Memory} {sendCount count : Nat}

def Wrote (globals : Globals) (buffer : Memory) (sendCount count bytes : Nat) (rc : Int) : Fpga → Prop :=
  Sending globals fun attempt => (0 ≤ rc → rc ≠ bytes → Judged globals attempt) ∧
    (rc = bytes → Filling globals buffer sendCount (count + bytes) attempt)

theorem Accounted.stable : Stable (fpgaWorld globals) (Accounted globals) :=
  history_stable fun _ _ published => ∀ frame ∈ published, Judged globals frame.attempt

end

end CigCard.Video
