import Mathlib.Data.List.Flatten
import Mathlib.Data.Nat.ModEq
import Mathlib.Tactic.Common

namespace Ring

variable {α β : Type} {m start : Nat} {place size : α → Nat}

/-- Pieces of a run that begins at `start`: each is at the place, modulo `m`, that the pieces before it lead to. -/
def InTurn (m : Nat) (place size : α → Nat) : Nat → List α → Prop
  | _, [] => True
  | start, piece :: pieces =>
    place piece % m = start % m ∧ InTurn m place size (start + size piece) pieces

theorem inTurn_append (front back : List α) :
    InTurn m place size start (front ++ back) ↔
      InTurn m place size start front ∧ InTurn m place size (start + (front.map size).sum) back := by
  induction front generalizing start with
  | nil => exact (true_and _).to_iff.symm
  | cons piece front ih =>
    change _ ∧ InTurn m place size _ (front ++ back) ↔ (_ ∧ InTurn m place size _ front) ∧ _
    rw [ih, List.map_cons, List.sum_cons, ← Nat.add_assoc]
    exact and_assoc.symm

theorem InTurn.shift {pieces : List α} {other : Nat} (same : start % m = other % m)
    (turn : InTurn m place size start pieces) : InTurn m place size other pieces := by
  induction pieces generalizing start other with
  | nil => trivial
  | cons piece pieces ih =>
    exact ⟨turn.1.trans same, ih (Nat.ModEq.add_right (size piece) same) turn.2⟩

theorem InTurn.of_dvd {n : Nat} {pieces : List α} (divides : n ∣ m) (turn : InTurn m place size start pieces) :
    InTurn n place size start pieces := by
  induction pieces generalizing start with
  | nil => trivial
  | cons piece pieces ih =>
    exact ⟨Nat.ModEq.of_dvd divides turn.1, ih turn.2⟩

/-- Each piece may be cut into smaller ones. -/
theorem InTurn.cut {place' size' : β → Nat} {pieces : List α} {cut : α → List β}
    (turn : InTurn m place size start pieces) (each : ∀ piece, InTurn m place' size' (place piece) (cut piece))
    (whole : ∀ piece, ((cut piece).map size').sum = size piece) :
    InTurn m place' size' start (pieces.flatMap cut) := by
  induction pieces generalizing start with
  | nil => trivial
  | cons piece pieces ih =>
    rw [List.flatMap_cons, inTurn_append, whole]
    exact ⟨(each piece).shift turn.1, ih turn.2⟩

/-- Pieces may be put together, at the place of the first of them. -/
theorem InTurn.merge {place' size' : β → Nat} {groups : List (List α)} {merged : List β}
    (turn : InTurn m place size start groups.flatten)
    (together : List.Forall₂ (fun group piece => (∃ first later, group = first :: later ∧
      place' piece % m = place first % m) ∧ size' piece = (group.map size).sum) groups merged) :
    InTurn m place' size' start merged := by
  induction together generalizing start with
  | nil => trivial
  | cons here _ ih =>
    obtain ⟨⟨first, later, rfl, placed⟩, whole⟩ := here
    rw [List.flatten_cons, inTurn_append] at turn
    refine ⟨placed.trans turn.1.1, ?_⟩
    rw [whole]
    exact ih turn.2

end Ring
