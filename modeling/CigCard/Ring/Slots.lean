import Mathlib.Order.Bounds.Basic
import Mathlib.Tactic.Common

namespace Ring

section Loop

variable {α : Type} {first count i : Nat} {body : Nat → α → α} {slots : Nat → α}

/-- A loop over `count` slots from `first` on. Its pass `i` changes slot `first + i`. -/
def forSlots (first : Nat) (body : Nat → α → α) : Nat → (Nat → α) → Nat → α
  | 0, slots => slots
  | count + 1, slots =>
    let slots := forSlots first body count slots
    Function.update slots (first + count) (body count (slots (first + count)))

theorem forSlots_outside {slot : Nat} (outside : slot < first ∨ first + count ≤ slot) :
    forSlots first body count slots slot = slots slot := by
  induction count with
  | zero => rfl
  | succ count ih =>
    have apart : slot ≠ first + count := by omega
    rw [forSlots, Function.update_of_ne apart]
    exact ih (by omega)

theorem forSlots_inside (inside : i < count) :
    forSlots first body count slots (first + i) = body i (slots (first + i)) := by
  induction count with
  | zero => exact absurd inside (Nat.not_lt_zero i)
  | succ count ih =>
    rw [forSlots]
    rcases Nat.lt_succ_iff_lt_or_eq.mp inside with earlier | rfl
    · have apart : first + i ≠ first + count := by omega
      rw [Function.update_of_ne apart]
      exact ih earlier
    · rw [Function.update_self, forSlots_outside (.inr (Nat.le_refl _))]

/-- What every pass leaves alone, the loop leaves alone. -/
theorem forSlots_keeps {β : Type} {field : α → β} (keeps : ∀ i content, field (body i content) = field content)
    (slot : Nat) : field (forSlots first body count slots slot) = field (slots slot) := by
  by_cases inside : first ≤ slot ∧ slot < first + count
  · obtain ⟨i, rfl⟩ := Nat.exists_eq_add_of_le inside.1
    rw [forSlots_inside (by omega), keeps]
  · rw [forSlots_outside (by omega)]

end Loop

section Blocks

variable {block start count next : Nat}

/-- Of `count` slots from `start` on, `ahead` ones follow number `next` in its own block. -/
def Ahead (block start count next ahead : Nat) : Prop :=
  ∀ k, 0 < k → k ≤ ahead → next + k < count ∧ (start + next + k) / block = (start + next) / block

theorem ahead_iff (positive : 0 < block) (ahead : Nat) :
    Ahead block start count next ahead ↔
      ahead ≤ block - (start + next) % block - 1 ∧ ahead ≤ count - next - 1 := by
  have place := Nat.div_add_mod (start + next) block
  have small := Nat.mod_lt (start + next) positive
  have same_iff : ∀ k, (start + next + k) / block = (start + next) / block ↔ (start + next) % block + k < block := by
    intro k
    rw [Nat.div_eq_iff positive]
    have product : (start + next) / block * block = block * ((start + next) / block) := Nat.mul_comm _ _
    omega
  constructor
  · intro follows
    rcases Nat.eq_zero_or_pos ahead with rfl | some_ahead
    · omega
    · obtain ⟨inside, same⟩ := follows ahead some_ahead (Nat.le_refl ahead)
      rw [same_iff] at same
      omega
  · intro bounds k positive le
    rw [same_iff]
    omega

theorem ahead_greatest (positive : 0 < block) :
    IsGreatest {ahead | Ahead block start count next ahead}
      (min (block - (start + next) % block - 1) (count - next - 1)) := by
  constructor
  · exact (ahead_iff positive _).mpr ⟨Nat.min_le_left _ _, Nat.min_le_right _ _⟩
  · intro ahead follows
    exact Nat.le_min.mpr ((ahead_iff positive ahead).mp follows)

end Blocks

end Ring
