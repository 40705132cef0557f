import Mathlib.Data.Set.Insert
import Mathlib.Tactic.Common

namespace Ring

/-- Slot `s` of a ring of `m` slots is one of the `count` that were reserved when `start` had been before. -/
def Covers (m start count s : Nat) : Prop := start % m ≤ s ∧ s < start % m + count

variable {ι : Type*} {m total : Nat} {out : Set ι} {start count : ι → Nat}

/-- The reservations `out` that have not been given back, of a ring that `total` slots have been reserved of in turn.
    None runs over the end of the ring, and the oldest of them is less than one revolution back. -/
structure Outstanding (m total : Nat) (out : Set ι) (start count : ι → Nat) : Prop where
  fits : ∀ p ∈ out, start p % m + count p ≤ m
  made : ∀ p ∈ out, start p + count p ≤ total
  recent : ∀ p ∈ out, total ≤ start p + m
  ordered : ∀ p ∈ out, ∀ q ∈ out, p ≠ q → start p + count p ≤ start q ∨ start q + count q ≤ start p

theorem covers_apart {a b n k s : Nat} (after : a + n ≤ b) (within : b + k ≤ a + m) :
    ¬ (Covers m a n s ∧ Covers m b k s) := by
  intro holds
  obtain ⟨⟨lower, upper⟩, ⟨lower', upper'⟩⟩ := holds
  have first := Nat.div_add_mod a m
  have second := Nat.div_add_mod b m
  -- slot `s` is `a + x` and `b + y` modulo the ring, and these lie less than one revolution apart
  by_cases same : a / m = b / m
  · rw [same] at first
    omega
  · rcases Nat.lt_or_gt_of_ne same with less | more
    · have turn : m * (a / m) + m ≤ m * (b / m) := by
        rw [← Nat.mul_succ]
        exact Nat.mul_le_mul_left m less
      omega
    · have turn : m * (b / m) + m ≤ m * (a / m) := by
        rw [← Nat.mul_succ]
        exact Nat.mul_le_mul_left m more
      have order : b / m ≤ a / m := Nat.le_of_lt more
      omega

namespace Outstanding

theorem empty : Outstanding m total (∅ : Set ι) start count :=
  ⟨by simp, by simp, by simp, by simp⟩

theorem mono (outstanding : Outstanding m total out start count) {less : Set ι} {start' count' : ι → Nat}
    (sub : less ⊆ out) (starts : ∀ p ∈ less, start' p = start p) (counts : ∀ p ∈ less, count' p = count p) :
    Outstanding m total less start' count' where
  fits := by
    intro p member
    rw [starts p member, counts p member]
    exact outstanding.fits p (sub member)
  made := by
    intro p member
    rw [starts p member, counts p member]
    exact outstanding.made p (sub member)
  recent := by
    intro p member
    rw [starts p member]
    exact outstanding.recent p (sub member)
  ordered := by
    intro p member q other apart
    rw [starts p member, counts p member, starts q other, counts q other]
    exact outstanding.ordered p (sub member) q (sub other) apart

/-- A reservation that no outstanding one is more than a revolution behind. -/
theorem reserve (outstanding : Outstanding m total out start count) {p : ι} {n : Nat} {start' count' : ι → Nat}
    (fits : total % m + n ≤ m) (room : ∀ q ∈ out, total + n ≤ start q + m)
    (starts : ∀ q ∈ out, start' q = start q) (counts : ∀ q ∈ out, count' q = count q) (start_new : start' p = total)
    (count_new : count' p = n) : Outstanding m (total + n) (insert p out) start' count' := by
  have old := outstanding.mono (Set.Subset.refl out) starts counts
  refine ⟨?_, ?_, ?_, ?_⟩
  · intro q member
    rcases Set.mem_insert_iff.mp member with here | other
    · rw [here, start_new, count_new]
      exact fits
    · exact old.fits q other
  · intro q member
    rcases Set.mem_insert_iff.mp member with here | other
    · rw [here, start_new, count_new]
    · exact Nat.le_trans (old.made q other) (Nat.le_add_right _ _)
  · intro q member
    rcases Set.mem_insert_iff.mp member with here | other
    · rw [here, start_new]
      omega
    · rw [starts q other]
      exact room q other
  · intro q member r member' apart
    rcases Set.mem_insert_iff.mp member with here | other
    · rcases Set.mem_insert_iff.mp member' with here' | other'
      · exact absurd (here.trans here'.symm) apart
      · right
        rw [here, start_new]
        exact old.made r other'
    · rcases Set.mem_insert_iff.mp member' with here' | other'
      · left
        rw [here', start_new]
        exact old.made q other
      · exact old.ordered q other r other' apart

/-- Outstanding reservations share no slot. -/
theorem apart (outstanding : Outstanding m total out start count) {p q : ι} (member : p ∈ out) (member' : q ∈ out)
    (other : p ≠ q) (s : Nat) : ¬ (Covers m (start p) (count p) s ∧ Covers m (start q) (count q) s) := by
  have lastP := outstanding.made p member
  have lastQ := outstanding.made q member'
  have recentP := outstanding.recent p member
  have recentQ := outstanding.recent q member'
  rcases outstanding.ordered p member q member' other with before | after
  · exact covers_apart before (by omega)
  · intro both
    exact covers_apart after (by omega) both.symm

end Outstanding

end Ring
