import CigCard.Ledger.Registry

namespace Ledger

/-- The blocks that a piece of code allocates, numbered in turn. A pointer is such a number, or `none` for NULL. -/
structure Heap where
  next : Nat
  blocks : Registry Nat Unit
  fresh : ∀ block, next ≤ block → blocks.owner block = none

namespace Heap

def empty : Heap := ⟨0, .empty, fun _ _ => rfl⟩

def Live (heap : Heap) (block : Nat) : Prop := heap.blocks.owner block = some ()

/-- These blocks are left to free: all others have been freed once, and nothing has been freed that was not live. -/
structure Owns (heap : Heap) (blocks : List Nat) : Prop where
  holds : heap.blocks.Holds (blocks.map fun block => (block, ()))
  distinct : blocks.Nodup
  clean : heap.blocks.misused = false

def Balanced (heap : Heap) : Prop := heap.Owns []

theorem Live.lt {heap : Heap} {block : Nat} (live : heap.Live block) : block < heap.next := by
  by_contra beyond
  have free := heap.fresh block (Nat.not_lt.mp beyond)
  rw [live] at free
  cases free

theorem acquire_fresh (heap : Heap) (block : Nat) (beyond : heap.next + 1 ≤ block) :
    (heap.blocks.acquire heap.next ()).owner block = none := by
  rw [Registry.acquire_free () (heap.fresh heap.next (Nat.le_refl _))]
  have other : block ≠ heap.next := by omega
  simpa [other] using heap.fresh block (by omega)

theorem release_fresh (heap : Heap) (block other : Nat) (beyond : heap.next ≤ other) :
    (heap.blocks.release block ()).owner other = none := by
  have free := heap.fresh other beyond
  unfold Registry.release
  split
  · by_cases here : other = block
    · simp [here]
    · simpa [here] using free
  · exact free

def alloc (granted : Bool) (heap : Heap) : Option Nat × Heap :=
  if granted then (some heap.next, ⟨heap.next + 1, heap.blocks.acquire heap.next (), acquire_fresh heap⟩)
  else (none, heap)

def free (pointer : Option Nat) (heap : Heap) : Heap :=
  match pointer with
  | none => heap
  | some block => ⟨heap.next, heap.blocks.release block (), release_fresh heap block⟩

@[simp] theorem free_none (heap : Heap) : heap.free none = heap := rfl

@[simp] theorem alloc_refused (heap : Heap) : heap.alloc false = (none, heap) := rfl

theorem alloc_pointer (granted : Bool) (heap : Heap) :
    (heap.alloc granted).1 = if granted then some heap.next else none := by
  unfold alloc
  split <;> rfl

@[simp] theorem alloc_eq_none_iff (granted : Bool) (heap : Heap) :
    (heap.alloc granted).1 = none ↔ granted = false := by
  rw [alloc_pointer]
  cases granted <;> simp

theorem le_next_alloc (granted : Bool) (heap : Heap) : heap.next ≤ (heap.alloc granted).2.next := by
  cases granted
  · exact Nat.le_refl _
  · exact Nat.le_succ _

theorem alloc_live {granted : Bool} {heap : Heap} {block : Nat} (allocated : (heap.alloc granted).1 = some block) :
    (heap.alloc granted).2.Live block := by
  cases granted with
  | false => cases allocated
  | true =>
    cases allocated
    change (heap.blocks.acquire heap.next ()).owner heap.next = some ()
    rw [Registry.acquire_free () (heap.fresh heap.next (Nat.le_refl _))]
    exact if_pos rfl

theorem alloc_next {granted : Bool} {heap : Heap} {block : Nat} (allocated : (heap.alloc granted).1 = some block) :
    block = heap.next := by
  cases granted with
  | false => cases allocated
  | true =>
    cases allocated
    rfl

theorem Live.ne_alloc {heap : Heap} {block : Nat} (live : heap.Live block) (granted : Bool) :
    (heap.alloc granted).1 ≠ some block := by
  have old := live.lt
  rw [alloc_pointer]
  split
  · intro same
    cases same
    omega
  · simp

theorem Live.alloc {heap : Heap} {block : Nat} (live : heap.Live block) (granted : Bool) :
    (heap.alloc granted).2.Live block := by
  have old := live.lt
  unfold Heap.alloc
  split
  · have other : block ≠ heap.next := by omega
    change (heap.blocks.acquire heap.next ()).owner block = some ()
    rw [Registry.acquire_free () (heap.fresh heap.next (Nat.le_refl _))]
    change (if block = heap.next then some () else heap.blocks.owner block) = some ()
    rw [if_neg other]
    exact live
  · exact live

theorem Live.free {heap : Heap} {block : Nat} (live : heap.Live block) {pointer : Option Nat}
    (other : pointer ≠ some block) : (heap.free pointer).Live block := by
  cases pointer with
  | none => exact live
  | some freed =>
    have apart : block ≠ freed := by
      rintro rfl
      exact other rfl
    change (heap.blocks.release freed ()).owner block = some ()
    unfold Registry.release
    split
    · change (if block = freed then none else heap.blocks.owner block) = some ()
      rw [if_neg apart]
      exact live
    · exact live

theorem alloc_live_iff (granted : Bool) (heap : Heap) (block : Nat) :
    (heap.alloc granted).2.Live block ↔ heap.Live block ∨ (heap.alloc granted).1 = some block := by
  cases granted with
  | false => simp
  | true =>
    change (heap.blocks.acquire heap.next ()).owner block = some () ↔ _ ∨ some heap.next = some block
    rw [Registry.acquire_free () (heap.fresh heap.next (Nat.le_refl _))]
    change (if block = heap.next then some () else heap.blocks.owner block) = some () ↔ _
    by_cases new : block = heap.next
    · rw [if_pos new]
      exact iff_of_true rfl (.inr (congrArg some new.symm))
    · rw [if_neg new]
      exact (or_iff_left fun same => new (Option.some.inj same).symm).symm

theorem free_live_iff {heap : Heap} {freed : Nat} (live : heap.Live freed) (block : Nat) :
    (heap.free (some freed)).Live block ↔ heap.Live block ∧ block ≠ freed := by
  change (heap.blocks.release freed ()).owner block = some () ↔ _
  rw [Registry.release_held live]
  change (if block = freed then none else heap.blocks.owner block) = some () ↔ _
  by_cases same : block = freed
  · rw [if_pos same]
    exact iff_of_false (by simp) fun kept => kept.2 same
  · rw [if_neg same]
    exact (and_iff_left same).symm

theorem free_alloc_live_iff (granted : Bool) (heap : Heap) (block : Nat) :
    ((heap.alloc granted).2.free (heap.alloc granted).1).Live block ↔ heap.Live block := by
  cases granted with
  | false => rfl
  | true =>
    have made : (heap.alloc true).1 = some heap.next := rfl
    have live : (heap.alloc true).2.Live heap.next := alloc_live made
    rw [made, free_live_iff live, alloc_live_iff, made, or_and_right]
    constructor
    · rintro (⟨old, -⟩ | ⟨same, other⟩)
      · exact old
      · exact absurd (Option.some.inj same).symm other
    · intro old
      exact .inl ⟨old, Nat.ne_of_lt old.lt⟩

theorem misused_alloc {heap : Heap} (misused : heap.blocks.misused = true) (granted : Bool) :
    (heap.alloc granted).2.blocks.misused = true := by
  unfold alloc
  split
  · exact Registry.acquire_misused _ _ misused
  · exact misused

theorem misused_free {heap : Heap} (misused : heap.blocks.misused = true) (pointer : Option Nat) :
    (heap.free pointer).blocks.misused = true := by
  cases pointer with
  | none => exact misused
  | some block => exact Registry.release_misused _ _ misused

theorem free_stray {heap : Heap} {block : Nat} (stray : ¬ heap.Live block) :
    (heap.free (some block)).blocks.misused = true :=
  Registry.release_free stray

theorem Balanced.not_live {heap : Heap} (balanced : heap.Balanced) (block : Nat) : ¬ heap.Live block := by
  intro live
  rw [Live, balanced.holds.nothing block] at live
  cases live

theorem empty_balanced : empty.Balanced := by
  refine ⟨?_, List.nodup_nil, rfl⟩
  intro block user
  simp [empty, Registry.empty]

theorem Owns.live_iff {heap : Heap} {blocks : List Nat} (owns : heap.Owns blocks) (block : Nat) :
    heap.Live block ↔ block ∈ blocks := by
  rw [Live, owns.holds block ()]
  simp

theorem Owns.alloc {heap : Heap} {blocks : List Nat} (owns : heap.Owns blocks) (granted : Bool) :
    (heap.alloc granted).2.Owns (blocks ++ (heap.alloc granted).1.toList) := by
  cases granted with
  | false => simpa using owns
  | true =>
    have free := heap.fresh heap.next (Nat.le_refl _)
    have new : heap.next ∉ blocks := by
      intro member
      have live := ((owns.live_iff heap.next).mpr member).lt
      omega
    refine ⟨?_, ?_, ?_⟩
    · change (heap.blocks.acquire heap.next ()).Holds ((blocks ++ [heap.next]).map _)
      rw [List.map_append]
      exact owns.holds.acquire heap.next () free
    · change (blocks ++ [heap.next]).Nodup
      exact List.nodup_append.mpr ⟨owns.distinct, List.nodup_singleton _, by
        rintro block member other single rfl
        exact new (List.mem_singleton.mp single ▸ member)⟩
    · change (heap.blocks.acquire heap.next ()).misused = false
      rw [Registry.acquire_free () free]
      exact owns.clean

theorem Owns.free {heap : Heap} {pointer : Option Nat} {blocks : List Nat}
    (owns : heap.Owns (pointer.toList ++ blocks)) : (heap.free pointer).Owns blocks := by
  cases pointer with
  | none => exact owns
  | some block =>
    obtain ⟨new, distinct⟩ := List.nodup_cons.mp owns.distinct
    have held : heap.blocks.owner block = some () := (owns.live_iff block).mpr (by simp)
    refine ⟨?_, distinct, ?_⟩
    · exact owns.holds.release (by simpa using new)
    · change (heap.blocks.release block ()).misused = false
      rw [Registry.release_held held]
      exact owns.clean

theorem Owns.perm {heap : Heap} {blocks others : List Nat} (owns : heap.Owns blocks) (perm : blocks.Perm others) :
    heap.Owns others := by
  refine ⟨?_, perm.nodup owns.distinct, owns.clean⟩
  intro block user
  rw [owns.holds block user, (perm.map _).mem_iff]

theorem Owns.alloc_granted {heap : Heap} {blocks : List Nat} (owns : heap.Owns blocks) :
    (heap.alloc true).2.Owns (heap.next :: blocks) :=
  (owns.alloc true).perm List.perm_append_comm

end Heap

end Ledger
