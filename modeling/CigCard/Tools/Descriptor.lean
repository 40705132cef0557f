import CigCard.Video.Placement

namespace CigCard.Tools

open ByteMemory Video

def seekingLoop (transport : Transport) (advances : Bool) (answers : Nat → Answer) (size : BitVec 64)
    (loop buf : Nat) (offset : BitVec 64) (count position : Nat) : (Int × List Move) × Nat :=
  if count < size.toNat then
    let bytes := min (size.toNat - count) rwMaxSize
    let sought := if offset ≠ 0 then (answers loop).sought else offset.toInt
    let position := if offset ≠ 0 ∧ 0 ≤ sought then sought.toNat else position
    if sought ≠ offset.toInt then ((-5, []), position)
    else
      let rc := min (answers loop).rc bytes
      if rc < 0 then ((-5, []), position)
      else
        let moved := (List.range rc.toNat).map fun k => ⟨transport, buf + k, position + k⟩
        let reached := if advances then position + rc.toNat else position
        if rc ≠ bytes then ((ssize (count + rc.toNat), moved), reached)
        else
          let rest := seekingLoop transport advances answers size (loop + 1) (buf + bytes)
            (offset + BitVec.ofNat 64 bytes) (count + bytes) reached
          ((rest.1.1, moved ++ rest.1.2), rest.2)
  else ((ssize count, []), position)
termination_by size.toNat - count
decreasing_by
  simp only [rwMaxSize]
  omega

def seekingTransfer (transport : Transport) (advances : Bool) (answers : Nat → Answer) (size base : BitVec 64)
    (position : Nat) : (Int × List Move) × Nat :=
  seekingLoop transport advances answers size 0 0 base 0 position

def obliging (base : BitVec 64) : Nat → Answer := fun loop =>
  ⟨max (-1) (base + BitVec.ofNat 64 (loop * rwMaxSize)).toInt, rwMaxSize, le_max_left _ _⟩

section Loop

variable {transport : Transport} {advances : Bool} {answers : Nat → Answer} {size base : BitVec 64}

theorem seekingLoop_moves (loop buf count position : Nat) (offset : BitVec 64) :
    (seekingLoop transport advances answers size loop buf offset count position).1 =
      transferLoop transport advances answers size loop buf offset count position := by
  induction left : size.toNat - count using Nat.strong_induction_on generalizing loop buf offset count position with
  | _ n ih =>
    rw [seekingLoop, transferLoop]
    split
    · next more =>
      have progress : 0 < rwMaxSize := by decide
      dsimp only
      generalize (if offset ≠ 0 then (answers loop).sought else offset.toInt) = sought
      generalize (if offset ≠ 0 ∧ 0 ≤ sought then sought.toNat else position) = here
      split
      · rfl
      · split
        · rfl
        · next nonneg =>
          split
          · rfl
          · next full =>
            have all : (min (answers loop).rc (min (size.toNat - count) rwMaxSize : Nat)).toNat =
                min (size.toNat - count) rwMaxSize := by
              rw [not_not.mp full, Int.toNat_natCast]
            rw [ih _ (by omega) _ _ _ _ _ rfl, all]
    · rfl

theorem seekingTransfer_moves (position : Nat) :
    (seekingTransfer transport advances answers size base position).1 =
      transfer transport advances answers size base position := seekingLoop_moves 0 0 0 position base

/-- From address 0 on, a device that takes all in one piece stays where it is. -/
theorem seekingTransfer_stays (short : size.toNat ≤ rwMaxSize) (position : Nat) :
    (seekingTransfer transport false answers size 0 position).2 = position := by
  have unsought : (if (0 : BitVec 64) ≠ 0 ∧ 0 ≤ (if (0 : BitVec 64) ≠ 0 then (answers 0).sought else (0 : BitVec 64).toInt)
      then (if (0 : BitVec 64) ≠ 0 then (answers 0).sought else (0 : BitVec 64).toInt).toNat else position) = position :=
    if_neg fun both => both.1 rfl
  unfold seekingTransfer
  rw [seekingLoop]
  split
  · dsimp only
    rw [unsought]
    generalize (if (0 : BitVec 64) ≠ 0 then (answers 0).sought else (0 : BitVec 64).toInt) = sought
    split
    · rfl
    · split
      · rfl
      · split
        · rfl
        · have last : ¬ (0 + min (size.toNat - 0) rwMaxSize < size.toNat) := by omega
          rw [seekingLoop, if_neg last]
          rfl
  · rfl

theorem toInt_ofNat_small {n : Nat} (small : n < 2 ^ 63) : (BitVec.ofNat 64 n).toInt = n := by
  have bound : n < 2 ^ 64 := by omega
  rw [BitVec.toInt_eq_toNat_cond, BitVec.toNat_ofNat, Nat.mod_eq_of_lt bound, if_pos (by omega)]

theorem obliging_sought {loop count : Nat} (small : count < 2 ^ 63) (whole : count = loop * rwMaxSize) :
    ((obliging 0) loop).sought = count := by
  show max (-1) (0#64 + BitVec.ofNat 64 (loop * rwMaxSize)).toInt = count
  rw [← whole, BitVec.zero_add, toInt_ofNat_small small]
  omega

theorem seekingLoop_obliging (small : size.toNat < 2 ^ 63) (loop buf count position : Nat)
    (whole : count < size.toNat → count = loop * rwMaxSize) (inside : count ≤ size.toNat) :
    (seekingLoop transport advances (obliging 0) size loop buf (BitVec.ofNat 64 count) count position).1.1 = size.toNat ∧
      (advances = false → position ≠ 0 ∨ count < size.toNat ∧ (0 < count ∨ rwMaxSize < size.toNat) →
        (seekingLoop transport advances (obliging 0) size loop buf (BitVec.ofNat 64 count) count position).2 ≠ 0) := by
  induction left : size.toNat - count using Nat.strong_induction_on generalizing loop buf count position with
  | _ n ih =>
    rw [seekingLoop]
    split
    · next more =>
      have progress : 0 < rwMaxSize := by decide
      have place : (BitVec.ofNat 64 count).toInt = count := toInt_ofNat_small (by omega)
      have sought : ((obliging 0) loop).sought = count := obliging_sought (by omega) (whole more)
      have aimed : (if BitVec.ofNat 64 count ≠ 0 then ((obliging 0) loop).sought else (BitVec.ofNat 64 count).toInt) =
          count := by
        rw [sought, place, ite_self]
      have all : min ((obliging 0) loop).rc (min (size.toNat - count) rwMaxSize : Nat) =
          (min (size.toNat - count) rwMaxSize : Nat) := by
        show min (rwMaxSize : Int) _ = _
        omega
      have next : BitVec.ofNat 64 count + BitVec.ofNat 64 (min (size.toNat - count) rwMaxSize) =
          BitVec.ofNat 64 (count + min (size.toNat - count) rwMaxSize) := (BitVec.ofNat_add _ _).symm
      dsimp only
      rw [aimed, all, place, next, if_neg (fun away => away rfl), if_neg (by omega), if_neg (fun away => away rfl)]
      have chunks : count + min (size.toNat - count) rwMaxSize < size.toNat →
          count + min (size.toNat - count) rwMaxSize = (loop + 1) * rwMaxSize := by
        intro later
        rw [Nat.add_mul, Nat.one_mul, ← whole more]
        omega
      obtain ⟨rc, moved⟩ := ih _ (by omega) (loop + 1) (buf + min (size.toNat - count) rwMaxSize)
        (count + min (size.toNat - count) rwMaxSize) _ chunks (by omega) rfl
      refine ⟨rc, ?_⟩
      intro stays apart
      apply moved stays
      rw [stays, if_neg Bool.false_ne_true]
      by_cases start : count = 0
      · subst start
        rw [if_neg fun both => both.1 rfl]
        apply apart.imp_right
        intro pieces
        rcases pieces.2 with some | long
        · exact absurd some (Nat.lt_irrefl 0)
        · omega
      · have known : BitVec.ofNat 64 count ≠ 0 := by
          intro zero
          rw [zero] at place
          exact start (Int.ofNat.inj place).symm
        left
        rwa [if_pos ⟨known, Int.natCast_nonneg count⟩, Int.toNat_natCast]
    · next done =>
      have last : count = size.toNat := by omega
      rw [ssize, if_pos (by omega), last]
      refine ⟨rfl, ?_⟩
      intro _ premise
      rcases premise with apart | within
      · exact apart
      · omega

/-- All of it is moved, and a device that is read in more than one piece does not end at its start. -/
theorem seekingTransfer_obliging (small : size.toNat < 2 ^ 63) (position : Nat) :
    (seekingTransfer transport advances (obliging 0) size 0 position).1.1 = size.toNat ∧
      (rwMaxSize < size.toNat → (seekingTransfer transport false (obliging 0) size 0 position).2 ≠ 0) := by
  have whole : 0 < size.toNat → 0 = 0 * rwMaxSize := fun _ => (Nat.zero_mul _).symm
  have device := @seekingLoop_obliging transport false size small 0 0 0 position whole (Nat.zero_le _)
  have either := @seekingLoop_obliging transport advances size small 0 0 0 position whole (Nat.zero_le _)
  exact ⟨either.1, fun long => device.2 rfl (.inr ⟨(Nat.zero_le _).trans_lt long, .inr long⟩)⟩

end Loop

end CigCard.Tools
