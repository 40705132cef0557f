import CigCard.Xdma.ScatterGather
import Mathlib.Algebra.Order.BigOperators.Group.List

namespace CigCard.Xdma

def xdmaDescBlenMax : BitVec 32 := 2 ^ 28 - 1

def clampDescBlenMax (param : BitVec 32) : BitVec 32 := if param > xdmaDescBlenMax then xdmaDescBlenMax else param

inductive InitFault where
  | divideByZero
  | endless
  | overrun
deriving DecidableEq

def countExtra (blen : BitVec 32) : List (BitVec 32) → BitVec 32 → Except InitFault (BitVec 32)
  | [], extra => .ok extra
  | len :: lens, extra =>
    if len > blen then
      if blen = 0 then .error .divideByZero else countExtra blen lens (extra + (len + blen - 1) / blen)
    else countExtra blen lens extra

/-- The inner loop of `xdma_init_request`, followed for some passes. It writes from `sdesc[j]` on, of which there are
    `room`, and returns the next `j`. -/
def splitLoop (blen : BitVec 32) (room : Nat) : Nat → BitVec 32 → Nat → Except InitFault Nat
  | 0, tlen, j => if tlen = 0 then .ok j else .error .endless
  | fuel + 1, tlen, j =>
    if tlen = 0 then .ok j
    else if room ≤ j then .error .overrun
    else splitLoop blen room fuel (if tlen > blen then tlen - blen else 0) (j + 1)

/-- The second loop of `xdma_init_request`. A pass of the inner loop that takes anything takes a byte. -/
def splitEntries (blen : BitVec 32) (room : Nat) : List (BitVec 32) → Nat → Except InitFault Nat
  | [], j => .ok j
  | len :: lens, j => do
    let j ← splitLoop blen room len.toNat len j
    splitEntries blen room lens j

/-- The elements of `sdesc` that `xdma_request_alloc` has made room for, with the size in 32 bits. -/
def sdescRoom (sizeofRequest sdescNr : BitVec 32) : Nat :=
  ((sizeofRequest + sdescNr * BitVec.ofNat 32 sizeofSwDesc).toNat - sizeofRequest.toNat) / sizeofSwDesc

def sdescWrites (blen sizeofRequest : BitVec 32) (lens : List (BitVec 32)) : Except InitFault Nat := do
  let extra ← countExtra blen lens 0
  splitEntries blen (sdescRoom sizeofRequest (BitVec.ofNat 32 lens.length + extra)) lens 0

def pieceNr (blen len : BitVec 32) : Nat := (len.toNat + blen.toNat - 1) / blen.toNat

def spare (blen len : BitVec 32) : Int :=
  if len = 0 then 1
  else if len ≤ blen then 0
  else if len.toNat + blen.toNat - 1 < 2 ^ 32 then 1
  else 1 + ((len.toNat + blen.toNat - 1 - 2 ^ 32) / blen.toNat : Nat) - pieceNr blen len

def counted (blen len : BitVec 32) : Nat :=
  if len > blen then (len.toNat + blen.toNat - 1) % 2 ^ 32 / blen.toNat else 0

def SdescTableSafe (blen sizeofRequest : BitVec 32) (lens : List (BitVec 32)) : Prop :=
  ∃ written, sdescWrites blen sizeofRequest lens = .ok written

section Loops

variable {blen : BitVec 32} {room : Nat}

theorem toNat_pos (nonzero : blen ≠ 0) : 0 < blen.toNat :=
  Nat.pos_of_ne_zero fun zero => nonzero (BitVec.eq_of_toNat_eq zero)

theorem countExtra_eq (nonzero : blen ≠ 0) (lens : List (BitVec 32)) (extra : BitVec 32) :
    countExtra blen lens extra = .ok (extra + BitVec.ofNat 32 (lens.map (counted blen)).sum) := by
  induction lens generalizing extra with
  | nil => simp [countExtra]
  | cons len lens ih =>
    rw [List.map_cons, List.sum_cons, BitVec.ofNat_add, ← BitVec.add_assoc]
    unfold countExtra
    split
    · next long =>
      have round : (len + blen - 1) / blen = BitVec.ofNat 32 (counted blen len) := by
        have one : (1 : BitVec 32).toNat = 1 := rfl
        have some := toNat_pos nonzero
        apply BitVec.eq_of_toNat_eq
        rw [BitVec.toNat_udiv, BitVec.toNat_sub, BitVec.toNat_add, one, BitVec.toNat_ofNat, counted, if_pos long,
          Nat.mod_eq_of_lt (Nat.lt_of_le_of_lt (Nat.div_le_self _ _) (Nat.mod_lt _ (by decide)))]
        congr 1
        omega
      rw [ih, round]
    · next short =>
      have none : counted blen len = 0 := if_neg short
      rw [ih, none]
      simp

theorem pieceNr_zero : pieceNr blen 0 = 0 := by
  unfold pieceNr
  have none : (0 : BitVec 32).toNat = 0 := rfl
  rw [none, Nat.zero_add]
  by_cases zero : blen.toNat = 0
  · rw [zero]
  · exact Nat.div_eq_of_lt (by omega)

theorem pieceNr_short {len : BitVec 32} (some : len ≠ 0) (short : ¬ len > blen) : pieceNr blen len = 1 := by
  have positive := toNat_pos some
  have below : len.toNat ≤ blen.toNat := BitVec.le_def.mp (BitVec.not_lt.mp short)
  have one : len.toNat + blen.toNat - 1 = len.toNat - 1 + blen.toNat := by omega
  rw [pieceNr, one, Nat.add_div_right _ (by omega), Nat.div_eq_of_lt (by omega)]

theorem pieceNr_long (nonzero : blen ≠ 0) {len : BitVec 32} (long : len > blen) :
    pieceNr blen len = pieceNr blen (len - blen) + 1 := by
  have positive := toNat_pos nonzero
  have above : blen.toNat < len.toNat := BitVec.lt_def.mp long
  rw [pieceNr, pieceNr, BitVec.toNat_sub_of_le (BitVec.le_of_lt long), ← Nat.add_div_right _ positive]
  congr 1
  omega

theorem pieceNr_pos (nonzero : blen ≠ 0) {len : BitVec 32} (some : len ≠ 0) : 0 < pieceNr blen len := by
  by_cases long : len > blen
  · rw [pieceNr_long nonzero long]
    exact Nat.succ_pos _
  · rw [pieceNr_short some long]
    exact Nat.one_pos

/-- By induction on the fuel: with a byte for each pass the loop ends, or writes past the room that there is. -/
theorem splitLoop_eq (nonzero : blen ≠ 0) (fuel : Nat) (tlen : BitVec 32) (j : Nat) (enough : tlen.toNat ≤ fuel)
    (inside : j ≤ room) :
    splitLoop blen room fuel tlen j =
      if j + pieceNr blen tlen ≤ room then .ok (j + pieceNr blen tlen) else .error .overrun := by
  have positive := toNat_pos nonzero
  induction fuel generalizing tlen j with
  | zero =>
    have none : tlen = 0 := BitVec.eq_of_toNat_eq (Nat.le_zero.mp enough)
    rw [splitLoop, if_pos none, none, pieceNr_zero]
    exact (if_pos inside).symm
  | succ fuel ih =>
    unfold splitLoop
    by_cases none : tlen = 0
    · rw [if_pos none, none, pieceNr_zero]
      exact (if_pos inside).symm
    · rw [if_neg none]
      by_cases full : room ≤ j
      · rw [if_pos full, if_neg]
        have some := pieceNr_pos nonzero none
        omega
      · rw [if_neg full]
        by_cases long : tlen > blen
        · have above : blen.toNat < tlen.toNat := BitVec.lt_def.mp long
          have less := BitVec.toNat_sub_of_le (BitVec.le_of_lt long)
          rw [if_pos long, ih _ _ (by omega) (by omega), pieceNr_long nonzero long, Nat.add_assoc, Nat.add_comm 1]
        · have zero : (0 : BitVec 32).toNat = 0 := rfl
          rw [if_neg long, ih _ _ (by omega) (by omega), pieceNr_zero, pieceNr_short none long, Nat.add_zero]

theorem splitEntries_eq (nonzero : blen ≠ 0) (lens : List (BitVec 32)) (j : Nat) (inside : j ≤ room) :
    splitEntries blen room lens j =
      if j + (lens.map (pieceNr blen)).sum ≤ room then .ok (j + (lens.map (pieceNr blen)).sum)
      else .error .overrun := by
  induction lens generalizing j with
  | nil => exact (if_pos inside).symm
  | cons len lens ih =>
    rw [splitEntries, splitLoop_eq nonzero _ len j (Nat.le_refl _) inside, List.map_cons, List.sum_cons, ← Nat.add_assoc]
    by_cases fits : j + pieceNr blen len ≤ room
    · rw [if_pos fits]
      exact ih _ fits
    · rw [if_neg fits, if_neg (by omega)]
      rfl

theorem sdescTableSafe_iff_room (nonzero : blen ≠ 0) (sizeofRequest : BitVec 32) (lens : List (BitVec 32)) :
    SdescTableSafe blen sizeofRequest lens ↔
      (lens.map (pieceNr blen)).sum ≤
        sdescRoom sizeofRequest (BitVec.ofNat 32 (lens.length + (lens.map (counted blen)).sum)) := by
  unfold SdescTableSafe sdescWrites
  have start := countExtra_eq nonzero lens 0
  rw [BitVec.ofNat_eq_ofNat, BitVec.zero_add] at start
  rw [BitVec.ofNat_eq_ofNat, start, BitVec.ofNat_add]
  change (∃ written, splitEntries blen _ lens 0 = .ok written) ↔ _
  rw [splitEntries_eq nonzero lens 0 (Nat.zero_le _), Nat.zero_add]
  split
  · next fits => exact iff_of_true ⟨_, rfl⟩ fits
  · next exceeds =>
    apply iff_of_false _ exceeds
    rintro ⟨written, fault⟩
    cases fault

theorem counted_spare (nonzero : blen ≠ 0) (len : BitVec 32) :
    (1 + counted blen len : Nat) = pieceNr blen len + spare blen len := by
  have positive := toNat_pos nonzero
  have low := len.isLt
  have low' := blen.isLt
  unfold spare
  split
  · next none =>
    have short : ¬ len > blen := by
      rw [none]
      exact BitVec.not_lt_zero
    rw [counted, if_neg short, none, pieceNr_zero]
    rfl
  · next some =>
    split
    · next short =>
      have short := BitVec.not_lt.mpr short
      rw [counted, if_neg short, pieceNr_short some short]
      rfl
    · next long =>
      have long : len > blen := BitVec.not_le.mp long
      rw [counted, if_pos long]
      split
      · next fits =>
        rw [Nat.mod_eq_of_lt fits, pieceNr]
        omega
      · next wraps =>
        have rest : (len.toNat + blen.toNat - 1) % 2 ^ 32 = len.toNat + blen.toNat - 1 - 2 ^ 32 := by omega
        rw [rest]
        omega

theorem counted_spare_sum (nonzero : blen ≠ 0) (lens : List (BitVec 32)) :
    ((lens.length + (lens.map (counted blen)).sum : Nat) : Int) =
      (lens.map (pieceNr blen)).sum + (lens.map (spare blen)).sum := by
  induction lens with
  | nil => rfl
  | cons len lens ih =>
    have here := counted_spare nonzero len
    simp only [List.length_cons, List.map_cons, List.sum_cons]
    omega

theorem pieces_eq_zero_iff (nonzero : blen ≠ 0) (lens : List (BitVec 32)) :
    (lens.map (pieceNr blen)).sum = 0 ↔ ∀ len ∈ lens, len = 0 := by
  rw [List.sum_eq_zero_iff_forall_eq_nat, List.forall_mem_map]
  apply forall₂_congr
  intro len _
  constructor
  · intro none
    by_contra some
    exact absurd none (pieceNr_pos nonzero some).ne'
  · rintro rfl
    exact pieceNr_zero

/-- The elements that there is room for are those that are counted, as long as their size is not cut. -/
theorem pieces_fit_iff (sizeofRequest : BitVec 32) {pieces count : Nat} {spares : Int}
    (counts : (count : Int) = pieces + spares) :
    pieces ≤ sdescRoom sizeofRequest (BitVec.ofNat 32 count) ↔
      pieces = 0 ∨ (2 ^ 28 * ((sizeofRequest.toNat + 16 * count) / 2 ^ 32) : Nat) ≤ spares := by
  have low := sizeofRequest.isLt
  have size : (sizeofRequest + BitVec.ofNat 32 count * BitVec.ofNat 32 sizeofSwDesc).toNat =
      (sizeofRequest.toNat + 16 * count) % 2 ^ 32 := by
    rw [BitVec.toNat_add, BitVec.toNat_mul, BitVec.toNat_ofNat, BitVec.toNat_ofNat]
    unfold sizeofSwDesc
    omega
  unfold sdescRoom
  rw [size]
  unfold sizeofSwDesc
  omega

end Loops

section Clamped

theorem countExtra_zero (lens : List (BitVec 32)) (extra : BitVec 32) :
    countExtra 0 lens extra = if ∀ len ∈ lens, len = 0 then .ok extra else .error .divideByZero := by
  induction lens with
  | nil => exact (if_pos (List.forall_mem_nil _)).symm
  | cons len lens ih =>
    unfold countExtra
    by_cases none : len = 0
    · rw [if_neg (by rw [none]; exact BitVec.not_lt_zero), ih]
      simp only [List.forall_mem_cons, none, true_and]
    · have some : len > 0 := BitVec.lt_def.mpr (toNat_pos none)
      rw [if_pos some, if_pos rfl, if_neg]
      exact fun all => none (all len (List.mem_cons_self ..))

theorem splitEntries_empty {blen : BitVec 32} {room : Nat} (lens : List (BitVec 32)) (none : ∀ len ∈ lens, len = 0) (j : Nat) :
    splitEntries blen room lens j = .ok j := by
  induction lens with
  | nil => rfl
  | cons len lens ih =>
    obtain ⟨rfl, rest⟩ := List.forall_mem_cons.mp none
    exact ih rest

/-- A limit of zero divides by zero at the first entry with a byte. -/
theorem zero_blen_safe_iff (sizeofRequest : BitVec 32) (lens : List (BitVec 32)) :
    SdescTableSafe 0 sizeofRequest lens ↔ ∀ len ∈ lens, len = 0 := by
  unfold SdescTableSafe sdescWrites
  rw [countExtra_zero]
  split
  · next none => exact iff_of_true ⟨0, splitEntries_empty lens none 0⟩ none
  · next some =>
    apply iff_of_false _ some
    rintro ⟨written, fault⟩
    cases fault

/-- No division by zero, no endless loop and no write past the table: exactly if there is nothing to split, or the
    parameter is not zero and what the wrapping entries lack in the count is spared by others. -/
theorem sdescTableSafe_iff (param sizeofRequest : BitVec 32) (lens : List (BitVec 32)) :
    SdescTableSafe (clampDescBlenMax param) sizeofRequest lens ↔
      (∀ len ∈ lens, len = 0) ∨
        clampDescBlenMax param ≠ 0 ∧
          (2 ^ 28 * ((sizeofRequest.toNat + 16 * (lens.length + (lens.map (counted (clampDescBlenMax param))).sum)) /
            2 ^ 32) : Nat) ≤ (lens.map (spare (clampDescBlenMax param))).sum := by
  by_cases zero : clampDescBlenMax param = 0
  · rw [zero, zero_blen_safe_iff]
    exact (or_iff_left fun both => both.1 rfl).symm
  · rw [sdescTableSafe_iff_room zero, pieces_fit_iff sizeofRequest (counted_spare_sum zero lens),
      pieces_eq_zero_iff zero, and_iff_right zero]

/-- One entry of 4 GiB less a page, which the count takes for one piece. -/
theorem almostFourGiB_overrun : ¬ SdescTableSafe (clampDescBlenMax xdmaDescBlenMax) 336 [0xfffff000] := by
  have overrun : sdescWrites (clampDescBlenMax xdmaDescBlenMax) 336 [0xfffff000] = .error .overrun := by decide +kernel
  rintro ⟨written, runs⟩
  rw [overrun] at runs
  cases runs

/-- Entries that end 256 MiB below 4 GiB do not wrap, so that only the size of the request matters. -/
theorem short_entries_safe (param sizeofRequest : BitVec 32) (lens : List (BitVec 32)) (some : clampDescBlenMax param ≠ 0)
    (short : ∀ len ∈ lens, len.toNat + (clampDescBlenMax param).toNat ≤ 2 ^ 32)
    (fits : sizeofRequest.toNat + 16 * (lens.length + (lens.map (counted (clampDescBlenMax param))).sum) < 2 ^ 32) :
    SdescTableSafe (clampDescBlenMax param) sizeofRequest lens := by
  rw [sdescTableSafe_iff_room some, pieces_fit_iff sizeofRequest (counted_spare_sum some lens), Nat.div_eq_of_lt fits]
  right
  apply List.sum_nonneg
  intro extra member
  obtain ⟨len, inside, rfl⟩ := List.mem_map.mp member
  have below := short len inside
  have positive := toNat_pos some
  unfold spare
  split
  · decide
  · split
    · exact Int.le_refl 0
    · rw [if_pos (by omega)]
      decide

theorem pieceNr_splitEntry (b : Build) (addr : Nat) (len : BitVec 32) :
    pieceNr (BitVec.ofNat 32 b.descBlenMax) len = (splitEntry b addr len.toNat).length := by
  rw [splitEntry_length, pieceNr, BitVec.toNat_ofNat, Nat.mod_eq_of_lt b.descBlenMax_lt]

theorem counted_extraPieces (b : Build) (len : BitVec 32) :
    counted (BitVec.ofNat 32 b.descBlenMax) len = extraPieces b len.toNat := by
  have same : (BitVec.ofNat 32 b.descBlenMax).toNat = b.descBlenMax := by
    rw [BitVec.toNat_ofNat, Nat.mod_eq_of_lt b.descBlenMax_lt]
  unfold counted extraPieces
  rw [same]
  exact if_congr (by rw [gt_iff_lt, BitVec.lt_def, same]) rfl rfl

/-- The table is the one of the requests that calls are followed with. -/
theorem xdmaInitRequest_overrun_iff (b : Build) (small : b.sizeofRequest < 2 ^ 32) (sgt : MappedSg)
    (some : 0 < (sgt.pieces b).length) (epAddr : BitVec 64) :
    xdmaInitRequest b false sgt epAddr = .error .overrun ↔
      ¬ SdescTableSafe (BitVec.ofNat 32 b.descBlenMax) (BitVec.ofNat 32 b.sizeofRequest)
        (sgt.entries.map SgEntry.dmaLen) := by
  have positive := b.descBlenMax_pos
  have nonzero : BitVec.ofNat 32 b.descBlenMax ≠ 0 := by
    intro zero
    have none := congrArg BitVec.toNat zero
    rw [BitVec.toNat_ofNat, Nat.mod_eq_of_lt b.descBlenMax_lt] at none
    exact absurd none positive.ne'
  have pieces : ((sgt.entries.map SgEntry.dmaLen).map (pieceNr (BitVec.ofNat 32 b.descBlenMax))).sum =
      (sgt.pieces b).length := by
    rw [MappedSg.pieces, List.length_flatMap, List.map_map]
    congr 1
    exact List.map_congr_left fun entry _ => pieceNr_splitEntry b _ _
  have count : ((sgt.entries.map SgEntry.dmaLen).map (counted (BitVec.ofNat 32 b.descBlenMax))).sum =
      (sgt.entries.map fun entry => extraPieces b entry.dmaLen.toNat).sum := by
    rw [List.map_map]
    congr 1
    exact List.map_congr_left fun entry _ => counted_extraPieces b _
  have size : (requestSize b (sgt.max b)).toNat =
      (BitVec.ofNat 32 b.sizeofRequest + sgt.max b * BitVec.ofNat 32 sizeofSwDesc).toNat := by
    rw [requestSize, BitVec.ofNat_add, BitVec.ofNat_mul, BitVec.ofNat_toNat, BitVec.setWidth_eq]
  rw [sdescTableSafe_iff_room nonzero, pieces, count, List.length_map]
  change _ ↔ ¬ (sgt.pieces b).length ≤ sdescRoom (BitVec.ofNat 32 b.sizeofRequest) (sgt.max b)
  have base : (BitVec.ofNat 32 b.sizeofRequest).toNat = b.sizeofRequest := by
    rw [BitVec.toNat_ofNat, Nat.mod_eq_of_lt small]
  rw [sdescRoom, ← size, base, xdmaInitRequest, if_neg Bool.false_ne_true]
  dsimp only
  unfold sizeofSwDesc
  split
  · next exceeds => exact iff_of_true rfl (by omega)
  · next fits =>
    apply iff_of_false
    · split
      · rintro ⟨⟩
      · rintro ⟨⟩
    · omega

end Clamped

end CigCard.Xdma
