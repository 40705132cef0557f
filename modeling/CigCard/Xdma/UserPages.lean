import CigCard.Ledger.Registry
import CigCard.Xdma.Cdev

namespace CigCard.Xdma

open Ledger

def userPagesNr (buf len : BitVec 64) : BitVec 32 :=
  ((buf + len + 4096 - 1 - (buf &&& ~~~4095#64)) >>> 12).setWidth 32

/-- What a mapping takes hold of; pins are told apart by their place in `cb->pages`. -/
inductive MapResource where
  | table
  | pages
  | pin (i : Nat)
deriving DecidableEq

/-- What the kernel answers to a mapping: whether there is memory for the table and for the array of pages, what
    `get_user_pages_fast` returns, and the frame of each page it has pinned. -/
structure MapAnswers where
  table : Bool
  pages : Bool
  pinned : Int
  frame : Nat → Nat

/-- The fields of a `struct xdma_io_cb` that a mapping sets, and what is held when it returns. `pages` says that the
    pointer is not NULL. -/
structure IoCb where
  sgl : List SgPage
  pages : Bool
  pagesNr : Nat
  held : Registry MapResource Unit

def pins (n : Nat) : List (MapResource × Unit) := (List.range n).map fun i => (.pin i, ())

def charSgdmaUnmapUserBuf (cb : IoCb) : IoCb :=
  let cb := { cb with sgl := [], held := cb.held.release .table () }
  if cb.pages = false ∨ cb.pagesNr = 0 then cb
  else { cb with pages := false, held := (cb.held.releaseAll (pins cb.pagesNr)).release .pages () }

def MapAnswers.held (sys : MapAnswers) : Registry MapResource Unit :=
  ((Registry.empty.acquire .table ()).acquire .pages ()).acquireAll (pins sys.pinned.toNat)

def efault : Int := 14

def duplicatePages (sys : MapAnswers) (pagesNr : Nat) : Bool :=
  (List.range (pagesNr - 1)).any fun i => sys.frame i == sys.frame (i + 1)

/-- `char_sgdma_map_user_buf_to_sgl` on a control block that has just been cleared. -/
def mapUserBuf (buf len : BitVec 64) (sys : MapAnswers) : Int × IoCb :=
  let pagesNr := (userPagesNr buf len).toNat
  let cb : IoCb := ⟨[], false, 0, .empty⟩
  if pagesNr = 0 then (-einval, cb)
  else if sys.table = false then (-enomem, cb)
  else
    let cb := { cb with held := cb.held.acquire .table () }
    if sys.pages = false then (-enomem, charSgdmaUnmapUserBuf cb)
    else
      let cb := { cb with pages := true, held := cb.held.acquire .pages () }
      if sys.pinned < 0 then (sys.pinned, charSgdmaUnmapUserBuf cb)
      else
        let cb := { cb with held := cb.held.acquireAll (pins sys.pinned.toNat) }
        if sys.pinned.toNat ≠ pagesNr then
          (-efault, charSgdmaUnmapUserBuf { cb with pagesNr := sys.pinned.toNat })
        else if duplicatePages sys pagesNr then (-efault, charSgdmaUnmapUserBuf { cb with pagesNr })
        else
          let (sgl, left) := fillPages pagesNr 0 buf.toNat len.toNat
          if left ≠ 0 then (-einval, { cb with sgl })
          else (0, { cb with sgl, pagesNr })

def SgPage.userBytes (first : Nat) (piece : SgPage) : List Nat :=
  (List.range piece.length).map fun k => (first + piece.page) * pageSize + piece.offset + k

section Filling

theorem and_pageMask (buf : BitVec 64) : buf &&& ~~~4095#64 = (buf >>> 12) <<< 12 := by
  have ones : 4095#64 = (BitVec.allOnes 12).setWidth 64 := by decide
  rw [ones]
  ext i low
  simp only [BitVec.getElem_and, BitVec.getElem_not, BitVec.getElem_setWidth, BitVec.getLsbD_allOnes,
    BitVec.getElem_shiftLeft, BitVec.getElem_ushiftRight]
  by_cases inPage : i < 12
  · simp [inPage]
  · have same : 12 + (i - 12) = i := by omega
    simp only [inPage, decide_false, Bool.not_false, Bool.and_true, same]
    rw [BitVec.getLsbD_eq_getElem low]
    rfl

theorem userPagesNr_toNat {buf len : BitVec 64} (fits : len.toNat < 2 ^ 63) :
    (userPagesNr buf len).toNat = (buf.toNat % pageSize + len.toNat + (pageSize - 1)) / pageSize % 2 ^ 32 := by
  have low := buf.isLt
  have one : (1 : BitVec 64).toNat = 1 := rfl
  have size : (4096 : BitVec 64).toNat = 4096 := rfl
  have mask : (buf &&& ~~~4095#64).toNat = buf.toNat / 4096 * 4096 := by
    rw [and_pageMask, BitVec.toNat_shiftLeft, BitVec.toNat_ushiftRight, Nat.shiftLeft_eq, Nat.shiftRight_eq_div_pow]
    omega
  rw [userPagesNr, BitVec.toNat_setWidth, BitVec.toNat_ushiftRight, BitVec.toNat_sub, mask, Nat.shiftRight_eq_div_pow]
  simp only [BitVec.toNat_sub, BitVec.toNat_add, pageSize, one, size]
  omega

theorem userPagesNr_short {buf len : BitVec 64} (short : len.toNat < 2 ^ 32) :
    (userPagesNr buf len).toNat = (buf.toNat % pageSize + len.toNat + (pageSize - 1)) / pageSize := by
  rw [userPagesNr_toNat (by omega)]
  unfold pageSize
  omega

theorem fillPages_pages (n i buf len : Nat) : (fillPages n i buf len).1.map SgPage.page = List.range' i n := by
  induction n generalizing i buf len with
  | zero => rfl
  | succ n ih =>
    simp only [fillPages, List.map_cons, ih, List.range'_succ]

theorem fillPages_inside (n i buf len : Nat) :
    ∀ piece ∈ (fillPages n i buf len).1, piece.offset + piece.length ≤ pageSize := by
  have size : pageSize = 4096 := rfl
  induction n generalizing i buf len with
  | zero => exact List.forall_mem_nil _
  | succ n ih =>
    simp only [fillPages]
    apply List.forall_mem_cons.mpr ⟨_, ih _ _ _⟩
    rw [size]
    dsimp only
    omega

theorem fillPages_bytes (first n i buf len : Nat) (short : len < 2 ^ 32)
    (place : len = 0 ∨ first + i = buf / pageSize) (enough : len = 0 ∨ buf % pageSize + len ≤ n * pageSize) :
    (fillPages n i buf len).1.flatMap (SgPage.userBytes first) = (List.range len).map (buf + ·) := by
  have size : pageSize = 4096 := rfl
  induction n generalizing i buf len with
  | zero =>
    have none : len = 0 := by omega
    rw [none]
    rfl
  | succ n ih =>
    simp only [fillPages, Nat.mod_eq_of_lt short, List.flatMap_cons]
    obtain ⟨nbytes, cut⟩ : ∃ nbytes, min (pageSize - buf % pageSize) len = nbytes := ⟨_, rfl⟩
    rw [cut]
    simp only [size] at cut place enough ih ⊢
    rw [ih (i + 1) (buf + nbytes) (len - nbytes) (by omega) (by omega) (by omega)]
    have whole : len = nbytes + (len - nbytes) := by omega
    rw [whole, List.range_add, List.map_append, List.map_map, Nat.add_sub_cancel_left]
    congr 1
    · apply List.map_congr_left
      intro k inside
      have below := List.mem_range.mp inside
      dsimp only at below ⊢
      rw [size]
      omega
    · apply List.map_congr_left
      intro k _
      exact Nat.add_assoc _ _ _

/-- What `min_t` cuts off never crosses a multiple of 2^32, so that such a multiple is left of a longer buffer. -/
theorem fillPages_long (n i buf len : Nat) (long : 2 ^ 32 ≤ len) : 2 ^ 32 ≤ (fillPages n i buf len).2 := by
  induction n generalizing i buf len with
  | zero => exact long
  | succ n ih =>
    simp only [fillPages]
    apply ih
    have cut : min (pageSize - buf % pageSize) (len % 2 ^ 32) ≤ len % 2 ^ 32 := Nat.min_le_right _ _
    omega

theorem fillPages_left_iff (buf len : BitVec 64) :
    (fillPages (userPagesNr buf len).toNat 0 buf.toNat len.toNat).2 = 0 ↔ len.toNat < 2 ^ 32 := by
  constructor
  · intro none
    by_contra long
    have left := fillPages_long (userPagesNr buf len).toNat 0 buf.toNat len.toNat (by omega)
    omega
  · intro short
    apply fillPages_left _ _ _ _ short
    rw [userPagesNr_short short]
    unfold pageSize
    omega

end Filling

section Mapping

/-- The scatter-gather entries cover exactly the buffer, in order, entry `i` in page `i` of the buffer. -/
structure Tiles (buf len : BitVec 64) (sgl : List SgPage) : Prop where
  pages : sgl.map SgPage.page = List.range (userPagesNr buf len).toNat
  inside : ∀ piece ∈ sgl, piece.offset + piece.length ≤ pageSize
  bytes : sgl.flatMap (SgPage.userBytes (buf.toNat / pageSize)) = (List.range len.toNat).map (buf.toNat + ·)

structure MapAnswers.Granted (sys : MapAnswers) (pagesNr : Nat) : Prop where
  table : sys.table = true
  pages : sys.pages = true
  pinned : sys.pinned = pagesNr
  distinct : ∀ i j, i < pagesNr → j < pagesNr → sys.frame i = sys.frame j → i = j

variable {buf len : BitVec 64} {sys : MapAnswers}

inductive MapPath (buf len : BitVec 64) (sys : MapAnswers) (r : Int × IoCb) : Prop where
  | untouched (none : (userPagesNr buf len).toNat = 0) (ends : r = (-einval, ⟨[], false, 0, .empty⟩))
  | noTable (some : (userPagesNr buf len).toNat ≠ 0) (refused : sys.table = false)
    (ends : r = (-enomem, ⟨[], false, 0, .empty⟩))
  | noPages (some : (userPagesNr buf len).toNat ≠ 0) (table : sys.table = true) (refused : sys.pages = false)
    (ends : r = (-enomem, charSgdmaUnmapUserBuf ⟨[], false, 0, Registry.empty.acquire .table ()⟩))
  | notPinned (some : (userPagesNr buf len).toNat ≠ 0) (table : sys.table = true) (pages : sys.pages = true)
    (failed : sys.pinned < 0) (ends : r = (sys.pinned, charSgdmaUnmapUserBuf ⟨[], true, 0, sys.held⟩))
  | fewPinned (some : (userPagesNr buf len).toNat ≠ 0) (table : sys.table = true) (pages : sys.pages = true)
    (pinned : 0 ≤ sys.pinned) (few : sys.pinned.toNat ≠ (userPagesNr buf len).toNat)
    (ends : r = (-efault, charSgdmaUnmapUserBuf ⟨[], true, sys.pinned.toNat, sys.held⟩))
  | duplicate (some : (userPagesNr buf len).toNat ≠ 0) (table : sys.table = true) (pages : sys.pages = true)
    (pinned : sys.pinned = (userPagesNr buf len).toNat) (found : duplicatePages sys (userPagesNr buf len).toNat = true)
    (ends : r = (-efault, charSgdmaUnmapUserBuf ⟨[], true, (userPagesNr buf len).toNat, sys.held⟩))
  | tooLong (some : (userPagesNr buf len).toNat ≠ 0) (table : sys.table = true) (pages : sys.pages = true)
    (pinned : sys.pinned = (userPagesNr buf len).toNat) (fine : duplicatePages sys (userPagesNr buf len).toNat = false)
    (long : 2 ^ 32 ≤ len.toNat)
    (ends : r = (-einval, ⟨(fillPages (userPagesNr buf len).toNat 0 buf.toNat len.toNat).1, true, 0, sys.held⟩))
  | mapped (some : (userPagesNr buf len).toNat ≠ 0) (table : sys.table = true) (pages : sys.pages = true)
    (pinned : sys.pinned = (userPagesNr buf len).toNat) (fine : duplicatePages sys (userPagesNr buf len).toNat = false)
    (short : len.toNat < 2 ^ 32)
    (ends : r = (0, ⟨(fillPages (userPagesNr buf len).toNat 0 buf.toNat len.toNat).1, true,
      (userPagesNr buf len).toNat, sys.held⟩))

theorem mapUserBuf_path (buf len : BitVec 64) (sys : MapAnswers) : MapPath buf len sys (mapUserBuf buf len sys) := by
  have left := fillPages_left_iff buf len
  unfold mapUserBuf
  dsimp only
  split
  · next none => exact .untouched none rfl
  · next some =>
    split
    · next refused => exact .noTable some refused rfl
    · next table =>
      have table := Bool.not_eq_false _ |>.mp table
      split
      · next refused => exact .noPages some table refused rfl
      · next pages =>
        have pages := Bool.not_eq_false _ |>.mp pages
        split
        · next failed =>
          refine .notPinned some table pages failed ?_
          have none : sys.pinned.toNat = 0 := by omega
          rw [MapAnswers.held, none]
          rfl
        · next pinned =>
          split
          · next few => exact .fewPinned some table pages (by omega) few rfl
          · next all =>
            have all : sys.pinned = (userPagesNr buf len).toNat := by omega
            split
            · next found => exact .duplicate some table pages all found rfl
            · next fine =>
              have fine := Bool.eq_false_iff.mpr fine
              split
              · next more => exact .tooLong some table pages all fine (by omega) rfl
              · next done => exact .mapped some table pages all fine (left.mp (not_not.mp done)) rfl

theorem duplicatePages_distinct {n : Nat} (distinct : ∀ i j, i < n → j < n → sys.frame i = sys.frame j → i = j) :
    duplicatePages sys n = false := by
  apply List.any_eq_false.mpr
  intro i inside
  have below := List.mem_range.mp inside
  intro same
  have equal := distinct i (i + 1) (by omega) (by omega) (beq_iff_eq.mp same)
  omega

theorem mapUserBuf_success (success : (mapUserBuf buf len sys).1 = 0) :
    len.toNat < 2 ^ 32 ∧
      (mapUserBuf buf len sys).2.sgl = (fillPages (userPagesNr buf len).toNat 0 buf.toNat len.toNat).1 := by
  cases mapUserBuf_path buf len sys with
  | mapped _ _ _ _ _ short ends =>
    rw [ends]
    exact ⟨short, rfl⟩
  | notPinned _ _ _ failed ends =>
    rw [ends] at success
    exact absurd success failed.ne
  | untouched _ ends => rw [ends] at success; cases success
  | noTable _ _ ends => rw [ends] at success; cases success
  | noPages _ _ _ ends => rw [ends] at success; cases success
  | fewPinned _ _ _ _ _ ends => rw [ends] at success; cases success
  | duplicate _ _ _ _ _ ends => rw [ends] at success; cases success
  | tooLong _ _ _ _ _ _ ends => rw [ends] at success; cases success

/-- A mapping that succeeds is an exact tiling of the buffer, and it succeeds for every buffer of less than 4 GiB less
    two pages of which all pages are pinned and are different. -/
theorem mapUserBuf_exact (buf len : BitVec 64) (sys : MapAnswers) :
    ((mapUserBuf buf len sys).1 = 0 → Tiles buf len (mapUserBuf buf len sys).2.sgl) ∧
      (0 < len.toNat → len.toNat < 2 ^ 32 - 8192 → sys.Granted (userPagesNr buf len).toNat →
        (mapUserBuf buf len sys).1 = 0) := by
  constructor
  · intro success
    obtain ⟨short, sgl⟩ := mapUserBuf_success success
    rw [sgl]
    refine ⟨?_, fillPages_inside _ _ _ _, ?_⟩
    · rw [fillPages_pages, List.range_eq_range']
    · apply fillPages_bytes _ _ _ _ _ short (.inr (Nat.add_zero _))
      rw [userPagesNr_short short]
      unfold pageSize
      omega
  · intro some short granted
    have touches : (userPagesNr buf len).toNat ≠ 0 := by
      rw [userPagesNr_short (by omega)]
      unfold pageSize
      omega
    have fine := duplicatePages_distinct granted.distinct
    cases mapUserBuf_path buf len sys with
    | mapped _ _ _ _ _ _ ends => rw [ends]
    | untouched none _ => exact absurd none touches
    | noTable _ refused _ => rw [granted.table] at refused; cases refused
    | noPages _ _ refused _ => rw [granted.pages] at refused; cases refused
    | notPinned _ _ _ failed _ => rw [granted.pinned] at failed; omega
    | fewPinned _ _ _ _ few _ => rw [granted.pinned] at few; exact absurd (Int.toNat_natCast _) few
    | duplicate _ _ _ _ found _ => rw [fine] at found; cases found
    | tooLong _ _ _ _ _ long _ => omega

def pinnedPages (n : Nat) : MapAnswers := ⟨true, true, n, id⟩

theorem pinnedPages_granted (n : Nat) : (pinnedPages n).Granted n :=
  ⟨rfl, rfl, rfl, fun _ _ _ _ same => same⟩

theorem straddling_mapped :
    (mapUserBuf 0x10ff0 64 (pinnedPages 2)).1 = 0 ∧ Tiles 0x10ff0 64 (mapUserBuf 0x10ff0 64 (pinnedPages 2)).2.sgl := by
  have exact_map := mapUserBuf_exact 0x10ff0 64 (pinnedPages 2)
  have success := exact_map.2 (by decide) (by decide) (pinnedPages_granted 2)
  exact ⟨success, exact_map.1 success⟩

/-- Where everything is granted, the mapping is the one that the calls on a character device are followed with. -/
theorem mapUserBuf_granted (io : Iovec) (granted : sys.Granted (pagesNr io.iovBase io.iovLen)) :
    charSgdmaMapUserBufToSgl io.iovBase io.iovLen =
      if (mapUserBuf (BitVec.ofNat 64 io.iovBase) (BitVec.ofNat 64 io.iovLen) sys).1 = 0 then
        .ok (mapUserBuf (BitVec.ofNat 64 io.iovBase) (BitVec.ofNat 64 io.iovLen) sys).2.sgl
      else .error (mapUserBuf (BitVec.ofNat 64 io.iovBase) (BitVec.ofNat 64 io.iovLen) sys).1 := by
  have user := io.user
  have base : (BitVec.ofNat 64 io.iovBase).toNat = io.iovBase := Nat.mod_eq_of_lt (by omega)
  have len : (BitVec.ofNat 64 io.iovLen).toNat = io.iovLen := Nat.mod_eq_of_lt (by omega)
  have same : (userPagesNr (BitVec.ofNat 64 io.iovBase) (BitVec.ofNat 64 io.iovLen)).toNat =
      pagesNr io.iovBase io.iovLen := by
    rw [userPagesNr_toNat (by omega), base, len]
    unfold pagesNr pageSize
    congr 1
    omega
  have left := fillPages_left_iff (BitVec.ofNat 64 io.iovBase) (BitVec.ofNat 64 io.iovLen)
  have fine := duplicatePages_distinct granted.distinct
  rw [same, base, len] at left
  unfold charSgdmaMapUserBufToSgl
  cases mapUserBuf_path (BitVec.ofNat 64 io.iovBase) (BitVec.ofNat 64 io.iovLen) sys with
  | untouched none ends =>
    rw [same] at none
    rw [ends, if_pos none]
    rfl
  | noTable _ refused _ => rw [granted.table] at refused; cases refused
  | noPages _ _ refused _ => rw [granted.pages] at refused; cases refused
  | notPinned _ _ _ failed _ => rw [granted.pinned] at failed; omega
  | fewPinned _ _ _ _ few _ =>
    rw [same, granted.pinned] at few
    exact absurd (Int.toNat_natCast _) few
  | duplicate _ _ _ _ found _ =>
    rw [same, fine] at found
    cases found
  | tooLong some _ _ _ _ long ends =>
    rw [same] at some
    rw [len] at long
    rw [ends, if_neg some]
    exact if_pos fun none => absurd (left.mp none) (Nat.not_lt_of_le long)
  | mapped some _ _ _ _ short ends =>
    rw [len] at short
    rw [same, base, len] at ends
    rw [same] at some
    rw [ends, if_neg some]
    exact if_neg fun more => more (left.mpr short)

end Mapping

section Undoing

variable {buf len : BitVec 64} {sys : MapAnswers}

/-- A mapping that fails leaves nothing held, and has given back nothing twice. -/
def MapUndone (r : Int × IoCb) : Prop := r.1 ≠ 0 → r.2.held.Holds [] ∧ r.2.held.misused = false

def LeavesHeld (buf len : BitVec 64) (sys : MapAnswers) : Prop :=
  (userPagesNr buf len).toNat ≠ 0 ∧ sys.table = true ∧ sys.pages = true ∧
    (sys.pinned ≤ 0 ∨
      sys.pinned = (userPagesNr buf len).toNat ∧ duplicatePages sys (userPagesNr buf len).toNat = false ∧
        2 ^ 32 ≤ len.toNat)

instance (buf len : BitVec 64) (sys : MapAnswers) : Decidable (LeavesHeld buf len sys) :=
  inferInstanceAs (Decidable (_ ∧ _ ∧ _ ∧ (_ ∨ _ ∧ _ ∧ _)))

def mapClaims (n : Nat) : List (MapResource × Unit) := (.table, ()) :: (pins n ++ [(.pages, ())])

theorem pins_keys (n : Nat) : (pins n).map Prod.fst = (List.range n).map .pin := by
  rw [pins, List.map_map]
  rfl

theorem mapClaims_distinct (n : Nat) : ((mapClaims n).map Prod.fst).Nodup := by
  have pinned : ((List.range n).map MapResource.pin).Nodup :=
    List.Nodup.map (fun _ _ same => MapResource.pin.inj same) List.nodup_range
  simp [mapClaims, pins_keys, List.nodup_append, pinned]

theorem nothing_held : (Registry.empty : Registry MapResource Unit).Holds [] := by
  intro key user
  simp [Registry.empty]

theorem held_claims (sys : MapAnswers) :
    sys.held.Holds (mapClaims sys.pinned.toNat) ∧ sys.held.misused = false := by
  have two : ((Registry.empty.acquire MapResource.table ()).acquire .pages ()).Holds [(.table, ()), (.pages, ())] := by
    exact (nothing_held.acquire .table () rfl).acquire .pages () rfl
  have pinned : ((List.range sys.pinned.toNat).map MapResource.pin).Nodup :=
    List.Nodup.map (fun _ _ same => MapResource.pin.inj same) List.nodup_range
  obtain ⟨holds, misused⟩ := @Registry.Holds.acquireAll MapResource Unit _ _ _ (pins sys.pinned.toNat) two
    (by simp [pins_keys, pinned])
  refine ⟨fun key user => (holds key user).trans ?_, misused⟩
  simp only [mapClaims, List.mem_append, List.mem_cons, List.not_mem_nil, or_false]
  grind

theorem unmap_all {sgl : List SgPage} {n : Nat} {held : Registry MapResource Unit} (some : n ≠ 0)
    (holds : held.Holds (mapClaims n)) (clean : held.misused = false) :
    (charSgdmaUnmapUserBuf ⟨sgl, true, n, held⟩).held.Holds [] ∧
      (charSgdmaUnmapUserBuf ⟨sgl, true, n, held⟩).held.misused = false := by
  have order : (charSgdmaUnmapUserBuf ⟨sgl, true, n, held⟩).held = held.releaseAll (mapClaims n) := by
    unfold charSgdmaUnmapUserBuf
    dsimp only
    rw [if_neg (by simp [some]), mapClaims, Registry.releaseAll_cons, Registry.releaseAll_append]
    rfl
  obtain ⟨empty, misused⟩ := holds.releaseAll (mapClaims_distinct n)
  rw [order]
  exact ⟨empty, misused.trans clean⟩

theorem unmap_early {sgl : List SgPage} {m : Nat} {held : Registry MapResource Unit} (holds : held.Holds (mapClaims m)) :
    ¬ (charSgdmaUnmapUserBuf ⟨sgl, true, 0, held⟩).held.Holds [] := by
  intro empty
  have array : held.owner .pages = some () := (holds .pages ()).mpr (by simp [mapClaims])
  have table : held.owner .table = some () := (holds .table ()).mpr (by simp [mapClaims])
  have none := empty.nothing .pages
  unfold charSgdmaUnmapUserBuf at none
  dsimp only at none
  rw [if_pos (.inr rfl), Registry.release_held table] at none
  simp [array] at none

/-- A mapping undoes what it has done when it fails, except in the cases of `LeavesHeld`. -/
theorem mapUserBuf_undone_iff (buf len : BitVec 64) (sys : MapAnswers) :
    MapUndone (mapUserBuf buf len sys) ↔ ¬ LeavesHeld buf len sys := by
  obtain ⟨holds, clean⟩ := held_claims sys
  cases mapUserBuf_path buf len sys with
  | untouched none ends =>
    rw [ends]
    exact iff_of_true (fun _ => ⟨nothing_held, rfl⟩) fun leaves => leaves.1 none
  | noTable _ refused ends =>
    rw [ends]
    apply iff_of_true (fun _ => ⟨nothing_held, rfl⟩)
    intro leaves
    rw [leaves.2.1] at refused
    cases refused
  | noPages _ _ refused ends =>
    rw [ends]
    apply iff_of_true
    · intro _
      have back : (charSgdmaUnmapUserBuf ⟨[], false, 0, Registry.empty.acquire .table ()⟩).held = .empty :=
        @Registry.release_acquire MapResource Unit _ _ .empty .table () rfl
      rw [back]
      exact ⟨nothing_held, rfl⟩
    · intro leaves
      rw [leaves.2.2.1] at refused
      cases refused
  | notPinned some table pages failed ends =>
    rw [ends]
    exact iff_of_false (fun undone => unmap_early holds (undone failed.ne).1)
      fun fine => fine ⟨some, table, pages, .inl failed.le⟩
  | fewPinned some table pages pinned few ends =>
    rw [ends]
    by_cases none : sys.pinned.toNat = 0
    · rw [none]
      have error : -efault ≠ 0 := by decide
      exact iff_of_false (fun undone => unmap_early holds (undone error).1)
        fun fine => fine ⟨some, table, pages, .inl (by omega)⟩
    · apply iff_of_true (fun _ => unmap_all none holds clean)
      rintro ⟨-, -, -, nothing | ⟨all, -⟩⟩
      · omega
      · omega
  | duplicate some table pages all found ends =>
    rw [ends]
    have count : sys.pinned.toNat = (userPagesNr buf len).toNat := by omega
    rw [count] at holds
    apply iff_of_true (fun _ => unmap_all some holds clean)
    rintro ⟨-, -, -, nothing | ⟨-, fine, -⟩⟩
    · omega
    · rw [found] at fine
      cases fine
  | tooLong some table pages all fine long ends =>
    have error : -einval ≠ 0 := by decide
    rw [ends]
    apply iff_of_false
    · intro undone
      have none := (undone error).1.nothing .table
      rw [(holds .table ()).mpr (by simp [mapClaims])] at none
      cases none
    · exact fun keeps => keeps ⟨some, table, pages, .inr ⟨all, fine, long⟩⟩
  | mapped _ _ _ all _ short ends =>
    rw [ends]
    apply iff_of_true (fun failed => absurd rfl failed)
    rintro ⟨some, -, -, nothing | ⟨-, -, long⟩⟩
    · omega
    · omega

/-- Where no page can be pinned, the array of pages is not freed. -/
theorem notPinned_leaves_pages : ¬ MapUndone (mapUserBuf 0x10000 64 ⟨true, true, -efault, id⟩) := by
  intro undone
  have none := (undone (by decide)).1.nothing .pages
  exact absurd none (by decide)

end Undoing

end CigCard.Xdma
