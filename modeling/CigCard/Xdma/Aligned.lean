import CigCard.Ring.InTurn
import CigCard.Xdma.ByteExact
import CigCard.Xdma.UserPages

namespace CigCard.Xdma

open Ring

/-- What the DMA layer makes of the pieces of a buffer: an entry for each of them, or for several that follow each
    other in memory and are put together at the ends of pages. It keeps the offset in the page. -/
structure MergedInto (group : List SgPage) (entry : SgEntry) : Prop where
  place : ∃ first later, group = first :: later ∧ entry.dmaAddress.toNat % pageSize = first.offset % pageSize
  joined : List.IsChain (fun piece next => piece.offset + piece.length = pageSize ∧ next.offset = 0) group
  size : entry.dmaLen.toNat = (group.map SgPage.length).sum

def DmaMapped (pieces : List SgPage) (entries : List SgEntry) : Prop :=
  ∃ groups, groups.flatten = pieces ∧ List.Forall₂ MergedInto groups entries

section Alignment

variable {b : Build} {cfg : EngineConfig} {m : Nat}

theorem fillPages_inTurn (n i buf len : Nat) :
    InTurn pageSize SgPage.offset SgPage.length buf (fillPages n i buf len).1 := by
  induction n generalizing i buf len with
  | zero => trivial
  | succ n ih => exact ⟨Nat.mod_mod _ _, ih _ _ _⟩

theorem splitEntry_inTurn (divides : m ∣ 2 ^ 64) (addr tlen : Nat) :
    InTurn m SwDesc.addr SwDesc.len addr (splitEntry b addr tlen) := by
  fun_induction splitEntry b addr tlen with
  | case1 addr => trivial
  | case2 addr tlen _ long ih => exact ⟨rfl, ih.shift (Nat.mod_mod_of_dvd _ divides)⟩
  | case3 addr tlen _ short => exact ⟨rfl, trivial⟩

theorem splitEntry_sum (addr tlen : Nat) : ((splitEntry b addr tlen).map SwDesc.len).sum = tlen := by
  fun_induction splitEntry b addr tlen with
  | case1 addr => rfl
  | case2 addr tlen _ long ih =>
    rw [List.map_cons, List.sum_cons, ih]
    exact Nat.add_sub_of_le long.le
  | case3 addr tlen _ short => simp

theorem pieces_inTurn (divides : m ∣ 2 ^ 64) {sgt : MappedSg} {start : Nat}
    (entries : InTurn m (fun entry => entry.dmaAddress.toNat) (fun entry => entry.dmaLen.toNat) start sgt.entries) :
    InTurn m SwDesc.addr SwDesc.len start (sgt.pieces b) :=
  entries.cut (fun _ => splitEntry_inTurn divides _ _) fun _ => splitEntry_sum _ _

/-- Host and device address go on in step, so that the first ones decide. -/
theorem transferBuild_aligned (divides : m ∣ 2 ^ 64) (moving : cfg.nonIncrAddr = false) (pieces : List SwDesc)
    (start epAddr : Nat) (same : start % m = epAddr % m) (turn : InTurn m SwDesc.addr SwDesc.len start pieces) :
    ∀ desc ∈ (transferBuild cfg pieces epAddr).1, desc.hostAddr % m = desc.epAddr % m := by
  induction pieces generalizing start epAddr with
  | nil => exact List.forall_mem_nil _
  | cons piece pieces ih =>
    obtain ⟨here, later⟩ := turn
    simp only [transferBuild, moving, Bool.false_eq_true, if_false]
    intro desc member
    rcases List.mem_cons.mp member with rfl | member
    · exact here.trans same
    · apply ih _ _ _ later desc member
      rw [Nat.mod_mod_of_dvd _ divides]
      exact Nat.ModEq.add_right piece.len same

theorem alignBits_eq_iff {addrAlign : BitVec 8} {n : Nat} (power : addrAlign.toNat = 2 ^ n) (x y : Nat) :
    alignBits x addrAlign = alignBits y addrAlign ↔ x % addrAlign.toNat = y % addrAlign.toNat := by
  have small := addrAlign.isLt
  have some : 0 < 2 ^ n := Nat.two_pow_pos n
  have divides : addrAlign.toNat ∣ 2 ^ 32 := by
    rw [power] at small ⊢
    exact Nat.pow_dvd_pow 2 ((Nat.pow_lt_pow_iff_right (by decide)).mp small |>.le.trans (by decide))
  have bits : ∀ z, (alignBits z addrAlign).toNat = z % addrAlign.toNat := by
    intro z
    have mask : (addrAlign.setWidth 32 - 1).toNat = 2 ^ n - 1 := by
      have one : (1 : BitVec 32).toNat = 1 := rfl
      rw [BitVec.toNat_sub, BitVec.toNat_setWidth, one]
      omega
    rw [alignBits, BitVec.toNat_and, mask, BitVec.toNat_ofNat, Nat.and_two_pow_sub_one_eq_mod, ← power,
      Nat.mod_mod_of_dvd _ divides]
  rw [← BitVec.toNat_inj, bits, bits]

theorem checkTransferAlign_moving {dev : CharDevice} (moving : dev.cfg.nonIncrAddr = false) {buf count : Nat}
    {pos : BitVec 64} {sync : Bool} (fine : checkTransferAlign dev buf count pos sync = 0) :
    alignBits buf dev.addrAlign = alignBits pos.toNat dev.addrAlign := by
  rw [checkTransferAlign, if_neg (Bool.eq_false_iff.mp moving)] at fine
  by_contra differ
  rw [if_pos differ] at fine
  cases fine

theorem mapped_inTurn {buf len : BitVec 64} {sys : MapAnswers} (success : (mapUserBuf buf len sys).1 = 0)
    {entries : List SgEntry} (mapped : DmaMapped (mapUserBuf buf len sys).2.sgl entries) :
    InTurn pageSize (fun entry => entry.dmaAddress.toNat) (fun entry => entry.dmaLen.toNat) buf.toNat entries := by
  have turn : InTurn pageSize SgPage.offset SgPage.length buf.toNat (mapUserBuf buf len sys).2.sgl := by
    rw [(mapUserBuf_success success).2]
    exact fillPages_inTurn _ _ _ _
  obtain ⟨groups, whole, merged⟩ := mapped
  rw [← whole] at turn
  exact turn.merge (merged.imp fun _ _ into => ⟨into.place, into.size⟩)

theorem submitted_descs {sgt : MappedSg} {oom : Bool} {outcome : Nat → Outcome} {e : Engine} {pos : BitVec 64}
    {s : Submitted} (cursor : e.descIdx < cfg.descMax) (runs : xdmaXferSubmit b cfg oom outcome e sgt pos = .ok s) :
    s.descs <+: descriptors cfg (sgt.pieces b) pos.toNat := by
  cases init : xdmaInitRequest b oom sgt pos with
  | error fault =>
    rw [xdmaXferSubmit, init] at runs
    cases runs
  | ok built =>
    rw [xdmaXferSubmit, init] at runs
    cases built with
    | none =>
      cases runs
      exact List.nil_prefix
    | some req =>
      change submitLoop cfg outcome ⟨0, 0⟩ (req.sdesc.length + 1) 0 0 e req = .ok s at runs
      cases xdmaInitRequest_req init
      obtain ⟨other, loop, carried⟩ := @submitLoop_carried cfg outcome ⟨0, 0⟩ ((sgt.pieces b).length + 1) 0 0 e
        ⟨sgt.pieces b, 0, pos.toNat⟩ cursor (Nat.lt_succ_self _)
      rw [loop] at runs
      cases runs
      exact carried.built

/-- Where the check of a call passes, the addresses of every descriptor that the call builds agree modulo the
    alignment of the engine. -/
theorem submit_aligned (b : Build) (dev : CharDevice) (moving : dev.cfg.nonIncrAddr = false) (n : Nat)
    (power : dev.addrAlign.toNat = 2 ^ n) (buf len pos : BitVec 64)
    (fine : checkTransferAlign dev buf.toNat len.toNat pos true = 0) (sys : MapAnswers)
    (success : (mapUserBuf buf len sys).1 = 0) (sgt : MappedSg)
    (mapped : DmaMapped (mapUserBuf buf len sys).2.sgl sgt.entries) (oom : Bool) (outcome : Nat → Outcome) (e : Engine)
    (cursor : e.descIdx < dev.cfg.descMax) (s : Submitted)
    (runs : xdmaXferSubmit b dev.cfg oom outcome e sgt pos = .ok s) :
    ∀ xfer ∈ s.transfers, ∀ desc ∈ xfer.descs,
      desc.hostAddr % dev.addrAlign.toNat = desc.epAddr % dev.addrAlign.toNat := by
  have small := dev.addrAlign.isLt
  have bits : n ≤ 12 := by
    rw [power] at small
    exact (Nat.pow_lt_pow_iff_right (by decide)).mp small |>.le.trans (by decide)
  have page : dev.addrAlign.toNat ∣ pageSize := by
    rw [power]
    exact Nat.pow_dvd_pow 2 bits
  have whole : dev.addrAlign.toNat ∣ 2 ^ 64 := page.trans (by decide)
  have same : buf.toNat % dev.addrAlign.toNat = pos.toNat % dev.addrAlign.toNat :=
    (alignBits_eq_iff power _ _).mp (checkTransferAlign_moving moving fine)
  have turn := @pieces_inTurn b dev.addrAlign.toNat whole sgt buf.toNat ((mapped_inTurn success mapped).of_dvd page)
  have planned := transferBuild_aligned whole moving (sgt.pieces b) buf.toNat pos.toNat same turn
  intro xfer member desc inside
  apply planned
  exact (submitted_descs cursor runs).subset (List.mem_flatMap.mpr ⟨xfer, member, inside⟩)

def wordChannel : CharDevice where
  cfg := mmEngine
  addrAlign := 8
  lenGranularity := 1
  pciMapSg := fun _ _ => none

def straddlingList : MappedSg := ⟨[⟨0x7ff4, 12⟩, ⟨0x9000, 52⟩], by decide, by decide⟩

theorem straddlingList_mapped : DmaMapped (mapUserBuf 0x10ff4 64 (pinnedPages 2)).2.sgl straddlingList.entries := by
  refine ⟨[[⟨0, 0xff4, 12⟩], [⟨1, 0, 52⟩]], by decide, ?_⟩
  have first : MergedInto [⟨0, 0xff4, 12⟩] ⟨0x7ff4, 12⟩ := ⟨⟨_, _, rfl, by decide⟩, .singleton _, by decide⟩
  have second : MergedInto [⟨1, 0, 52⟩] ⟨0x9000, 52⟩ := ⟨⟨_, _, rfl, by decide⟩, .singleton _, by decide⟩
  exact .cons first (.cons second .nil)

theorem straddlingList_aligned :
    ∃ s, xdmaXferSubmit usualBuild mmEngine false (fun _ => .completed) idleDriver.engine straddlingList 0x1004 = .ok s ∧
      ∀ xfer ∈ s.transfers, ∀ desc ∈ xfer.descs, desc.hostAddr % 8 = desc.epAddr % 8 := by
  have fits : TableFits usualBuild straddlingList := by
    constructor
    · decide
    · decide
  obtain ⟨s, runs, -⟩ := @xdmaXferSubmit_carried usualBuild mmEngine straddlingList 0x1004 idleDriver.engine
    (fun _ => .completed) (by decide) fits
  exact ⟨s, runs, submit_aligned usualBuild wordChannel rfl 3 rfl 0x10ff4 64 0x1004 (by decide) (pinnedPages 2)
    (by decide) straddlingList straddlingList_mapped false (fun _ => .completed) idleDriver.engine (by decide) s runs⟩

end Alignment

end CigCard.Xdma
