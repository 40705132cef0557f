import CigCard.Tools.Numerals
import CigCard.Xdma.BarAccess

namespace CigCard.Tools

open ByteMemory Mailbox Xdma

inductive AccessWidth where
  | byte
  | half
  | word

def AccessWidth.bytes : AccessWidth → Nat
  | .byte => 1
  | .half => 2
  | .word => 4

def accessWidth : List Byte → AccessWidth
  | 98 :: _ | 66 :: _ => .byte
  | 104 :: _ | 72 :: _ => .half
  | _ => .word

structure UserRange where
  vmStart : BitVec 64
  low : vmStart.toNat + 2 * pageSize < 2 ^ 64

/-- Whether the device can be opened, and what `xcdev_check` and `io_remap_pfn_range` return. -/
structure RegKernel where
  opens : Bool
  check : Int
  remap : Int
  place : UserRange

def pageOffset (target : BitVec 64) : Nat := target.toNat % pageSize

def targetAligned (target : BitVec 64) : BitVec 64 := target &&& ~~~0xfff#64

def mapPages (target : BitVec 64) : Nat := if pageOffset target + 4 ≤ pageSize then 1 else 2

theorem mapPages_le (target : BitVec 64) : 0 < mapPages target ∧ mapPages target ≤ 2 := by
  unfold mapPages
  split
  · decide
  · decide

theorem mapEnd_toNat (place : UserRange) (target : BitVec 64) :
    (place.vmStart + BitVec.ofNat 64 (mapPages target * pageSize)).toNat =
      place.vmStart.toNat + mapPages target * pageSize := by
  have low := place.low
  have few := (mapPages_le target).2
  have unit : pageSize = 4096 := rfl
  rw [unit] at low
  rw [BitVec.toNat_add, BitVec.toNat_ofNat, unit]
  omega

theorem mapVma_some (place : UserRange) (target : BitVec 64) :
    place.vmStart < place.vmStart + BitVec.ofNat 64 (mapPages target * pageSize) := by
  have some := (mapPages_le target).1
  have unit : pageSize = 4096 := rfl
  rw [BitVec.lt_def, mapEnd_toNat, unit]
  omega

theorem mapVma_size (place : UserRange) (target : BitVec 64) :
    (place.vmStart + BitVec.ofNat 64 (mapPages target * pageSize) - place.vmStart).toNat = mapPages target * pageSize := by
  rw [BitVec.toNat_sub_of_le (BitVec.le_of_lt (mapVma_some place target)), mapEnd_toNat, Nat.add_sub_cancel_left]

theorem mapVma_pages (place : UserRange) (target : BitVec 64) :
    pageSize ∣ (place.vmStart + BitVec.ofNat 64 (mapPages target * pageSize) - place.vmStart).toNat := by
  rw [mapVma_size]
  exact Nat.dvd_mul_left _ _

/-- What the kernel makes of `mmap (NULL, offset + 4, .., fd, target_aligned)`. -/
def mapVma (place : UserRange) (target : BitVec 64) : Vma :=
  ⟨targetAligned target >>> 12, place.vmStart, place.vmStart + BitVec.ofNat 64 (mapPages target * pageSize),
    mapVma_some place target, mapVma_pages place target⟩

inductive RegRwEnd where
  | usage
  | openFailed
  | mmapFailed
  | read (text : List Byte)
  | wrote

def regRead (width : AccessWidth) (map : Nat) (phys : Memory) : RegRwEnd :=
  .read (hexText (2 * width.bytes) (number phys map width.bytes))

def regWrite (width : AccessWidth) (map : Nat) (data : List Byte) (phys : Memory) : Memory :=
  store phys map (leBytes width.bytes (strtoul data).toNat)

def regRw (kernel : RegKernel) (bar : Bar) (argv : List (List Byte)) (phys : Memory) : RegRwEnd × Memory :=
  match argv with
  | _ :: _ :: address :: options =>
    let target := strtoul address
    if !kernel.opens then (.openFailed, phys)
    else
      match bridgeMmap kernel.check bar (mapVma kernel.place target) kernel.remap with
      | .failed _ => (.mmapFailed, phys)
      | .mapped pfn _ =>
        let map := pfn.toNat * pageSize + pageOffset target
        match options with
        | [] => (regRead .word map phys, phys)
        | [type] => (regRead (accessWidth type) map phys, phys)
        | type :: data :: _ => (.wrote, regWrite (accessWidth type) map data phys)
  | _ => (.usage, phys)

section Mapping

variable {kernel : RegKernel} {bar : Bar} {target : BitVec 64}

/-- Whether the pages that the tool maps are in the BAR, of which it needs one byte of the last. -/
def Fits (bar : Bar) (target : BitVec 64) : Prop :=
  target.toNat - pageOffset target + mapPages target * pageSize ≤ bar.len.toNat

instance (bar : Bar) (target : BitVec 64) : Decidable (Fits bar target) := inferInstanceAs (Decidable (_ ≤ _))

theorem targetAligned_shift (target : BitVec 64) : targetAligned target = (target >>> 12) <<< 12 := by
  apply BitVec.eq_of_getLsbD_eq
  intro i below
  have ones : (0xfff#64).getLsbD i = decide (i < 12) := by
    show (BitVec.ofNat 64 (2 ^ 12 - 1)).getLsbD i = _
    rw [BitVec.getLsbD_ofNat, Nat.testBit_two_pow_sub_one]
    simp [below]
  rw [targetAligned, BitVec.getLsbD_and, BitVec.getLsbD_not, ones, BitVec.getLsbD_shiftLeft, BitVec.getLsbD_ushiftRight]
  by_cases low : i < 12
  · simp [low]
  · simp [low, below, Nat.add_sub_cancel' (Nat.not_lt.mp low)]

theorem targetAligned_toNat (target : BitVec 64) :
    (targetAligned target).toNat = target.toNat - pageOffset target := by
  have below := target.isLt
  have unit : pageSize = 4096 := rfl
  rw [targetAligned_shift, BitVec.toNat_shiftLeft, BitVec.toNat_ushiftRight, Nat.shiftLeft_eq, Nat.shiftRight_eq_div_pow,
    pageOffset, unit]
  omega

theorem mapVma_off (place : UserRange) (target : BitVec 64) :
    (mapVma place target).off = targetAligned target := by
  show (targetAligned target >>> 12) <<< 12 = targetAligned target
  rw [targetAligned_shift]
  apply BitVec.eq_of_toNat_eq
  simp only [BitVec.toNat_shiftLeft, BitVec.toNat_ushiftRight, Nat.shiftLeft_eq, Nat.shiftRight_eq_div_pow]
  omega

theorem pfn_target {vma : Vma} (off : vma.off.toNat = target.toNat - pageOffset target) (fits : Fits bar target) :
    ((bar.start + vma.off) >>> 12).toNat * pageSize + pageOffset target = bar.start.toNat + target.toNat := by
  have unit : pageSize = 4096 := rfl
  have some := (mapPages_le target).1
  have small : pageOffset target ≤ target.toNat := Nat.mod_le _ _
  have within := bar.within
  rw [Fits, unit] at fits
  have long : pageSize ≤ bar.len.toNat := by
    rw [unit]
    omega
  obtain ⟨s, start⟩ := (bar.page_dvd long).2
  obtain ⟨o, pages⟩ := vma.off_dvd
  have below : bar.start.toNat + vma.off.toNat < 2 ^ 64 := by omega
  have pfn : ((bar.start + vma.off) >>> 12).toNat = s + o := by
    rw [BitVec.toNat_ushiftRight, BitVec.toNat_add, Nat.shiftRight_eq_div_pow, Nat.mod_eq_of_lt below, start, pages,
      ← Nat.mul_add]
    exact Nat.mul_div_cancel_left _ (by decide)
  calc ((bar.start + vma.off) >>> 12).toNat * pageSize + pageOffset target
      = (pageSize * s + pageSize * o) + pageOffset target := by
        rw [pfn, Nat.mul_comm, Nat.mul_add]
    _ = bar.start.toNat + (target.toNat - pageOffset target) + pageOffset target := by
        rw [← start, ← pages, off]
    _ = bar.start.toNat + target.toNat := by
        rw [Nat.add_assoc, Nat.sub_add_cancel small]

/-- For a target in the BAR, the mapping is made exactly if it fits, and leads to the target. -/
theorem bridgeMmap_target (check : 0 ≤ kernel.check) (remap : kernel.remap = 0)
    (inside : target.toNat < bar.len.toNat) :
    if Fits bar target then
      ∃ pfn size, bridgeMmap kernel.check bar (mapVma kernel.place target) kernel.remap = .mapped pfn size ∧
        pfn.toNat * pageSize + pageOffset target = bar.start.toNat + target.toNat
    else bridgeMmap kernel.check bar (mapVma kernel.place target) kernel.remap = .failed (-22) := by
  have off : (mapVma kernel.place target).off.toNat = target.toNat - pageOffset target := by
    rw [mapVma_off, targetAligned_toNat]
  have size : (mapVma kernel.place target).vsize.toNat = mapPages target * pageSize := mapVma_size kernel.place target
  have psize := psize_eq bar (mapVma kernel.place target)
  rw [off, if_pos (by omega)] at psize
  have fewer : (bar.start + (bar.len - 1) - bar.start + 1 - (mapVma kernel.place target).off <
      (mapVma kernel.place target).vsize) ↔ ¬ Fits bar target := by
    rw [BitVec.lt_def, psize, size, Fits]
    omega
  unfold bridgeMmap
  rw [if_neg (Int.not_lt.mpr check), remap]
  dsimp only
  split
  · next fits =>
    rw [if_neg (fewer.not.mpr (not_not.mpr fits)), if_neg (fun zero => zero rfl)]
    exact ⟨_, _, rfl, pfn_target off fits⟩
  · next misfit => rw [if_pos (fewer.mpr misfit)]

end Mapping

structure RegRun where
  kernel : RegKernel
  argv : List (List Byte)

def session (bar : Bar) : List RegRun → Memory → List RegRwEnd × Memory
  | [], phys => ([], phys)
  | run :: runs, phys =>
    let here := regRw run.kernel bar run.argv phys
    let later := session bar runs here.2
    (here.1 :: later.1, later.2)

def accessRegister (bar : Bar) (argv : List (List Byte)) (registers : Memory) : RegRwEnd × Memory :=
  match argv with
  | _ :: _ :: address :: options =>
    let target := strtoul address
    if Fits bar target then
      match options with
      | [] => (regRead .word target.toNat registers, registers)
      | [type] => (regRead (accessWidth type) target.toNat registers, registers)
      | type :: data :: _ => (.wrote, regWrite (accessWidth type) target.toNat data registers)
    else (.mmapFailed, registers)
  | _ => (.usage, registers)

def accessRegisters (bar : Bar) : List (List (List Byte)) → Memory → List RegRwEnd × Memory
  | [], registers => ([], registers)
  | argv :: argvs, registers =>
    let here := accessRegister bar argv registers
    let later := accessRegisters bar argvs here.2
    (here.1 :: later.1, later.2)

def registers (bar : Bar) (phys : Memory) : Memory := fun offset => phys (bar.start.toNat + offset)

structure Willing (kernel : RegKernel) : Prop where
  opens : kernel.opens = true
  check : 0 ≤ kernel.check
  remap : kernel.remap = 0

def TargetInside (bar : Bar) (argv : List (List Byte)) : Prop :=
  ∀ address ∈ argv[2]?, (strtoul address).toNat < bar.len.toNat

section Registers

variable {kernel : RegKernel} {bar : Bar} {argv : List (List Byte)}

theorem load_registers (bar : Bar) (phys : Memory) (offset count : Nat) :
    load (registers bar phys) offset count = load phys (bar.start.toNat + offset) count := by
  induction count generalizing offset with
  | zero => rfl
  | succ count ih =>
    rw [load, load, ih]
    rfl

theorem regRead_registers (bar : Bar) (phys : Memory) (width : AccessWidth) (offset : Nat) :
    regRead width offset (registers bar phys) = regRead width (bar.start.toNat + offset) phys := by
  rw [regRead, regRead, number, number, load_registers]

theorem store_registers (bar : Bar) (phys : Memory) (offset : Nat) (bytes : List Byte) :
    registers bar (store phys (bar.start.toNat + offset) bytes) = store (registers bar phys) offset bytes := by
  funext i
  unfold registers store
  rw [Nat.add_sub_add_left]
  simp only [Nat.add_le_add_iff_left]

theorem regWrite_outside {width : AccessWidth} {target : BitVec 64} {data : List Byte} {phys : Memory} {i : Nat}
    (fits : Fits bar target) (outside : i < bar.start.toNat ∨ bar.start.toNat + bar.len.toNat ≤ i) :
    regWrite width (bar.start.toNat + target.toNat) data phys i = phys i := by
  have four : width.bytes ≤ 4 := by cases width <;> decide
  have room : target.toNat + 4 ≤ bar.len.toNat := by
    have unit : pageSize = 4096 := rfl
    have small : pageOffset target ≤ target.toNat := Nat.mod_le _ _
    have enough : pageOffset target + 4 ≤ mapPages target * pageSize := by
      have part : pageOffset target < pageSize := Nat.mod_lt _ (by decide)
      unfold mapPages
      split
      · next one => rwa [Nat.one_mul]
      · omega
    rw [Fits] at fits
    omega
  rw [regWrite, store_outside]
  rw [leBytes_length]
  omega

theorem regRw_register (willing : Willing kernel) (inside : TargetInside bar argv) (phys : Memory) :
    (regRw kernel bar argv phys).1 = (accessRegister bar argv (registers bar phys)).1 ∧
    registers bar (regRw kernel bar argv phys).2 = (accessRegister bar argv (registers bar phys)).2 ∧
    ∀ i, i < bar.start.toNat ∨ bar.start.toNat + bar.len.toNat ≤ i → (regRw kernel bar argv phys).2 i = phys i := by
  unfold regRw accessRegister
  split
  · next prog device address options =>
    have mapping := bridgeMmap_target willing.check willing.remap (inside address rfl)
    dsimp only
    rw [willing.opens, Bool.not_true, if_neg Bool.false_ne_true]
    split at mapping
    · next fits =>
      obtain ⟨pfn, size, mapped, place⟩ := mapping
      rw [mapped, if_pos fits]
      dsimp only
      rw [place]
      split
      · exact ⟨(regRead_registers bar phys _ _).symm, rfl, fun _ _ => rfl⟩
      · exact ⟨(regRead_registers bar phys _ _).symm, rfl, fun _ _ => rfl⟩
      · exact ⟨rfl, store_registers bar phys _ _, fun i outside => regWrite_outside fits outside⟩
    · next misfit =>
      rw [mapping, if_neg misfit]
      exact ⟨rfl, rfl, fun _ _ => rfl⟩
  · exact ⟨rfl, rfl, fun _ _ => rfl⟩

theorem session_registers {runs : List RegRun} (willing : ∀ run ∈ runs, Willing run.kernel)
    (inside : ∀ run ∈ runs, TargetInside bar run.argv) (phys : Memory) :
    (session bar runs phys).1 = (accessRegisters bar (runs.map (·.argv)) (registers bar phys)).1 ∧
    registers bar (session bar runs phys).2 = (accessRegisters bar (runs.map (·.argv)) (registers bar phys)).2 ∧
    ∀ i, i < bar.start.toNat ∨ bar.start.toNat + bar.len.toNat ≤ i → (session bar runs phys).2 i = phys i := by
  induction runs generalizing phys with
  | nil => exact ⟨rfl, rfl, fun _ _ => rfl⟩
  | cons run runs ih =>
    obtain ⟨text, held, kept⟩ := regRw_register (willing run (by simp)) (inside run (by simp)) phys
    obtain ⟨texts, left, rest⟩ := ih (fun other member => willing other (by simp [member]))
      (fun other member => inside other (by simp [member])) (regRw run.kernel bar run.argv phys).2
    rw [held] at texts left
    rw [List.map_cons, accessRegisters, session]
    dsimp only
    rw [text, texts, left]
    exact ⟨rfl, rfl, fun i outside => (rest i outside).trans (kept i outside)⟩

/-- Data as the tool has printed it is stored as it was. -/
theorem regWrite_text (width : AccessWidth) (map : Nat) (phys later : Memory) :
    regWrite width map (hexText (2 * width.bytes) (number phys map width.bytes)) later =
      store later map (load phys map width.bytes) := by
  have small := number_lt phys map width.bytes
  have digits : (16 : Nat) ^ (2 * width.bytes) = 256 ^ width.bytes := Nat.pow_mul 16 2 _
  have wide : 256 ^ width.bytes ≤ 2 ^ 64 := by cases width <;> decide
  have bytes := leBytes_leNumber (load phys map width.bytes)
  rw [load_length] at bytes
  rw [regWrite, strtoul_hexText (digits ▸ small) (small.trans_le wide), BitVec.toNat_ofNat,
    Nat.mod_eq_of_lt (small.trans_le wide), number, bytes]

/-- Runs of the tool read and write the registers of the BAR, wherever the kernel maps them, and nothing else. The text
    that a run has printed, given to a later one as the data, brings back what the register held then. -/
theorem reg_rw_registers {runs : List RegRun} (willing : ∀ run ∈ runs, Willing run.kernel)
    (inside : ∀ run ∈ runs, TargetInside bar run.argv) (phys : Memory) :
    ((session bar runs phys).1 = (accessRegisters bar (runs.map (·.argv)) (registers bar phys)).1 ∧
      registers bar (session bar runs phys).2 = (accessRegisters bar (runs.map (·.argv)) (registers bar phys)).2 ∧
      ∀ i, i < bar.start.toNat ∨ bar.start.toNat + bar.len.toNat ≤ i → (session bar runs phys).2 i = phys i) ∧
    ∀ before after prog device address type text, Willing before → Willing after →
      (strtoul address).toNat < bar.len.toNat →
      (regRw before bar [prog, device, address, type] phys).1 = .read text →
      regRw after bar [prog, device, address, type, text] (session bar runs phys).2 =
        (.wrote, store (session bar runs phys).2 (bar.start.toNat + (strtoul address).toNat)
          (load phys (bar.start.toNat + (strtoul address).toNat) (accessWidth type).bytes)) := by
  apply And.intro (session_registers willing inside phys)
  intro before after prog device address type text ready again target printed
  have first := bridgeMmap_target ready.check ready.remap target
  have second := bridgeMmap_target again.check again.remap target
  unfold regRw at printed ⊢
  dsimp only at printed ⊢
  rw [ready.opens, Bool.not_true, if_neg Bool.false_ne_true] at printed
  rw [again.opens, Bool.not_true, if_neg Bool.false_ne_true]
  split at first
  · next fits =>
    rw [if_pos fits] at second
    obtain ⟨pfn, size, mapped, place⟩ := first
    obtain ⟨pfn', size', mapped', place'⟩ := second
    rw [mapped] at printed
    rw [mapped']
    dsimp only at printed ⊢
    rw [place, regRead] at printed
    cases printed
    rw [place', regWrite_text]
  · next misfit =>
    rw [first] at printed
    cases printed

def userPlace : UserRange := ⟨0x7f0000000000, by decide⟩

def readyKernel : RegKernel := ⟨true, 0, 0, userPlace⟩

theorem readyKernel_willing : Willing readyKernel := ⟨rfl, by decide, rfl⟩

def countingBytes : Memory := fun i => BitVec.ofNat 8 i

def overwrite : RegRun := ⟨readyKernel, [[], [], ascii "0x10", ascii "w", ascii "-1"]⟩

/-- The half word at 0x12 is saved, overwritten as part of a word and restored. -/
theorem halfword_restored :
    ∃ text, (regRw readyKernel controlBar [[], [], ascii "0x12", ascii "h"] countingBytes).1 = .read text ∧
      regRw readyKernel controlBar [[], [], ascii "0x12", ascii "h", text]
        (session controlBar [overwrite] countingBytes).2 =
      (.wrote, store (session controlBar [overwrite] countingBytes).2 (controlBar.start.toNat + 0x12)
        (load countingBytes (controlBar.start.toNat + 0x12) 2)) := by
  have happens : ∃ text,
      (regRw readyKernel controlBar [[], [], ascii "0x12", ascii "h"] countingBytes).1 = .read text := ⟨_, rfl⟩
  obtain ⟨text, printed⟩ := happens
  have restores := (@reg_rw_registers controlBar [overwrite] (by simp [overwrite, readyKernel_willing])
    (by simp [TargetInside, overwrite]; decide) countingBytes).2
  exact ⟨text, printed, restores _ _ _ _ _ _ _ readyKernel_willing readyKernel_willing (by decide) printed⟩

end Registers

end CigCard.Tools
