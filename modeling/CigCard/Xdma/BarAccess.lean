import CigCard.Xdma.Cdev

namespace CigCard.Xdma

/-- A BAR of the card: a power of two of bytes, at a multiple of its length. -/
structure Bar where
  start : BitVec 64
  len : BitVec 64
  power : ∃ k, len.toNat = 2 ^ k
  aligned : len.toNat ∣ start.toNat

structure Mapping where
  base : BitVec 64
  len : BitVec 64

def intMax : BitVec 64 := 0x7fffffff

def mapSingleBar (bar : Bar) (base : Option (BitVec 64)) : Int × Option Mapping :=
  if bar.len = 0 then (0, none)
  else
    let mapLen := if intMax < bar.len then intMax else bar.len
    match base with
    | none => (-1, none)
    | some base => (mapLen.toNat, some ⟨base, mapLen⟩)

/-- How `char_ctrl_read` and `char_ctrl_write` end: the register that was accessed with the word that was read or
    written, and the file position after it. -/
inductive CtrlEnd where
  | failed (rv : Int)
  | accessed (reg : BitVec 64) (w : BitVec 32) (pos : BitVec 64)

def charCtrlRead (check : Int) (m : Mapping) (ioread32 : BitVec 64 → BitVec 32) (pos : BitVec 64) : CtrlEnd :=
  if check < 0 then .failed check
  else if pos &&& 3 ≠ 0 then .failed (-71)
  else
    let reg := m.base + pos
    .accessed reg (ioread32 reg) (pos + 4)

def charCtrlWrite (check : Int) (m : Mapping) (w : BitVec 32) (pos : BitVec 64) : CtrlEnd :=
  if check < 0 then .failed check
  else if pos &&& 3 ≠ 0 then .failed (-71)
  else .accessed (m.base + pos) w (pos + 4)

/-- A `struct vm_area_struct` that the kernel hands to `mmap`: some whole pages. -/
structure Vma where
  pgoff : BitVec 64
  vmStart : BitVec 64
  vmEnd : BitVec 64
  some : vmStart < vmEnd
  pages : pageSize ∣ (vmEnd - vmStart).toNat

def Vma.off (vma : Vma) : BitVec 64 := vma.pgoff <<< 12
def Vma.vsize (vma : Vma) : BitVec 64 := vma.vmEnd - vma.vmStart

inductive MmapEnd where
  | failed (rv : Int)
  | mapped (pfn : BitVec 64) (size : BitVec 64)

def bridgeMmap (check : Int) (bar : Bar) (vma : Vma) (remap : Int) : MmapEnd :=
  if check < 0 then .failed check
  else
    let phys := bar.start + vma.off
    let psize := bar.start + (bar.len - 1) - bar.start + 1 - vma.off
    if psize < vma.vsize then .failed (-22)
    else if remap ≠ 0 then .failed (-11)
    else .mapped (phys >>> 12) vma.vsize

def CtrlEnd.Inside (m : Mapping) : CtrlEnd → Prop
  | .failed _ => True
  | .accessed reg _ _ => ∃ offset : BitVec 64, reg = m.base + offset ∧ offset.toNat + 4 ≤ m.len.toNat

def MmapEnd.Inside (bar : Bar) : MmapEnd → Prop
  | .failed _ => True
  | .mapped pfn size => ∀ page, pfn.toNat ≤ page → page < pfn.toNat + size.toNat / pageSize →
      bar.start.toNat ≤ page * pageSize ∧ (page + 1) * pageSize ≤ bar.start.toNat + bar.len.toNat

section Ctrl

variable {bar : Bar} {m : Mapping}

theorem mapSingleBar_len {base : Option (BitVec 64)} (mapped : (mapSingleBar bar base).2 = some m) :
    m.len.toNat = min bar.len.toNat (2 ^ 31 - 1) := by
  have most : intMax.toNat = 2 ^ 31 - 1 := by decide
  unfold mapSingleBar at mapped
  split at mapped
  · cases mapped
  · cases base with
    | none => cases mapped
    | some base =>
      cases mapped
      dsimp only
      split
      · next long =>
        have exceeds := BitVec.lt_def.mp long
        omega
      · next short =>
        have under := mt BitVec.lt_def.mpr short
        omega

theorem accessed_inside_iff (m : Mapping) (pos : BitVec 64) :
    (∃ offset : BitVec 64, m.base + pos = m.base + offset ∧ offset.toNat + 4 ≤ m.len.toNat) ↔
      pos.toNat + 4 ≤ m.len.toNat := by
  constructor
  · rintro ⟨offset, same, inside⟩
    rw [(BitVec.add_right_inj m.base).mp same]
    exact inside
  · intro inside
    exact ⟨pos, rfl, inside⟩

theorem charCtrlWrite_inside_iff (check : Int) (m : Mapping) (w : BitVec 32) (pos : BitVec 64) :
    (charCtrlWrite check m w pos).Inside m ↔ check < 0 ∨ pos &&& 3 ≠ 0 ∨ pos.toNat + 4 ≤ m.len.toNat := by
  unfold charCtrlWrite
  split_ifs with closed unaligned
  · exact iff_of_true trivial (.inl closed)
  · exact iff_of_true trivial (.inr (.inl unaligned))
  · rw [or_iff_right closed, or_iff_right unaligned]
    exact accessed_inside_iff m pos

theorem charCtrlRead_inside_iff (check : Int) (m : Mapping) (ioread32 : BitVec 64 → BitVec 32) (pos : BitVec 64) :
    (charCtrlRead check m ioread32 pos).Inside m ↔ check < 0 ∨ pos &&& 3 ≠ 0 ∨ pos.toNat + 4 ≤ m.len.toNat :=
  charCtrlWrite_inside_iff check m (ioread32 (m.base + pos)) pos

end Ctrl

section Mmap

variable {bar : Bar} {vma : Vma}

theorem Bar.page_dvd (bar : Bar) (long : pageSize ≤ bar.len.toNat) :
    pageSize ∣ bar.len.toNat ∧ pageSize ∣ bar.start.toNat := by
  obtain ⟨k, len⟩ := bar.power
  have twelve : 12 ≤ k := by
    apply (Nat.pow_le_pow_iff_right (by decide : 1 < 2)).mp
    rw [← len]
    exact long
  have whole : pageSize ∣ bar.len.toNat := by
    rw [len]
    exact Nat.pow_dvd_pow 2 twelve
  exact ⟨whole, whole.trans bar.aligned⟩

theorem Bar.within (bar : Bar) : bar.start.toNat + bar.len.toNat ≤ 2 ^ 64 := by
  obtain ⟨k, len⟩ := bar.power
  have below := bar.len.isLt
  have most : k ≤ 64 := by
    rw [len] at below
    exact ((Nat.pow_lt_pow_iff_right (by decide : 1 < 2)).mp below).le
  have divides : bar.len.toNat ∣ 2 ^ 64 := by
    rw [len]
    exact Nat.pow_dvd_pow 2 most
  obtain ⟨n, start⟩ := bar.aligned
  obtain ⟨all, whole⟩ := divides
  have before := bar.start.isLt
  rw [start, whole] at before ⊢
  have next : n + 1 ≤ all := Nat.lt_of_mul_lt_mul_left before
  exact (Nat.mul_succ _ _).symm.le.trans (Nat.mul_le_mul_left _ next)

theorem Vma.vsize_pos (vma : Vma) : 0 < vma.vsize.toNat := by
  have before := BitVec.lt_def.mp vma.some
  rw [Vma.vsize, BitVec.toNat_sub_of_le (BitVec.le_of_lt vma.some)]
  exact Nat.sub_pos_of_lt before

theorem Vma.off_dvd (vma : Vma) : pageSize ∣ vma.off.toNat := by
  rw [Vma.off, BitVec.toNat_shiftLeft, Nat.shiftLeft_eq]
  exact (Nat.dvd_mod_iff (by decide : pageSize ∣ 2 ^ 64)).mpr (Nat.dvd_mul_left _ _)

theorem psize_eq (bar : Bar) (vma : Vma) :
    (bar.start + (bar.len - 1) - bar.start + 1 - vma.off).toNat =
      if vma.off.toNat ≤ bar.len.toNat then bar.len.toNat - vma.off.toNat
      else 2 ^ 64 - (vma.off.toNat - bar.len.toNat) := by
  have len : bar.start + (bar.len - 1) - bar.start + 1 = bar.len := by
    rw [BitVec.add_comm bar.start, BitVec.add_sub_cancel, BitVec.sub_add_cancel]
  have below := bar.len.isLt
  have offBelow := vma.off.isLt
  rw [len, BitVec.toNat_sub]
  split
  · next inside => omega
  · next beyond => omega

/-- Where the offset is in the BAR, the comparison keeps the pages there. -/
theorem pages_inside (bar : Bar) (vma : Vma) (fits : vma.off.toNat + vma.vsize.toNat ≤ bar.len.toNat) :
    (MmapEnd.mapped ((bar.start + vma.off) >>> 12) vma.vsize).Inside bar := by
  have some := vma.vsize_pos
  have pages : pageSize ∣ vma.vsize.toNat := vma.pages
  have long : pageSize ≤ bar.len.toNat := (Nat.le_of_dvd some pages).trans (by omega)
  have within := bar.within
  obtain ⟨s, start⟩ := (bar.page_dvd long).2
  obtain ⟨o, off⟩ := vma.off_dvd
  obtain ⟨n, size⟩ := pages
  have pfn : ((bar.start + vma.off) >>> 12).toNat = s + o := by
    rw [BitVec.toNat_ushiftRight, BitVec.toNat_add, Nat.shiftRight_eq_div_pow, Nat.mod_eq_of_lt (by omega), start, off,
      ← Nat.mul_add]
    exact Nat.mul_div_cancel_left _ (by decide)
  have count : vma.vsize.toNat / pageSize = n := by
    rw [size]
    exact Nat.mul_div_cancel_left _ (by decide)
  unfold MmapEnd.Inside
  intro page first last
  rw [pfn] at first last
  rw [count] at last
  have unit : pageSize = 4096 := rfl
  rw [start, unit]
  rw [size, off, unit] at fits
  constructor
  · omega
  · omega

theorem pages_outside (bar : Bar) (vma : Vma) (beyond : bar.len.toNat < vma.off.toNat) :
    ¬ (MmapEnd.mapped ((bar.start + vma.off) >>> 12) vma.vsize).Inside bar := by
  have some := vma.vsize_pos
  have pages : pageSize ∣ vma.vsize.toNat := vma.pages
  have positive : 0 < vma.vsize.toNat / pageSize := Nat.div_pos (Nat.le_of_dvd some pages) (by decide)
  have unit : pageSize = 4096 := rfl
  have startBelow := bar.start.isLt
  have offBelow := vma.off.isLt
  intro inside
  have first := inside _ (Nat.le_refl _) (Nat.lt_add_of_pos_right positive)
  rw [BitVec.toNat_ushiftRight, BitVec.toNat_add, Nat.shiftRight_eq_div_pow, unit] at first
  omega

theorem bridgeMmap_inside_iff (check : Int) (bar : Bar) (vma : Vma) (remap : Int) :
    (bridgeMmap check bar vma remap).Inside bar ↔ check < 0 ∨ remap ≠ 0 ∨ vma.off.toNat ≤ bar.len.toNat ∨
      2 ^ 64 < vma.off.toNat - bar.len.toNat + vma.vsize.toNat := by
  have psize := psize_eq bar vma
  have offBelow := vma.off.isLt
  unfold bridgeMmap
  dsimp only
  split_ifs with closed long refused
  · exact iff_of_true trivial (.inl closed)
  · refine iff_of_true trivial ?_
    rw [BitVec.lt_def, psize] at long
    by_cases inside : vma.off.toNat ≤ bar.len.toNat
    · exact .inr (.inr (.inl inside))
    · rw [if_neg inside] at long
      exact .inr (.inr (.inr (by omega)))
  · exact iff_of_true trivial (.inr (.inl refused))
  · rw [BitVec.lt_def, psize, not_lt] at long
    rw [or_iff_right closed, or_iff_right refused]
    by_cases inside : vma.off.toNat ≤ bar.len.toNat
    · rw [if_pos inside] at long
      exact iff_of_true (pages_inside bar vma (by omega)) (.inl inside)
    · rw [if_neg inside] at long
      exact iff_of_false (pages_outside bar vma (not_le.mp inside)) (by omega)

/-- Each of the three stays inside the BAR if and only if the call fails or what user space asks for lies there:
    `char_ctrl_read` and `char_ctrl_write` compare the position with nothing, and the length that `bridge_mmap` compares
    with has wrapped for an offset beyond the BAR. -/
theorem access_inside_iff (bar : Bar) (base : Option (BitVec 64)) (m : Mapping)
    (mapped : (mapSingleBar bar base).2 = some m) (check : Int) :
    (∀ ioread32 pos, (charCtrlRead check m ioread32 pos).Inside m ↔
      check < 0 ∨ pos &&& 3 ≠ 0 ∨ pos.toNat + 4 ≤ min bar.len.toNat (2 ^ 31 - 1)) ∧
    (∀ w pos, (charCtrlWrite check m w pos).Inside m ↔
      check < 0 ∨ pos &&& 3 ≠ 0 ∨ pos.toNat + 4 ≤ min bar.len.toNat (2 ^ 31 - 1)) ∧
    (∀ vma remap, (bridgeMmap check bar vma remap).Inside bar ↔
      check < 0 ∨ remap ≠ 0 ∨ vma.off.toNat ≤ bar.len.toNat ∨
        2 ^ 64 < vma.off.toNat - bar.len.toNat + vma.vsize.toNat) := by
  have len := mapSingleBar_len mapped
  refine ⟨?_, ?_, bridgeMmap_inside_iff check bar⟩
  · intro ioread32 pos
    rw [charCtrlRead_inside_iff, len]
  · intro w pos
    rw [charCtrlWrite_inside_iff, len]

def controlBar : Bar := ⟨0xfe000000, 0x10000, ⟨16, rfl⟩, by decide⟩

def controlMapping : Mapping := ⟨0xffffc90000100000, 0x10000⟩

def onePage (pgoff : BitVec 64) : Vma := ⟨pgoff, 0x7f0000000000, 0x7f0000001000, by decide, by decide⟩

theorem controlBar_access :
    (charCtrlRead 0 controlMapping (fun _ => 0) 0xfffc).Inside controlMapping ∧
    (charCtrlWrite 0 controlMapping 1 0xfffc).Inside controlMapping ∧
    (bridgeMmap 0 controlBar (onePage 15) 0).Inside controlBar := by
  have access := access_inside_iff controlBar (some 0xffffc90000100000) controlMapping rfl 0
  exact ⟨(access.1 _ _).mpr (by decide), (access.2.1 _ _).mpr (by decide), (access.2.2 _ _).mpr (by decide)⟩

/-- The word after the BAR is read and written, and the second page after it is mapped. -/
theorem controlBar_escape :
    ¬ (charCtrlRead 0 controlMapping (fun _ => 0) 0x10000).Inside controlMapping ∧
    ¬ (charCtrlWrite 0 controlMapping 1 0x10000).Inside controlMapping ∧
    ¬ (bridgeMmap 0 controlBar (onePage 17) 0).Inside controlBar := by
  refine ⟨?_, ?_, ?_⟩
  · rw [charCtrlRead_inside_iff]
    decide
  · rw [charCtrlWrite_inside_iff]
    decide
  · rw [bridgeMmap_inside_iff]
    decide

end Mmap

end CigCard.Xdma
