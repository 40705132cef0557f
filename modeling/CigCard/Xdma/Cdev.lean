import CigCard.Xdma.ScatterGather

namespace CigCard.Xdma

def einval : Int := 22
def eiocbqueued : Int := 529

def pageSize : Nat := 4096

/-- A piece of a pinned user page, as `sg_set_page` records it: the number of the page in `cb->pages`. -/
structure SgPage where
  page : Nat
  offset : Nat
  length : Nat
deriving DecidableEq

/-- A memory-mapped or streaming channel as its character device sees it. `pciMapSg` is the DMA layer's mapping of the
    list of pages that were pinned for a user address, `none` where it fails. -/
structure CharDevice where
  cfg : EngineConfig
  addrAlign : BitVec 8
  lenGranularity : BitVec 8
  pciMapSg : Nat → List SgPage → Option MappedSg

structure Iovec where
  iovBase : Nat
  iovLen : Nat
  user : iovBase + iovLen ≤ 2 ^ 47

/-- The `(int)x & (engine->addr_align - 1)` of `check_transfer_align`. -/
def alignBits (x : Nat) (addrAlign : BitVec 8) : BitVec 32 := BitVec.ofNat 32 x &&& (addrAlign.setWidth 32 - 1)

def checkTransferAlign (dev : CharDevice) (buf count : Nat) (pos : BitVec 64) (sync : Bool) : Int :=
  if dev.cfg.nonIncrAddr then
    if alignBits buf dev.addrAlign ≠ 0 then -einval
    else if alignBits pos.toNat dev.addrAlign ≠ 0 ∧ sync then -einval
    else if BitVec.ofNat 64 count &&& (dev.lenGranularity.setWidth 64 - 1) ≠ 0 then -einval
    else 0
  else if alignBits buf dev.addrAlign ≠ alignBits pos.toNat dev.addrAlign then -einval
  else 0

def pagesNr (buf len : Nat) : Nat := (buf + len + pageSize - 1 - buf / pageSize * pageSize) / pageSize % 2 ^ 32

def fillPages : Nat → Nat → Nat → Nat → List SgPage × Nat
  | 0, _, _, len => ([], len)
  | n + 1, i, buf, len =>
    let nbytes := min (pageSize - buf % pageSize) (len % 2 ^ 32)
    let (pages, left) := fillPages n (i + 1) (buf + nbytes) (len - nbytes)
    (⟨i, buf % pageSize, nbytes⟩ :: pages, left)

/-- Where all pages are pinned and no two neighbours are the same. -/
def charSgdmaMapUserBufToSgl (buf len : Nat) : Except Int (List SgPage) :=
  if pagesNr buf len = 0 then .error (-einval)
  else
    let (pages, left) := fillPages (pagesNr buf len) 0 buf len
    if left ≠ 0 then .error (-einval) else .ok pages

def transferDir (write : Bool) : Direction := if write then .toDevice else .fromDevice

def charSgdmaReadWrite (b : Build) (dev : CharDevice) (outcome : Nat → Outcome) (e : Engine) (write : Bool)
    (buf : Iovec) (pos : BitVec 64) : Except Fault Submitted :=
  if dev.cfg.dir ≠ transferDir write then .ok ⟨[], -einval⟩
  else if checkTransferAlign dev buf.iovBase buf.iovLen pos true ≠ 0 then
    .ok ⟨[], checkTransferAlign dev buf.iovBase buf.iovLen pos true⟩
  else
    match charSgdmaMapUserBufToSgl buf.iovBase buf.iovLen with
    | .error rv => .ok ⟨[], rv⟩
    | .ok pages =>
      match dev.pciMapSg buf.iovBase pages with
      | none => .ok ⟨[], -eio⟩
      | some sgt => xdmaXferSubmit b dev.cfg false outcome e sgt pos

def charSgdmaWrite (b : Build) (dev : CharDevice) (outcome : Nat → Outcome) (e : Engine) (buf : Iovec)
    (pos : BitVec 64) : Except Fault Submitted :=
  charSgdmaReadWrite b dev outcome e true buf pos

structure QueuedTransfer where
  ptr : Ptr
  descIndex : Nat
  descs : List Descriptor

def queuedTransfer (p : Ptr) (e : Engine) : QueuedTransfer := ⟨p, (e.tfer p).descIndex, slots e.ring (e.tfer p)⟩

structure Queued where
  engine : Engine
  transfers : List QueuedTransfer
  ret : Int

def nowaitLoop (cfg : EngineConfig) (block : Nat) : Nat → Nat → Engine → Request → Except Fault Queued
  | 0, _, e, req => if req.remaining = [] then .ok ⟨e, [], -eiocbqueued⟩ else .error .overrun
  | left + 1, tferIdx, e, req =>
    if req.remaining = [] then .ok ⟨e, [], -eiocbqueued⟩
    else do
      let next := transferInit cfg ⟨block, tferIdx⟩ true e req
      let rest ← nowaitLoop cfg block left (tferIdx + 1) next.1 next.2
      return { rest with transfers := queuedTransfer ⟨block, tferIdx⟩ next.1 :: rest.transfers }

/-- On an engine that accepts every transfer. -/
def xdmaXferSubmitNowait (b : Build) (dev : CharDevice) (block : Nat) (e : Engine) (buf : Nat) (pages : List SgPage)
    (epAddr : BitVec 64) : Except Fault Queued :=
  match dev.pciMapSg buf pages with
  | none => .ok ⟨e, [], -eio⟩
  | some sgt => do
    match ← xdmaInitRequest b false sgt epAddr with
    | none => return ⟨e, [], -enomem⟩
    | some req => nowaitLoop dev.cfg block 2 0 e req

/-- The loop of `cdev_aio_write` and `cdev_aio_read`. What `xdma_xfer_submit_nowait` returns is not looked at. -/
def aioSegments (b : Build) (dev : CharDevice) (pos : BitVec 64) :
    Nat → Engine → List Iovec → Except Fault Queued
  | _, e, [] => .ok ⟨e, [], -eiocbqueued⟩
  | i, e, seg :: rest =>
    if checkTransferAlign dev seg.iovBase seg.iovLen pos true ≠ 0 then
      .ok ⟨e, [], checkTransferAlign dev seg.iovBase seg.iovLen pos true⟩
    else
      match charSgdmaMapUserBufToSgl seg.iovBase seg.iovLen with
      | .error rv => .ok ⟨e, [], rv⟩
      | .ok pages => do
        let first ← xdmaXferSubmitNowait b dev i e seg.iovBase pages pos
        let others ← aioSegments b dev pos (i + 1) first.engine rest
        return { others with transfers := first.transfers ++ others.transfers }

def cdevAio (b : Build) (dev : CharDevice) (e : Engine) (write : Bool) (io : List Iovec) (pos : BitVec 64) :
    Except Fault Queued :=
  if dev.cfg.dir ≠ transferDir write then .ok ⟨e, [], -einval⟩ else aioSegments b dev pos 0 e io

def cdevAioWrite (b : Build) (dev : CharDevice) (e : Engine) (io : List Iovec) (pos : BitVec 64) :
    Except Fault Queued :=
  cdevAio b dev e true io pos

structure IovIter where
  iov : List Iovec
  iovOffset : BitVec 64

def iovIterInit (iov : List Iovec) : IovIter := ⟨iov, 0⟩

/-- `kiPos` is the file position in the `struct kiocb`, which is not read. -/
def cdevWriteIter (b : Build) (dev : CharDevice) (e : Engine) (_kiPos : BitVec 64) (io : IovIter) :
    Except Fault Queued :=
  cdevAioWrite b dev e io.iov io.iovOffset

section Mapping

theorem fillPages_total (n i buf len : Nat) :
    ((fillPages n i buf len).1.map SgPage.length).sum + (fillPages n i buf len).2 = len := by
  induction n generalizing i buf len with
  | zero => simp [fillPages]
  | succ n ih =>
    have rest := ih (i + 1) (buf + min (pageSize - buf % pageSize) (len % 2 ^ 32))
      (len - min (pageSize - buf % pageSize) (len % 2 ^ 32))
    have least : len % 2 ^ 32 ≤ len := Nat.mod_le _ _
    simp only [fillPages, List.map_cons, List.sum_cons]
    omega

theorem fillPages_left (n i buf len : Nat) (short : len < 2 ^ 32)
    (enough : len = 0 ∨ buf % pageSize + len ≤ n * pageSize) : (fillPages n i buf len).2 = 0 := by
  have size : pageSize = 4096 := rfl
  induction n generalizing i buf len with
  | zero =>
    show len = 0
    omega
  | succ n ih =>
    rw [size] at enough
    simp only [fillPages, size, Nat.mod_eq_of_lt short]
    apply ih
    · omega
    · rw [size]
      by_cases last : len ≤ 4096 - buf % 4096
      · rw [Nat.min_eq_right last]
        omega
      · rw [Nat.min_eq_left (by omega)]
        omega

theorem pagesNr_eq_zero_iff {buf len : Nat} (short : len < 2 ^ 31) :
    pagesNr buf len = 0 ↔ len = 0 ∧ buf % pageSize = 0 := by
  unfold pagesNr pageSize
  omega

/-- A buffer without bytes at the start of a page touches no page and is refused; every other is mapped whole. -/
theorem mapUserBuf_cases (buf : Iovec) (short : buf.iovLen < 2 ^ 31) :
    (buf.iovLen = 0 ∧ buf.iovBase % pageSize = 0 ∧
        charSgdmaMapUserBufToSgl buf.iovBase buf.iovLen = .error (-einval)) ∨
      ((buf.iovLen ≠ 0 ∨ buf.iovBase % pageSize ≠ 0) ∧
        ∃ pages, charSgdmaMapUserBufToSgl buf.iovBase buf.iovLen = .ok pages ∧
          (pages.map SgPage.length).sum = buf.iovLen) := by
  have touches := @pagesNr_eq_zero_iff buf.iovBase buf.iovLen short
  by_cases untouched : pagesNr buf.iovBase buf.iovLen = 0
  · obtain ⟨empty, start⟩ := touches.mp untouched
    refine .inl ⟨empty, start, ?_⟩
    rw [charSgdmaMapUserBufToSgl, if_pos untouched]
  · refine .inr ⟨by omega, ?_⟩
    have total := fillPages_total (pagesNr buf.iovBase buf.iovLen) 0 buf.iovBase buf.iovLen
    have left : (fillPages (pagesNr buf.iovBase buf.iovLen) 0 buf.iovBase buf.iovLen).2 = 0 := by
      apply fillPages_left _ _ _ _ (by omega)
      unfold pagesNr pageSize
      omega
    rw [charSgdmaMapUserBufToSgl, if_neg untouched]
    exact ⟨_, if_neg (by simp [left]), by omega⟩

end Mapping

end CigCard.Xdma
