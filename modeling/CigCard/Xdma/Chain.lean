import CigCard.Ring.Slots
import CigCard.Xdma.DriverSteps

namespace CigCard.Xdma

open Ring

structure XdmaDesc where
  control : BitVec 32
  bytes : BitVec 32
  srcAddrLo : BitVec 32
  srcAddrHi : BitVec 32
  dstAddrLo : BitVec 32
  dstAddrHi : BitVec 32
  nextLo : BitVec 32
  nextHi : BitVec 32
deriving DecidableEq

def xdmaDescStopped : BitVec 32 := 1#32 <<< 0
def xdmaDescCompleted : BitVec 32 := 1#32 <<< 1
def xdmaDescEop : BitVec 32 := 1#32 <<< 4
def lsByteMask : BitVec 32 := 0x000000FF
def descMagic : BitVec 32 := 0xAD4B0000
def xdmaMaxAdjBlockSize : Nat := 0x40
def xdmaPageSize : BitVec 32 := 0x1000

def pciDmaH (addr : BitVec 64) : BitVec 32 := (addr >>> 16 >>> 16).setWidth 32
def pciDmaL (addr : BitVec 64) : BitVec 32 := addr.setWidth 32

/-- Where the descriptors and the results of an engine are on the bus, and whether it is a streaming engine. -/
structure EngineBus where
  descBus : BitVec 64
  cyclicResultBus : BitVec 64
  streaming : Bool

structure DescList where
  descBus : BitVec 64
  resBus : BitVec 64
  descIndex : Nat
  descNum : Nat
  descAdjacent : Nat
  descCmplTh : Nat

def xdmaGetNextAdj (remaining : Nat) (nextLo : BitVec 32) : Nat :=
  if remaining ≤ 1 then 0
  else
    let nextIndex := ((nextLo &&& (xdmaPageSize - 1)) >>> 5).toNat % xdmaMaxAdjBlockSize
    min (xdmaMaxAdjBlockSize - nextIndex - 1) (remaining - 1)

def transferDescInit (xfer : DescList) (count : Nat) (desc : Nat → XdmaDesc) : Nat → XdmaDesc :=
  let desc := forSlots xfer.descIndex (fun i d =>
    let descBus := xfer.descBus + 32 * BitVec.ofNat 64 (i + 1)
    { d with nextLo := pciDmaL descBus, nextHi := pciDmaH descBus, bytes := 0, control := descMagic }) (count - 1) desc
  let last := xfer.descIndex + (count - 1)
  Function.update desc last { desc last with nextLo := 0, nextHi := 0, bytes := 0, control := descMagic }

def xdmaDescAdjacent (d : XdmaDesc) (nextAdjacent : Nat) : XdmaDesc :=
  { d with control := d.control &&& 0x0000f0ff ||| (0xAD4B0000 ||| BitVec.ofNat 32 nextAdjacent <<< 8) }

def xdmaDescControlSet (d : XdmaDesc) (controlField : BitVec 32) : XdmaDesc :=
  if controlField &&& ~~~ lsByteMask ≠ 0 then d
  else { d with control := d.control &&& ~~~ lsByteMask ||| controlField }

def xdmaDescSet (dir : Direction) (rcBusAddr epAddr : BitVec 64) (len : BitVec 32) (d : XdmaDesc) : XdmaDesc :=
  match dir with
  | .toDevice =>
    { d with
      bytes := len
      srcAddrLo := pciDmaL rcBusAddr
      srcAddrHi := pciDmaH rcBusAddr
      dstAddrLo := pciDmaL epAddr
      dstAddrHi := pciDmaH epAddr }
  | .fromDevice =>
    { d with
      bytes := len
      srcAddrLo := pciDmaL epAddr
      srcAddrHi := pciDmaH epAddr
      dstAddrLo := pciDmaL rcBusAddr
      dstAddrHi := pciDmaH rcBusAddr }

/-- Pass `i` of the loop of `transfer_build`, for a piece that goes into `built`. The source of a C2H stream is no
    address of the card: there the card is told where to put the result. -/
def buildDesc (cfg : EngineConfig) (streaming : Bool) (resBus : BitVec 64) (i : Nat) (built : Descriptor)
    (d : XdmaDesc) : XdmaDesc :=
  let d := xdmaDescSet cfg.dir (.ofNat 64 built.hostAddr) (.ofNat 64 built.epAddr) (.ofNat 32 built.bytes) d
  if streaming ∧ cfg.dir = .fromDevice then
    let bus := resBus + 32 * BitVec.ofNat 64 i
    { d with srcAddrLo := pciDmaL bus, srcAddrHi := pciDmaH bus }
  else d

def transferBuildWords (cfg : EngineConfig) (bus : EngineBus) (req : Request) (xfer : DescList) (descMax : Nat)
    (desc : Nat → XdmaDesc) : Nat → XdmaDesc :=
  let built := (transferBuild cfg (req.remaining.take descMax) req.epAddr).1
  forSlots xfer.descIndex (fun i d =>
    match built[i]? with
    | some descriptor => buildDesc cfg bus.streaming xfer.resBus i descriptor d
    | none => d) descMax desc

def initialDescList (cfg : EngineConfig) (bus : EngineBus) (e : Engine) (req : Request) : DescList :=
  let descMax := nextDescNum cfg e req
  { descBus := bus.descBus + 32 * BitVec.ofNat 64 e.descIdx
    resBus := bus.cyclicResultBus + 32 * BitVec.ofNat 64 e.descIdx
    descIndex := e.descIdx
    descNum := descMax
    descAdjacent := descMax
    descCmplTh := if cfg.eopFlush then 1 else descMax }

def transferControls (cfg : EngineConfig) (start descMax : Nat) (desc : Nat → XdmaDesc) : Nat → XdmaDesc :=
  let last := descMax - 1
  let control := xdmaDescStopped ||| xdmaDescEop ||| xdmaDescCompleted
  let desc := Function.update desc (start + last) (xdmaDescControlSet (desc (start + last)) control)
  if cfg.eopFlush then forSlots start (fun _ d => xdmaDescControlSet d xdmaDescCompleted) last desc else desc

def transferInitWords (cfg : EngineConfig) (bus : EngineBus) (e : Engine) (req : Request) (desc : Nat → XdmaDesc) :
    Nat → XdmaDesc :=
  let xfer := initialDescList cfg bus e req
  let descMax := xfer.descNum
  let desc := transferDescInit xfer descMax desc
  let desc := transferBuildWords cfg bus req xfer descMax desc
  let desc := transferControls cfg e.descIdx descMax desc
  forSlots e.descIdx (fun i d => xdmaDescAdjacent d (xdmaGetNextAdj (xfer.descNum - i - 1) d.nextLo)) xfer.descNum desc

structure FirstDesc where
  lo : BitVec 32
  hi : BitVec 32
  adjacent : Nat

def firstDesc (xfer : DescList) : FirstDesc :=
  ⟨pciDmaL xfer.descBus, pciDmaH xfer.descBus, xdmaGetNextAdj xfer.descAdjacent (pciDmaL xfer.descBus)⟩

namespace XdmaDesc

def next (d : XdmaDesc) : BitVec 64 := d.nextHi ++ d.nextLo
def src (d : XdmaDesc) : BitVec 64 := d.srcAddrHi ++ d.srcAddrLo
def dst (d : XdmaDesc) : BitVec 64 := d.dstAddrHi ++ d.dstAddrLo
def magic (d : XdmaDesc) : BitVec 32 := d.control >>> 16
def stopped (d : XdmaDesc) : Bool := d.control.getLsbD 0
def eop (d : XdmaDesc) : Bool := d.control.getLsbD 4
def adjacent (d : XdmaDesc) : Nat := (d.control >>> 8 &&& 0x3f).toNat

end XdmaDesc

/-- The words of a descriptor say what is to be moved. The source of a C2H stream is no address of the card. -/
def Describes (cfg : EngineConfig) (streaming : Bool) (d : XdmaDesc) (built : Descriptor) : Prop :=
  d.bytes = .ofNat 32 built.bytes ∧
    match cfg.dir with
    | .toDevice => d.src = .ofNat 64 built.hostAddr ∧ d.dst = .ofNat 64 built.epAddr
    | .fromDevice => d.dst = .ofNat 64 built.hostAddr ∧ (streaming = false → d.src = .ofNat 64 built.epAddr)

/-- The `n` descriptors from `start` on are a list that the card may follow from `first` on and fetch in blocks: the
    descriptors it fetches together with the first, or with the next one of another, are of the same transfer and the
    same block of 64, and there are no more of these. -/
structure Chained (bus : EngineBus) (start n : Nat) (desc : Nat → XdmaDesc) (first : FirstDesc) : Prop where
  linked : ∀ i, i + 1 < n → (desc (start + i)).next = bus.descBus + 32 * BitVec.ofNat 64 (start + i + 1)
  ended : ∀ i, i + 1 = n → (desc (start + i)).next = 0
  magic : ∀ i < n, (desc (start + i)).magic = 0xAD4B
  stopped : ∀ i < n, ((desc (start + i)).stopped = true ↔ i + 1 = n)
  eop : ∀ i < n, ((desc (start + i)).eop = true ↔ i + 1 = n)
  adjacent : ∀ i < n, IsGreatest {a | Ahead 64 start n (i + 1) a} (desc (start + i)).adjacent
  head : first.hi ++ first.lo = bus.descBus + 32 * BitVec.ofNat 64 start
  headAdjacent : IsGreatest {a | Ahead 64 start n 0 a} first.adjacent

theorem pciDma_eq (addr : BitVec 64) : pciDmaH addr ++ pciDmaL addr = addr := by
  apply BitVec.eq_of_getLsbD_eq
  intro i bound
  simp only [pciDmaH, pciDmaL, BitVec.getLsbD_append, BitVec.getLsbD_setWidth, BitVec.getLsbD_ushiftRight]
  by_cases low : i < 32
  · simp [low]
  · have place : 16 + (16 + (i - 32)) = i := by omega
    simp [low, place]
    omega

/-- The number of a descriptor in its page, from the low bits of its bus address. -/
theorem pageIndex_eq (bus : BitVec 64) (aligned : bus.toNat % 4096 = 0) (k : Nat) :
    ((pciDmaL (bus + 32 * BitVec.ofNat 64 k) &&& (xdmaPageSize - 1)) >>> 5).toNat % xdmaMaxAdjBlockSize = k % 64 := by
  have mask : xdmaPageSize - 1 = 4095 := rfl
  have low : (4095 : BitVec 32).toNat = 2 ^ 12 - 1 := rfl
  have block : xdmaMaxAdjBlockSize = 64 := rfl
  rw [mask, block, BitVec.toNat_ushiftRight, BitVec.toNat_and, low, Nat.and_two_pow_sub_one_eq_mod,
    Nat.shiftRight_eq_div_pow, pciDmaL, BitVec.toNat_setWidth, BitVec.toNat_add, BitVec.toNat_mul, BitVec.toNat_ofNat]
  have thirtyTwo : (32 : BitVec 64).toNat = 32 := rfl
  rw [thirtyTwo]
  omega

/-- Where the next descriptor is number `k` of the ring, and `remaining` ones are left with it. -/
theorem xdmaGetNextAdj_greatest (bus : BitVec 64) (aligned : bus.toNat % 4096 = 0) {start n next remaining : Nat}
    (left : remaining = n - next) :
    IsGreatest {a | Ahead 64 start n next a}
      (xdmaGetNextAdj remaining (pciDmaL (bus + 32 * BitVec.ofNat 64 (start + next)))) := by
  have greatest := @ahead_greatest 64 start n next (by decide)
  unfold xdmaGetNextAdj
  split
  · next few =>
    have none_left : n - next - 1 = 0 := by omega
    rw [none_left, Nat.min_zero] at greatest
    exact greatest
  · rw [pageIndex_eq bus aligned, left]
    exact greatest

theorem xdmaGetNextAdj_small (remaining : Nat) (nextLo : BitVec 32) : xdmaGetNextAdj remaining nextLo < 64 := by
  unfold xdmaGetNextAdj
  have block : xdmaMaxAdjBlockSize = 64 := rfl
  split
  · decide
  · apply Nat.lt_of_le_of_lt (Nat.min_le_left _ _)
    omega

/-- The control fields that `transfer_init` sets: of the last descriptor, and of the others with and without
    `eop_flush`. -/
def controlField (eopFlush last : Bool) : BitVec 32 :=
  if last then xdmaDescStopped ||| xdmaDescEop ||| xdmaDescCompleted
  else if eopFlush then xdmaDescCompleted else 0

/-- The three helpers leave one another's part of the control word alone. -/
theorem control_fields (eopFlush last : Bool) (d : XdmaDesc) (control : d.control = descMagic ||| controlField eopFlush last)
    (adj : Nat) (small : adj < 64) :
    (xdmaDescAdjacent d adj).magic = 0xAD4B ∧ (xdmaDescAdjacent d adj).stopped = last ∧
      (xdmaDescAdjacent d adj).eop = last ∧ (xdmaDescAdjacent d adj).adjacent = adj := by
  unfold XdmaDesc.magic XdmaDesc.stopped XdmaDesc.eop XdmaDesc.adjacent xdmaDescAdjacent
  dsimp only
  rw [control]
  clear control d
  revert adj eopFlush last
  decide +kernel

section Init

variable {cfg : EngineConfig} {bus : EngineBus} {e : Engine} {req : Request} {xfer : DescList} {desc : Nat → XdmaDesc}
  {n i : Nat}

theorem transferDescInit_links (more : i + 1 < n) :
    (transferDescInit xfer n desc (xfer.descIndex + i)).control = descMagic ∧
      (transferDescInit xfer n desc (xfer.descIndex + i)).nextLo =
        pciDmaL (xfer.descBus + 32 * BitVec.ofNat 64 (i + 1)) ∧
      (transferDescInit xfer n desc (xfer.descIndex + i)).nextHi =
        pciDmaH (xfer.descBus + 32 * BitVec.ofNat 64 (i + 1)) := by
  have apart : xfer.descIndex + i ≠ xfer.descIndex + (n - 1) := by omega
  have inside : i < n - 1 := by omega
  unfold transferDescInit
  dsimp only
  rw [Function.update_of_ne apart, forSlots_inside inside]
  exact ⟨rfl, rfl, rfl⟩

theorem transferDescInit_ends (last : i + 1 = n) :
    (transferDescInit xfer n desc (xfer.descIndex + i)).control = descMagic ∧
      (transferDescInit xfer n desc (xfer.descIndex + i)).nextLo = 0 ∧
      (transferDescInit xfer n desc (xfer.descIndex + i)).nextHi = 0 := by
  have place : xfer.descIndex + (n - 1) = xfer.descIndex + i := by omega
  unfold transferDescInit
  dsimp only
  rw [place, Function.update_self]
  exact ⟨rfl, rfl, rfl⟩

theorem transferDescInit_magic (inside : i < n) :
    (transferDescInit xfer n desc (xfer.descIndex + i)).control = descMagic := by
  by_cases last : i + 1 = n
  · exact (transferDescInit_ends last).1
  · exact (transferDescInit_links (by omega)).1

theorem buildDesc_keeps (streaming : Bool) (resBus : BitVec 64) (built : Descriptor) (d : XdmaDesc) :
    (buildDesc cfg streaming resBus i built d).control = d.control ∧
      (buildDesc cfg streaming resBus i built d).nextLo = d.nextLo ∧
      (buildDesc cfg streaming resBus i built d).nextHi = d.nextHi := by
  unfold buildDesc xdmaDescSet
  cases cfg.dir with
  | toDevice =>
    dsimp only
    split
    · exact ⟨rfl, rfl, rfl⟩
    · exact ⟨rfl, rfl, rfl⟩
  | fromDevice =>
    dsimp only
    split
    · exact ⟨rfl, rfl, rfl⟩
    · exact ⟨rfl, rfl, rfl⟩

theorem buildDesc_describes (streaming : Bool) (resBus : BitVec 64) (built : Descriptor) (d : XdmaDesc) :
    Describes cfg streaming (buildDesc cfg streaming resBus i built d) built := by
  unfold buildDesc xdmaDescSet Describes
  cases dir : cfg.dir with
  | toDevice =>
    simp only [reduceCtorEq, and_false, if_false]
    exact ⟨trivial, pciDma_eq _, pciDma_eq _⟩
  | fromDevice =>
    cases streaming with
    | false =>
      simp only [Bool.false_eq_true, false_and, if_false]
      exact ⟨trivial, pciDma_eq _, fun _ => pciDma_eq _⟩
    | true =>
      simp only [and_self, if_true]
      exact ⟨trivial, pciDma_eq _, fun streams => absurd streams (by decide)⟩

theorem transferBuildWords_keeps (k : Nat) :
    (transferBuildWords cfg bus req xfer n desc k).control = (desc k).control ∧
      (transferBuildWords cfg bus req xfer n desc k).nextLo = (desc k).nextLo ∧
      (transferBuildWords cfg bus req xfer n desc k).nextHi = (desc k).nextHi := by
  have keeps := @forSlots_keeps _ xfer.descIndex n (fun i d =>
    match (transferBuild cfg (req.remaining.take n) req.epAddr).1[i]? with
    | some descriptor => buildDesc cfg bus.streaming xfer.resBus i descriptor d
    | none => d) desc _ (fun d => (d.control, d.nextLo, d.nextHi)) (by
      intro i d
      split
      · next built found =>
        obtain ⟨control, nextLo, nextHi⟩ := @buildDesc_keeps cfg i bus.streaming xfer.resBus built d
        rw [control, nextLo, nextHi]
      · rfl) k
  obtain ⟨control, next⟩ := Prod.mk.inj keeps
  exact ⟨control, (Prod.mk.inj next).1, (Prod.mk.inj next).2⟩

theorem xdmaDescControlSet_magic {d : XdmaDesc} (control : d.control = descMagic) {field : BitVec 32}
    (narrow : field &&& ~~~ lsByteMask = 0) :
    xdmaDescControlSet d field = { d with control := descMagic ||| field } := by
  have magic : descMagic &&& ~~~ lsByteMask = descMagic := rfl
  rw [xdmaDescControlSet, if_neg (not_not_intro narrow), control, magic]

theorem transferControls_inside {start : Nat} (inside : i < n) (control : (desc (start + i)).control = descMagic) :
    transferControls cfg start n desc (start + i) =
      { desc (start + i) with control := descMagic ||| controlField cfg.eopFlush (decide (i + 1 = n)) } := by
  unfold transferControls controlField
  dsimp only
  by_cases last : i + 1 = n
  · have place : start + (n - 1) = start + i := by omega
    rw [place, if_pos (decide_eq_true last), ← xdmaDescControlSet_magic control rfl]
    split
    · rw [forSlots_outside (by omega), Function.update_self]
    · rw [Function.update_self]
  · have apart : start + i ≠ start + (n - 1) := by omega
    rw [decide_eq_false last]
    simp only [Bool.false_eq_true, if_false]
    split
    · rw [forSlots_inside (by omega), Function.update_of_ne apart, ← xdmaDescControlSet_magic control rfl]
    · rw [Function.update_of_ne apart, BitVec.ofNat_eq_ofNat, BitVec.or_zero, ← control]

def countedDesc (cfg : EngineConfig) (bus : EngineBus) (e : Engine) (req : Request) (desc : Nat → XdmaDesc) (i : Nat) :
    XdmaDesc :=
  let xfer := initialDescList cfg bus e req
  transferControls cfg e.descIdx xfer.descNum
    (transferBuildWords cfg bus req xfer xfer.descNum (transferDescInit xfer xfer.descNum desc)) (e.descIdx + i)

theorem transferInitWords_inside (inside : i < nextDescNum cfg e req) :
    transferInitWords cfg bus e req desc (e.descIdx + i) =
      xdmaDescAdjacent (countedDesc cfg bus e req desc i)
        (xdmaGetNextAdj (nextDescNum cfg e req - i - 1) (countedDesc cfg bus e req desc i).nextLo) := by
  unfold transferInitWords
  exact forSlots_inside inside

theorem countedDesc_init (inside : i < nextDescNum cfg e req) :
    let init := transferDescInit (initialDescList cfg bus e req) (nextDescNum cfg e req) desc (e.descIdx + i)
    (countedDesc cfg bus e req desc i).control =
        descMagic ||| controlField cfg.eopFlush (decide (i + 1 = nextDescNum cfg e req)) ∧
      (countedDesc cfg bus e req desc i).nextLo = init.nextLo ∧
      (countedDesc cfg bus e req desc i).nextHi = init.nextHi := by
  intro init
  obtain ⟨control, nextLo, nextHi⟩ := @transferBuildWords_keeps cfg bus req (initialDescList cfg bus e req)
    (transferDescInit (initialDescList cfg bus e req) (nextDescNum cfg e req) desc) (nextDescNum cfg e req) (e.descIdx + i)
  have magic : init.control = descMagic := transferDescInit_magic inside
  have controlled := @transferControls_inside cfg _ _ _ _ inside (control.trans magic)
  unfold countedDesc initialDescList at *
  dsimp only at *
  rw [controlled]
  exact ⟨rfl, nextLo, nextHi⟩

theorem descBus_add (base : BitVec 64) (start i : Nat) :
    base + 32 * BitVec.ofNat 64 start + 32 * BitVec.ofNat 64 i = base + 32 * BitVec.ofNat 64 (start + i) := by
  rw [BitVec.add_assoc, ← BitVec.mul_add, ← BitVec.ofNat_add]

theorem countedDesc_next (inside : i < nextDescNum cfg e req) :
    (i + 1 < nextDescNum cfg e req → (countedDesc cfg bus e req desc i).nextLo =
        pciDmaL (bus.descBus + 32 * BitVec.ofNat 64 (e.descIdx + i + 1)) ∧
      (countedDesc cfg bus e req desc i).next = bus.descBus + 32 * BitVec.ofNat 64 (e.descIdx + i + 1)) ∧
    (i + 1 = nextDescNum cfg e req → (countedDesc cfg bus e req desc i).next = 0) := by
  obtain ⟨-, nextLo, nextHi⟩ := @countedDesc_init cfg bus e req desc i inside
  unfold XdmaDesc.next
  constructor
  · intro more
    obtain ⟨-, lo, hi⟩ := @transferDescInit_links (initialDescList cfg bus e req) desc _ i more
    have place := descBus_add bus.descBus e.descIdx (i + 1)
    rw [← Nat.add_assoc] at place
    rw [nextLo, nextHi]
    change (transferDescInit _ _ _ (e.descIdx + i)).nextLo = pciDmaL (_ + _) at lo
    change (transferDescInit _ _ _ (e.descIdx + i)).nextHi = pciDmaH (_ + _) at hi
    rw [lo, hi, initialDescList]
    dsimp only
    rw [place]
    exact ⟨rfl, pciDma_eq _⟩
  · intro last
    obtain ⟨-, lo, hi⟩ := @transferDescInit_ends (initialDescList cfg bus e req) desc _ i last
    change (transferDescInit _ _ _ (e.descIdx + i)).nextLo = 0 at lo
    change (transferDescInit _ _ _ (e.descIdx + i)).nextHi = 0 at hi
    rw [nextLo, nextHi, lo, hi]
    rfl

/-- The words describe the transfer that `transferInit` makes. -/
theorem transferInitWords_describes {built : Descriptor} (p : Ptr) (cb : Bool)
    (found : (transferBuild cfg (req.remaining.take (nextDescNum cfg e req)) req.epAddr).1[i]? = some built) :
    (transferInit cfg p cb e req).1.ring (e.descIdx + i) = built ∧
      Describes cfg bus.streaming (transferInitWords cfg bus e req desc (e.descIdx + i)) built := by
  obtain ⟨inside, -⟩ := List.getElem?_eq_some_iff.mp found
  rw [transferBuild_length, List.length_take] at inside
  have early : i < nextDescNum cfg e req := by omega
  constructor
  · change writeRing e.ring e.descIdx _ (e.descIdx + i) = built
    rw [writeRing, if_pos (Nat.le_add_right _ _), Nat.add_sub_cancel_left, found]
    rfl
  · rw [transferInitWords_inside early]
    have magic := @transferDescInit_magic (initialDescList cfg bus e req) desc _ i early
    rw [← (@transferBuildWords_keeps cfg bus req (initialDescList cfg bus e req) _ (nextDescNum cfg e req) _).1] at magic
    have controlled := @transferControls_inside cfg _ _ _ _ early magic
    have words : Describes cfg bus.streaming (transferBuildWords cfg bus req (initialDescList cfg bus e req)
        (nextDescNum cfg e req) (transferDescInit (initialDescList cfg bus e req) (nextDescNum cfg e req) desc)
          (e.descIdx + i)) built := by
      have place : (initialDescList cfg bus e req).descIndex = e.descIdx := rfl
      unfold transferBuildWords
      rw [place, forSlots_inside early, found]
      exact buildDesc_describes _ _ _ _
    change Describes cfg bus.streaming (countedDesc cfg bus e req desc i) built
    change countedDesc cfg bus e req desc i = _ at controlled
    rw [controlled]
    exact words

end Init

/-- Whatever the ring held before, `transfer_init` leaves its descriptors chained. -/
theorem transferInitWords_chained (cfg : EngineConfig) (bus : EngineBus) (aligned : bus.descBus.toNat % 4096 = 0)
    (e : Engine) (req : Request) (desc : Nat → XdmaDesc) :
    Chained bus e.descIdx (nextDescNum cfg e req) (transferInitWords cfg bus e req desc)
      (firstDesc (initialDescList cfg bus e req)) := by
  have fields := fun i (inside : i < nextDescNum cfg e req) =>
    control_fields cfg.eopFlush _ _ (@countedDesc_init cfg bus e req desc i inside).1
      (xdmaGetNextAdj (nextDescNum cfg e req - i - 1) (countedDesc cfg bus e req desc i).nextLo)
      (xdmaGetNextAdj_small _ _)
  refine ⟨?_, ?_, ?_, ?_, ?_, ?_, pciDma_eq _, ?_⟩
  · intro i more
    have inside : i < nextDescNum cfg e req := by omega
    rw [transferInitWords_inside inside]
    exact ((countedDesc_next inside).1 more).2
  · intro i last
    have inside : i < nextDescNum cfg e req := by omega
    rw [transferInitWords_inside inside]
    exact (countedDesc_next inside).2 last
  · intro i inside
    rw [transferInitWords_inside inside]
    exact (fields i inside).1
  · intro i inside
    rw [transferInitWords_inside inside, (fields i inside).2.1]
    exact decide_eq_true_iff
  · intro i inside
    rw [transferInitWords_inside inside, (fields i inside).2.2.1]
    exact decide_eq_true_iff
  · intro i inside
    rw [transferInitWords_inside inside, (fields i inside).2.2.2]
    by_cases more : i + 1 < nextDescNum cfg e req
    · rw [((countedDesc_next inside).1 more).1]
      exact xdmaGetNextAdj_greatest bus.descBus aligned (Nat.sub_sub _ _ _)
    · have none_left : nextDescNum cfg e req - i - 1 = 0 := by omega
      have greatest := @ahead_greatest 64 e.descIdx (nextDescNum cfg e req) (i + 1) (by decide)
      have after : nextDescNum cfg e req - (i + 1) - 1 = 0 := by omega
      rw [after, Nat.min_zero] at greatest
      rw [none_left]
      exact greatest
  · exact xdmaGetNextAdj_greatest bus.descBus aligned (Nat.sub_zero _).symm

/-- Three pieces on both sides of the border of a block. -/
theorem three_pieces_chained :
    Chained ⟨0x80000000, 0x80010000, false⟩ 62 3
      (transferInitWords mmEngine ⟨0x80000000, 0x80010000, false⟩ { idleDriver.engine with descIdx := 62 }
        ⟨[⟨0x1000, 512⟩, ⟨0x3000, 4096⟩, ⟨0x2000, 64⟩], 0, 0⟩ fun _ => ⟨0, 0, 0, 0, 0, 0, 0, 0⟩)
      ⟨0x800007c0, 0, 1⟩ :=
  transferInitWords_chained mmEngine ⟨0x80000000, 0x80010000, false⟩ (by decide)
    { idleDriver.engine with descIdx := 62 } ⟨[⟨0x1000, 512⟩, ⟨0x3000, 4096⟩, ⟨0x2000, 64⟩], 0, 0⟩ _

end CigCard.Xdma
