import CigCard.Interaction.Unwinding
import CigCard.Xdma.BarAccess
import CigCard.Xdma.Interrupts

namespace CigCard.Xdma.Opening

open Ledger Unwinding

inductive EnginePart where
  | desc
  | pollModeAddrVirt
  | cyclicResult
  | cmplthp
deriving DecidableEq

inductive Resource where
  | xdevList
  | rcuList
  | regions
  | msix
  | msi
  | bar (idx : Nat)
  | engine (dir : Direction) (channel : Nat) (part : EnginePart)
deriving DecidableEq

def xdmaBarNum : Nat := 6
def xdmaBarSize : Int := 0x8000
def xdmaOfsIntCtrl : Nat := 0x2000
def xdmaOfsConfig : Nat := 0x3000
def irqBlockId : BitVec 32 := 0x1fc20000
def configBlockId : BitVec 32 := 0x1fc30000
def xdmaIdH2c : BitVec 32 := 0x1fc0
def xdmaIdC2h : BitVec 32 := 0x1fc1
def h2cChannelOffset : Nat := 0x1000
def channelSpacing : Nat := 0x100

/-- The card, the parameters of the module, and how the kernel answers. A BAR of `none` has length 0, `configBarNum`
    is the number that the module was built with, and `userMax` and `channelMax` are what the caller asks for. -/
structure Card where
  allocated : Bool
  pollMode : Bool
  interruptMode : Nat
  configBarNum : Option (Fin xdmaBarNum)
  userMax : Nat
  channelMax : Direction → Nat
  listEmpty : Bool
  threadsCreate : Bool
  pciEnable : Bool
  pciRequestRegions : Bool
  bars : Nat → Option Bar
  iomap : Nat → Option (BitVec 64)
  register : Nat → Nat → BitVec 32
  dmaMask64 : Bool
  dmaMask32 : Bool
  dmaAlloc : Direction → Nat → EnginePart → Bool
  msixCapable : Bool
  msiCapable : Bool
  pciAllocIrqVectors : Bool
  pciEnableMsi : Bool
  vector : Nat → Nat
  vector_injective : Function.Injective vector
  vector_ne_zero : ∀ j, vector j ≠ 0
  irq : Nat
  interruptPin : Nat
  refuses : Nat → Bool
  channelIntEnable : BitVec 32
  userIntEnable : BitVec 32
  interruptEnableMask : Nat → BitVec 32

structure EngineBook where
  magic : Bool
  streaming : Bool
  part : EnginePart → Bool

def EngineBook.zeroed : EngineBook := ⟨false, false, fun _ => false⟩

/-- `struct xdma_dev` as far as opening it goes, its interrupt side in `irq`, with the record `held` of what was
    acquired for it. -/
structure Xdev where
  irq : Device
  held : Registry Resource Unit
  bar : Nat → Option Mapping
  configBarIdx : Option Nat
  userBarIdx : Option Nat
  bypassBarIdx : Option Nat
  gotRegions : Bool
  regionsInUse : Bool
  enabled : Bool
  offline : Bool
  msixEnabled : Bool
  msiEnabled : Bool
  userMax : Nat
  channelMax : Direction → Nat
  engine : Direction → Nat → EngineBook

def acquire (resource : Resource) (xdev : Xdev) : Xdev := { xdev with held := xdev.held.acquire resource () }

def release (resource : Resource) (xdev : Xdev) : Xdev := { xdev with held := xdev.held.release resource () }

def require (granted : Bool) : EStateM Unit Xdev Unit := if granted then pure () else throw ()

def allocDevInstance (card : Card) : Xdev where
  irq := Xdma.allocDevInstance card.channelIntEnable card.userIntEnable card.interruptEnableMask
  held := Registry.empty
  bar _ := none
  configBarIdx := none
  userBarIdx := none
  bypassBarIdx := none
  gotRegions := false
  regionsInUse := false
  enabled := false
  offline := true
  msixEnabled := false
  msiEnabled := false
  userMax := boundedMax maxUserIrq card.userMax
  channelMax dir := boundedMax xdmaChannelNumMax (card.channelMax dir)
  engine _ _ := .zeroed

def xdevListAdd (card : Card) : EStateM Unit Xdev Unit := do
  require (!(card.listEmpty && card.pollMode) || card.threadsCreate)
  modify (acquire .xdevList)
  modify (acquire .rcuList)

def xdevListRemove (xdev : Xdev) : Xdev := release .rcuList (release .xdevList xdev)

def pciEnableDevice (card : Card) : EStateM Unit Xdev Unit := do
  require card.pciEnable
  modify fun xdev => { xdev with enabled := true }

def requestRegions (card : Card) : EStateM Unit Xdev Unit :=
  if card.pciRequestRegions then modify fun xdev => { acquire .regions xdev with gotRegions := true }
  else do
    modify fun xdev => { xdev with regionsInUse := true }
    throw ()

def Card.mapSingleBar (card : Card) (idx : Nat) : Int × Option Mapping :=
  match card.bars idx with
  | none => (0, none)
  | some bar => Xdma.mapSingleBar bar (card.iomap idx)

def setBar (idx : Nat) (mapping : Option Mapping) (xdev : Xdev) : Xdev :=
  { xdev with bar := fun i => if i = idx then mapping else xdev.bar i }

def mapBar (card : Card) (idx : Nat) (xdev : Xdev) : Xdev :=
  match (card.mapSingleBar idx).2 with
  | none => setBar idx none xdev
  | some mapping => acquire (.bar idx) (setBar idx (some mapping) xdev)

def unmapBar (xdev : Xdev) (idx : Nat) : Xdev :=
  if (xdev.bar idx).isSome then setBar idx none (release (.bar idx) xdev) else xdev

def unmapBars (xdev : Xdev) : Xdev := (List.range xdmaBarNum).foldl unmapBar xdev

def Card.isConfigBar (card : Card) (idx : Nat) : Bool :=
  card.register idx xdmaOfsIntCtrl &&& 0xffff0000 == irqBlockId &&
    card.register idx xdmaOfsConfig &&& 0xffff0000 == configBlockId

def mapConfigBar (card : Card) (num : Nat) : EStateM Unit Xdev Unit := do
  modify (mapBar card num)
  require (0 < (card.mapSingleBar num).1)
  require (card.isConfigBar num)
  modify fun xdev => { xdev with configBarIdx := some num }

structure FoundBars where
  barIdList : List Nat
  configBarPos : Nat

def identifyBars (found : FoundBars) (xdev : Xdev) : Xdev :=
  match found.barIdList.length with
  | 2 =>
    if found.configBarPos = 0 then { xdev with bypassBarIdx := found.barIdList[1]? }
    else if found.configBarPos = 1 then { xdev with userBarIdx := found.barIdList[0]? }
    else xdev
  | 3 | 4 =>
    if found.configBarPos = 1 ∨ found.configBarPos = 2 then
      { xdev with
        userBarIdx := found.barIdList[0]?
        bypassBarIdx := found.barIdList[found.barIdList.length - 1]? }
    else xdev
  | _ => xdev

def noteBar (card : Card) (found : FoundBars) (idx : Nat) : EStateM Unit Xdev FoundBars := do
  let xdev ← get
  if xdmaBarSize ≤ (card.mapSingleBar idx).1 ∧ xdev.configBarIdx = none ∧ card.isConfigBar idx = true then
    set { xdev with configBarIdx := some idx }
    pure ⟨found.barIdList ++ [idx], found.barIdList.length⟩
  else pure ⟨found.barIdList ++ [idx], found.configBarPos⟩

def mapNextBar (card : Card) (found : FoundBars) (idx : Nat) : EStateM Unit Xdev FoundBars := do
  modify (mapBar card idx)
  if (card.mapSingleBar idx).1 = 0 then pure found
  else if (card.mapSingleBar idx).1 < 0 then throw ()
  else noteBar card found idx

def requireConfigBar : EStateM Unit Xdev Unit := do
  let xdev ← get
  require xdev.configBarIdx.isSome

def mapAllBars (card : Card) : EStateM Unit Xdev Unit :=
  unwind
    (do
      let found ← (List.range xdmaBarNum).foldlM (mapNextBar card) ⟨[], 0⟩
      requireConfigBar
      modify (identifyBars found))
    unmapBars

def mapBars (card : Card) : EStateM Unit Xdev Unit :=
  match card.configBarNum with
  | some num => mapConfigBar card num
  | none => mapAllBars card

def setDmaMask (card : Card) : EStateM Unit Xdev Unit := require (card.dmaMask64 || card.dmaMask32)

def setEngine (dir : Direction) (channel : Nat) (change : EngineBook → EngineBook) (xdev : Xdev) : Xdev :=
  { xdev with
    engine := fun d ch => if d = dir ∧ ch = channel then change (xdev.engine dir channel) else xdev.engine d ch }

def EngineBook.setPart (part : EnginePart) (here : Bool) (book : EngineBook) : EngineBook :=
  { book with part := fun p => if p = part then here else book.part p }

def takePart (dir : Direction) (channel : Nat) (part : EnginePart) (xdev : Xdev) : Xdev :=
  setEngine dir channel (·.setPart part true) (acquire (.engine dir channel part) xdev)

def dropPart (dir : Direction) (channel : Nat) (part : EnginePart) (xdev : Xdev) : Xdev :=
  if (xdev.engine dir channel).part part then
    setEngine dir channel (·.setPart part false) (release (.engine dir channel part) xdev)
  else xdev

def dmaAllocCoherent (card : Card) (dir : Direction) (channel : Nat) (part : EnginePart) : EStateM Unit Xdev Unit := do
  require (card.dmaAlloc dir channel part)
  modify (takePart dir channel part)

def engineFreeResource (dir : Direction) (channel : Nat) (xdev : Xdev) : Xdev :=
  dropPart dir channel .cyclicResult (dropPart dir channel .desc (dropPart dir channel .pollModeAddrVirt xdev))

def Card.allocatedParts (card : Card) (dir : Direction) (streaming : Bool) : List EnginePart :=
  [.desc] ++ (if card.pollMode then [.pollModeAddrVirt] else []) ++
    (if streaming = true ∧ dir = .fromDevice then [.cyclicResult] else [])

def engineAllocResource (card : Card) (dir : Direction) (channel : Nat) (streaming : Bool) : EStateM Unit Xdev Unit :=
  unwind ((card.allocatedParts dir streaming).forM (dmaAllocCoherent card dir channel)) (engineFreeResource dir channel)

def channelOffset (dir : Direction) (channel : Nat) : Nat :=
  match dir with
  | .toDevice => channel * channelSpacing
  | .fromDevice => channel * channelSpacing + h2cChannelOffset

def Card.identifier (card : Card) (configBarIdx : Nat) (dir : Direction) (channel : Nat) : BitVec 32 :=
  card.register configBarIdx (channelOffset dir channel)

def engineId (identifier : BitVec 32) : BitVec 32 := (identifier &&& 0xffff0000) >>> 16

def engineChannelId (identifier : BitVec 32) : BitVec 32 := (identifier &&& 0x00000f00) >>> 8

def expectedId : Direction → BitVec 32
  | .toDevice => xdmaIdH2c
  | .fromDevice => xdmaIdC2h

def streamingBit (identifier : BitVec 32) : Bool := identifier &&& 0x8000 != 0

def Xdev.engineNumber (xdev : Xdev) (dir : Direction) (channel : Nat) : Nat :=
  match dir with
  | .toDevice => channel
  | .fromDevice => xdev.channelMax .toDevice + channel

def writeInterruptEnableMask (dir : Direction) (channel : Nat) (mask : BitVec 32) (xdev : Xdev) : Xdev :=
  { xdev with
    irq :=
      { xdev.irq with
        interruptEnableMask := fun k =>
          if k = xdev.engineNumber dir channel then mask else xdev.irq.interruptEnableMask k } }

def engineInit (card : Card) (dir : Direction) (channel : Nat) (identifier : BitVec 32) : EStateM Unit Xdev Unit := do
  modify (setEngine dir channel fun book => { book with magic := true, streaming := streamingBit identifier })
  engineAllocResource card dir channel (streamingBit identifier)
  modify (writeInterruptEnableMask dir channel (engineInterruptEnable card.pollMode))
  if card.pollMode then modify (takePart dir channel .cmplthp)

def probeForEngine (card : Card) (dir : Direction) (channel : Nat) : EStateM Unit Xdev Unit := do
  let identifier := card.identifier ((← get).configBarIdx.getD 0) dir channel
  require (engineId identifier == expectedId dir && engineChannelId identifier == BitVec.ofNat 32 channel)
  engineInit card dir channel identifier

def probeFrom (card : Card) (dir : Direction) : Nat → Nat → Xdev → Xdev
  | 0, i, xdev => { xdev with channelMax := fun d => if d = dir then i else xdev.channelMax d }
  | left + 1, i, xdev =>
    match (probeForEngine card dir i).run xdev with
    | .ok _ xdev => probeFrom card dir left (i + 1) xdev
    | .error _ xdev => { xdev with channelMax := fun d => if d = dir then i else xdev.channelMax d }

def probeEngines (card : Card) (xdev : Xdev) : Xdev :=
  let xdev := probeFrom card .toDevice (xdev.channelMax .toDevice) 0 xdev
  probeFrom card .fromDevice (xdev.channelMax .fromDevice) 0 xdev

def engineDestroy (card : Card) (dir : Direction) (channel : Nat) (xdev : Xdev) : Xdev :=
  let xdev := writeInterruptEnableMask dir channel 0 xdev
  let xdev := if card.pollMode then dropPart dir channel .cmplthp xdev else xdev
  setEngine dir channel (fun _ => .zeroed) (engineFreeResource dir channel xdev)

def removeEngine (card : Card) (dir : Direction) (xdev : Xdev) (channel : Nat) : Xdev :=
  if (xdev.engine dir channel).magic then engineDestroy card dir channel xdev else xdev

def removeEngines (card : Card) (xdev : Xdev) : Xdev :=
  let xdev := (List.range (xdev.channelMax .toDevice)).foldl (removeEngine card .toDevice) xdev
  (List.range (xdev.channelMax .fromDevice)).foldl (removeEngine card .fromDevice) xdev

def Card.wantsMsix (card : Card) : Bool := (card.interruptMode == 3 || card.interruptMode == 0) && card.msixCapable

def Card.wantsMsi (card : Card) : Bool := (card.interruptMode == 1 || card.interruptMode == 0) && card.msiCapable

def enableMsiMsix (card : Card) : EStateM Unit Xdev Unit :=
  if card.wantsMsix then do
    modify fun xdev =>
      { (if card.pciAllocIrqVectors then acquire .msix xdev else xdev) with msixEnabled := true }
    require card.pciAllocIrqVectors
  else if card.wantsMsi then do
    modify fun xdev => { (if card.pciEnableMsi then acquire .msi xdev else xdev) with msiEnabled := true }
    require card.pciEnableMsi
  else pure ()

def disableMsiMsix (xdev : Xdev) : Xdev :=
  if xdev.msixEnabled then { release .msix xdev with msixEnabled := false }
  else if xdev.msiEnabled then { release .msi xdev with msiEnabled := false }
  else xdev

theorem boundedMax_pos {limit : Nat} (some : 0 < limit) (requested : Nat) : 0 < boundedMax limit requested := by
  unfold boundedMax
  split <;> omega

theorem boundedMax_le (limit requested : Nat) : boundedMax limit requested ≤ limit := by
  unfold boundedMax
  split <;> omega

def Card.irqConfig (card : Card) (mode : IrqMode) (channelMax : Direction → Nat) : Config where
  mode := mode
  vector := card.vector
  vector_injective := card.vector_injective
  vector_ne_zero := card.vector_ne_zero
  irq := card.irq
  interruptPin := card.interruptPin
  h2cEngines := channelMax .toDevice
  c2hEngines := channelMax .fromDevice
  pollMode := card.pollMode
  h2cChannelMax := channelMax .toDevice
  c2hChannelMax := channelMax .fromDevice
  userMax := boundedMax maxUserIrq card.userMax
  user_pos := boundedMax_pos (Nat.succ_pos 15) card.userMax
  user_le := boundedMax_le maxUserIrq card.userMax

def Xdev.irqMode (xdev : Xdev) : IrqMode :=
  if xdev.msixEnabled then .msix else if xdev.msiEnabled then .msi else .legacy

def setupIrqs (card : Card) : EStateM Unit Xdev Unit := fun xdev =>
  match irqSetup (card.irqConfig xdev.irqMode xdev.channelMax) card.refuses xdev.irq with
  | (true, irq) => .ok () { xdev with irq }
  | (false, irq) => .error () { xdev with irq }

def errEnable (xdev : Xdev) : Xdev := xdevListRemove xdev

def errRegions (xdev : Xdev) : Xdev := errEnable (if xdev.regionsInUse then xdev else { xdev with enabled := false })

def errMap (xdev : Xdev) : Xdev := errRegions (if xdev.gotRegions then release .regions xdev else xdev)

def errMask (xdev : Xdev) : Xdev := errMap (unmapBars xdev)

def errEngines (card : Card) (xdev : Xdev) : Xdev := errMask (removeEngines card xdev)

def errMsix (card : Card) (xdev : Xdev) : Xdev := errEngines card (disableMsiMsix xdev)

def interruptsOff (xdev : Xdev) : Xdev :=
  { xdev with irq := userInterruptsDisable (~~~0) (channelInterruptsDisable (~~~0) xdev.irq) }

def goOnline (card : Card) (xdev : Xdev) : Xdev :=
  { xdev with irq := if card.pollMode then xdev.irq else channelInterruptsEnable (~~~0) xdev.irq, offline := false }

def prepareEngines (card : Card) (xdev : Xdev) : Xdev := probeEngines card (interruptsOff xdev)

def openCard (card : Card) : EStateM Unit Xdev Unit := do
  xdevListAdd card
  unwind (pciEnableDevice card) errEnable
  unwind (requestRegions card) errRegions
  unwind (mapBars card) errMap
  unwind (setDmaMask card) errMask
  modify (prepareEngines card)
  unwind (enableMsiMsix card) (errEngines card)
  unwind (setupIrqs card) (errMsix card)
  modify (goOnline card)

def xdmaDeviceOpen (card : Card) : EStateM.Result Unit Xdev Unit :=
  if card.allocated then (openCard card).run (allocDevInstance card) else .error () (allocDevInstance card)

def smallDevice : Card where
  allocated := true
  pollMode := false
  interruptMode := 0
  configBarNum := none
  userMax := 2
  channelMax _ := 1
  listEmpty := true
  threadsCreate := true
  pciEnable := true
  pciRequestRegions := true
  bars idx := if idx = 0 then some controlBar else none
  iomap _ := some 0xffffc000
  register _ reg :=
    if reg = xdmaOfsIntCtrl then 0x1fc20006
    else if reg = xdmaOfsConfig then 0x1fc30006
    else if reg = h2cChannelOffset then 0x1fc10006
    else 0x1fc00006
  dmaMask64 := true
  dmaMask32 := true
  dmaAlloc _ _ _ := true
  msixCapable := true
  msiCapable := true
  pciAllocIrqVectors := true
  pciEnableMsi := true
  vector := smallCard.vector
  vector_injective := smallCard.vector_injective
  vector_ne_zero := smallCard.vector_ne_zero
  irq := smallCard.irq
  interruptPin := smallCard.interruptPin
  refuses _ := false
  channelIntEnable := 0
  userIntEnable := 0
  interruptEnableMask _ := 0

end CigCard.Xdma.Opening
