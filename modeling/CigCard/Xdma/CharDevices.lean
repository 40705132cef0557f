import CigCard.Interaction.Unwinding
import CigCard.Xdma.Cdev
import CigCard.Xdma.Interrupts

namespace CigCard.Xdma

open Ledger Unwinding

inductive CdevType where
  | user
  | ctrl
  | xvc
  | events
  | xdmaH2c
  | xdmaC2h
  | bypassH2c
  | bypassC2h
  | bypass
deriving DecidableEq

inductive XpdevFlag where
  | user
  | ctrl
  | xvc
  | event
  | sg
  | bypass
deriving DecidableEq

/-- A `struct xdma_cdev` of the card. There is one of its type, or it is the `index`-th of an array. -/
structure CdevId where
  type : CdevType
  index : Nat
deriving DecidableEq

abbrev DevNo := Nat × Int

inductive CharNode where
  | cdev (xcdev : CdevId)
  | sysDevice (cdevno : DevNo)
deriving DecidableEq

/-- `magic` and `xdev` say that the field was set, `engine` is the channel of the engine. -/
structure Xcdev where
  magic : Bool
  xdev : Bool
  engine : Option Nat
  bar : Int
  cdevno : DevNo
  sysDevice : Bool

structure ProbedEngine where
  magic : Bool
  channel : Nat

structure OpenedCard where
  userMax : Nat
  h2cChannelMax : Nat
  c2hChannelMax : Nat
  engineH2c : Nat → ProbedEngine
  engineC2h : Nat → ProbedEngine
  configBarIdx : Int
  userBarIdx : Int
  bypassBarIdx : Int

/-- The character-device side of `struct xdma_pci_dev` and of the kernel: `devices` is the kernel's record of what
    is registered and `regions` that of the device numbers. A `major` of 0 is none. -/
structure Xpdev where
  userMax : Nat
  h2cChannelMax : Nat
  c2hChannelMax : Nat
  major : Nat
  flags : XpdevFlag → Bool
  cdev : CdevId → Xcdev
  devices : Registry CharNode Unit
  regions : Registry DevNo Unit

inductive DeviceAnswer where
  | device
  | null
  | errPtr
deriving DecidableEq

/-- How the kernel answers. Each character device is asked for once, and an error is a negative number. -/
structure CharKernel where
  gXdmaClass : Bool
  allocChrdevRegion : Except Int { major : Nat // major ≠ 0 }
  kobjectSetName : CdevId → Except Int Unit
  cdevAdd : CdevId → Except Int Unit
  deviceCreate : CdevId → DeviceAnswer

def xdmaMinorBase : Int := 0

namespace Xpdev

def flagSet (flag : XpdevFlag) (xpdev : Xpdev) : Xpdev :=
  { xpdev with flags := fun other => if other = flag then true else xpdev.flags other }

def setCdev (xcdev : CdevId) (change : Xcdev → Xcdev) (xpdev : Xpdev) : Xpdev :=
  { xpdev with cdev := fun other => if other = xcdev then change (xpdev.cdev xcdev) else xpdev.cdev other }

end Xpdev

def registerDevice (device : CharNode) (xpdev : Xpdev) : Xpdev :=
  { xpdev with devices := xpdev.devices.acquire device () }

def deviceDestroy (cdevno : DevNo) (xpdev : Xpdev) : Xpdev :=
  { xpdev with devices := xpdev.devices.release (.sysDevice cdevno) () }

def cdevDel (xcdev : CdevId) (xpdev : Xpdev) : Xpdev :=
  { xpdev with devices := xpdev.devices.release (.cdev xcdev) () }

def unregisterChrdevRegion (first : DevNo) (xpdev : Xpdev) : Xpdev :=
  { xpdev with regions := xpdev.regions.release first () }

/-- An error pointer is not `NULL`, and is taken for a device. -/
def createSysDevice (kernel : CharKernel) (xcdev : CdevId) (cdevno : DevNo) : EStateM Int Xpdev Unit :=
  match kernel.deviceCreate xcdev with
  | .device =>
    modify fun xpdev =>
      (registerDevice (.sysDevice cdevno) xpdev).setCdev xcdev fun cdev => { cdev with sysDevice := true }
  | .errPtr => modify fun xpdev => xpdev.setCdev xcdev fun cdev => { cdev with sysDevice := true }
  | .null => do
    modify fun xpdev => xpdev.setCdev xcdev fun cdev => { cdev with sysDevice := false }
    throw (-1)

def destroyXcdev (kernel : CharKernel) (xpdev : Xpdev) (xcdev : CdevId) : Xpdev :=
  let cdev := xpdev.cdev xcdev
  if cdev.magic && cdev.xdev && kernel.gXdmaClass && cdev.sysDevice then
    cdevDel xcdev (deviceDestroy cdev.cdevno xpdev)
  else xpdev

def CdevType.minor (bar : Int) (channel : Nat) : CdevType → Int
  | .user => 0
  | .ctrl => 1
  | .xvc => 2
  | .xdmaH2c => 32 + channel
  | .xdmaC2h => 36 + channel
  | .events => 10 + bar
  | .bypassH2c => 64 + channel
  | .bypassC2h => 68 + channel
  | .bypass => 100

def configKobject (kernel : CharKernel) (xcdev : CdevId) (engine : Option Nat) : EStateM Int Xpdev Unit :=
  match xcdev.type, engine with
  | .xdmaH2c, none | .xdmaC2h, none | .bypassH2c, none | .bypassC2h, none => throw (-einval)
  | _, _ => ofExcept (kernel.kobjectSetName xcdev)

def allocRegion (kernel : CharKernel) : EStateM Int Xpdev Unit := do
  let major ← ofExcept kernel.allocChrdevRegion
  modify fun xpdev =>
    { xpdev with major := major.1, regions := xpdev.regions.acquire (major.1, xdmaMinorBase) () }

/-- The first device that is created brings the device numbers. -/
def needRegion (kernel : CharKernel) : EStateM Int Xpdev Unit := do
  if (← get).major = 0 then allocRegion kernel

def addXcdev (kernel : CharKernel) (xcdev : CdevId) (cdevno : DevNo) : EStateM Int Xpdev Unit := do
  unwind (ofExcept (kernel.cdevAdd xcdev)) (unregisterChrdevRegion cdevno)
  modify (registerDevice (.cdev xcdev))
  if kernel.gXdmaClass then
    unwind (createSysDevice kernel xcdev cdevno) fun xpdev => unregisterChrdevRegion cdevno (cdevDel xcdev xpdev)

def createXcdev (kernel : CharKernel) (xcdev : CdevId) (bar : Int) (engine : Option Nat) :
    EStateM Int Xpdev Unit := do
  needRegion kernel
  modify fun xpdev => xpdev.setCdev xcdev fun cdev => { cdev with magic := true, xdev := true, engine, bar }
  configKobject kernel xcdev engine
  let cdevno : DevNo := ((← get).major, xcdev.type.minor bar (engine.getD 0))
  modify fun xpdev => xpdev.setCdev xcdev fun cdev => { cdev with cdevno }
  addXcdev kernel xcdev cdevno

def createEngine (kernel : CharKernel) (type : CdevType) (engine : ProbedEngine) (i : Nat) :
    EStateM Int Xpdev Unit :=
  if engine.magic then createXcdev kernel ⟨type, i⟩ i (some engine.channel) else pure ()

def createEngines (kernel : CharKernel) (type : CdevType) (engines : Nat → ProbedEngine) (channelMax : Nat) :
    EStateM Int Xpdev Unit :=
  (List.range channelMax).forM fun i => createEngine kernel type (engines i) i

def createEvents (kernel : CharKernel) (userMax : Nat) : EStateM Int Xpdev Unit :=
  (List.range userMax).forM fun i => createXcdev kernel ⟨.events, i⟩ i none

def createBypass (kernel : CharKernel) (xdev : OpenedCard) (h2cChannelMax c2hChannelMax : Nat) :
    EStateM Int Xpdev Unit := do
  if 0 < xdev.bypassBarIdx then
    createEngines kernel .bypassH2c xdev.engineH2c h2cChannelMax
    createEngines kernel .bypassC2h xdev.engineC2h c2hChannelMax
    createXcdev kernel ⟨.bypass, 0⟩ xdev.bypassBarIdx none
    modify (·.flagSet .bypass)

def createUser (kernel : CharKernel) (xdev : OpenedCard) : EStateM Int Xpdev Unit := do
  if 0 ≤ xdev.userBarIdx then
    createXcdev kernel ⟨.user, 0⟩ xdev.userBarIdx none
    modify (·.flagSet .user)
    createXcdev kernel ⟨.xvc, 0⟩ xdev.userBarIdx none
    modify (·.flagSet .xvc)

def createGroups (kernel : CharKernel) (xdev : OpenedCard) (userMax h2cChannelMax c2hChannelMax : Nat) :
    EStateM Int Xpdev Unit := do
  createEvents kernel userMax
  modify (·.flagSet .event)
  createEngines kernel .xdmaH2c xdev.engineH2c h2cChannelMax
  createEngines kernel .xdmaC2h xdev.engineC2h c2hChannelMax
  modify (·.flagSet .sg)
  createBypass kernel xdev h2cChannelMax c2hChannelMax
  createUser kernel xdev

def createAll (kernel : CharKernel) (xdev : OpenedCard) : EStateM Int Xpdev Unit := do
  let xpdev ← get
  createXcdev kernel ⟨.ctrl, 0⟩ xdev.configBarIdx none
  modify (·.flagSet .ctrl)
  createGroups kernel xdev xpdev.userMax xpdev.h2cChannelMax xpdev.c2hChannelMax

namespace Xpdev

variable (xpdev : Xpdev)

def channelCdevs (h2c c2h : CdevType) : List CdevId :=
  (List.range xpdev.h2cChannelMax).map (CdevId.mk h2c) ++ (List.range xpdev.c2hChannelMax).map (CdevId.mk c2h)

def flagged (flag : XpdevFlag) (xcdevs : List CdevId) : List CdevId := if xpdev.flags flag then xcdevs else []

def destroyed : List CdevId :=
  xpdev.flagged .sg (xpdev.channelCdevs .xdmaH2c .xdmaC2h) ++
  xpdev.flagged .event ((List.range xpdev.userMax).map (CdevId.mk .events)) ++
  xpdev.flagged .ctrl [⟨.ctrl, 0⟩] ++
  xpdev.flagged .user [⟨.user, 0⟩] ++
  xpdev.flagged .xvc [⟨.xvc, 0⟩] ++
  xpdev.flagged .bypass (xpdev.channelCdevs .bypassH2c .bypassC2h ++ [⟨.bypass, 0⟩])

end Xpdev

def xpdevDestroyInterfaces (kernel : CharKernel) (xpdev : Xpdev) : Xpdev :=
  let gone := xpdev.destroyed.foldl (destroyXcdev kernel) xpdev
  if gone.major = 0 then gone else unregisterChrdevRegion (gone.major, xdmaMinorBase) gone

def xpdevCreateInterfaces (kernel : CharKernel) (xdev : OpenedCard) : EStateM Int Xpdev Unit :=
  EStateM.adaptExcept (fun _ => -1) (unwind (createAll kernel xdev) (xpdevDestroyInterfaces kernel))

/-- What `probe_one` is told before it creates an interface: `hndl` is what `xdma_device_open` returns, and `found`
    says that `xdev_find_by_pdev` returns the same. -/
structure ProbedCard where
  allocated : Bool
  hndl : Option OpenedCard
  userIsrEnable : Except Int Unit
  found : Bool

def xpdevAlloc : Xpdev :=
  ⟨maxUserIrq, xdmaChannelNumMax, xdmaChannelNumMax, 0, fun _ => false, fun _ => ⟨false, false, none, 0, (0, 0), false⟩,
    Registry.empty, Registry.empty⟩

def xpdevFree (kernel : CharKernel) (xpdev : Xpdev) : Xpdev := xpdevDestroyInterfaces kernel xpdev

def ProbedCard.enableUserIsr (card : ProbedCard) (userMax : Nat) : EStateM Int Xpdev Unit :=
  if userMax = 0 then pure () else ofExcept card.userIsrEnable

def probeChecks (card : ProbedCard) : EStateM Int Xpdev OpenedCard := do
  let xdev ← ofExcept (card.hndl.elim (.error (-einval)) .ok)
  modify fun xpdev =>
    { xpdev with
      userMax := xdev.userMax, h2cChannelMax := xdev.h2cChannelMax, c2hChannelMax := xdev.c2hChannelMax }
  if maxUserIrq < xdev.userMax ∨ xdmaChannelNumMax < xdev.h2cChannelMax ∨
      xdmaChannelNumMax < xdev.c2hChannelMax then throw (-einval)
  else
    card.enableUserIsr xdev.userMax
    if card.found then pure xdev else throw (-einval)

def probeOne (kernel : CharKernel) (card : ProbedCard) : EStateM.Result Int Xpdev Unit :=
  if card.allocated then
    (unwind (do xpdevCreateInterfaces kernel (← probeChecks card)) (xpdevFree kernel)).run xpdevAlloc
  else .error (-enomem) xpdevAlloc

end CigCard.Xdma
