import Mathlib.Data.BitVec
import Mathlib.Data.List.Range
import CigCard.Ledger.Registry

namespace CigCard.Xdma

open Ledger

inductive IrqMode where
  | msix
  | msi
  | legacy
deriving DecidableEq

/-- What a handler is registered with. Engines are numbered as their vectors are, the H2C ones first. -/
inductive Handler where
  | channelIrq (engine : Nat)
  | userIrq (i : Nat)
  | isr
deriving DecidableEq

/-- The PCI function: the interrupt mode the kernel gives it, its vectors, and the engines that identify
    themselves. -/
structure PciFunction where
  mode : IrqMode
  vector : Nat → Nat
  vector_injective : Function.Injective vector
  vector_ne_zero : ∀ j, vector j ≠ 0
  irq : Nat
  interruptPin : Nat
  h2cEngines : Nat
  c2hEngines : Nat

def maxUserIrq : Nat := 16

def xdmaChannelNumMax : Nat := 4

def boundedMax (limit requested : Nat) : Nat :=
  if requested = 0 ∨ limit < requested then limit else requested

structure Config extends PciFunction where
  pollMode : Bool
  h2cChannelMax : Nat
  c2hChannelMax : Nat
  userMax : Nat
  user_pos : 0 < userMax
  user_le : userMax ≤ maxUserIrq

def PciFunction.config (pci : PciFunction) (pollMode : Bool) (userMax h2cChannelMax c2hChannelMax : Nat) : Config :=
  { pci with
    pollMode
    h2cChannelMax := min (boundedMax xdmaChannelNumMax h2cChannelMax) pci.h2cEngines
    c2hChannelMax := min (boundedMax xdmaChannelNumMax c2hChannelMax) pci.c2hEngines
    userMax := boundedMax maxUserIrq userMax
    user_pos := by
      unfold boundedMax maxUserIrq
      split <;> omega
    user_le := by
      unfold boundedMax
      split <;> omega }

/-- The interrupt side of `struct xdma_dev` and of the card: `irqs` is the kernel's record of the lines, an
    `irqLine` of `none` stands for -1, and `msixIrqLine` and `interruptEnableMask` are per engine. -/
structure Device where
  irqs : Registry Nat Handler
  irqLine : Option Nat
  msixIrqLine : Nat → Nat
  maskIrqUser : BitVec 32
  channelIntEnable : BitVec 32
  userIntEnable : BitVec 32
  interruptEnableMask : Nat → BitVec 32

def allocDevInstance (channelIntEnable userIntEnable : BitVec 32) (interruptEnableMask : Nat → BitVec 32) : Device :=
  ⟨Registry.empty, none, fun _ => 0, 0, channelIntEnable, userIntEnable, interruptEnableMask⟩

def requestIrq (refuses : Nat → Bool) (line : Nat) (handler : Handler) (xdev : Device) : Bool × Device :=
  if (xdev.irqs.owner line).isSome then (false, { xdev with irqs := xdev.irqs.acquire line handler })
  else if refuses line then (false, xdev)
  else (true, { xdev with irqs := xdev.irqs.acquire line handler })

def freeIrq (line : Nat) (handler : Handler) (xdev : Device) : Device :=
  { xdev with irqs := xdev.irqs.release line handler }

def requestChannels (cfg : Config) (refuses : Nat → Bool) : List Nat → Device → Bool × Device
  | [], xdev => (true, xdev)
  | j :: rest, xdev =>
    match requestIrq refuses (cfg.vector j) (.channelIrq j) xdev with
    | (false, xdev) => (false, xdev)
    | (true, xdev) =>
      requestChannels cfg refuses rest
        { xdev with msixIrqLine := fun k => if k = j then cfg.vector j else xdev.msixIrqLine k }

def irqMsixChannelSetup (cfg : Config) (refuses : Nat → Bool) (xdev : Device) : Bool × Device :=
  match requestChannels cfg refuses (List.range cfg.h2cChannelMax) xdev with
  | (false, xdev) => (false, xdev)
  | (true, xdev) =>
    requestChannels cfg refuses ((List.range cfg.c2hChannelMax).map (cfg.h2cChannelMax + ·)) xdev

def requestUsers (cfg : Config) (refuses : Nat → Bool) : List Nat → Device → Bool × Device
  | [], xdev => (true, xdev)
  | i :: rest, xdev =>
    let line := cfg.vector (cfg.h2cChannelMax + cfg.c2hChannelMax + i)
    match requestIrq refuses line (.userIrq i) xdev with
    | (false, xdev) => (false, xdev)
    | (true, xdev) =>
      match requestUsers cfg refuses rest xdev with
      | (true, xdev) => (true, xdev)
      | (false, xdev) => (false, freeIrq line (.userIrq i) xdev)

def irqMsixUserSetup (cfg : Config) (refuses : Nat → Bool) (xdev : Device) : Bool × Device :=
  requestUsers cfg refuses (List.range cfg.userMax) xdev

def irqMsiSetup (cfg : Config) (refuses : Nat → Bool) (xdev : Device) : Bool × Device :=
  requestIrq refuses cfg.irq .isr { xdev with irqLine := some cfg.irq }

def irqLegacySetup (cfg : Config) (refuses : Nat → Bool) (xdev : Device) : Bool × Device :=
  if cfg.interruptPin = 0 then (false, xdev)
  else requestIrq refuses cfg.irq .isr { xdev with irqLine := some cfg.irq }

def irqSetup (cfg : Config) (refuses : Nat → Bool) (xdev : Device) : Bool × Device :=
  match cfg.mode with
  | .msix =>
    match irqMsixChannelSetup cfg refuses xdev with
    | (false, xdev) => (false, xdev)
    | (true, xdev) => irqMsixUserSetup cfg refuses xdev
  | .msi => irqMsiSetup cfg refuses xdev
  | .legacy => irqLegacySetup cfg refuses xdev

def freeChannels : List Nat → Device → Device
  | [], xdev => xdev
  | j :: rest, xdev =>
    if xdev.msixIrqLine j = 0 then xdev
    else freeChannels rest (freeIrq (xdev.msixIrqLine j) (.channelIrq j) xdev)

def irqMsixChannelTeardown (cfg : Config) (xdev : Device) : Device :=
  freeChannels ((List.range cfg.c2hChannelMax).map (cfg.h2cChannelMax + ·))
    (freeChannels (List.range cfg.h2cChannelMax) xdev)

def freeUsers (cfg : Config) : List Nat → Device → Device
  | [], xdev => xdev
  | i :: rest, xdev =>
    freeUsers cfg rest (freeIrq (cfg.vector (cfg.h2cChannelMax + cfg.c2hChannelMax + i)) (.userIrq i) xdev)

def irqMsixUserTeardown (cfg : Config) (xdev : Device) : Device := freeUsers cfg (List.range cfg.userMax) xdev

def irqTeardown (cfg : Config) (xdev : Device) : Device :=
  match cfg.mode with
  | .msix => irqMsixUserTeardown cfg (irqMsixChannelTeardown cfg xdev)
  | .msi | .legacy =>
    match xdev.irqLine with
    | none => xdev
    | some line => freeIrq line .isr xdev

def channelInterruptsEnable (mask : BitVec 32) (xdev : Device) : Device :=
  { xdev with channelIntEnable := xdev.channelIntEnable ||| mask }

def channelInterruptsDisable (mask : BitVec 32) (xdev : Device) : Device :=
  { xdev with channelIntEnable := xdev.channelIntEnable &&& ~~~mask }

def userInterruptsEnable (mask : BitVec 32) (xdev : Device) : Device :=
  { xdev with userIntEnable := xdev.userIntEnable ||| mask }

def userInterruptsDisable (mask : BitVec 32) (xdev : Device) : Device :=
  { xdev with userIntEnable := xdev.userIntEnable &&& ~~~mask }

def xdmaCtrlIeDescStopped : BitVec 32 := 1#32 <<< 1
def xdmaCtrlIeDescCompleted : BitVec 32 := 1#32 <<< 2
def xdmaCtrlIeDescAlignMismatch : BitVec 32 := 1#32 <<< 3
def xdmaCtrlIeMagicStopped : BitVec 32 := 1#32 <<< 4
def xdmaCtrlIeReadError : BitVec 32 := 0x1F#32 <<< 9
def xdmaCtrlIeDescError : BitVec 32 := 0x1F#32 <<< 19

def engineInterruptEnable (pollMode : Bool) : BitVec 32 :=
  let errors := xdmaCtrlIeDescAlignMismatch ||| xdmaCtrlIeMagicStopped ||| xdmaCtrlIeReadError |||
    xdmaCtrlIeDescError
  if pollMode then errors else errors ||| xdmaCtrlIeDescStopped ||| xdmaCtrlIeDescCompleted

def engineInitRegs (cfg : Config) (engine : Nat) (xdev : Device) : Device :=
  { xdev with
    interruptEnableMask := fun k =>
      if k = engine then engineInterruptEnable cfg.pollMode else xdev.interruptEnableMask k }

def Config.initEngines (cfg : Config) (xdev : Device) : Device :=
  (List.range (cfg.h2cChannelMax + cfg.c2hChannelMax)).foldl (fun xdev engine => engineInitRegs cfg engine xdev) xdev

def xdmaDeviceOpen (cfg : Config) (refuses : Nat → Bool) (channelIntEnable userIntEnable : BitVec 32)
    (interruptEnableMask : Nat → BitVec 32) : Option Device :=
  let xdev := allocDevInstance channelIntEnable userIntEnable interruptEnableMask
  let xdev := userInterruptsDisable (~~~0) (channelInterruptsDisable (~~~0) xdev)
  match irqSetup cfg refuses (cfg.initEngines xdev) with
  | (false, _) => none
  | (true, xdev) => some (if cfg.pollMode then xdev else channelInterruptsEnable (~~~0) xdev)

def xdmaDeviceOffline (cfg : Config) (xdev : Device) : Device :=
  irqTeardown cfg (userInterruptsDisable (~~~0) (channelInterruptsDisable (~~~0) xdev))

def xdmaDeviceOnline (cfg : Config) (refuses : Nat → Bool) (xdev : Device) : Device :=
  let xdev := cfg.initEngines xdev
  if cfg.pollMode then xdev
  else
    let xdev := channelInterruptsEnable (~~~0) (irqSetup cfg refuses xdev).2
    userInterruptsEnable xdev.maskIrqUser xdev

def xdmaDeviceClose (cfg : Config) (xdev : Device) : Device :=
  irqTeardown cfg (userInterruptsDisable (~~~0) (channelInterruptsDisable (~~~0) xdev))

def xdmaUserIsrEnable (mask : BitVec 32) (xdev : Device) : Device :=
  userInterruptsEnable mask { xdev with maskIrqUser := xdev.maskIrqUser ||| mask }

def xdmaUserIsrDisable (mask : BitVec 32) (xdev : Device) : Device :=
  userInterruptsDisable mask { xdev with maskIrqUser := xdev.maskIrqUser &&& ~~~mask }

def smallCard : PciFunction where
  mode := .msix
  vector j := 32 + j
  vector_injective := fun _ _ same => Nat.add_left_cancel same
  vector_ne_zero := by omega
  irq := 11
  interruptPin := 1
  h2cEngines := 1
  c2hEngines := 1

end CigCard.Xdma
