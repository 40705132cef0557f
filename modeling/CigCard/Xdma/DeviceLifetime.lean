import CigCard.Xdma.LinePhases
import CigCard.Xdma.OpenReleases

namespace CigCard.Xdma.Opening

open Ledger Unwinding

def Xdev.irqConfig (card : Card) (xdev : Xdev) : Config := card.irqConfig xdev.irqMode xdev.channelMax

def offlineAfter (offline : Bool) : DeviceCall → Bool
  | .offline => true
  | .online _ => false
  | .userIsr _ => offline

def performCall (card : Card) (xdev : Xdev) (call : DeviceCall) : Xdev :=
  { xdev with irq := call.perform (xdev.irqConfig card) xdev.irq, offline := offlineAfter xdev.offline call }

def performCalls (card : Card) (calls : List DeviceCall) (xdev : Xdev) : Xdev := calls.foldl (performCall card) xdev

def xdmaDeviceClose (card : Card) (xdev : Xdev) : Xdev :=
  let xdev := { xdev with irq := Xdma.xdmaDeviceClose (xdev.irqConfig card) xdev.irq }
  let xdev := unmapBars (removeEngines card (disableMsiMsix xdev))
  let xdev := if xdev.gotRegions then release .regions xdev else xdev
  let xdev := if xdev.regionsInUse then xdev else { xdev with enabled := false }
  xdevListRemove xdev

structure InUse (card : Card) (configBarIdx : Nat) (xdev : Xdev) : Prop where
  past : PastEngines card (vectorsOf card.mode ++ .regions :: onLists) configBarIdx xdev
  mode : xdev.irqMode = card.mode

section Opened

variable {card : Card}

theorem InUse.withIrq {configBarIdx : Nat} {xdev : Xdev} (inUse : InUse card configBarIdx xdev) (irq : Device)
    (offline : Bool) : InUse card configBarIdx { xdev with irq, offline } :=
  ⟨inUse.past.congr inUse.past.booked rfl rfl rfl rfl, inUse.mode⟩

theorem setupIrqs_inUse {configBarIdx : Nat} :
    Meets (setupIrqs card) (Vectored card configBarIdx) (fun _ => InUse card configBarIdx) (fun _ => True) := by
  intro xdev vectored
  have inUse : InUse card configBarIdx xdev := ⟨vectored.past, vectored.mode⟩
  rw [setupIrqs_run]
  cases irqSetup (card.irqConfig xdev.irqMode xdev.channelMax) card.refuses xdev.irq with
  | mk ended irq =>
    cases ended with
    | true => exact inUse.withIrq irq xdev.offline
    | false => trivial

theorem useBars_inUse {configBarIdx : Nat} :
    Meets
      (do
        unwind (setDmaMask card) errMask
        modify (prepareEngines card)
        unwind (enableMsiMsix card) (errEngines card)
        unwind (setupIrqs card) (errMsix card)
        modify (goOnline card))
      (Located card (.regions :: onLists) configBarIdx) (fun _ => InUse card configBarIdx) (fun _ => True) := by
  have mask := require_meets (card.dmaMask64 || card.dmaMask32) (Located card (.regions :: onLists) configBarIdx)
  apply Meets.bind _ (Meets.unwind mask fun _ _ => trivial)
  intro _
  apply Meets.given
  intro _
  apply Meets.bind fun _ => Prepared card configBarIdx
  · apply Meets.modify
    intro xdev located
    exact prepareEngines_prepared located
  · intro _
    apply Meets.bind _ (Meets.unwind enableMsiMsix_meets fun _ _ => trivial)
    intro _
    apply Meets.given
    intro _
    apply Meets.bind _ (Meets.unwind setupIrqs_inUse fun _ _ => trivial)
    intro _
    exact Meets.modify _ fun _ inUse => inUse.withIrq _ false

theorem openCard_inUse :
    Meets (openCard card) (Started card [])
      (fun _ xdev => ∃ configBarIdx, card.configBar = some configBarIdx ∧ InUse card configBarIdx xdev)
      (fun _ => True) := by
  unfold openCard
  apply Meets.bind _ (xdevListAdd_meets.failing fun _ _ => trivial)
  intro _
  apply Meets.given
  intro _
  apply Meets.bind _ (Meets.unwind pciEnableDevice_meets fun _ _ => trivial)
  intro _
  apply Meets.given
  intro _
  apply Meets.bind _ (Meets.unwind requestRegions_meets fun _ _ => trivial)
  intro _
  apply Meets.given
  intro _
  apply Meets.bind _ (Meets.unwind mapBars_located fun _ _ => trivial)
  rintro _ xdev ⟨configBarIdx, found, located⟩
  have named := (@useBars_inUse card configBarIdx).weaken (fun _ there => there)
    (fun _ next inUse => show ∃ configBarIdx, card.configBar = some configBarIdx ∧ InUse card configBarIdx next from
      ⟨configBarIdx, found, inUse⟩) fun _ _ => trivial
  exact named xdev located

theorem xdmaDeviceOpen_located {xdev : Xdev} (opened : xdmaDeviceOpen card = .ok () xdev) :
    ∃ configBarIdx, card.configBar = some configBarIdx ∧ InUse card configBarIdx xdev := by
  unfold xdmaDeviceOpen at opened
  split at opened
  · have ends := @openCard_inUse card (allocDevInstance card) (allocDevInstance_started card)
    rw [opened] at ends
    exact ends
  · cases opened

/-- What an open card holds, and that its lines are those of the interrupt side. -/
theorem xdmaDeviceOpen_inUse {xdev : Xdev} (opened : xdmaDeviceOpen card = .ok () xdev) :
    ∃ configBarIdx, InUse card configBarIdx xdev ∧ Xdma.Opened (xdev.irqConfig card) xdev.irq := by
  obtain ⟨configBarIdx, found, irqSide⟩ := xdmaDeviceOpen_irqSide opened
  obtain ⟨other, same, inUse⟩ := xdmaDeviceOpen_located opened
  rw [found] at same
  cases same
  have config : xdev.irqConfig card = card.irqConfig card.mode (card.engines configBarIdx) := by
    rw [Xdev.irqConfig, inUse.mode, inUse.past.probed.channelMax]
  rw [config]
  exact ⟨configBarIdx, inUse, open_opened irqSide⟩

end Opened

section Lifetime

variable {card : Card}

theorem performCalls_eq (calls : List DeviceCall) (xdev : Xdev) :
    performCalls card calls xdev =
      { xdev with
        irq := calls.foldl (DeviceCall.perform (xdev.irqConfig card)) xdev.irq
        offline := calls.foldl offlineAfter xdev.offline } := by
  induction calls generalizing xdev with
  | nil => rfl
  | cons call calls ih =>
    rw [performCalls, List.foldl_cons, List.foldl_cons, List.foldl_cons]
    exact ih (performCall card xdev call)

/-- After the lines are freed, closing does what a failed open does from `err_msix` on. -/
theorem xdmaDeviceClose_eq (xdev : Xdev) :
    xdmaDeviceClose card xdev =
      errMsix card { xdev with irq := Xdma.xdmaDeviceClose (xdev.irqConfig card) xdev.irq } := rfl

theorem InUse.closed {configBarIdx : Nat} {xdev : Xdev} (inUse : InUse card configBarIdx xdev) :
    Released (xdmaDeviceClose card xdev) ↔
      (Xdma.xdmaDeviceClose (xdev.irqConfig card) xdev.irq).irqs.Holds [] ∧
        (Xdma.xdmaDeviceClose (xdev.irqConfig card) xdev.irq).irqs.misused = false := by
  have down := inUse.withIrq (Xdma.xdmaDeviceClose (xdev.irqConfig card) xdev.irq) xdev.offline
  obtain ⟨booked, irqs, bars, parts⟩ := errMsix_spec down.mode down.past
  rw [xdmaDeviceClose_eq, released_iff booked, irqs]
  exact ⟨fun released => released.1, fun lines => ⟨lines, bars, parts⟩⟩

end Lifetime

end CigCard.Xdma.Opening
