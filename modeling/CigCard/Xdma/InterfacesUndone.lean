import CigCard.Xdma.CharDevices

namespace CigCard.Xdma

open Ledger Unwinding

section Destroy

variable (kernel : CharKernel)

def Xcdev.whole (cdev : Xcdev) : Bool := cdev.magic && cdev.xdev && kernel.gXdmaClass && cdev.sysDevice

namespace Xpdev

variable (xpdev : Xpdev)

def nodes (xcdev : CdevId) : List (CharNode × Unit) :=
  if (xpdev.cdev xcdev).whole kernel then
    [(.sysDevice (xpdev.cdev xcdev).cdevno, ()), (.cdev xcdev, ())]
  else []

def numbers : List (DevNo × Unit) := if xpdev.major = 0 then [] else [((xpdev.major, xdmaMinorBase), ())]

end Xpdev

theorem destroyXcdev_eq (xpdev : Xpdev) (xcdev : CdevId) :
    destroyXcdev kernel xpdev xcdev =
      { xpdev with devices := xpdev.devices.releaseAll (xpdev.nodes kernel xcdev) } := by
  unfold destroyXcdev Xpdev.nodes Xcdev.whole
  dsimp only
  split
  · rfl
  · rfl

theorem destroyXcdevs_eq (xpdev : Xpdev) (xcdevs : List CdevId) :
    xcdevs.foldl (destroyXcdev kernel) xpdev =
      { xpdev with devices := xpdev.devices.releaseAll (xcdevs.flatMap (xpdev.nodes kernel)) } := by
  induction xcdevs generalizing xpdev with
  | nil => rfl
  | cons xcdev xcdevs ih =>
    rw [List.foldl_cons, ih, destroyXcdev_eq, List.flatMap_cons, Registry.releaseAll_append]
    rfl

theorem xpdevDestroyInterfaces_eq (xpdev : Xpdev) :
    xpdevDestroyInterfaces kernel xpdev =
      { xpdev with
        devices := xpdev.devices.releaseAll (xpdev.destroyed.flatMap (xpdev.nodes kernel))
        regions := xpdev.regions.releaseAll xpdev.numbers } := by
  unfold xpdevDestroyInterfaces Xpdev.numbers
  rw [destroyXcdevs_eq]
  dsimp only
  split
  · rfl
  · rfl

/-- Flags and major are still set afterwards, so the second time gives back the same things again. -/
theorem destroyed_again (xpdev : Xpdev) :
    xpdevFree kernel (xpdevDestroyInterfaces kernel xpdev) =
      { xpdev with
        devices :=
          (xpdev.devices.releaseAll (xpdev.destroyed.flatMap (xpdev.nodes kernel))).releaseAll
            (xpdev.destroyed.flatMap (xpdev.nodes kernel))
        regions := (xpdev.regions.releaseAll xpdev.numbers).releaseAll xpdev.numbers } := by
  rw [xpdevFree, xpdevDestroyInterfaces_eq kernel xpdev, xpdevDestroyInterfaces_eq]
  rfl

end Destroy

namespace Xpdev

variable (xpdev : Xpdev)

def DevicesUndone : Prop := xpdev.devices.Holds [] ∧ xpdev.devices.misused = false

def RegionUndone : Prop := xpdev.regions.Holds [] ∧ xpdev.regions.misused = false

structure Blank : Prop where
  flags : xpdev.flags = fun _ => false
  major : xpdev.major = 0
  devices : xpdev.devices = Registry.empty
  regions : xpdev.regions = Registry.empty

end Xpdev

theorem empty_undone {κ υ : Type} : (Registry.empty : Registry κ υ).Holds [] ∧ (Registry.empty : Registry κ υ).misused = false := by
  constructor
  · intro key user
    simp [Registry.empty]
  · rfl

def ctrlCdev : CdevId := ⟨.ctrl, 0⟩

namespace CharKernel

variable (kernel : CharKernel)

def refusesRegion : Bool := !kernel.allocChrdevRegion.isOk

def refusesControl : Bool :=
  kernel.refusesRegion || !(kernel.kobjectSetName ctrlCdev).isOk || !(kernel.cdevAdd ctrlCdev).isOk ||
    (kernel.gXdmaClass && kernel.deviceCreate ctrlCdev == .null)

end CharKernel

structure Controlled (kernel : CharKernel) (xpdev : Xpdev) : Prop where
  numbered : xpdev.major ≠ 0
  held : xpdev.devices.owner (.cdev ctrlCdev) = some ()
  whole : kernel.gXdmaClass = true → (xpdev.cdev ctrlCdev).whole kernel = true

structure Uncontrolled (kernel : CharKernel) (xpdev : Xpdev) : Prop where
  refused : kernel.refusesControl = true
  flags : xpdev.flags = fun _ => false
  devices : xpdev.DevicesUndone
  numbers : if kernel.refusesRegion = true then xpdev.major = 0 ∧ xpdev.RegionUndone else xpdev.major ≠ 0

structure Numbered (kernel : CharKernel) (xpdev : Xpdev) : Prop where
  granted : kernel.refusesRegion = false
  flags : xpdev.flags = fun _ => false
  major : xpdev.major ≠ 0
  devices : xpdev.devices = Registry.empty

structure Configured (kernel : CharKernel) (xpdev : Xpdev) : Prop extends Numbered kernel xpdev where
  named : (kernel.kobjectSetName ctrlCdev).isOk = true
  magic : (xpdev.cdev ctrlCdev).magic = true
  xdev : (xpdev.cdev ctrlCdev).xdev = true

section Create

variable {kernel : CharKernel}

theorem Numbered.uncontrolled {xpdev : Xpdev} (numbered : Numbered kernel xpdev)
    (refused : kernel.refusesControl = true) : Uncontrolled kernel xpdev := by
  refine ⟨refused, numbered.flags, ?_, ?_⟩
  · rw [Xpdev.DevicesUndone, numbered.devices]
    exact empty_undone
  · simpa [numbered.granted] using numbered.major

theorem allocRegion_blank :
    Meets (allocRegion kernel) Xpdev.Blank (fun _ => Numbered kernel) (Uncontrolled kernel) := by
  apply Meets.bind fun _ xpdev => kernel.refusesRegion = false ∧ xpdev.Blank
  · apply Meets.ofExcept
    · intro number region xpdev blank
      have granted : kernel.refusesRegion = false := by simp [CharKernel.refusesRegion, region, Except.isOk, Except.toBool]
      exact ⟨granted, blank⟩
    · intro e region xpdev blank
      have refused : kernel.refusesRegion = true := by simp [CharKernel.refusesRegion, region, Except.isOk, Except.toBool]
      refine ⟨?_, blank.flags, ?_, ?_⟩
      · simp [CharKernel.refusesControl, refused]
      · rw [Xpdev.DevicesUndone, blank.devices]
        exact empty_undone
      · rw [if_pos refused, Xpdev.RegionUndone, blank.regions]
        exact ⟨blank.major, empty_undone⟩
  · intro number
    apply Meets.modify
    intro xpdev holds
    exact ⟨holds.1, holds.2.flags, number.2, holds.2.devices⟩

theorem refused_name {e : Int} (answer : kernel.kobjectSetName ctrlCdev = .error e) :
    kernel.refusesControl = true := by
  simp [CharKernel.refusesControl, answer, Except.isOk, Except.toBool]

theorem refused_cdev {e : Int} (answer : kernel.cdevAdd ctrlCdev = .error e) : kernel.refusesControl = true := by
  simp [CharKernel.refusesControl, answer, Except.isOk, Except.toBool]

theorem refused_device (inClass : kernel.gXdmaClass = true) (answer : kernel.deviceCreate ctrlCdev = .null) :
    kernel.refusesControl = true := by
  simp [CharKernel.refusesControl, inClass, answer]

@[simp] theorem setCdev_same (xpdev : Xpdev) (xcdev : CdevId) (change : Xcdev → Xcdev) :
    (xpdev.setCdev xcdev change).cdev xcdev = change (xpdev.cdev xcdev) := if_pos rfl

theorem registered_ctrl {xpdev : Xpdev} (configured : Configured kernel xpdev) :
    (registerDevice (.cdev ctrlCdev) xpdev).devices.owner (.cdev ctrlCdev) = some () := by
  have free : (Registry.empty : Registry CharNode Unit).owner (.cdev ctrlCdev) = none := rfl
  simp [registerDevice, configured.devices, Registry.acquire_free _ free]

theorem createSysDevice_ctrl (cdevno : DevNo) (inClass : kernel.gXdmaClass = true)
    (added : (kernel.cdevAdd ctrlCdev).isOk = true) :
    Meets (createSysDevice kernel ctrlCdev cdevno)
      (fun xpdev => ∃ former, Configured kernel former ∧ xpdev = registerDevice (.cdev ctrlCdev) former)
      (fun _ xpdev => kernel.refusesControl = false ∧ Controlled kernel xpdev)
      (fun xpdev => Uncontrolled kernel (unregisterChrdevRegion cdevno (cdevDel ctrlCdev xpdev))) := by
  unfold createSysDevice
  cases answer : kernel.deviceCreate ctrlCdev with
  | device =>
    apply Meets.modify
    rintro _ ⟨former, configured, rfl⟩
    have accepted : kernel.refusesControl = false := by
      simp [CharKernel.refusesControl, configured.granted, configured.named, added, answer]
    refine ⟨accepted, configured.major, ?_, ?_⟩
    · have kept := Registry.acquire_elsewhere (registerDevice (.cdev ctrlCdev) former).devices ()
        (show CharNode.cdev ctrlCdev ≠ .sysDevice cdevno from fun same => by cases same)
      exact kept.trans (registered_ctrl configured)
    · intro _
      simp [Xcdev.whole, registerDevice, configured.magic, configured.xdev, inClass]
  | errPtr =>
    apply Meets.modify
    rintro _ ⟨former, configured, rfl⟩
    have accepted : kernel.refusesControl = false := by
      simp [CharKernel.refusesControl, configured.granted, configured.named, added, answer]
    refine ⟨accepted, configured.major, registered_ctrl configured, ?_⟩
    intro _
    simp [Xcdev.whole, registerDevice, configured.magic, configured.xdev, inClass]
  | null =>
    have refused := refused_device inClass answer
    intro _ holds
    obtain ⟨former, configured, rfl⟩ := holds
    have free : (Registry.empty : Registry CharNode Unit).owner (.cdev ctrlCdev) = none := rfl
    have undone : (former.devices.acquire (.cdev ctrlCdev) ()).release (.cdev ctrlCdev) () = Registry.empty := by
      rw [configured.devices, Registry.release_acquire () free]
    exact Numbered.uncontrolled ⟨configured.granted, configured.flags, configured.major, undone⟩ refused

theorem addXcdev_ctrl (cdevno : DevNo) :
    Meets (addXcdev kernel ctrlCdev cdevno) (Configured kernel)
      (fun _ xpdev => kernel.refusesControl = false ∧ Controlled kernel xpdev) (Uncontrolled kernel) := by
  unfold addXcdev
  have asked : Meets (ofExcept (kernel.cdevAdd ctrlCdev) : EStateM Int Xpdev Unit) (Configured kernel)
      (fun _ xpdev => (kernel.cdevAdd ctrlCdev).isOk = true ∧ Configured kernel xpdev)
      (fun xpdev => Uncontrolled kernel (unregisterChrdevRegion cdevno xpdev)) := by
    apply Meets.ofExcept
    · intro _ answer xpdev configured
      rw [answer]
      exact ⟨rfl, configured⟩
    · intro e answer xpdev configured
      exact Numbered.uncontrolled ⟨configured.granted, configured.flags, configured.major, configured.devices⟩
        (refused_cdev answer)
  apply Meets.bind _ (Meets.unwind asked fun _ undone => undone)
  intro _
  apply Meets.bind fun _ xpdev => (kernel.cdevAdd ctrlCdev).isOk = true ∧
    ∃ former, Configured kernel former ∧ xpdev = registerDevice (.cdev ctrlCdev) former
  · apply Meets.modify
    intro xpdev holds
    exact ⟨holds.1, xpdev, holds.2, rfl⟩
  · intro _
    apply Meets.ite
    · intro inClass xpdev holds
      have made := Meets.unwind (createSysDevice_ctrl cdevno inClass holds.1) fun _ undone => undone
      exact made xpdev holds.2
    · intro noClass
      apply Meets.pure
      rintro _ ⟨added, former, configured, rfl⟩
      have accepted : kernel.refusesControl = false := by
        simp [CharKernel.refusesControl, configured.granted, configured.named, added, noClass]
      exact ⟨accepted, configured.major, registered_ctrl configured, fun inClass => absurd inClass noClass⟩

theorem needRegion_blank :
    Meets (needRegion kernel) Xpdev.Blank (fun _ => Numbered kernel) (Uncontrolled kernel) := by
  intro xpdev blank
  have missing : needRegion kernel xpdev = allocRegion kernel xpdev := by
    change (if xpdev.major = 0 then allocRegion kernel else pure ()) xpdev = _
    rw [if_pos blank.major]
  have reached := @allocRegion_blank kernel xpdev blank
  simpa only [EStateM.run, missing] using reached

theorem createXcdev_ctrl (bar : Int) :
    Meets (createXcdev kernel ctrlCdev bar none) Xpdev.Blank
      (fun _ xpdev => kernel.refusesControl = false ∧ Controlled kernel xpdev) (Uncontrolled kernel) := by
  unfold createXcdev
  apply Meets.bind _ needRegion_blank
  intro _
  apply Meets.bind fun _ xpdev => Numbered kernel xpdev ∧ (xpdev.cdev ctrlCdev).magic = true ∧ (xpdev.cdev ctrlCdev).xdev = true
  · apply Meets.modify
    intro xpdev numbered
    refine ⟨⟨numbered.granted, numbered.flags, numbered.major, numbered.devices⟩, ?_, ?_⟩
    · rw [setCdev_same]
    · rw [setCdev_same]
  · intro _
    apply Meets.bind fun _ => Configured kernel
    · apply Meets.ofExcept
      · rintro _ answer xpdev ⟨numbered, magic, xdev⟩
        have named : (kernel.kobjectSetName ctrlCdev).isOk = true := by
          rw [answer]
          rfl
        exact { numbered with named, magic, xdev }
      · rintro e answer xpdev ⟨numbered, -, -⟩
        exact numbered.uncontrolled (refused_name answer)
    · intro _
      apply Meets.bind fun now xpdev => Configured kernel xpdev
      · exact Meets.get fun _ configured => configured
      · intro now
        apply Meets.bind fun _ => Configured kernel
        · apply Meets.modify
          intro xpdev configured
          refine ⟨⟨configured.granted, configured.flags, configured.major, configured.devices⟩, configured.named, ?_, ?_⟩
          · rw [setCdev_same]
            exact configured.magic
          · rw [setCdev_same]
            exact configured.xdev
        · intro _
          exact addXcdev_ctrl _

end Create

section Keep

variable {kernel : CharKernel} {xcdev : CdevId}

structure Registered (kernel : CharKernel) (xpdev : Xpdev) : Prop extends Controlled kernel xpdev where
  flagged : xpdev.flags .ctrl = true

theorem setCdev_other {xpdev : Xpdev} {other : CdevId} (change : Xcdev → Xcdev) (away : other ≠ xcdev) :
    (xpdev.setCdev xcdev change).cdev other = xpdev.cdev other := if_neg away

theorem Registered.setCdev {xpdev : Xpdev} (registered : Registered kernel xpdev) (change : Xcdev → Xcdev)
    (away : ctrlCdev ≠ xcdev) : Registered kernel (xpdev.setCdev xcdev change) := by
  refine ⟨⟨registered.numbered, registered.held, ?_⟩, registered.flagged⟩
  rw [setCdev_other change away]
  exact registered.whole

theorem Registered.flagSet {xpdev : Xpdev} (registered : Registered kernel xpdev) (flag : XpdevFlag) :
    Registered kernel (xpdev.flagSet flag) := by
  refine ⟨⟨registered.numbered, registered.held, registered.whole⟩, ?_⟩
  simp [Xpdev.flagSet, registered.flagged]

theorem Registered.registerDevice {xpdev : Xpdev} {device : CharNode} (registered : Registered kernel xpdev)
    (away : .cdev ctrlCdev ≠ device) : Registered kernel (registerDevice device xpdev) := by
  refine ⟨⟨registered.numbered, ?_, registered.whole⟩, registered.flagged⟩
  exact (Registry.acquire_elsewhere xpdev.devices () away).trans registered.held

theorem Registered.cdevDel {xpdev : Xpdev} (registered : Registered kernel xpdev) (away : ctrlCdev ≠ xcdev) :
    Registered kernel (cdevDel xcdev xpdev) := by
  have other : CharNode.cdev ctrlCdev ≠ .cdev xcdev := fun same => away (by injection same)
  refine ⟨⟨registered.numbered, ?_, registered.whole⟩, registered.flagged⟩
  exact (Registry.release_elsewhere xpdev.devices () other).trans registered.held

theorem Registered.unregister {xpdev : Xpdev} (registered : Registered kernel xpdev) (first : DevNo) :
    Registered kernel (unregisterChrdevRegion first xpdev) :=
  ⟨⟨registered.numbered, registered.held, registered.whole⟩, registered.flagged⟩

theorem needRegion_keeps : Keeps (Registered kernel) (needRegion kernel) := by
  intro xpdev registered
  have present : needRegion kernel xpdev = .ok () xpdev := by
    change (if xpdev.major = 0 then allocRegion kernel else pure ()) xpdev = _
    rw [if_neg registered.numbered]
    rfl
  simpa only [EStateM.run, present] using registered

theorem createSysDevice_keeps (cdevno : DevNo) (away : ctrlCdev ≠ xcdev) :
    Keeps (Registered kernel) (createSysDevice kernel xcdev cdevno) := by
  unfold createSysDevice
  cases kernel.deviceCreate xcdev with
  | device =>
    apply Keeps.modify
    intro xpdev registered
    exact (registered.registerDevice fun same => by cases same).setCdev _ away
  | errPtr =>
    apply Keeps.modify
    intro xpdev registered
    exact registered.setCdev _ away
  | null =>
    apply Keeps.bind
    · apply Keeps.modify
      intro xpdev registered
      exact registered.setCdev _ away
    · intro _
      exact Keeps.throw _

theorem addXcdev_keeps (cdevno : DevNo) (away : ctrlCdev ≠ xcdev) :
    Keeps (Registered kernel) (addXcdev kernel xcdev cdevno) := by
  unfold addXcdev
  apply Keeps.bind
  · apply Keeps.unwind (Keeps.ofExcept _)
    intro xpdev registered
    exact registered.unregister cdevno
  · intro _
    apply Keeps.bind
    · apply Keeps.modify
      intro xpdev registered
      exact registered.registerDevice fun same => away (by injection same)
    · intro _
      apply Meets.ite
      · intro _
        apply Keeps.unwind (createSysDevice_keeps cdevno away)
        intro xpdev registered
        exact (registered.cdevDel away).unregister cdevno
      · intro _
        exact Meets.pure _ fun _ holds => holds

theorem createXcdev_keeps (bar : Int) (engine : Option Nat) (away : ctrlCdev ≠ xcdev) :
    Keeps (Registered kernel) (createXcdev kernel xcdev bar engine) := by
  unfold createXcdev
  apply Keeps.bind needRegion_keeps
  intro _
  apply Keeps.bind
  · apply Keeps.modify
    intro xpdev registered
    exact registered.setCdev _ away
  · intro _
    apply Keeps.bind
    · unfold configKobject
      split
      all_goals first | exact Keeps.throw _ | exact Keeps.ofExcept _
    · intro _
      apply Keeps.bind Keeps.get
      intro _
      apply Keeps.bind
      · apply Keeps.modify
        intro xpdev registered
        exact registered.setCdev _ away
      · intro _
        exact addXcdev_keeps _ away

theorem createEngines_keeps (type : CdevType) (engines : Nat → ProbedEngine) (channelMax : Nat)
    (away : type ≠ .ctrl) : Keeps (Registered kernel) (createEngines kernel type engines channelMax) := by
  unfold createEngines
  apply Keeps.forM
  intro i _
  unfold createEngine
  apply Meets.ite
  · intro _
    exact createXcdev_keeps _ _ fun same => away (congrArg CdevId.type same).symm
  · intro _
    exact Keeps.pure _

theorem createEvents_keeps (userMax : Nat) : Keeps (Registered kernel) (createEvents kernel userMax) := by
  unfold createEvents
  apply Keeps.forM
  intro i _
  exact createXcdev_keeps _ _ fun same => by cases same

theorem flagSet_keeps (flag : XpdevFlag) :
    Keeps (Registered kernel) (modify (·.flagSet flag) : EStateM Int Xpdev PUnit) :=
  Keeps.modify fun _ registered => registered.flagSet flag

theorem createBypass_keeps (xdev : OpenedCard) (h2cChannelMax c2hChannelMax : Nat) :
    Keeps (Registered kernel) (createBypass kernel xdev h2cChannelMax c2hChannelMax) := by
  unfold createBypass
  apply Meets.ite
  · intro _
    apply Keeps.bind (createEngines_keeps .bypassH2c _ _ fun same => by cases same)
    intro _
    apply Keeps.bind (createEngines_keeps .bypassC2h _ _ fun same => by cases same)
    intro _
    apply Keeps.bind (createXcdev_keeps _ _ fun same => by cases same)
    intro _
    exact flagSet_keeps .bypass
  · intro _
    exact Keeps.pure _

theorem createUser_keeps (xdev : OpenedCard) : Keeps (Registered kernel) (createUser kernel xdev) := by
  unfold createUser
  apply Meets.ite
  · intro _
    apply Keeps.bind (createXcdev_keeps _ _ fun same => by cases same)
    intro _
    apply Keeps.bind (flagSet_keeps .user)
    intro _
    apply Keeps.bind (createXcdev_keeps _ _ fun same => by cases same)
    intro _
    exact flagSet_keeps .xvc
  · intro _
    exact Keeps.pure _

theorem createGroups_keeps (xdev : OpenedCard) (userMax h2cChannelMax c2hChannelMax : Nat) :
    Keeps (Registered kernel) (createGroups kernel xdev userMax h2cChannelMax c2hChannelMax) := by
  unfold createGroups
  apply Keeps.bind (createEvents_keeps userMax)
  intro _
  apply Keeps.bind (flagSet_keeps .event)
  intro _
  apply Keeps.bind (createEngines_keeps .xdmaH2c _ _ fun same => by cases same)
  intro _
  apply Keeps.bind (createEngines_keeps .xdmaC2h _ _ fun same => by cases same)
  intro _
  apply Keeps.bind (flagSet_keeps .sg)
  intro _
  apply Keeps.bind (createBypass_keeps xdev h2cChannelMax c2hChannelMax)
  intro _
  exact createUser_keeps xdev

end Keep

section Probe

variable {kernel : CharKernel}

def HalfCreated (kernel : CharKernel) (xpdev : Xpdev) : Prop :=
  Uncontrolled kernel xpdev ∨ (kernel.refusesControl = false ∧ Registered kernel xpdev)

theorem createRest_half (xdev : OpenedCard) (userMax h2cChannelMax c2hChannelMax : Nat) :
    Meets (createGroups kernel xdev userMax h2cChannelMax c2hChannelMax)
      (fun xpdev => kernel.refusesControl = false ∧ Registered kernel xpdev) (fun _ _ => True) (HalfCreated kernel) := by
  rintro xpdev ⟨accepted, registered⟩
  have kept := @createGroups_keeps kernel xdev userMax h2cChannelMax c2hChannelMax
  have rest := kept.weaken (fun _ holds => holds) (fun _ _ _ => trivial)
    (fun _ still => show HalfCreated kernel _ from .inr ⟨accepted, still⟩)
  exact rest xpdev registered

theorem createAll_half (xdev : OpenedCard) :
    Meets (createAll kernel xdev) Xpdev.Blank (fun _ _ => True) (HalfCreated kernel) := by
  unfold createAll
  apply Meets.bind fun _ => Xpdev.Blank
  · exact Meets.get fun _ blank => blank
  · intro now
    have control := @createXcdev_ctrl kernel xdev.configBarIdx
    apply Meets.bind _ (control.failing fun _ undone => .inl undone)
    intro _
    apply Meets.bind fun _ xpdev => kernel.refusesControl = false ∧ Registered kernel xpdev
    · apply Meets.modify
      rintro xpdev ⟨accepted, controlled⟩
      have flagged : (xpdev.flagSet .ctrl).flags .ctrl = true := by simp [Xpdev.flagSet]
      exact ⟨accepted, ⟨controlled.numbered, controlled.held, controlled.whole⟩, flagged⟩
    · intro _
      exact createRest_half xdev _ _ _

theorem xpdevCreateInterfaces_fails (xdev : OpenedCard) :
    Meets (xpdevCreateInterfaces kernel xdev) Xpdev.Blank (fun _ _ => True)
      (fun xpdev => ∃ former, HalfCreated kernel former ∧ xpdev = xpdevDestroyInterfaces kernel former) :=
  Meets.adaptExcept _ (Meets.unwind (createAll_half xdev) fun former half => ⟨former, half, rfl⟩)

def OpenedCard.tooMany (xdev : OpenedCard) : Prop :=
  maxUserIrq < xdev.userMax ∨ xdmaChannelNumMax < xdev.h2cChannelMax ∨ xdmaChannelNumMax < xdev.c2hChannelMax

structure ProbedCard.Ready (card : ProbedCard) : Prop where
  allocated : card.allocated = true
  opened : ∃ xdev, card.hndl = some xdev ∧ ¬ xdev.tooMany ∧ (xdev.userMax = 0 ∨ card.userIsrEnable = .ok ())
  found : card.found = true

theorem enableUserIsr_blank (card : ProbedCard) (xdev : OpenedCard) (handle : card.hndl = some xdev) :
    Meets (card.enableUserIsr xdev.userMax) Xpdev.Blank
      (fun _ xpdev => (xdev.userMax = 0 ∨ card.userIsrEnable = .ok ()) ∧ xpdev.Blank)
      (fun xpdev => ¬ card.Ready ∧ xpdev.Blank) := by
  apply Meets.ite
  · intro none
    exact Meets.pure _ fun _ blank => ⟨.inl none, blank⟩
  · intro some
    apply Meets.ofExcept
    · intro _ answer _ blank
      exact ⟨.inr answer, blank⟩
    · intro e answer _ blank
      refine ⟨?_, blank⟩
      rintro ⟨-, ⟨opened, same, -, enabled⟩, -⟩
      rw [handle] at same
      cases same
      rcases enabled with none | enabled
      · exact some none
      · rw [answer] at enabled
        cases enabled

theorem probeChecks_blank (card : ProbedCard) (allocated : card.allocated = true) :
    Meets (probeChecks card) Xpdev.Blank (fun _ xpdev => card.Ready ∧ xpdev.Blank)
      (fun xpdev => ¬ card.Ready ∧ xpdev.Blank) := by
  unfold probeChecks
  cases handle : card.hndl with
  | none =>
    intro xpdev blank
    refine ⟨?_, blank⟩
    rintro ⟨-, ⟨xdev, some, -⟩, -⟩
    rw [handle] at some
    cases some
  | some xdev =>
    apply Meets.bind fun opened xpdev => opened = xdev ∧ xpdev.Blank
    · exact fun _ blank => ⟨rfl, blank⟩
    · intro opened
      apply Meets.bind fun _ xpdev => opened = xdev ∧ xpdev.Blank
      · apply Meets.modify
        rintro xpdev ⟨same, blank⟩
        exact ⟨same, ⟨blank.flags, blank.major, blank.devices, blank.regions⟩⟩
      · intro _
        apply Meets.ite
        · intro tooMany
          apply Meets.throw
          rintro xpdev ⟨rfl, blank⟩
          refine ⟨?_, blank⟩
          rintro ⟨-, ⟨_, same, few, -⟩, -⟩
          rw [handle] at same
          cases same
          exact few tooMany
        · rintro few xpdev ⟨rfl, blank⟩
          have enabled := enableUserIsr_blank card opened handle
          have ended : Meets (if card.found then pure opened else throw (-einval) : EStateM Int Xpdev OpenedCard)
              (fun xpdev => (opened.userMax = 0 ∨ card.userIsrEnable = .ok ()) ∧ xpdev.Blank)
              (fun _ xpdev => card.Ready ∧ xpdev.Blank) (fun xpdev => ¬ card.Ready ∧ xpdev.Blank) := by
            apply Meets.ite
            · intro found
              apply Meets.pure
              rintro xpdev ⟨granted, blank⟩
              exact ⟨⟨allocated, ⟨opened, handle, few, granted⟩, found⟩, blank⟩
            · intro missing
              apply Meets.throw
              rintro xpdev ⟨-, blank⟩
              exact ⟨fun ready => missing ready.found, blank⟩
          exact Meets.bind _ enabled (fun _ => ended) xpdev blank

/-- What `probe_one` leaves when it fails, and when that is everything undone. -/
def UndoneWhen (kernel : CharKernel) (card : ProbedCard) (xpdev : Xpdev) : Prop :=
  (xpdev.DevicesUndone ∧ xpdev.RegionUndone ↔ ¬ card.Ready ∨ kernel.refusesRegion = true) ∧
    (xpdev.DevicesUndone ↔ ¬ card.Ready ∨ kernel.refusesControl = true)

theorem blank_undone {card : ProbedCard} {xpdev : Xpdev} (blank : xpdev.Blank) (unready : ¬ card.Ready) :
    UndoneWhen kernel card (xpdevFree kernel xpdev) := by
  have nothing : xpdevFree kernel xpdev = xpdev := by
    have devices : xpdev.destroyed = [] := by simp [Xpdev.destroyed, Xpdev.flagged, blank.flags]
    have numbers : xpdev.numbers = [] := if_pos blank.major
    rw [xpdevFree, xpdevDestroyInterfaces_eq, devices, numbers]
    rfl
  rw [nothing, UndoneWhen, Xpdev.DevicesUndone, Xpdev.RegionUndone, blank.devices, blank.regions]
  simp [unready, empty_undone]

theorem nodes_ctrl {former : Xpdev} (registered : Registered kernel former) (inClass : kernel.gXdmaClass = true) :
    (CharNode.cdev ctrlCdev, ()) ∈ former.destroyed.flatMap (former.nodes kernel) := by
  apply List.mem_flatMap.mpr
  refine ⟨ctrlCdev, ?_, ?_⟩
  · simp [Xpdev.destroyed, Xpdev.flagged, registered.flagged, ctrlCdev]
  · simp [Xpdev.nodes, registered.whole inClass]

theorem nodes_classless (former : Xpdev) (noClass : kernel.gXdmaClass = false) :
    former.destroyed.flatMap (former.nodes kernel) = [] := by
  simp [Xpdev.nodes, Xcdev.whole, noClass]

theorem registered_not_undone {former : Xpdev} (registered : Registered kernel former) :
    ¬ (xpdevFree kernel (xpdevDestroyInterfaces kernel former)).DevicesUndone := by
  rw [destroyed_again]
  rintro ⟨holds, clean⟩
  cases inClass : kernel.gXdmaClass with
  | true =>
    have twice := Registry.releaseAll_twice former.devices (nodes_ctrl registered inClass)
    rw [twice] at clean
    cases clean
  | false =>
    have left := holds.nothing (.cdev ctrlCdev)
    simp only [nodes_classless former inClass, Registry.releaseAll_nil, registered.held] at left
    cases left

theorem uncontrolled_undone {former : Xpdev} (uncontrolled : Uncontrolled kernel former) :
    (xpdevFree kernel (xpdevDestroyInterfaces kernel former)).DevicesUndone := by
  have nothing : former.destroyed = [] := by
    simp [Xpdev.destroyed, Xpdev.flagged, uncontrolled.flags]
  rw [destroyed_again, nothing]
  exact uncontrolled.devices

theorem region_twice {former : Xpdev} (numbered : former.major ≠ 0) :
    ¬ (xpdevFree kernel (xpdevDestroyInterfaces kernel former)).RegionUndone := by
  rw [destroyed_again]
  rintro ⟨-, clean⟩
  have member : ((former.major, xdmaMinorBase), ()) ∈ former.numbers := by simp [Xpdev.numbers, numbered]
  rw [Registry.releaseAll_twice former.regions member] at clean
  cases clean

theorem half_undone {card : ProbedCard} {former : Xpdev} (ready : card.Ready)
    (half : HalfCreated kernel former) :
    UndoneWhen kernel card (xpdevFree kernel (xpdevDestroyInterfaces kernel former)) := by
  rcases half with uncontrolled | ⟨accepted, registered⟩
  · have undone := uncontrolled_undone uncontrolled
    have numbers := uncontrolled.numbers
    refine ⟨?_, ?_⟩
    · split at numbers
      · next refused =>
        have region : (xpdevFree kernel (xpdevDestroyInterfaces kernel former)).RegionUndone := by
          have none : former.numbers = [] := if_pos numbers.1
          rw [destroyed_again, none]
          exact numbers.2
        simp [undone, region, refused]
      · next granted =>
        have twice := @region_twice kernel former numbers
        simp [twice, granted, ready]
    · simp [undone, uncontrolled.refused]
  · have registeredStill := registered_not_undone registered
    have granted : kernel.refusesRegion = false := by
      simp only [CharKernel.refusesControl, Bool.or_eq_false_iff] at accepted
      exact accepted.1.1.1
    exact ⟨by simp [registeredStill, ready, granted], by simp [registeredStill, ready, accepted]⟩

theorem xpdevAlloc_blank : xpdevAlloc.Blank := ⟨rfl, rfl, rfl, rfl⟩

theorem probe_fails (card : ProbedCard) (allocated : card.allocated = true) :
    Meets (do xpdevCreateInterfaces kernel (← probeChecks card)) Xpdev.Blank (fun _ _ => True)
      (fun xpdev => UndoneWhen kernel card (xpdevFree kernel xpdev)) := by
  have checked := (probeChecks_blank card allocated).failing fun _ refused =>
    show UndoneWhen kernel card (xpdevFree kernel _) from blank_undone refused.2 refused.1
  apply Meets.bind _ checked
  rintro xdev xpdev ⟨ready, blank⟩
  have created := (@xpdevCreateInterfaces_fails kernel xdev).failing fun xpdev failed =>
    show UndoneWhen kernel card (xpdevFree kernel xpdev) by
      obtain ⟨former, half, rfl⟩ := failed
      exact half_undone ready half
  exact created xpdev blank

/-- A failed probe has undone everything, each thing once, exactly if the device numbers were refused or it did not
    come to creating an interface. The devices alone are undone also if the control device was refused. -/
theorem probeOne_undone {kernel : CharKernel} {card : ProbedCard} {e : Int} {xpdev : Xpdev}
    (failed : probeOne kernel card = .error e xpdev) :
    (xpdev.DevicesUndone ∧ xpdev.RegionUndone ↔ ¬ card.Ready ∨ kernel.refusesRegion = true) ∧
      (xpdev.DevicesUndone ↔ ¬ card.Ready ∨ kernel.refusesControl = true) := by
  unfold probeOne at failed
  split at failed
  · next allocated =>
    have probed := Meets.unwind (@probe_fails kernel card allocated) (fun _ undone => undone) xpdevAlloc xpdevAlloc_blank
    rw [failed] at probed
    exact probed
  · next missing =>
    cases failed
    have unready : ¬ card.Ready := fun ready => missing ready.allocated
    have undone := @blank_undone kernel card xpdevAlloc xpdevAlloc_blank unready
    exact undone

def readyCard : ProbedCard :=
  ⟨true, some ⟨2, 1, 1, fun i => ⟨true, i⟩, fun i => ⟨true, i⟩, 1, 0, -1⟩, .ok (), true⟩

def noDeviceNumbers : CharKernel := ⟨true, .error (-16), fun _ => .ok (), fun _ => .ok (), fun _ => .device⟩

def secondEventRefused : CharKernel :=
  { noDeviceNumbers with
    allocChrdevRegion := .ok ⟨240, Nat.succ_ne_zero 239⟩
    cdevAdd := fun xcdev => if xcdev = ⟨.events, 1⟩ then .error (-12) else .ok () }

theorem probeOne_undone_no_numbers : ∃ xpdev,
    probeOne noDeviceNumbers readyCard = .error (-1) xpdev ∧
      (xpdev.DevicesUndone ∧ xpdev.RegionUndone ↔ ¬ readyCard.Ready ∨ noDeviceNumbers.refusesRegion = true) ∧
      (xpdev.DevicesUndone ↔ ¬ readyCard.Ready ∨ noDeviceNumbers.refusesControl = true) :=
  ⟨_, rfl, probeOne_undone rfl⟩

/-- The first event device stays, the control device is removed twice, and the device numbers are given back twice. -/
theorem second_event_refused : ∃ xpdev,
    probeOne secondEventRefused readyCard = .error (-1) xpdev ∧
      xpdev.devices.owner (.cdev ⟨.events, 0⟩) = some () ∧ xpdev.devices.misused = true ∧
      xpdev.regions.misused = true ∧ ¬ (xpdev.DevicesUndone ∧ xpdev.RegionUndone) := by
  have failed : ∃ xpdev, probeOne secondEventRefused readyCard = .error (-1) xpdev ∧
      xpdev.devices.owner (.cdev ⟨.events, 0⟩) = some () ∧ xpdev.devices.misused = true ∧
      xpdev.regions.misused = true := ⟨_, rfl, by decide, by decide, by decide⟩
  obtain ⟨xpdev, failed, stays, removedTwice, numbersTwice⟩ := failed
  refine ⟨xpdev, failed, stays, removedTwice, numbersTwice, ?_⟩
  rintro ⟨-, -, clean⟩
  rw [numbersTwice] at clean
  cases clean

end Probe

end CigCard.Xdma
