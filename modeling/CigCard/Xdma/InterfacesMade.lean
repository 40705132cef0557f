import CigCard.Xdma.InterfacesUndone

namespace CigCard.Xdma

open Ledger Unwinding

namespace CdevId

def minor (xcdev : CdevId) : Int := xcdev.type.minor xcdev.index xcdev.index

end CdevId

def CdevType.limit : CdevType → Nat
  | .events => maxUserIrq
  | .xdmaH2c | .xdmaC2h | .bypassH2c | .bypassC2h => xdmaChannelNumMax
  | .user | .ctrl | .xvc | .bypass => 1

def CdevId.Fits (xcdev : CdevId) : Prop := xcdev.index < xcdev.type.limit

theorem CdevId.minor_injective {first second : CdevId} (fits : first.Fits) (others : second.Fits)
    (same : first.minor = second.minor) : first = second := by
  obtain ⟨type, index⟩ := first
  obtain ⟨otherType, otherIndex⟩ := second
  simp only [Fits, minor] at fits others same
  cases type <;> cases otherType <;>
    simp only [CdevType.limit, CdevType.minor, maxUserIrq, xdmaChannelNumMax, CdevId.mk.injEq, true_and, reduceCtorEq,
      false_and] at * <;> omega

/-- What stands registered for a device that was created. An error pointer stands for no device of the class. -/
def CharKernel.standing (kernel : CharKernel) (xcdev : CdevId) (cdevno : DevNo) : List (CharNode × Unit) :=
  (.cdev xcdev, ()) ::
    if kernel.gXdmaClass = true ∧ kernel.deviceCreate xcdev = .device then [(.sysDevice cdevno, ())] else []

section Enter

variable (kernel : CharKernel) (xcdev : CdevId)

def added (cdevno : DevNo) (xpdev : Xpdev) : Xpdev :=
  { xpdev.setCdev xcdev fun cdev => { cdev with sysDevice := kernel.gXdmaClass || cdev.sysDevice } with
    devices := xpdev.devices.acquireAll (kernel.standing xcdev cdevno) }

def entered (bar : Int) (engine : Option Nat) (xpdev : Xpdev) : Xpdev :=
  let cdevno : DevNo := (xpdev.major, xcdev.type.minor bar (engine.getD 0))
  added kernel xcdev cdevno
    (xpdev.setCdev xcdev fun cdev => { cdev with magic := true, xdev := true, engine, bar, cdevno })

end Enter

section Exact

variable {kernel : CharKernel} {xcdev : CdevId}

theorem setCdev_setCdev (xpdev : Xpdev) (first second : Xcdev → Xcdev) :
    (xpdev.setCdev xcdev first).setCdev xcdev second = xpdev.setCdev xcdev (second ∘ first) := by
  simp only [Xpdev.setCdev, if_true]
  congr 1
  funext other
  by_cases here : other = xcdev
  · simp [here]
  · simp [here]

theorem setCdev_unchanged {xpdev : Xpdev} {change : Xcdev → Xcdev}
    (unchanged : change (xpdev.cdev xcdev) = xpdev.cdev xcdev) : xpdev.setCdev xcdev change = xpdev := by
  obtain ⟨userMax, h2cChannelMax, c2hChannelMax, major, flags, cdev, devices, regions⟩ := xpdev
  have same : (fun other => if other = xcdev then change (cdev xcdev) else cdev other) = cdev := by
    funext other
    by_cases here : other = xcdev
    · subst here
      simpa using unchanged
    · simp [here]
  simp [Xpdev.setCdev, same]

theorem createSysDevice_ends (cdevno : DevNo) (former : Xpdev) (inClass : kernel.gXdmaClass = true) :
    Meets (createSysDevice kernel xcdev cdevno) (fun s => s = registerDevice (.cdev xcdev) former)
      (fun _ s => s = added kernel xcdev cdevno former) (fun _ => True) := by
  unfold createSysDevice
  cases answer : kernel.deviceCreate xcdev with
  | device =>
    apply Meets.modify
    rintro _ rfl
    simp [added, CharKernel.standing, inClass, answer, registerDevice, Xpdev.setCdev]
  | errPtr =>
    apply Meets.modify
    rintro _ rfl
    simp [added, CharKernel.standing, inClass, answer, registerDevice, Xpdev.setCdev]
  | null =>
    apply Meets.bind fun _ _ => True
    · exact Meets.modify _ fun _ _ => trivial
    · intro _
      exact Meets.throw _ fun _ _ => trivial

theorem addXcdev_ends (cdevno : DevNo) (former : Xpdev) :
    Meets (addXcdev kernel xcdev cdevno) (fun s => s = former) (fun _ s => s = added kernel xcdev cdevno former)
      (fun _ => True) := by
  unfold addXcdev
  have asked := (@ofExcept_ends Int Xpdev Unit (fun _ => True) (kernel.cdevAdd xcdev) former trivial)
  apply Meets.bind _ (Meets.unwind asked fun _ _ => trivial)
  intro _
  apply Meets.bind _ (modify_ends _ former)
  intro _
  apply Meets.ite
  · intro inClass
    exact Meets.unwind (createSysDevice_ends cdevno former inClass) fun _ _ => trivial
  · intro noClass
    apply Meets.pure
    rintro _ rfl
    have unchanged := @setCdev_unchanged xcdev former (fun cdev => { cdev with sysDevice := kernel.gXdmaClass || cdev.sysDevice })
      (by simp [noClass])
    simp [added, CharKernel.standing, noClass, registerDevice, unchanged]

/-- With the device numbers there, a device is created in one way only. -/
theorem nameXcdev_ends (bar : Int) (engine : Option Nat) (former : Xpdev) :
    Meets
      (do
        modify fun xpdev => xpdev.setCdev xcdev fun cdev => { cdev with magic := true, xdev := true, engine, bar }
        configKobject kernel xcdev engine
        let cdevno : DevNo := ((← get).major, xcdev.type.minor bar (engine.getD 0))
        modify fun xpdev => xpdev.setCdev xcdev fun cdev => { cdev with cdevno }
        addXcdev kernel xcdev cdevno)
      (fun s => s = former) (fun _ s => s = entered kernel xcdev bar engine former) (fun _ => True) := by
  apply Meets.bind _ (modify_ends _ former)
  intro _
  apply Meets.bind fun _ s => s = former.setCdev xcdev fun cdev => { cdev with magic := true, xdev := true, engine, bar }
  · unfold configKobject
    split
    all_goals first | exact Meets.throw _ fun _ _ => trivial | exact ofExcept_ends _ _ trivial
  · intro _
    apply Meets.bind _ (get_ends _)
    intro now
    apply Meets.given
    rintro rfl
    apply Meets.bind _ (modify_ends _ _)
    intro _
    rw [setCdev_setCdev]
    exact addXcdev_ends _ _

end Exact

structure Xcdev.Complete (kernel : CharKernel) (cdevno : DevNo) (cdev : Xcdev) : Prop where
  magic : cdev.magic = true
  xdev : cdev.xdev = true
  cdevno : cdev.cdevno = cdevno
  sysDevice : kernel.gXdmaClass = true → cdev.sysDevice = true

def Xpdev.devNo (xpdev : Xpdev) (xcdev : CdevId) : DevNo := (xpdev.major, xcdev.minor)

structure Made (kernel : CharKernel) (xdev : OpenedCard) (flags : List XpdevFlag) (created : List CdevId)
    (xpdev : Xpdev) : Prop where
  start : xpdev.major = 0 → created = []
  distinct : created.Nodup
  fits : ∀ xcdev ∈ created, xcdev.Fits
  devices : xpdev.devices.Holds (created.flatMap fun xcdev => kernel.standing xcdev (xpdev.devNo xcdev))
  clean : xpdev.devices.misused = false
  numbers : xpdev.regions.Holds xpdev.numbers
  numbersClean : xpdev.regions.misused = false
  complete : ∀ xcdev ∈ created, (xpdev.cdev xcdev).Complete kernel (xpdev.devNo xcdev)
  blank : ∀ xcdev, xcdev ∉ created → (xpdev.cdev xcdev).magic = false
  flags : ∀ flag, xpdev.flags flag = true ↔ flag ∈ flags
  userMax : xpdev.userMax = xdev.userMax
  h2cChannelMax : xpdev.h2cChannelMax = xdev.h2cChannelMax
  c2hChannelMax : xpdev.c2hChannelMax = xdev.c2hChannelMax

section Make

variable {kernel : CharKernel} {xdev : OpenedCard} {flags : List XpdevFlag} {created : List CdevId} {xcdev : CdevId}

theorem mem_standing {node : CharNode} {cdevno : DevNo} :
    (node, ()) ∈ kernel.standing xcdev cdevno ↔
      node = .cdev xcdev ∨
        (node = .sysDevice cdevno ∧ kernel.gXdmaClass = true ∧ kernel.deviceCreate xcdev = .device) := by
  unfold CharKernel.standing
  split
  · next granted => simp [granted]
  · next refused =>
    simp only [List.mem_singleton, Prod.mk.injEq, and_true]
    tauto

theorem standing_nodup (cdevno : DevNo) : ((kernel.standing xcdev cdevno).map Prod.fst).Nodup := by
  unfold CharKernel.standing
  split
  · simp
  · simp

/-- Two devices share no node and no number. -/
theorem standing_shared {xpdev : Xpdev} {other : CdevId} (fits : xcdev.Fits) (others : other.Fits) {node : CharNode}
    (claimed : (node, ()) ∈ kernel.standing xcdev (xpdev.devNo xcdev))
    (also : (node, ()) ∈ kernel.standing other (xpdev.devNo other)) : xcdev = other := by
  rcases mem_standing.mp claimed with rfl | ⟨rfl, -⟩
  · rcases mem_standing.mp also with cdev | ⟨device, -⟩
    · injection cdev
    · cases device
  · rcases mem_standing.mp also with cdev | ⟨device, -⟩
    · cases cdev
    · simp only [Xpdev.devNo, CharNode.sysDevice.injEq, Prod.mk.injEq, true_and] at device
      exact CdevId.minor_injective fits others device

theorem standing_keys_nodup {xpdev : Xpdev} (distinct : created.Nodup) (fits : ∀ other ∈ created, other.Fits) :
    ((created.flatMap fun other => kernel.standing other (xpdev.devNo other)).map Prod.fst).Nodup := by
  rw [List.map_flatMap, List.nodup_flatMap]
  constructor
  · intro other _
    exact standing_nodup _
  · apply distinct.pairwise_of_forall_ne
    intro first there second also away node one other
    obtain ⟨⟨_, ⟨⟩⟩, claimed, rfl⟩ := List.mem_map.mp one
    obtain ⟨⟨_, ⟨⟩⟩, again, rfl⟩ := List.mem_map.mp other
    exact away (standing_shared (fits first there) (fits second also) claimed again)

theorem Made.appended {xpdev : Xpdev} (made : Made kernel xdev flags created xpdev) (here : xcdev.Fits)
    (fresh : xcdev ∉ created) :
    (created ++ [xcdev]).Nodup ∧ ∀ other ∈ created ++ [xcdev], other.Fits := by
  constructor
  · rw [← List.concat_eq_append]
    exact made.distinct.concat fresh
  · intro other member
    rcases List.mem_append.mp member with there | last
    · exact made.fits other there
    · rw [List.mem_singleton.mp last]
      exact here

theorem Made.acquired {xpdev : Xpdev} (made : Made kernel xdev flags created xpdev) (here : xcdev.Fits)
    (fresh : xcdev ∉ created) :
    (xpdev.devices.acquireAll (kernel.standing xcdev (xpdev.devNo xcdev))).Holds
        ((created ++ [xcdev]).flatMap fun other => kernel.standing other (xpdev.devNo other)) ∧
      (xpdev.devices.acquireAll (kernel.standing xcdev (xpdev.devNo xcdev))).misused = xpdev.devices.misused := by
  obtain ⟨distinct, fits⟩ := made.appended here fresh
  have keys := @standing_keys_nodup kernel (created ++ [xcdev]) xpdev distinct fits
  rw [List.flatMap_append, List.flatMap_singleton] at keys ⊢
  exact made.devices.acquireAll keys

theorem Made.entered {xpdev : Xpdev} (made : Made kernel xdev flags created xpdev) (numbered : xpdev.major ≠ 0)
    (here : xcdev.Fits) (fresh : xcdev ∉ created) (bar : Int) (engine : Option Nat)
    (minor : xcdev.type.minor bar (engine.getD 0) = xcdev.minor) :
    Made kernel xdev flags (created ++ [xcdev]) (entered kernel xcdev bar engine xpdev) := by
  obtain ⟨distinct, fits⟩ := made.appended here fresh
  obtain ⟨devices, clean⟩ := made.acquired here fresh
  have record : (Xdma.entered kernel xcdev bar engine xpdev).devices =
      xpdev.devices.acquireAll (kernel.standing xcdev (xpdev.devNo xcdev)) := by
    simp only [Xdma.entered, added, Xpdev.setCdev, minor, Xpdev.devNo]
  have same : ∀ other, other ≠ xcdev → (Xdma.entered kernel xcdev bar engine xpdev).cdev other = xpdev.cdev other := by
    intro other away
    simp [Xdma.entered, added, Xpdev.setCdev, away]
  constructor
  case start => exact fun none => absurd none numbered
  case distinct => exact distinct
  case fits => exact fits
  case devices =>
    rw [record]
    exact devices
  case clean =>
    rw [record, clean]
    exact made.clean
  case numbers => exact made.numbers
  case numbersClean => exact made.numbersClean
  case complete =>
    intro other member
    by_cases here : other = xcdev
    · subst here
      constructor
      · simp [Xdma.entered, added, Xpdev.setCdev]
      · simp [Xdma.entered, added, Xpdev.setCdev]
      · simp [Xdma.entered, added, Xpdev.setCdev, minor, Xpdev.devNo]
      · intro inClass
        simp [Xdma.entered, added, Xpdev.setCdev, inClass]
    · have there : other ∈ created := by simpa [here] using member
      rw [same other here]
      exact made.complete other there
  case blank =>
    intro other away
    have fromHere : other ≠ xcdev := fun same => away (by simp [same])
    rw [same other fromHere]
    exact made.blank other fun there => away (List.mem_append_left _ there)
  case flags => exact made.flags
  case userMax => exact made.userMax
  case h2cChannelMax => exact made.h2cChannelMax
  case c2hChannelMax => exact made.c2hChannelMax

theorem Made.numbered {xpdev : Xpdev} (made : Made kernel xdev flags created xpdev) (none : xpdev.major = 0)
    {major : Nat} (some : major ≠ 0) :
    Made kernel xdev flags created
      { xpdev with major := major, regions := xpdev.regions.acquire (major, xdmaMinorBase) () } := by
  obtain rfl := made.start none
  have nothing : xpdev.regions.Holds [] := by
    have numbers := made.numbers
    rwa [show xpdev.numbers = [] from if_pos none] at numbers
  have free := nothing.nothing (major, xdmaMinorBase)
  constructor
  case start => exact fun _ => rfl
  case distinct => exact made.distinct
  case fits => exact made.fits
  case devices => exact made.devices
  case clean => exact made.clean
  case numbers =>
    rw [Xpdev.numbers, if_neg some]
    exact nothing.acquire _ _ free
  case numbersClean =>
    change (xpdev.regions.acquire (major, xdmaMinorBase) ()).misused = false
    rw [Registry.acquire_free () free]
    exact made.numbersClean
  case complete => exact fun other member => absurd member List.not_mem_nil
  case blank => exact made.blank
  case flags => exact made.flags
  case userMax => exact made.userMax
  case h2cChannelMax => exact made.h2cChannelMax
  case c2hChannelMax => exact made.c2hChannelMax

theorem needRegion_made :
    Meets (needRegion kernel) (Made kernel xdev flags created)
      (fun _ xpdev => Made kernel xdev flags created xpdev ∧ xpdev.major ≠ 0) (fun _ => True) := by
  unfold needRegion
  apply Meets.bind fun now xpdev => now = xpdev ∧ Made kernel xdev flags created xpdev
  · exact Meets.get fun _ made => ⟨rfl, made⟩
  · intro now
    apply Meets.ite
    · intro none
      unfold allocRegion
      apply Meets.bind fun _ xpdev => now = xpdev ∧ Made kernel xdev flags created xpdev
      · exact Meets.ofExcept _ (fun _ _ _ holds => holds) fun _ _ _ _ => trivial
      · intro major
        apply Meets.modify
        rintro xpdev ⟨rfl, made⟩
        exact ⟨made.numbered none major.2, major.2⟩
    · intro some
      apply Meets.pure
      rintro xpdev ⟨rfl, made⟩
      exact ⟨made, some⟩

theorem createXcdev_made (here : xcdev.Fits) (fresh : xcdev ∉ created) (bar : Int) (engine : Option Nat)
    (minor : xcdev.type.minor bar (engine.getD 0) = xcdev.minor) :
    Meets (createXcdev kernel xcdev bar engine) (Made kernel xdev flags created)
      (fun _ => Made kernel xdev flags (created ++ [xcdev])) (fun _ => True) := by
  unfold createXcdev
  apply Meets.bind _ needRegion_made
  intro _
  apply Meets.exactly _ (nameXcdev_ends bar engine)
  rintro xpdev ⟨made, numbered⟩
  exact made.entered numbered here fresh bar engine minor

theorem flagSet_made (flag : XpdevFlag) :
    Meets (modify (·.flagSet flag) : EStateM Int Xpdev PUnit) (Made kernel xdev flags created)
      (fun _ => Made kernel xdev (flags ++ [flag]) created) (fun _ => True) := by
  apply Meets.modify
  intro xpdev made
  refine { made with flags := ?_, numbers := made.numbers, devices := made.devices }
  intro other
  by_cases here : other = flag
  · simp [Xpdev.flagSet, here]
  · simp [Xpdev.flagSet, here, made.flags]

end Make

end CigCard.Xdma
