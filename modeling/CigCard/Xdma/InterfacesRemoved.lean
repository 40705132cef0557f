import CigCard.Xdma.DeviceOpen
import CigCard.Xdma.InterfacesMade

namespace CigCard.Xdma

open Ledger Unwinding

def barIndex (idx : Option Nat) : Int := idx.elim (-1) Int.ofNat

def Opening.Xdev.openedCard (xdev : Opening.Xdev) : OpenedCard where
  userMax := xdev.userMax
  h2cChannelMax := xdev.channelMax .toDevice
  c2hChannelMax := xdev.channelMax .fromDevice
  engineH2c i := ⟨(xdev.engine .toDevice i).magic, i⟩
  engineC2h i := ⟨(xdev.engine .fromDevice i).magic, i⟩
  configBarIdx := barIndex xdev.configBarIdx
  userBarIdx := barIndex xdev.userBarIdx
  bypassBarIdx := barIndex xdev.bypassBarIdx

def engineCdevs (type : CdevType) (engines : Nat → ProbedEngine) (channelMax : Nat) : List CdevId :=
  ((List.range channelMax).filter fun i => (engines i).magic).map (CdevId.mk type)

namespace OpenedCard

variable (xdev : OpenedCard)

def eventCdevs : List CdevId := (List.range xdev.userMax).map (CdevId.mk .events)

def bypassCdevs : List CdevId :=
  if 0 < xdev.bypassBarIdx then
    engineCdevs .bypassH2c xdev.engineH2c xdev.h2cChannelMax ++
      engineCdevs .bypassC2h xdev.engineC2h xdev.c2hChannelMax ++ [⟨.bypass, 0⟩]
  else []

def userCdevs : List CdevId := if 0 ≤ xdev.userBarIdx then [⟨.user, 0⟩, ⟨.xvc, 0⟩] else []

def created : List CdevId :=
  [ctrlCdev] ++ xdev.eventCdevs ++ engineCdevs .xdmaH2c xdev.engineH2c xdev.h2cChannelMax ++
    engineCdevs .xdmaC2h xdev.engineC2h xdev.c2hChannelMax ++ xdev.bypassCdevs ++ xdev.userCdevs

def flags : List XpdevFlag :=
  [.ctrl, .event, .sg] ++ (if 0 < xdev.bypassBarIdx then [.bypass] else []) ++
    if 0 ≤ xdev.userBarIdx then [.user, .xvc] else []

structure Numbered : Prop where
  h2c : ∀ i, (xdev.engineH2c i).channel = i
  c2h : ∀ i, (xdev.engineC2h i).channel = i

end OpenedCard

section Loops

variable {kernel : CharKernel} {xdev : OpenedCard} {flags : List XpdevFlag} {created : List CdevId}

def Apart (type : CdevType) (created : List CdevId) : Prop := ∀ xcdev ∈ created, xcdev.type ≠ type

theorem Apart.append {type : CdevType} {first second : List CdevId} (one : Apart type first)
    (other : Apart type second) : Apart type (first ++ second) := by
  intro xcdev member
  rcases List.mem_append.mp member with there | there
  · exact one xcdev there
  · exact other xcdev there

theorem apart_nil (type : CdevType) : Apart type [] := fun _ member => absurd member List.not_mem_nil

theorem Apart.fresh {type : CdevType} {index : Nat} (apart : Apart type created) : ⟨type, index⟩ ∉ created :=
  fun member => apart _ member rfl

theorem apart_map {type other : CdevType} (away : other ≠ type) (indices : List Nat) :
    Apart type (indices.map (CdevId.mk other)) := by
  intro xcdev member
  obtain ⟨i, -, rfl⟩ := List.mem_map.mp member
  exact away

theorem apart_engines {type other : CdevType} (away : other ≠ type) (engines : Nat → ProbedEngine) (channelMax : Nat) :
    Apart type (engineCdevs other engines channelMax) := apart_map away _

theorem apart_single {type : CdevType} {xcdev : CdevId} (away : xcdev.type ≠ type) : Apart type [xcdev] := by
  intro other member
  rwa [List.mem_singleton.mp member]

theorem createEngines_made (type : CdevType) (engines : Nat → ProbedEngine) {channelMax : Nat}
    (few : channelMax ≤ type.limit) (away : Apart type created)
    (minor : ∀ i : Nat, type.minor i (engines i).channel = type.minor i i) :
    Meets (createEngines kernel type engines channelMax) (Made kernel xdev flags created)
      (fun _ => Made kernel xdev flags (created ++ engineCdevs type engines channelMax)) (fun _ => True) := by
  unfold createEngines engineCdevs
  have loop := @Meets.forM Int Xpdev Nat (fun _ => True) (fun i => createEngine kernel type (engines i) i)
    (fun front =>
      Made kernel xdev flags (created ++ (front.filter fun i => (engines i).magic).map (CdevId.mk type)))
    (List.range channelMax)
  simp only [List.filter_nil, List.map_nil, List.append_nil] at loop
  apply loop
  intro front i rest whole
  have i_lt : i < channelMax := by
    apply List.mem_range.mp
    rw [whole]
    simp
  unfold createEngine
  apply Meets.ite
  · intro magic
    have fresh : CdevId.mk type i ∉ created ++ (front.filter fun i => (engines i).magic).map (CdevId.mk type) := by
      intro member
      rcases List.mem_append.mp member with there | earlier
      · exact away _ there rfl
      · obtain ⟨j, before, same⟩ := List.mem_map.mp earlier
        cases same
        have distinct := @List.nodup_range channelMax
        rw [whole, List.nodup_append] at distinct
        exact distinct.2.2 i (List.mem_filter.mp before).1 i List.mem_cons_self rfl
    have step := @createXcdev_made kernel xdev flags _ ⟨type, i⟩ (Nat.lt_of_lt_of_le i_lt few) fresh i
      (some (engines i).channel) (minor i)
    simpa only [List.filter_append, List.filter_cons, magic, if_true, List.filter_nil, List.map_append, List.map_cons,
      List.map_nil, List.append_assoc] using step
  · intro noMagic
    simp only [List.filter_append, List.filter_cons, noMagic, if_false, List.filter_nil, List.append_nil]
    exact Meets.pure _ fun _ made => made

theorem createEvents_made {userMax : Nat} (few : userMax ≤ maxUserIrq) (away : Apart .events created) :
    Meets (createEvents kernel userMax) (Made kernel xdev flags created)
      (fun _ => Made kernel xdev flags (created ++ (List.range userMax).map (CdevId.mk .events))) (fun _ => True) := by
  unfold createEvents
  have loop := @Meets.forM Int Xpdev Nat (fun _ => True) (fun i => createXcdev kernel ⟨.events, i⟩ i none)
    (fun front => Made kernel xdev flags (created ++ front.map (CdevId.mk .events))) (List.range userMax)
  simp only [List.map_nil, List.append_nil] at loop
  apply loop
  intro front i rest whole
  have i_lt : i < userMax := by
    apply List.mem_range.mp
    rw [whole]
    simp
  have fresh : CdevId.mk .events i ∉ created ++ front.map (CdevId.mk .events) := by
    intro member
    rcases List.mem_append.mp member with there | earlier
    · exact away.fresh there
    · obtain ⟨j, before, same⟩ := List.mem_map.mp earlier
      cases same
      have distinct := @List.nodup_range userMax
      rw [whole, List.nodup_append] at distinct
      exact distinct.2.2 i before i List.mem_cons_self rfl
  have step := @createXcdev_made kernel xdev flags _ ⟨.events, i⟩ (Nat.lt_of_lt_of_le i_lt few) fresh i none rfl
  simpa only [List.map_append, List.map_cons, List.map_nil, List.append_assoc] using step

structure OpenedCard.Within (xdev : OpenedCard) : Prop extends xdev.Numbered where
  events : xdev.userMax ≤ maxUserIrq
  h2cChannels : xdev.h2cChannelMax ≤ xdmaChannelNumMax
  c2hChannels : xdev.c2hChannelMax ≤ xdmaChannelNumMax

theorem createBypass_made (within : xdev.Within) (h2c : Apart .bypassH2c created) (c2h : Apart .bypassC2h created)
    (base : Apart .bypass created) :
    Meets (createBypass kernel xdev xdev.h2cChannelMax xdev.c2hChannelMax) (Made kernel xdev flags created)
      (fun _ => Made kernel xdev (flags ++ if 0 < xdev.bypassBarIdx then [.bypass] else []) (created ++ xdev.bypassCdevs))
      (fun _ => True) := by
  unfold createBypass OpenedCard.bypassCdevs
  apply Meets.ite
  · intro bar
    simp only [if_pos bar]
    have first := @createEngines_made kernel xdev flags created .bypassH2c xdev.engineH2c xdev.h2cChannelMax
      within.h2cChannels h2c fun i => by rw [within.h2c]
    apply Meets.bind _ first
    intro _
    have second := @createEngines_made kernel xdev flags
      (created ++ engineCdevs .bypassH2c xdev.engineH2c xdev.h2cChannelMax) .bypassC2h xdev.engineC2h
      xdev.c2hChannelMax within.c2hChannels (c2h.append (apart_engines (by decide) _ _)) fun i => by rw [within.c2h]
    apply Meets.bind _ second
    intro _
    have apart : Apart .bypass (created ++ engineCdevs .bypassH2c xdev.engineH2c xdev.h2cChannelMax ++
        engineCdevs .bypassC2h xdev.engineC2h xdev.c2hChannelMax) :=
      (base.append (apart_engines (by decide) _ _)).append (apart_engines (by decide) _ _)
    apply Meets.bind _ (createXcdev_made (show CdevId.Fits ⟨.bypass, 0⟩ from Nat.one_pos) apart.fresh _ _ rfl)
    intro _
    rw [← List.append_assoc, ← List.append_assoc]
    exact flagSet_made .bypass
  · intro noBar
    simp only [if_neg noBar, List.append_nil]
    exact Meets.pure _ fun _ made => made

theorem createUser_made (user : Apart .user created) (xvc : Apart .xvc created) :
    Meets (createUser kernel xdev) (Made kernel xdev flags created)
      (fun _ => Made kernel xdev (flags ++ if 0 ≤ xdev.userBarIdx then [.user, .xvc] else []) (created ++ xdev.userCdevs))
      (fun _ => True) := by
  unfold createUser OpenedCard.userCdevs
  apply Meets.ite
  · intro bar
    simp only [if_pos bar]
    apply Meets.bind _ (createXcdev_made (show CdevId.Fits ⟨.user, 0⟩ from Nat.one_pos) user.fresh _ _ rfl)
    intro _
    apply Meets.bind _ (flagSet_made .user)
    intro _
    have apart := xvc.append (@apart_single .xvc ⟨.user, 0⟩ (by decide))
    apply Meets.bind _ (createXcdev_made (show CdevId.Fits ⟨.xvc, 0⟩ from Nat.one_pos) apart.fresh _ _ rfl)
    intro _
    have last := @flagSet_made kernel xdev (flags ++ [.user]) (created ++ [⟨.user, 0⟩] ++ [⟨.xvc, 0⟩]) .xvc
    simpa only [List.append_assoc, List.cons_append, List.nil_append] using last
  · intro noBar
    simp only [if_neg noBar, List.append_nil]
    exact Meets.pure _ fun _ made => made

theorem apart_bypass {type : CdevType} (h2c : CdevType.bypassH2c ≠ type) (c2h : CdevType.bypassC2h ≠ type)
    (base : CdevType.bypass ≠ type) : Apart type xdev.bypassCdevs := by
  unfold OpenedCard.bypassCdevs
  split
  · exact ((apart_map h2c _).append (apart_map c2h _)).append (apart_single base)
  · exact apart_nil type

theorem createGroups_made (within : xdev.Within) :
    Meets (createGroups kernel xdev xdev.userMax xdev.h2cChannelMax xdev.c2hChannelMax)
      (Made kernel xdev [.ctrl] [ctrlCdev]) (fun _ => Made kernel xdev xdev.flags xdev.created) (fun _ => True) := by
  have control : ∀ {type : CdevType}, CdevType.ctrl ≠ type → Apart type [ctrlCdev] := fun away => apart_single away
  unfold createGroups
  apply Meets.bind _ (createEvents_made within.events (control (by decide)))
  intro _
  apply Meets.bind _ (flagSet_made .event)
  intro _
  have h2c := @createEngines_made kernel xdev ([.ctrl] ++ [.event]) ([ctrlCdev] ++ xdev.eventCdevs) .xdmaH2c
    xdev.engineH2c xdev.h2cChannelMax within.h2cChannels ((control (by decide)).append (apart_map (by decide) _))
    fun i => by rw [within.h2c]
  apply Meets.bind _ h2c
  intro _
  have c2h := @createEngines_made kernel xdev ([.ctrl] ++ [.event])
    ([ctrlCdev] ++ xdev.eventCdevs ++ engineCdevs .xdmaH2c xdev.engineH2c xdev.h2cChannelMax) .xdmaC2h xdev.engineC2h
    xdev.c2hChannelMax within.c2hChannels
    (((control (by decide)).append (apart_map (by decide) _)).append (apart_engines (by decide) _ _))
    fun i => by rw [within.c2h]
  apply Meets.bind _ c2h
  intro _
  apply Meets.bind _ (flagSet_made .sg)
  intro _
  have engines : ∀ {type : CdevType}, CdevType.ctrl ≠ type → CdevType.events ≠ type → CdevType.xdmaH2c ≠ type →
      CdevType.xdmaC2h ≠ type → Apart type ([ctrlCdev] ++ xdev.eventCdevs ++
        engineCdevs .xdmaH2c xdev.engineH2c xdev.h2cChannelMax ++
        engineCdevs .xdmaC2h xdev.engineC2h xdev.c2hChannelMax) := by
    intro type ctrl events h2c c2h
    exact (((control ctrl).append (apart_map events _)).append (apart_map h2c _)).append (apart_map c2h _)
  apply Meets.bind _ (createBypass_made within (engines (by decide) (by decide) (by decide) (by decide))
    (engines (by decide) (by decide) (by decide) (by decide)) (engines (by decide) (by decide) (by decide) (by decide)))
  intro _
  apply createUser_made
  · exact (engines (by decide) (by decide) (by decide) (by decide)).append (apart_bypass (by decide) (by decide) (by decide))
  · exact (engines (by decide) (by decide) (by decide) (by decide)).append (apart_bypass (by decide) (by decide) (by decide))

theorem createAll_made (within : xdev.Within) :
    Meets (createAll kernel xdev) (Made kernel xdev [] []) (fun _ => Made kernel xdev xdev.flags xdev.created)
      (fun _ => True) := by
  unfold createAll
  apply Meets.bind fun now xpdev => now = xpdev ∧ Made kernel xdev [] [] xpdev
  · exact Meets.get fun _ made => ⟨rfl, made⟩
  · intro now
    rintro xpdev ⟨rfl, made⟩
    rw [made.userMax, made.h2cChannelMax, made.c2hChannelMax]
    have control := @createXcdev_made kernel xdev [] [] ctrlCdev Nat.one_pos List.not_mem_nil xdev.configBarIdx none rfl
    have rest := Meets.bind _ control fun _ => Meets.bind _ (flagSet_made .ctrl) fun _ => createGroups_made within
    exact rest now made

end Loops

section Probe

variable {kernel : CharKernel} {xdev : OpenedCard}

theorem xpdevAlloc_made (xdev : OpenedCard) :
    Made kernel xdev [] []
      { xpdevAlloc with
        userMax := xdev.userMax, h2cChannelMax := xdev.h2cChannelMax, c2hChannelMax := xdev.c2hChannelMax } := by
  constructor
  case start => exact fun _ => rfl
  case distinct => exact List.nodup_nil
  case fits => exact fun _ member => absurd member List.not_mem_nil
  case devices => exact empty_undone.1
  case clean => rfl
  case numbers => exact empty_undone.1
  case numbersClean => rfl
  case complete => exact fun _ member => absurd member List.not_mem_nil
  case blank => exact fun _ _ => rfl
  case flags =>
    intro flag
    simp [xpdevAlloc]
  case userMax => rfl
  case h2cChannelMax => rfl
  case c2hChannelMax => rfl

theorem probeChecks_made (card : ProbedCard) (handle : card.hndl = some xdev) (numbered : xdev.Numbered) :
    Meets (probeChecks card) (fun s => s = xpdevAlloc)
      (fun opened s => (opened = xdev ∧ xdev.Within) ∧ Made kernel xdev [] [] s) (fun _ => True) := by
  unfold probeChecks
  rw [handle]
  apply Meets.bind fun opened s => opened = xdev ∧ s = xpdevAlloc
  · rintro _ rfl
    exact ⟨rfl, rfl⟩
  · intro opened
    apply Meets.given
    rintro rfl
    apply Meets.bind fun _ => Made kernel opened [] []
    · apply Meets.modify
      rintro _ rfl
      exact xpdevAlloc_made opened
    · intro _
      apply Meets.ite
      · intro _
        exact Meets.throw _ fun _ _ => trivial
      · intro few
        have within : opened.Within := ⟨numbered, by omega, by omega, by omega⟩
        apply Meets.bind fun _ => Made kernel opened [] []
        · unfold ProbedCard.enableUserIsr
          apply Meets.ite
          · exact fun _ => Meets.pure _ fun _ made => made
          · exact fun _ => Meets.ofExcept _ (fun _ _ _ made => made) fun _ _ _ _ => trivial
        · intro _
          apply Meets.ite
          · exact fun _ => Meets.pure _ fun _ made => ⟨⟨rfl, within⟩, made⟩
          · exact fun _ => Meets.throw _ fun _ _ => trivial

/-- A probe that succeeds has created every device of the card. -/
theorem probeOne_made {card : ProbedCard} {xpdev : Xpdev} (handle : card.hndl = some xdev) (numbered : xdev.Numbered)
    (probed : probeOne kernel card = .ok () xpdev) : Made kernel xdev xdev.flags xdev.created xpdev := by
  have whole : Meets (unwind (do xpdevCreateInterfaces kernel (← probeChecks card)) (xpdevFree kernel))
      (fun s => s = xpdevAlloc) (fun _ => Made kernel xdev xdev.flags xdev.created) (fun _ => True) := by
    apply Meets.unwind _ fun _ _ => trivial
    · exact fun _ => True
    · apply Meets.bind _ (probeChecks_made card handle numbered)
      intro opened
      apply Meets.given
      rintro ⟨same, within⟩
      rw [same]
      exact Meets.adaptExcept _ (Meets.unwind (createAll_made within) fun _ _ => trivial)
  have ends := whole xpdevAlloc rfl
  unfold probeOne at probed
  split at probed
  · rw [probed] at ends
    exact ends
  · cases probed

end Probe

section Remove

variable {kernel : CharKernel} {xdev : OpenedCard} {xpdev : Xpdev}

theorem Xpdev.mem_flagged {flag : XpdevFlag} {xcdevs : List CdevId} {xcdev : CdevId} :
    xcdev ∈ xpdev.flagged flag xcdevs ↔ xpdev.flags flag = true ∧ xcdev ∈ xcdevs := by
  unfold Xpdev.flagged
  split
  · next set => simp [set]
  · next unset => simp [unset]

theorem flagged_sublist (flag : XpdevFlag) (xcdevs : List CdevId) : (xpdev.flagged flag xcdevs).Sublist xcdevs := by
  unfold Xpdev.flagged
  split
  · exact List.Sublist.refl xcdevs
  · exact List.nil_sublist xcdevs

def typedCdevs (counts : List (CdevType × Nat)) : List CdevId :=
  counts.flatMap fun count => (List.range count.2).map (CdevId.mk count.1)

theorem typedCdevs_nodup {counts : List (CdevType × Nat)} (distinct : (counts.map Prod.fst).Nodup) :
    (typedCdevs counts).Nodup := by
  unfold typedCdevs
  rw [List.nodup_flatMap]
  constructor
  · intro count _
    apply List.Nodup.map _ List.nodup_range
    intro i j same
    injection same
  · apply (List.pairwise_map.mp distinct).imp
    intro first second away xcdev one other
    obtain ⟨i, -, rfl⟩ := List.mem_map.mp one
    obtain ⟨j, -, same⟩ := List.mem_map.mp other
    exact away (congrArg CdevId.type same).symm

theorem destroyed_nodup (xpdev : Xpdev) : xpdev.destroyed.Nodup := by
  have all : (xpdev.channelCdevs .xdmaH2c .xdmaC2h ++ (List.range xpdev.userMax).map (CdevId.mk .events) ++
      [CdevId.mk .ctrl 0] ++ [CdevId.mk .user 0] ++ [CdevId.mk .xvc 0] ++
      (xpdev.channelCdevs .bypassH2c .bypassC2h ++ [CdevId.mk .bypass 0])).Nodup := by
    have counted := @typedCdevs_nodup
      [(.xdmaH2c, xpdev.h2cChannelMax), (.xdmaC2h, xpdev.c2hChannelMax), (.events, xpdev.userMax), (.ctrl, 1),
        (.user, 1), (.xvc, 1), (.bypassH2c, xpdev.h2cChannelMax), (.bypassC2h, xpdev.c2hChannelMax), (.bypass, 1)]
      (by simp)
    simpa [typedCdevs, Xpdev.channelCdevs] using counted
  apply List.Nodup.sublist _ all
  unfold Xpdev.destroyed
  exact (((((flagged_sublist _ _).append (flagged_sublist _ _)).append (flagged_sublist _ _)).append
    (flagged_sublist _ _)).append (flagged_sublist _ _)).append (flagged_sublist _ _)

theorem engineCdevs_subset (type : CdevType) (engines : Nat → ProbedEngine) (channelMax : Nat) :
    engineCdevs type engines channelMax ⊆ (List.range channelMax).map (CdevId.mk type) :=
  List.map_subset _ (List.filter_subset_self _)

theorem created_destroyed (made : Made kernel xdev xdev.flags xdev.created xpdev) :
    xdev.created ⊆ xpdev.destroyed := by
  have set : ∀ flag, flag ∈ xdev.flags → xpdev.flags flag = true := fun flag member => (made.flags flag).mpr member
  have h2c := made.h2cChannelMax
  have c2h := made.c2hChannelMax
  intro xcdev member
  simp only [Xpdev.destroyed, List.mem_append, Xpdev.mem_flagged, Xpdev.channelCdevs, h2c, c2h, made.userMax]
  simp only [OpenedCard.created, List.mem_append] at member
  rcases member with ((((control | event) | h2c) | c2h) | bypass) | user
  · have flag := set .ctrl (by simp [OpenedCard.flags])
    tauto
  · have flag := set .event (by simp [OpenedCard.flags])
    tauto
  · have flag := set .sg (by simp [OpenedCard.flags])
    have there := engineCdevs_subset _ _ _ h2c
    tauto
  · have flag := set .sg (by simp [OpenedCard.flags])
    have there := engineCdevs_subset _ _ _ c2h
    tauto
  · unfold OpenedCard.bypassCdevs at bypass
    split at bypass
    · next bar =>
      have flag := set .bypass (by simp [OpenedCard.flags, bar])
      have there := fun member => @engineCdevs_subset .bypassH2c xdev.engineH2c xdev.h2cChannelMax xcdev member
      have here := fun member => @engineCdevs_subset .bypassC2h xdev.engineC2h xdev.c2hChannelMax xcdev member
      simp only [List.mem_append] at bypass
      tauto
    · cases bypass
  · unfold OpenedCard.userCdevs at user
    split at user
    · next bar =>
      have flag := set .user (by simp [OpenedCard.flags, bar])
      have also := set .xvc (by simp [OpenedCard.flags, bar])
      simp only [List.mem_cons, List.not_mem_nil, or_false] at user
      simp only [List.mem_singleton]
      tauto
    · cases user

theorem nodes_complete {xcdev : CdevId} (made : Made kernel xdev xdev.flags xdev.created xpdev)
    (inClass : kernel.gXdmaClass = true) (here : xcdev ∈ xdev.created) :
    xpdev.nodes kernel xcdev = [(.sysDevice (xpdev.devNo xcdev), ()), (.cdev xcdev, ())] := by
  have complete := made.complete xcdev here
  have whole : (xpdev.cdev xcdev).whole kernel = true := by
    simp [Xcdev.whole, complete.magic, complete.xdev, complete.sysDevice inClass, inClass]
  rw [Xpdev.nodes, if_pos whole, complete.cdevno]

theorem nodes_missing {xcdev : CdevId} (made : Made kernel xdev xdev.flags xdev.created xpdev)
    (away : xcdev ∉ xdev.created) : xpdev.nodes kernel xcdev = [] := by
  have missing : (xpdev.cdev xcdev).whole kernel = false := by
    simp [Xcdev.whole, made.blank xcdev away]
  rw [Xpdev.nodes, if_neg (by simp [missing])]

/-- What is removed is what stands, if there is a class and it took every device. -/
theorem removed_standing (made : Made kernel xdev xdev.flags xdev.created xpdev) (inClass : kernel.gXdmaClass = true)
    (taken : ∀ xcdev ∈ xdev.created, kernel.deviceCreate xcdev = .device) :
    xpdev.devices.Holds (xpdev.destroyed.flatMap (xpdev.nodes kernel)) ∧
      ((xpdev.destroyed.flatMap (xpdev.nodes kernel)).map Prod.fst).Nodup := by
  have standing : ∀ xcdev ∈ xdev.created, ∀ claim,
      claim ∈ xpdev.nodes kernel xcdev ↔ claim ∈ kernel.standing xcdev (xpdev.devNo xcdev) := by
    rintro xcdev here ⟨node, ⟨⟩⟩
    rw [nodes_complete made inClass here, mem_standing]
    simp [inClass, taken xcdev here, or_comm]
  constructor
  · intro node user
    rw [made.devices node user, List.mem_flatMap, List.mem_flatMap]
    constructor
    · rintro ⟨xcdev, here, claimed⟩
      exact ⟨xcdev, created_destroyed made here, (standing xcdev here _).mpr claimed⟩
    · rintro ⟨xcdev, -, claimed⟩
      by_cases here : xcdev ∈ xdev.created
      · exact ⟨xcdev, here, (standing xcdev here _).mp claimed⟩
      · rw [nodes_missing made here] at claimed
        cases claimed
  · rw [List.map_flatMap, List.nodup_flatMap]
    constructor
    · intro xcdev _
      unfold Xpdev.nodes
      split
      · simp
      · simp
    · apply (destroyed_nodup xpdev).pairwise_of_forall_ne
      intro first _ second _ away node one other
      obtain ⟨⟨_, ⟨⟩⟩, claimed, rfl⟩ := List.mem_map.mp one
      obtain ⟨⟨_, ⟨⟩⟩, again, rfl⟩ := List.mem_map.mp other
      by_cases here : first ∈ xdev.created
      · by_cases there : second ∈ xdev.created
        · have firstStands := (standing first here _).mp claimed
          have secondStands := (standing second there _).mp again
          exact away (standing_shared (made.fits first here) (made.fits second there) firstStands secondStands)
        · rw [nodes_missing made there] at again
          cases again
      · rw [nodes_missing made here] at claimed
        cases claimed

theorem removed_iff (made : Made kernel xdev xdev.flags xdev.created xpdev) :
    (xpdevFree kernel xpdev).DevicesUndone ↔
      kernel.gXdmaClass = true ∧ ∀ xcdev ∈ xdev.created, kernel.deviceCreate xcdev = .device := by
  have undone : (xpdevFree kernel xpdev).devices =
      xpdev.devices.releaseAll (xpdev.destroyed.flatMap (xpdev.nodes kernel)) := by
    rw [xpdevFree, xpdevDestroyInterfaces_eq]
  rw [Xpdev.DevicesUndone, undone]
  constructor
  · rintro ⟨nothing, clean⟩
    cases inClass : kernel.gXdmaClass with
    | false =>
      have control : ctrlCdev ∈ xdev.created := by simp [OpenedCard.created]
      rw [nodes_classless xpdev inClass] at nothing
      have held : xpdev.devices.owner (.cdev ctrlCdev) = some () :=
        (made.devices _ _).mpr (List.mem_flatMap.mpr ⟨ctrlCdev, control, mem_standing.mpr (.inl rfl)⟩)
      have left := nothing.nothing (.cdev ctrlCdev)
      rw [Registry.releaseAll_nil, held] at left
      cases left
    | true =>
      refine ⟨rfl, ?_⟩
      intro xcdev here
      by_contra refused
      have member : (CharNode.sysDevice (xpdev.devNo xcdev), ()) ∈ xpdev.destroyed.flatMap (xpdev.nodes kernel) := by
        apply List.mem_flatMap.mpr
        refine ⟨xcdev, created_destroyed made here, ?_⟩
        simp [nodes_complete made inClass here]
      have free : xpdev.devices.owner (.sysDevice (xpdev.devNo xcdev)) ≠ some () := by
        intro held
        obtain ⟨other, there, claimed⟩ := List.mem_flatMap.mp ((made.devices _ _).mp held)
        rcases mem_standing.mp claimed with cdev | ⟨number, -, device⟩
        · cases cdev
        · simp only [Xpdev.devNo, CharNode.sysDevice.injEq, Prod.mk.injEq, true_and] at number
          have same := CdevId.minor_injective (made.fits xcdev here) (made.fits other there) number
          rw [same] at refused
          exact refused device
      rw [Registry.releaseAll_spoils member free] at clean
      cases clean
  · rintro ⟨inClass, taken⟩
    obtain ⟨stands, distinct⟩ := removed_standing made inClass taken
    obtain ⟨nothing, unchanged⟩ := stands.releaseAll distinct
    exact ⟨nothing, unchanged.trans made.clean⟩

theorem numbers_given_back (made : Made kernel xdev xdev.flags xdev.created xpdev) :
    (xpdevFree kernel xpdev).RegionUndone := by
  have undone : (xpdevFree kernel xpdev).regions = xpdev.regions.releaseAll xpdev.numbers := by
    rw [xpdevFree, xpdevDestroyInterfaces_eq]
  have distinct : (xpdev.numbers.map Prod.fst).Nodup := by
    unfold Xpdev.numbers
    split
    · exact List.nodup_nil
    · exact List.nodup_singleton _
  obtain ⟨nothing, unchanged⟩ := made.numbers.releaseAll distinct
  rw [Xpdev.RegionUndone, undone]
  exact ⟨nothing, unchanged.trans made.numbersClean⟩

/-- As long as the card is there, the devices of `created` are registered and no others. Freeing it gives the device
    numbers back once, and takes away each device once exactly if there is a class and the kernel made a device of it
    for each of them: without a class they all stay, and for an error pointer a device is removed that never was. -/
theorem probe_free_undone {opened : Opening.Xdev} {card : ProbedCard} (handle : card.hndl = some opened.openedCard)
    (probed : probeOne kernel card = .ok () xpdev) :
    (∀ xcdev, xpdev.devices.owner (.cdev xcdev) = some () ↔ xcdev ∈ opened.openedCard.created) ∧
      (xpdevFree kernel xpdev).RegionUndone ∧
      ((xpdevFree kernel xpdev).DevicesUndone ↔
        kernel.gXdmaClass = true ∧ ∀ xcdev ∈ opened.openedCard.created, kernel.deviceCreate xcdev = .device) := by
  have made := probeOne_made handle ⟨fun _ => rfl, fun _ => rfl⟩ probed
  refine ⟨?_, numbers_given_back made, removed_iff made⟩
  intro xcdev
  rw [made.devices, List.mem_flatMap]
  constructor
  · rintro ⟨other, there, claimed⟩
    rcases mem_standing.mp claimed with same | ⟨device, -⟩
    · injection same with same
      rwa [same]
    · cases device
  · intro here
    exact ⟨xcdev, here, mem_standing.mpr (.inl rfl)⟩

theorem firstMajor_ne_zero : 240 ≠ 0 := by decide

def grantingKernel : CharKernel :=
  ⟨true, .ok ⟨240, firstMajor_ne_zero⟩, fun _ => .ok (), fun _ => .ok (), fun _ => .device⟩

def twoBarCard : Opening.Xdev :=
  { Opening.allocDevInstance Opening.smallDevice with
    userMax := 2
    channelMax := fun _ => 1
    engine := fun _ _ => ⟨true, false, fun _ => false⟩
    configBarIdx := some 1
    userBarIdx := some 0 }

theorem two_bar_free_undone : ∃ xpdev,
    probeOne grantingKernel ⟨true, some twoBarCard.openedCard, .ok (), true⟩ = .ok () xpdev ∧
      xpdev.devices.owner (.cdev ⟨.xdmaC2h, 0⟩) = some () ∧ (xpdevFree grantingKernel xpdev).DevicesUndone := by
  have probed : ∃ xpdev, probeOne grantingKernel ⟨true, some twoBarCard.openedCard, .ok (), true⟩ = .ok () xpdev := ⟨_, rfl⟩
  obtain ⟨xpdev, probed⟩ := probed
  obtain ⟨registered, -, undone⟩ := @probe_free_undone grantingKernel xpdev twoBarCard
    ⟨true, some twoBarCard.openedCard, .ok (), true⟩ rfl probed
  exact ⟨xpdev, probed, (registered ⟨.xdmaC2h, 0⟩).mpr (by decide), undone.mpr ⟨rfl, fun _ _ => rfl⟩⟩

end Remove

end CigCard.Xdma
