import CigCard.Xdma.DeviceLifetime

namespace CigCard.Xdma.Opening

open Ledger Unwinding

inductive PciChannelState where
  | normal
  | frozen
  | permFailure

inductive PciErsResult where
  | canRecover
  | needReset
  | disconnect
  | recovered
deriving DecidableEq

/-- The card and what the PCI core counts for it: `pci_disable_device` warns if nothing has the function enabled. -/
structure PciCard where
  xdev : Xdev
  enableCnt : Int
  warned : Bool

namespace PciCard

def disable (pci : PciCard) : PciCard :=
  { pci with enableCnt := pci.enableCnt - 1, warned := pci.warned || decide (pci.enableCnt ≤ 0) }

def call (card : Card) (call : DeviceCall) (pci : PciCard) : PciCard := { pci with xdev := performCall card pci.xdev call }

end PciCard

def xdmaErrorDetected (card : Card) (state : PciChannelState) (pci : PciCard) : PciErsResult × PciCard :=
  match state with
  | .normal => (.canRecover, pci)
  | .frozen => (.needReset, (pci.call card .offline).disable)
  | .permFailure => (.disconnect, pci)

def xdmaSlotReset (card : Card) (enableMem : Bool) (refuses : Nat → Bool) (pci : PciCard) : PciErsResult × PciCard :=
  if enableMem then (.recovered, { pci with enableCnt := pci.enableCnt + 1 }.call card (.online refuses))
  else (.disconnect, pci)

def xdmaErrorResume (pci : PciCard) : PciCard := pci

def xdmaResetPrepare (card : Card) (pci : PciCard) : PciCard := pci.call card .offline

def xdmaResetDone (card : Card) (refuses : Nat → Bool) (pci : PciCard) : PciCard := pci.call card (.online refuses)

/-- One thing that happens to an open card: an error that the PCI core recovers from, a reset of the function, or a
    call for the user interrupts. -/
inductive PciEpisode where
  | error (state : PciChannelState) (enableMem : Bool) (refuses : Nat → Bool)
  | reset (refuses : Nat → Bool)
  | userIsr (call : UserIsrCall)

namespace PciEpisode

def perform (card : Card) (pci : PciCard) : PciEpisode → Bool × PciCard
  | .error state enableMem refuses =>
    match xdmaErrorDetected card state pci with
    | (.needReset, pci) =>
      match xdmaSlotReset card enableMem refuses pci with
      | (.recovered, pci) => (true, xdmaErrorResume pci)
      | (_, pci) => (false, pci)
    | (.canRecover, pci) => (true, xdmaErrorResume pci)
    | (_, pci) => (false, pci)
  | .reset refuses => (true, xdmaResetDone card refuses (xdmaResetPrepare card pci))
  | .userIsr call => (true, pci.call card (.userIsr call))

def restores (cfg : Config) : PciEpisode → Prop
  | .error .frozen enableMem refuses => enableMem = true ∧ cfg.pollMode = false ∧ cfg.grants refuses
  | .reset refuses => cfg.pollMode = false ∧ cfg.grants refuses
  | .error .normal _ _ | .error .permFailure _ _ | .userIsr _ => True

def calls : PciEpisode → List DeviceCall
  | .error .frozen true refuses => [.offline, .online refuses]
  | .error .frozen false _ => [.offline]
  | .reset refuses => [.offline, .online refuses]
  | .userIsr call => [.userIsr call]
  | .error .normal _ _ | .error .permFailure _ _ => []

def leavesEnabled : PciEpisode → Bool
  | .error .frozen enableMem _ => enableMem
  | .error .normal _ _ | .error .permFailure _ _ | .reset _ | .userIsr _ => true

def disconnects : PciEpisode → Bool
  | .error .frozen enableMem _ => !enableMem
  | .error .permFailure _ _ => true
  | .error .normal _ _ | .reset _ | .userIsr _ => false

end PciEpisode

def performEpisodes (card : Card) : List PciEpisode → PciCard → PciCard
  | [], pci => pci
  | episode :: rest, pci =>
    match episode.perform card pci with
    | (true, pci) => performEpisodes card rest pci
    | (false, pci) => pci

def takenEpisodes : List PciEpisode → List PciEpisode
  | [] => []
  | episode :: rest => if episode.disconnects then [episode] else episode :: takenEpisodes rest

def removeOne (card : Card) (pci : PciCard) : PciCard :=
  let closed := { pci with xdev := xdmaDeviceClose card pci.xdev }
  if pci.xdev.regionsInUse then closed else closed.disable

section Regions

variable {card : Card}

def RegionsFree (xdev : Xdev) : Prop := xdev.regionsInUse = false

theorem openRegions_free :
    Meets (requestRegions card) RegionsFree (fun _ => RegionsFree) (fun _ => True) := by
  unfold requestRegions
  apply Meets.ite
  · intro _
    exact Meets.modify _ fun _ free => free
  · intro _
    apply Meets.bind fun _ _ => True
    · exact Meets.modify _ fun _ _ => trivial
    · intro _
      exact Meets.throw _ fun _ _ => trivial

theorem mapBars_free :
    Meets (mapBars card)
      (fun xdev => (Started card (.regions :: onLists) xdev ∧ xdev.gotRegions = true) ∧ RegionsFree xdev)
      (fun _ xdev => (∃ configBarIdx, Located card (.regions :: onLists) configBarIdx xdev) ∧ RegionsFree xdev)
      (fun _ => True) := by
  rintro start ⟨⟨started, got⟩, free⟩
  have located := @mapBars_located card start ⟨started, got⟩
  have mapped := @mapBars_meets card (.regions :: onLists) start start ⟨rfl, started.booked, started.bars, started.unset⟩
  cases ran : (mapBars card).run start with
  | ok value xdev =>
    rw [ran] at mapped located
    obtain ⟨configBarIdx, -, there⟩ := located
    obtain ⟨-, -, only, -⟩ := mapped
    exact ⟨⟨configBarIdx, there⟩, only.regionsInUse.trans free⟩
  | error e xdev => trivial

theorem prepareEngines_free {configBarIdx : Nat} {xdev : Xdev}
    (located : Located card (.regions :: onLists) configBarIdx xdev) (free : RegionsFree xdev) :
    RegionsFree (prepareEngines card xdev) := by
  have quiet : Booked (.regions :: onLists) (interruptsOff xdev) := located.booked
  have probed := @probeEngines_probed card _ configBarIdx (interruptsOff xdev) quiet located.config located.channelMax
    located.parts
  exact probed.only.regionsInUse.trans free

theorem enableMsiMsix_free :
    Meets (enableMsiMsix card) RegionsFree (fun _ => RegionsFree) (fun _ => True) := by
  have granted : ∀ granted, Meets (require granted) RegionsFree (fun _ => RegionsFree) fun _ => True :=
    fun granted => (require_keeps granted RegionsFree).failing fun _ _ => trivial
  unfold enableMsiMsix
  apply Meets.ite
  · intro _
    apply Meets.bind fun _ => RegionsFree
    · apply Meets.modify
      intro xdev free
      unfold RegionsFree at free ⊢
      split <;> exact free
    · exact fun _ => granted card.pciAllocIrqVectors
  · intro _
    apply Meets.ite
    · intro _
      apply Meets.bind fun _ => RegionsFree
      · apply Meets.modify
        intro xdev free
        unfold RegionsFree at free ⊢
        split <;> exact free
      · exact fun _ => granted card.pciEnableMsi
    · exact fun _ => Meets.pure _ fun _ free => free

theorem require_free (granted : Bool) : Meets (require granted) RegionsFree (fun _ => RegionsFree) fun _ => True :=
  (require_keeps granted RegionsFree).failing fun _ _ => trivial

theorem xdevListAdd_free : Meets (xdevListAdd card) RegionsFree (fun _ => RegionsFree) (fun _ => True) := by
  unfold xdevListAdd
  apply Meets.bind _ (require_free _)
  intro _
  apply Meets.bind fun _ => RegionsFree
  · exact Meets.modify _ fun _ free => free
  · exact fun _ => Meets.modify _ fun _ free => free

theorem pciEnableDevice_free : Meets (pciEnableDevice card) RegionsFree (fun _ => RegionsFree) (fun _ => True) := by
  unfold pciEnableDevice
  apply Meets.bind _ (require_free _)
  exact fun _ => Meets.modify _ fun _ free => free

theorem openCard_free :
    Meets (openCard card) (fun xdev => Started card [] xdev ∧ RegionsFree xdev) (fun _ => RegionsFree)
      (fun _ => True) := by
  unfold openCard
  apply Meets.bind _ ((xdevListAdd_meets.and xdevListAdd_free).failing fun _ _ => trivial)
  intro _
  apply Meets.bind fun _ xdev => Started card onLists xdev ∧ RegionsFree xdev
  · apply Meets.unwind _ fun _ _ => trivial
    · exact fun _ => True
    · exact (pciEnableDevice_meets.and pciEnableDevice_free).weaken (fun _ holds => ⟨holds.1.2, holds.2⟩)
        (fun _ _ holds => ⟨holds.1.2, holds.2⟩) fun _ _ => trivial
  · intro _
    apply Meets.bind fun _ xdev =>
      (Started card (.regions :: onLists) xdev ∧ xdev.gotRegions = true) ∧ RegionsFree xdev
    · apply Meets.unwind _ fun _ _ => trivial
      · exact fun _ => True
      · exact (requestRegions_meets.and openRegions_free).weaken (fun _ holds => holds)
          (fun _ _ holds => ⟨holds.1.2, holds.2⟩) fun _ _ => trivial
    · intro _
      apply Meets.bind _ (Meets.unwind mapBars_free fun _ _ => trivial)
      intro _
      apply Meets.bind fun _ xdev =>
        (∃ configBarIdx, Located card (.regions :: onLists) configBarIdx xdev) ∧ RegionsFree xdev
      · apply Meets.unwind _ fun _ _ => trivial
        · exact fun _ => True
        · exact (require_keeps _ _).failing fun _ _ => trivial
      · intro _
        apply Meets.bind fun _ => RegionsFree
        · apply Meets.modify
          rintro xdev ⟨⟨configBarIdx, located⟩, free⟩
          exact prepareEngines_free located free
        · intro _
          apply Meets.bind _ (Meets.unwind enableMsiMsix_free fun _ _ => trivial)
          intro _
          apply Meets.bind fun _ => RegionsFree
          · apply Meets.unwind _ fun _ _ => trivial
            · exact fun _ => True
            · intro xdev free
              rw [setupIrqs_run]
              cases irqSetup (card.irqConfig xdev.irqMode xdev.channelMax) card.refuses xdev.irq with
              | mk ended irq =>
                cases ended with
                | true => exact free
                | false => trivial
          · exact fun _ => Meets.modify _ fun _ free => free

theorem xdmaDeviceOpen_free {xdev : Xdev} (opened : xdmaDeviceOpen card = .ok () xdev) : RegionsFree xdev := by
  unfold xdmaDeviceOpen at opened
  split at opened
  · have ends := @openCard_free card (allocDevInstance card) ⟨allocDevInstance_started card, rfl⟩
    rw [opened] at ends
    exact ends
  · cases opened

end Regions

section Episodes

variable {card : Card}

def PciCard.enabled (xdev : Xdev) : PciCard := ⟨xdev, 1, false⟩

theorem PciEpisode.perform_enabled (xdev : Xdev) (episode : PciEpisode) :
    episode.perform card (.enabled xdev) =
      (!episode.disconnects,
        ⟨performCalls card episode.calls xdev, if episode.leavesEnabled then 1 else 0, false⟩) := by
  cases episode with
  | error state enableMem refuses =>
    cases state with
    | normal => rfl
    | frozen =>
      cases enableMem with
      | true => rfl
      | false => rfl
    | permFailure => rfl
  | reset refuses => rfl
  | userIsr call => rfl

theorem PciEpisode.leavesEnabled_of_stays {episode : PciEpisode} (stays : episode.disconnects = false) :
    episode.leavesEnabled = true := by
  cases episode with
  | error state enableMem refuses =>
    cases state with
    | normal | permFailure => rfl
    | frozen =>
      cases enableMem with
      | true => rfl
      | false => cases stays
  | reset refuses => rfl
  | userIsr call => rfl

theorem performCalls_append (before after : List DeviceCall) (xdev : Xdev) :
    performCalls card (before ++ after) xdev = performCalls card after (performCalls card before xdev) :=
  List.foldl_append

/-- The card has seen the calls of the episodes up to the one that disconnects it, and only that one can leave the
    function disabled. -/
theorem performEpisodes_eq (episodes : List PciEpisode) (xdev : Xdev) :
    performEpisodes card episodes (.enabled xdev) =
      ⟨performCalls card ((takenEpisodes episodes).flatMap PciEpisode.calls) xdev,
        if (takenEpisodes episodes).all PciEpisode.leavesEnabled then 1 else 0, false⟩ := by
  induction episodes generalizing xdev with
  | nil => rfl
  | cons episode rest ih =>
    rw [performEpisodes, PciEpisode.perform_enabled, takenEpisodes]
    cases ends : episode.disconnects with
    | true => simp only [Bool.not_true, if_true, List.flatMap_singleton, List.all_cons, List.all_nil, Bool.and_true]
    | false =>
      have enabled := PciEpisode.leavesEnabled_of_stays ends
      have later := ih (performCalls card episode.calls xdev)
      simp only [Bool.not_false, enabled, if_true, Bool.false_eq_true, if_false, List.flatMap_cons, List.all_cons,
        Bool.true_and, performCalls_append]
      exact later

end Episodes

section Phases

variable {cfg : Config}

theorem LinePhase.spoiled_stays (calls : List DeviceCall) :
    calls.foldl (LinePhase.next cfg) .spoiled = .spoiled := by
  induction calls with
  | nil => rfl
  | cons call calls ih =>
    cases call with
    | offline => exact ih
    | online refuses => exact ih
    | userIsr call => exact ih

theorem LinePhase.offline_lost {phase : LinePhase} (lost : phase ≠ .held) : phase.next cfg .offline = .spoiled := by
  cases phase with
  | held => exact absurd rfl lost
  | freed | half | spoiled => rfl

theorem LinePhase.lowered_held (refuses : Nat → Bool) :
    [DeviceCall.offline, .online refuses].foldl (LinePhase.next cfg) .held = .held ↔
      cfg.pollMode = false ∧ cfg.grants refuses := by
  show (if cfg.pollMode then LinePhase.freed else if cfg.grants refuses then .held
    else if cfg.refusedAtOnce refuses then .freed else .half) = .held ↔ _
  by_cases poll : cfg.pollMode = true
  · rw [if_pos poll, poll]
    exact iff_of_false (by decide) fun both => absurd both.1 (by decide)
  · rw [if_neg poll]
    have interrupts := Bool.eq_false_of_not_eq_true poll
    by_cases granted : cfg.grants refuses
    · rw [if_pos granted]
      exact iff_of_true rfl ⟨interrupts, granted⟩
    · rw [if_neg granted]
      apply iff_of_false
      · split
        · decide
        · decide
      · exact fun both => granted both.2

theorem PciEpisode.held_iff (episode : PciEpisode) :
    episode.calls.foldl (LinePhase.next cfg) .held = .held ↔ episode.restores cfg := by
  cases episode with
  | error state enableMem refuses =>
    cases state with
    | normal | permFailure => exact iff_of_true rfl trivial
    | frozen =>
      cases enableMem with
      | true =>
        show [DeviceCall.offline, .online refuses].foldl (LinePhase.next cfg) .held = .held ↔
          true = true ∧ cfg.pollMode = false ∧ cfg.grants refuses
        rw [LinePhase.lowered_held, eq_self, true_and]
      | false =>
        apply iff_of_false
        · show LinePhase.freed ≠ .held
          decide
        · rintro ⟨enabled, -⟩
          cases enabled
  | reset refuses => exact LinePhase.lowered_held refuses
  | userIsr call => exact iff_of_true rfl trivial

/-- What one episode has lost no later one brings back: each would first free the lines again. -/
theorem PciEpisode.lost_stays {phase : LinePhase} (lost : phase ≠ .held) (episode : PciEpisode) :
    episode.calls.foldl (LinePhase.next cfg) phase ≠ .held := by
  have lowered : ∀ calls, (DeviceCall.offline :: calls).foldl (LinePhase.next cfg) phase ≠ .held := by
    intro calls
    rw [List.foldl_cons, LinePhase.offline_lost lost, LinePhase.spoiled_stays]
    decide
  cases episode with
  | error state enableMem refuses =>
    cases state with
    | normal | permFailure => exact lost
    | frozen =>
      cases enableMem with
      | true => exact lowered _
      | false => exact lowered _
  | reset refuses => exact lowered _
  | userIsr call =>
    cases phase with
    | held => exact absurd rfl lost
    | freed | half | spoiled => exact lost

theorem episodes_held_iff (episodes : List PciEpisode) (phase : LinePhase) :
    (episodes.flatMap PciEpisode.calls).foldl (LinePhase.next cfg) phase = .held ↔
      phase = .held ∧ ∀ episode ∈ episodes, episode.restores cfg := by
  induction episodes generalizing phase with
  | nil => simp only [List.flatMap_nil, List.foldl_nil, List.not_mem_nil, false_implies, implies_true, and_true]
  | cons episode rest ih =>
    rw [List.flatMap_cons, List.foldl_append, ih, List.forall_mem_cons]
    by_cases held : phase = .held
    · subst held
      rw [PciEpisode.held_iff]
      simp only [true_and]
    · exact iff_of_false (fun both => PciEpisode.lost_stays held episode both.1) fun both => held both.1

end Phases

section Removal

variable {card : Card}

theorem PciEpisode.leavesEnabled_of_restores {cfg : Config} {episode : PciEpisode} (restores : episode.restores cfg) :
    episode.leavesEnabled = true := by
  cases episode with
  | error state enableMem refuses =>
    cases state with
    | normal | permFailure => rfl
    | frozen => exact restores.1
  | reset refuses => rfl
  | userIsr call => rfl

/-- From the open to the removal, whatever errors and resets come in between: everything is given back once and the
    function ends disabled, without the PCI core having warned, exactly if each episode before a disconnect brought
    the card back. -/
theorem recovery_releases_iff {xdev : Xdev} (opened : xdmaDeviceOpen card = .ok () xdev)
    (episodes : List PciEpisode) :
    let pci := removeOne card (performEpisodes card episodes (.enabled xdev))
    (Released pci.xdev ∧ pci.enableCnt = 0 ∧ pci.warned = false) ↔
      ∀ episode ∈ takenEpisodes episodes, episode.restores (xdev.irqConfig card) := by
  intro pci
  have free := xdmaDeviceOpen_free opened
  obtain ⟨configBarIdx, inUse, irqSide⟩ := xdmaDeviceOpen_inUse opened
  have held : LinePhase.held.Describes (xdev.irqConfig card) xdev.irq := irqSide.standing
  have last := held.run irqSide.wired ((takenEpisodes episodes).flatMap PciEpisode.calls)
  have removed : pci =
      PciCard.disable
        ⟨xdmaDeviceClose card (performCalls card ((takenEpisodes episodes).flatMap PciEpisode.calls) xdev),
          if (takenEpisodes episodes).all PciEpisode.leavesEnabled then 1 else 0, false⟩ := by
    show removeOne card (performEpisodes card episodes (.enabled xdev)) = _
    rw [performEpisodes_eq, removeOne, performCalls_eq]
    have unused : xdev.regionsInUse = false := free
    simp only [unused, Bool.false_eq_true, if_false]
  have lines : Released pci.xdev ↔ ∀ episode ∈ takenEpisodes episodes, episode.restores (xdev.irqConfig card) := by
    rw [removed, PciCard.disable, performCalls_eq, (inUse.withIrq _ _).closed]
    apply last.closed.trans
    rw [episodes_held_iff]
    simp only [true_and]
  constructor
  · exact fun all => lines.mp all.1
  · intro restored
    have enabled : (takenEpisodes episodes).all PciEpisode.leavesEnabled = true :=
      List.all_eq_true.mpr fun episode taken => PciEpisode.leavesEnabled_of_restores (restored episode taken)
    refine ⟨lines.mpr restored, ?_, ?_⟩
    · rw [removed, enabled]
      rfl
    · rw [removed, enabled]
      rfl

theorem disconnected_releases : ∃ xdev, xdmaDeviceOpen smallDevice = .ok () xdev ∧
    let episodes : List PciEpisode :=
      [.reset fun _ => false, .error .frozen true fun _ => false, .error .permFailure false fun _ => true,
        .reset fun _ => true]
    let pci := removeOne smallDevice (performEpisodes smallDevice episodes (.enabled xdev))
    Released pci.xdev ∧ pci.enableCnt = 0 ∧ pci.warned = false := by
  have happens : ∃ xdev, xdmaDeviceOpen smallDevice = .ok () xdev ∧
      xdev.irqConfig smallDevice = smallDevice.irqConfig smallDevice.mode (smallDevice.engines 0) := ⟨_, rfl, rfl⟩
  obtain ⟨xdev, opened, config⟩ := happens
  refine ⟨xdev, opened, ?_⟩
  intro episodes
  apply (recovery_releases_iff opened episodes).mpr
  have taken : takenEpisodes episodes = episodes.take 3 := rfl
  have restored : (smallDevice.irqConfig smallDevice.mode (smallDevice.engines 0)).pollMode = false ∧
      (smallDevice.irqConfig smallDevice.mode (smallDevice.engines 0)).grants fun _ => false := by decide
  rw [taken, config]
  simp only [episodes, List.take_succ_cons, List.take_zero, List.forall_mem_cons]
  exact ⟨restored, ⟨rfl, restored⟩, trivial, fun _ none => absurd none List.not_mem_nil⟩

end Removal

end CigCard.Xdma.Opening
