import CigCard.Xdma.IrqAlternation
import CigCard.Xdma.OpenBars
import CigCard.Xdma.OpenEngines

namespace CigCard.Xdma.Opening

open Ledger Unwinding

namespace Card

variable (card : Card)

def listed : Bool := !(card.listEmpty && card.pollMode) || card.threadsCreate

def reachesBars : Bool := card.allocated && card.listed && card.pciEnable && card.pciRequestRegions

def mode : IrqMode := if card.wantsMsix then .msix else if card.wantsMsi then .msi else .legacy

def vectorsGranted : Bool :=
  match card.mode with
  | .msix => card.pciAllocIrqVectors
  | .msi => card.pciEnableMsi
  | .legacy => true

/-- `map_bars` is reached in a module that was built for a BAR which is not the configuration BAR. -/
def leavesBar : Prop := card.reachesBars = true ∧ card.misnamedBar

/-- The channel vectors are asked for in turn, and after some were granted one of the channels or of the user
    interrupts is refused. -/
def leavesIrqs : Prop :=
  card.reachesBars = true ∧ (card.dmaMask64 || card.dmaMask32) = true ∧ card.vectorsGranted = true ∧
    ∃ configBarIdx, card.configBar = some configBarIdx ∧
      ¬ (card.irqConfig card.mode (card.engines configBarIdx)).grants card.refuses ∧
      (card.irqConfig card.mode (card.engines configBarIdx)).refusedAtOnce card.refuses = false

end Card

/-- No interrupt line is held, nothing else is, and nothing was given back that was not. -/
structure Released (xdev : Xdev) : Prop where
  lines : xdev.irq.irqs.Holds [] ∧ xdev.irq.irqs.misused = false
  held : xdev.held.Holds [] ∧ xdev.held.misused = false

def Outcome (card : Card) (xdev : Xdev) : Prop := Released xdev ↔ ¬ card.leavesBar ∧ ¬ card.leavesIrqs

section Labels

variable {card : Card} {others : List Resource} {xdev : Xdev}

theorem Booked.congr {same : List Resource} (booked : Booked others xdev)
    (members : ∀ resource, resource ∈ others ↔ resource ∈ same) : Booked same xdev := by
  apply Registry.Agrees.congr booked
  intro key
  cases key with
  | bar _ | engine _ _ _ => exact Iff.rfl
  | xdevList | rcuList | regions | msix | msi => exact members _

/-- When only BARs and engines can be held, those that are not are released. -/
theorem released_iff (booked : Booked [] xdev) :
    Released xdev ↔ (xdev.irq.irqs.Holds [] ∧ xdev.irq.irqs.misused = false) ∧ (∀ idx, xdev.bar idx = none) ∧
      ∀ dir ch, (xdev.engine dir ch).part = fun _ => false := by
  have nothing := Registry.Agrees.holds_nothing booked
  constructor
  · rintro ⟨lines, held, -⟩
    have none := nothing.mp held
    refine ⟨lines, ?_, ?_⟩
    · intro idx
      exact Option.not_isSome_iff_eq_none.mp (none (.bar idx))
    · intro dir ch
      funext part
      exact Bool.eq_false_of_not_eq_true (none (.engine dir ch part))
  · rintro ⟨lines, bars, parts⟩
    have none : ∀ key, ¬ xdev.accounts [] key := by
      intro key
      cases key with
      | bar idx => simp [Xdev.accounts, bars]
      | engine dir ch part => simp [Xdev.accounts, parts]
      | xdevList | rcuList | regions | msix | msi => simp [Xdev.accounts]
    exact ⟨lines, nothing.mpr none, booked.clean⟩

def onLists : List Resource := [.xdevList, .rcuList]

theorem errEnable_booked (booked : Booked onLists xdev) : Booked [] (errEnable xdev) :=
  (booked.release rfl (by decide)).release rfl (by decide)

theorem errRegions_spec (booked : Booked onLists xdev) :
    Booked [] (errRegions xdev) ∧ (errRegions xdev).irq = xdev.irq ∧ (errRegions xdev).bar = xdev.bar ∧
      (errRegions xdev).engine = xdev.engine := by
  unfold errRegions
  split
  · exact ⟨errEnable_booked booked, rfl, rfl, rfl⟩
  · exact ⟨@errEnable_booked { xdev with enabled := false } booked, rfl, rfl, rfl⟩

theorem errMap_spec (booked : Booked (.regions :: onLists) xdev) (got : xdev.gotRegions = true) :
    Booked [] (errMap xdev) ∧ (errMap xdev).irq = xdev.irq ∧ (errMap xdev).bar = xdev.bar ∧
      (errMap xdev).engine = xdev.engine := by
  unfold errMap
  rw [if_pos got]
  exact errRegions_spec (booked.release rfl (by decide))

structure PastRegions (others : List Resource) (xdev : Xdev) : Prop where
  booked : Booked others xdev
  got : xdev.gotRegions = true
  outside : ∀ idx, xdmaBarNum ≤ idx → xdev.bar idx = none

theorem errMask_spec (past : PastRegions (.regions :: onLists) xdev) :
    Booked [] (errMask xdev) ∧ (errMask xdev).irq = xdev.irq ∧ (∀ idx, (errMask xdev).bar idx = none) ∧
      (errMask xdev).engine = xdev.engine := by
  obtain ⟨held, unmapped, booked⟩ := unmapBars_upto xdmaBarNum past.booked
  change unmapBars xdev = _ at unmapped
  change Booked _ (unmapBars xdev) at booked
  have got : (unmapBars xdev).gotRegions = true := by
    rw [unmapped]
    exact past.got
  obtain ⟨last, irq, bar, engine⟩ := errMap_spec booked got
  refine ⟨last, ?_, ?_, ?_⟩
  · rw [errMask, irq, unmapped]
  · intro idx
    rw [errMask, bar, unmapped]
    by_cases inside : idx < xdmaBarNum
    · exact if_pos inside
    · exact (if_neg inside).trans (past.outside idx (Nat.not_lt.mp inside))
  · rw [errMask, engine, unmapped]

structure PastEngines (card : Card) (others : List Resource) (configBarIdx : Nat) (xdev : Xdev) : Prop
    extends PastRegions others xdev where
  probed : Probed card others configBarIdx xdev xdev

theorem errEngines_spec {configBarIdx : Nat} (past : PastEngines card (.regions :: onLists) configBarIdx xdev) :
    Booked [] (errEngines card xdev) ∧ (errEngines card xdev).irq.irqs = xdev.irq.irqs ∧
      (∀ idx, (errEngines card xdev).bar idx = none) ∧
      ∀ dir ch, ((errEngines card xdev).engine dir ch).part = fun _ => false := by
  obtain ⟨booked, only, parts⟩ := removeEngines_spec past.probed
  have outside : ∀ idx, xdmaBarNum ≤ idx → (removeEngines card xdev).bar idx = none := by
    rw [only.bar]
    exact past.outside
  obtain ⟨last, irq, bars, engine⟩ := errMask_spec ⟨booked, only.gotRegions.trans past.got, outside⟩
  refine ⟨last, ?_, bars, ?_⟩
  · rw [errEngines, irq]
    exact only.irqs
  · intro dir ch
    rw [errEngines, engine]
    exact parts dir ch

def vectorsOf : IrqMode → List Resource
  | .msix => [.msix]
  | .msi => [.msi]
  | .legacy => []

theorem PastEngines.congr {configBarIdx : Nat} {next : Xdev} {now : List Resource}
    (past : PastEngines card others configBarIdx xdev) (booked : Booked now next) (bar : next.bar = xdev.bar)
    (got : next.gotRegions = xdev.gotRegions) (channelMax : next.channelMax = xdev.channelMax)
    (engine : next.engine = xdev.engine) : PastEngines card now configBarIdx next := by
  refine ⟨⟨booked, got.trans past.got, ?_⟩, booked, .refl next, ?_, ?_, ?_, ?_⟩
  · rw [bar]
    exact past.outside
  · rw [channelMax]
    exact past.probed.channelMax
  · rw [channelMax, engine]
    exact past.probed.magic
  · rw [engine]
    exact past.probed.polled
  · rw [channelMax, engine]
    exact past.probed.nothing

theorem disableMsiMsix_spec {configBarIdx : Nat} {mode : IrqMode} (same : xdev.irqMode = mode)
    (past : PastEngines card (vectorsOf mode ++ .regions :: onLists) configBarIdx xdev) :
    PastEngines card (.regions :: onLists) configBarIdx (disableMsiMsix xdev) ∧
      (disableMsiMsix xdev).irq = xdev.irq := by
  unfold disableMsiMsix
  unfold Xdev.irqMode at same
  split at same
  · next msix =>
    subst mode
    rw [if_pos msix]
    exact ⟨past.congr (past.booked.release rfl (by decide)) rfl rfl rfl rfl, rfl⟩
  · next noMsix =>
    rw [if_neg noMsix]
    split at same
    · next msi =>
      subst mode
      rw [if_pos msi]
      exact ⟨past.congr (past.booked.release rfl (by decide)) rfl rfl rfl rfl, rfl⟩
    · next noMsi =>
      subst mode
      rw [if_neg noMsi]
      exact ⟨past, rfl⟩

theorem errMsix_spec {configBarIdx : Nat} {mode : IrqMode} (same : xdev.irqMode = mode)
    (past : PastEngines card (vectorsOf mode ++ .regions :: onLists) configBarIdx xdev) :
    Booked [] (errMsix card xdev) ∧ (errMsix card xdev).irq.irqs = xdev.irq.irqs ∧
      (∀ idx, (errMsix card xdev).bar idx = none) ∧
      ∀ dir ch, ((errMsix card xdev).engine dir ch).part = fun _ => false := by
  obtain ⟨disabled, irq⟩ := disableMsiMsix_spec same past
  obtain ⟨booked, irqs, bars, parts⟩ := errEngines_spec disabled
  refine ⟨booked, ?_, bars, parts⟩
  rw [errMsix, irqs, irq]

end Labels

section Irqs

variable {cfg : Config} {refuses : Nat → Bool} {irq : Device}

theorem requestIrq_failed {line : Nat} {handler : Handler} (free : irq.irqs.owner line = none)
    (failed : (requestIrq refuses line handler irq).1 = false) : (requestIrq refuses line handler irq).2.irqs = irq.irqs := by
  rw [requestIrq_free handler free] at failed ⊢
  split at failed
  · next refused => rw [if_pos refused]
  · cases failed

/-- Outside MSI-X there is one line, and when it is not granted nothing was. -/
theorem irqSetup_isr_failed (mode : cfg.mode ≠ .msix) (holds : irq.irqs.Holds [])
    (failed : (irqSetup cfg refuses irq).1 = false) : (irqSetup cfg refuses irq).2.irqs = irq.irqs := by
  have free := holds.nothing cfg.irq
  unfold irqSetup at failed ⊢
  cases kind : cfg.mode with
  | msix => exact absurd kind mode
  | msi =>
    simp only [kind] at failed ⊢
    exact @requestIrq_failed refuses { irq with irqLine := some cfg.irq } cfg.irq .isr free failed
  | legacy =>
    simp only [kind, irqLegacySetup] at failed ⊢
    split at failed
    · next noPin => rw [if_pos noPin]
    · next pin =>
      rw [if_neg pin]
      exact @requestIrq_failed refuses { irq with irqLine := some cfg.irq } cfg.irq .isr free failed

theorem irqSetup_failed (holds : irq.irqs.Holds []) (clean : irq.irqs.misused = false)
    (failed : (irqSetup cfg refuses irq).1 = false) :
    ((irqSetup cfg refuses irq).2.irqs.Holds [] ∧ (irqSetup cfg refuses irq).2.irqs.misused = false) ↔
      ¬ (¬ cfg.grants refuses ∧ cfg.refusedAtOnce refuses = false) := by
  by_cases mode : cfg.mode = .msix
  · have refused : ¬ cfg.grants refuses := by
      intro grants
      obtain ⟨line, lines, granted, -⟩ := irqSetup_granted (fun legacy => absurd (mode.symm.trans legacy) (by decide)) holds grants
      rw [granted] at failed
      cases failed
    have outcome := @granted_cases cfg refuses mode
    rw [irqSetup_msix_refused mode holds refused]
    cases atOnce : cfg.refusedAtOnce refuses with
    | true =>
      rw [if_pos atOnce] at outcome
      rw [outcome]
      simp [holds, clean]
    | false =>
      rw [atOnce, if_neg (by decide)] at outcome
      have held := (holds.acquireAll (@granted_distinct cfg refuses)).1
      have owner := (held (cfg.channelLine 0).1 (cfg.channelLine 0).2).mpr (List.mem_map.mpr ⟨0, outcome.1, rfl⟩)
      have stays : ¬ (irq.irqs.acquireAll ((cfg.granted refuses).map cfg.channelLine)).Holds [] := by
        intro nothing
        rw [nothing.nothing] at owner
        cases owner
      exact iff_of_false (fun both => stays both.1) (not_not_intro ⟨refused, rfl⟩)
  · have atOnce : cfg.refusedAtOnce refuses = true := by
      cases kind : cfg.mode with
      | msix => exact absurd kind mode
      | msi | legacy => simp only [Config.refusedAtOnce, kind]
    rw [irqSetup_isr_failed mode holds failed, atOnce]
    simp [holds, clean]

end Irqs

structure Started (card : Card) (others : List Resource) (xdev : Xdev) : Prop where
  booked : Booked others xdev
  irq : xdev.irq = (allocDevInstance card).irq
  bars : ∀ idx, xdev.bar idx = none
  unset : xdev.configBarIdx = none
  parts : ∀ dir ch, (xdev.engine dir ch).part = fun _ => false
  channelMax : xdev.channelMax = fun dir => boundedMax xdmaChannelNumMax (card.channelMax dir)
  vectors : xdev.msixEnabled = false ∧ xdev.msiEnabled = false

structure Located (card : Card) (others : List Resource) (configBarIdx : Nat) (xdev : Xdev) : Prop
    extends PastRegions others xdev where
  irq : xdev.irq = (allocDevInstance card).irq
  config : xdev.configBarIdx = some configBarIdx
  parts : ∀ dir ch, (xdev.engine dir ch).part = fun _ => false
  channelMax : xdev.channelMax = fun dir => boundedMax xdmaChannelNumMax (card.channelMax dir)
  vectors : xdev.msixEnabled = false ∧ xdev.msiEnabled = false

section Steps

variable {card : Card}

theorem allocDevInstance_started (card : Card) : Started card [] (allocDevInstance card) := by
  refine ⟨⟨?_, rfl⟩, rfl, fun _ => rfl, rfl, fun _ _ => rfl, rfl, rfl, rfl⟩
  intro key
  cases key with
  | bar _ | engine _ _ _ | xdevList | rcuList | regions | msix | msi =>
    simp [allocDevInstance, Registry.empty, Xdev.accounts, EngineBook.zeroed]

theorem Started.irqs {others : List Resource} {xdev : Xdev} (started : Started card others xdev) :
    xdev.irq.irqs = Registry.empty := by
  rw [started.irq]
  rfl

theorem Located.irqs {others : List Resource} {configBarIdx : Nat} {xdev : Xdev}
    (located : Located card others configBarIdx xdev) : xdev.irq.irqs = Registry.empty := by
  rw [located.irq]
  rfl

theorem Started.hold {others : List Resource} {xdev : Xdev} (started : Started card others xdev) {resource : Resource}
    (fixed : resource.fixed = true) (away : resource ∉ others) :
    Started card (resource :: others) (acquire resource xdev) :=
  { started with booked := started.booked.acquire fixed away }

theorem xdevListAdd_meets :
    Meets (xdevListAdd card) (Started card []) (fun _ xdev => card.listed = true ∧ Started card onLists xdev)
      (fun xdev => card.listed = false ∧ Started card [] xdev) := by
  unfold xdevListAdd
  apply Meets.bind _ (require_meets card.listed (Started card []))
  intro _
  apply Meets.given
  intro listed
  apply Meets.bind fun _ => Started card [.xdevList]
  · apply Meets.modify
    intro xdev started
    exact started.hold rfl (by decide)
  · intro _
    apply Meets.modify
    intro xdev started
    have both := @Started.hold card _ _ started .rcuList rfl (by decide)
    refine ⟨listed, { both with booked := both.booked.congr ?_ }⟩
    intro resource
    simp [onLists, or_comm]

theorem pciEnableDevice_meets :
    Meets (pciEnableDevice card) (Started card onLists)
      (fun _ xdev => card.pciEnable = true ∧ Started card onLists xdev)
      (fun xdev => card.pciEnable = false ∧ Started card onLists xdev) := by
  unfold pciEnableDevice
  apply Meets.bind _ (require_meets card.pciEnable (Started card onLists))
  intro _
  apply Meets.modify
  rintro xdev ⟨enabled, started⟩
  exact ⟨enabled, { started with }⟩

theorem requestRegions_meets :
    Meets (requestRegions card) (Started card onLists)
      (fun _ xdev => card.pciRequestRegions = true ∧ Started card (.regions :: onLists) xdev ∧ xdev.gotRegions = true)
      (fun xdev => card.pciRequestRegions = false ∧ Started card onLists xdev) := by
  unfold requestRegions
  apply Meets.ite
  · intro granted
    apply Meets.modify
    intro xdev started
    have held := @Started.hold card _ _ started .regions rfl (by decide)
    exact ⟨granted, { held with }, rfl⟩
  · intro refused
    apply Meets.bind fun _ => Started card onLists
    · apply Meets.modify
      intro xdev started
      exact { started with }
    · intro _
      exact Meets.throw _ fun _ started => ⟨Bool.eq_false_of_not_eq_true refused, started⟩

structure Unlocated (card : Card) (xdev : Xdev) : Prop where
  missing : card.configBar = none
  booked : Booked (.regions :: onLists) xdev
  got : xdev.gotRegions = true
  irqs : xdev.irq.irqs = Registry.empty
  parts : ∀ dir ch, (xdev.engine dir ch).part = fun _ => false
  left : (∀ idx, xdev.bar idx = none) ↔ ¬ card.misnamedBar

theorem mapBars_located :
    Meets (mapBars card) (fun xdev => Started card (.regions :: onLists) xdev ∧ xdev.gotRegions = true)
      (fun _ xdev => ∃ configBarIdx, card.configBar = some configBarIdx ∧
        Located card (.regions :: onLists) configBarIdx xdev)
      (Unlocated card) := by
  rintro start ⟨started, got⟩
  have mapped := @mapBars_meets card (.regions :: onLists) start start ⟨rfl, started.booked, started.bars, started.unset⟩
  cases ran : (mapBars card).run start with
  | ok value xdev =>
    rw [ran] at mapped
    obtain ⟨⟨configBarIdx, found, config⟩, booked, only, outside⟩ := mapped
    refine ⟨configBarIdx, found, ⟨booked, only.gotRegions.trans got, outside⟩, ?_, config, ?_, ?_, ?_⟩
    · rw [only.irq, started.irq]
    · rw [only.engine]
      exact started.parts
    · rw [only.channelMax, started.channelMax]
    · rw [only.msixEnabled, only.msiEnabled]
      exact started.vectors
  | error e xdev =>
    rw [ran] at mapped
    obtain ⟨missing, booked, only, left⟩ := mapped
    refine ⟨missing, booked, only.gotRegions.trans got, ?_, ?_, left⟩
    · rw [only.irq, started.irqs]
    · rw [only.engine]
      exact started.parts

def Card.preparedIrq (card : Card) (configBarIdx : Nat) : Device :=
  (card.irqConfig card.mode (card.engines configBarIdx)).initEngines (interruptsOff (allocDevInstance card)).irq

theorem preparedIrq_irqs (configBarIdx : Nat) : (card.preparedIrq configBarIdx).irqs = Registry.empty := by
  rw [Card.preparedIrq, initEngines_eq]
  rfl

structure Prepared (card : Card) (configBarIdx : Nat) (xdev : Xdev) : Prop
    extends PastEngines card (.regions :: onLists) configBarIdx xdev where
  irq : xdev.irq = card.preparedIrq configBarIdx
  vectors : xdev.msixEnabled = false ∧ xdev.msiEnabled = false

theorem prepareEngines_prepared {configBarIdx : Nat} {xdev : Xdev}
    (located : Located card (.regions :: onLists) configBarIdx xdev) :
    Prepared card configBarIdx (prepareEngines card xdev) := by
  have quiet : Booked (.regions :: onLists) (interruptsOff xdev) := located.booked
  have probed := @probeEngines_probed card _ configBarIdx (interruptsOff xdev) quiet located.config located.channelMax
    located.parts
  have irq := @probeEngines_irq card (interruptsOff xdev)
  have only := probed.only
  refine ⟨⟨⟨probed.booked, only.gotRegions.trans located.got, ?_⟩, ?_⟩, ?_, ?_, ?_⟩
  · rw [prepareEngines, only.bar]
    exact located.outside
  · exact { probed with only := .refl _ }
  · rw [prepareEngines, irq, probed.channelMax, Card.preparedIrq, initEngines_eq]
    simp only [masked, interruptsOff, located.irq, Nat.zero_le, true_and]
    rfl
  · rw [prepareEngines, only.msixEnabled]
    exact located.vectors.1
  · rw [prepareEngines, only.msiEnabled]
    exact located.vectors.2

structure Vectored (card : Card) (configBarIdx : Nat) (xdev : Xdev) : Prop where
  past : PastEngines card (vectorsOf card.mode ++ .regions :: onLists) configBarIdx xdev
  irq : xdev.irq = card.preparedIrq configBarIdx
  mode : xdev.irqMode = card.mode

theorem enableMsiMsix_meets {configBarIdx : Nat} :
    Meets (enableMsiMsix card) (Prepared card configBarIdx)
      (fun _ xdev => card.vectorsGranted = true ∧ Vectored card configBarIdx xdev)
      (fun xdev => card.vectorsGranted = false ∧ PastEngines card (.regions :: onLists) configBarIdx xdev ∧
        xdev.irq.irqs = Registry.empty) := by
  rintro xdev ⟨past, irq, noMsix, noMsi⟩
  have irqs : xdev.irq.irqs = Registry.empty := by
    rw [irq]
    exact preparedIrq_irqs configBarIdx
  unfold enableMsiMsix
  by_cases msix : card.wantsMsix = true
  · have mode : card.mode = .msix := by rw [Card.mode, if_pos msix]
    have granted : card.vectorsGranted = card.pciAllocIrqVectors := by rw [Card.vectorsGranted, mode]
    rw [if_pos msix, granted]
    cases answer : card.pciAllocIrqVectors with
    | true =>
      have booked := @Booked.acquire _ _ .msix past.booked rfl (by decide)
      refine ⟨rfl, ?_, irq, ?_⟩
      · rw [mode]
        exact past.congr booked rfl rfl rfl rfl
      · rw [mode]
        rfl
    | false => exact ⟨rfl, past.congr past.booked rfl rfl rfl rfl, irqs⟩
  · rw [if_neg msix]
    by_cases msi : card.wantsMsi = true
    · have mode : card.mode = .msi := by rw [Card.mode, if_neg msix, if_pos msi]
      have granted : card.vectorsGranted = card.pciEnableMsi := by rw [Card.vectorsGranted, mode]
      rw [if_pos msi, granted]
      cases answer : card.pciEnableMsi with
      | true =>
        have booked := @Booked.acquire _ _ .msi past.booked rfl (by decide)
        refine ⟨rfl, ?_, irq, ?_⟩
        · rw [mode]
          exact past.congr booked rfl rfl rfl rfl
        · rw [mode]
          simp [Xdev.irqMode, acquire, noMsix]
      | false => exact ⟨rfl, past.congr past.booked rfl rfl rfl rfl, irqs⟩
    · have mode : card.mode = .legacy := by rw [Card.mode, if_neg msix, if_neg msi]
      have granted : card.vectorsGranted = true := by rw [Card.vectorsGranted, mode]
      rw [if_neg msi]
      refine ⟨granted, ?_, irq, ?_⟩
      · rw [mode]
        exact past
      · rw [mode]
        simp [Xdev.irqMode, noMsix, noMsi]

end Steps

section Failures

variable {card : Card}

theorem not_reached (early : card.reachesBars = false) : ¬ card.leavesBar ∧ ¬ card.leavesIrqs := by
  constructor
  · rintro ⟨reached, -⟩
    rw [early] at reached
    cases reached
  · rintro ⟨reached, -⟩
    rw [early] at reached
    cases reached

theorem configBar_named {configBarIdx : Nat} (found : card.configBar = some configBarIdx) : ¬ card.misnamedBar := by
  rintro ⟨num, configured, mapped, other⟩
  unfold Card.configBar at found
  rw [configured] at found
  simp [other] at found

theorem empty_lines {xdev : Xdev} (irqs : xdev.irq.irqs = Registry.empty) :
    xdev.irq.irqs.Holds [] ∧ xdev.irq.irqs.misused = false := by
  rw [irqs]
  constructor
  · intro line handler
    simp [Registry.empty]
  · rfl

theorem Started.released {xdev : Xdev} (started : Started card [] xdev) : Released xdev :=
  (released_iff started.booked).mpr ⟨empty_lines started.irqs, started.bars, started.parts⟩

theorem errEnable_outcome {xdev : Xdev} (early : card.reachesBars = false) (started : Started card onLists xdev) :
    Outcome card (errEnable xdev) := by
  have bare : Started card [] (errEnable xdev) := { started with booked := errEnable_booked started.booked }
  exact iff_of_true bare.released (not_reached early)

theorem errRegions_outcome {xdev : Xdev} (early : card.reachesBars = false) (started : Started card onLists xdev) :
    Outcome card (errRegions xdev) := by
  obtain ⟨booked, irq, bar, engine⟩ := errRegions_spec started.booked
  have released : Released (errRegions xdev) := by
    rw [released_iff booked, irq, bar, engine]
    exact ⟨empty_lines started.irqs, started.bars, started.parts⟩
  exact iff_of_true released (not_reached early)

theorem errMap_outcome {xdev : Xdev} (reached : card.reachesBars = true) (unlocated : Unlocated card xdev) :
    Outcome card (errMap xdev) := by
  obtain ⟨booked, irq, bar, engine⟩ := errMap_spec unlocated.booked unlocated.got
  have noIrqs : ¬ card.leavesIrqs := by
    rintro ⟨-, -, -, configBarIdx, found, -⟩
    rw [unlocated.missing] at found
    cases found
  have named : ¬ card.leavesBar ↔ ¬ card.misnamedBar := by simp [Card.leavesBar, reached]
  rw [Outcome, released_iff booked, irq, bar, engine, named]
  constructor
  · rintro ⟨-, none, -⟩
    exact ⟨unlocated.left.mp none, noIrqs⟩
  · rintro ⟨correct, -⟩
    exact ⟨empty_lines unlocated.irqs, unlocated.left.mpr correct, unlocated.parts⟩

theorem errMask_outcome {configBarIdx : Nat} {xdev : Xdev} (found : card.configBar = some configBarIdx)
    (refused : (card.dmaMask64 || card.dmaMask32) = false)
    (located : Located card (.regions :: onLists) configBarIdx xdev) : Outcome card (errMask xdev) := by
  obtain ⟨booked, irq, bars, engine⟩ := errMask_spec located.toPastRegions
  have released : Released (errMask xdev) := by
    rw [released_iff booked, irq, engine]
    exact ⟨empty_lines located.irqs, bars, located.parts⟩
  have noIrqs : ¬ card.leavesIrqs := by
    rintro ⟨-, granted, -⟩
    rw [refused] at granted
    cases granted
  exact iff_of_true released ⟨fun leaves => configBar_named found leaves.2, noIrqs⟩

theorem errEngines_outcome {configBarIdx : Nat} {xdev : Xdev} (found : card.configBar = some configBarIdx)
    (refused : card.vectorsGranted = false) (past : PastEngines card (.regions :: onLists) configBarIdx xdev)
    (irqs : xdev.irq.irqs = Registry.empty) : Outcome card (errEngines card xdev) := by
  obtain ⟨booked, same, bars, parts⟩ := errEngines_spec past
  have released : Released (errEngines card xdev) :=
    (released_iff booked).mpr ⟨empty_lines (same.trans irqs), bars, parts⟩
  have noIrqs : ¬ card.leavesIrqs := by
    rintro ⟨-, -, granted, -⟩
    rw [refused] at granted
    cases granted
  exact iff_of_true released ⟨fun leaves => configBar_named found leaves.2, noIrqs⟩

theorem setupIrqs_run (xdev : Xdev) :
    (setupIrqs card).run xdev =
      match irqSetup (card.irqConfig xdev.irqMode xdev.channelMax) card.refuses xdev.irq with
      | (true, irq) => .ok () { xdev with irq }
      | (false, irq) => .error () { xdev with irq } := rfl

def LinesUp (card : Card) (configBarIdx : Nat) (irq : Device) : Prop :=
  irqSetup (card.irqConfig card.mode (card.engines configBarIdx)) card.refuses (card.preparedIrq configBarIdx) = (true, irq)

/-- What `irq_setup` leaves when it fails, the labels after it do not free. -/
theorem setupIrqs_outcome {configBarIdx : Nat} (reached : card.reachesBars = true)
    (masked : (card.dmaMask64 || card.dmaMask32) = true) (granted : card.vectorsGranted = true)
    (found : card.configBar = some configBarIdx) :
    Meets (setupIrqs card) (Vectored card configBarIdx) (fun _ xdev => LinesUp card configBarIdx xdev.irq)
      (fun xdev => Outcome card (errMsix card xdev)) := by
  intro xdev vectored
  have irqs : xdev.irq.irqs = Registry.empty := by
    rw [vectored.irq]
    exact preparedIrq_irqs configBarIdx
  obtain ⟨holds, clean⟩ := empty_lines irqs
  have config : card.irqConfig xdev.irqMode xdev.channelMax = card.irqConfig card.mode (card.engines configBarIdx) := by
    rw [vectored.mode, vectored.past.probed.channelMax]
  rw [setupIrqs_run, config]
  have lines := @irqSetup_failed (card.irqConfig card.mode (card.engines configBarIdx)) card.refuses xdev.irq holds clean
  cases setup : irqSetup (card.irqConfig card.mode (card.engines configBarIdx)) card.refuses xdev.irq with
  | mk ended irq =>
    cases ended with
    | true =>
      rw [vectored.irq] at setup
      exact setup
    | false =>
      rw [setup] at lines
      have past := vectored.past
      have now := @PastEngines.congr card _ xdev configBarIdx { xdev with irq := irq } _ past past.booked rfl rfl rfl rfl
      obtain ⟨booked, same, bars, parts⟩ := @errMsix_spec card { xdev with irq := irq } configBarIdx card.mode vectored.mode now
      have freed : Released (errMsix card { xdev with irq := irq }) ↔
          irq.irqs.Holds [] ∧ irq.irqs.misused = false := by
        rw [released_iff booked, same]
        exact ⟨fun released => released.1, fun lines => ⟨lines, bars, parts⟩⟩
      have leaves : card.leavesIrqs ↔
          ¬ (card.irqConfig card.mode (card.engines configBarIdx)).grants card.refuses ∧
            (card.irqConfig card.mode (card.engines configBarIdx)).refusedAtOnce card.refuses = false := by
        simp [Card.leavesIrqs, reached, masked, granted, found]
      change Outcome card (errMsix card { xdev with irq := irq })
      rw [Outcome, freed, lines rfl, leaves]
      have named : ¬ card.leavesBar := fun leavesBar => configBar_named found leavesBar.2
      exact ⟨fun kept => ⟨named, kept⟩, fun both => both.2⟩

def IrqSideOpened (card : Card) (xdev : Xdev) : Prop :=
  ∃ configBarIdx, card.configBar = some configBarIdx ∧
    Xdma.xdmaDeviceOpen (card.irqConfig card.mode (card.engines configBarIdx)) card.refuses card.channelIntEnable
      card.userIntEnable card.interruptEnableMask = some xdev.irq

theorem goOnline_opened {configBarIdx : Nat} {xdev : Xdev} (found : card.configBar = some configBarIdx)
    (up : LinesUp card configBarIdx xdev.irq) : IrqSideOpened card (goOnline card xdev) := by
  refine ⟨configBarIdx, found, ?_⟩
  have setup : irqSetup (card.irqConfig card.mode (card.engines configBarIdx)) card.refuses
      ((card.irqConfig card.mode (card.engines configBarIdx)).initEngines (userInterruptsDisable (~~~0)
        (channelInterruptsDisable (~~~0) (Xdma.allocDevInstance card.channelIntEnable card.userIntEnable
          card.interruptEnableMask)))) = (true, xdev.irq) := up
  simp only [Xdma.xdmaDeviceOpen, setup]
  rfl

theorem useBars_outcome {configBarIdx : Nat} (reached : card.reachesBars = true)
    (found : card.configBar = some configBarIdx) :
    Meets
      (do
        unwind (setDmaMask card) errMask
        modify (prepareEngines card)
        unwind (enableMsiMsix card) (errEngines card)
        unwind (setupIrqs card) (errMsix card)
        modify (goOnline card))
      (Located card (.regions :: onLists) configBarIdx) (fun _ => IrqSideOpened card) (Outcome card) := by
  have mask := require_meets (card.dmaMask64 || card.dmaMask32) (Located card (.regions :: onLists) configBarIdx)
  apply Meets.bind _ (Meets.unwind mask fun _ failed => errMask_outcome found failed.1 failed.2)
  intro _
  apply Meets.given
  intro masked
  apply Meets.bind fun _ => Prepared card configBarIdx
  · apply Meets.modify
    intro xdev located
    exact prepareEngines_prepared located
  · intro _
    have vectors := @enableMsiMsix_meets card configBarIdx
    apply Meets.bind _ (Meets.unwind vectors fun _ failed => errEngines_outcome found failed.1 failed.2.1 failed.2.2)
    intro _
    apply Meets.given
    intro granted
    have irqs := setupIrqs_outcome reached masked granted found
    apply Meets.bind _ (Meets.unwind irqs fun _ outcome => outcome)
    intro _
    exact Meets.modify _ fun _ up => goOnline_opened found up

theorem openCard_outcome (allocated : card.allocated = true) :
    Meets (openCard card) (Started card []) (fun _ => IrqSideOpened card) (Outcome card) := by
  unfold openCard
  have added := (@xdevListAdd_meets card).failing fun xdev failed =>
    show Outcome card xdev from
      iff_of_true failed.2.released (not_reached (by simp [Card.reachesBars, failed.1]))
  apply Meets.bind _ added
  intro _
  apply Meets.given
  intro listed
  apply Meets.bind _ (Meets.unwind pciEnableDevice_meets fun xdev failed =>
    errEnable_outcome (by simp [Card.reachesBars, failed.1]) failed.2)
  intro _
  apply Meets.given
  intro enabled
  apply Meets.bind _ (Meets.unwind requestRegions_meets fun xdev failed =>
    errRegions_outcome (by simp [Card.reachesBars, failed.1]) failed.2)
  intro _
  apply Meets.given
  intro requested
  have reached : card.reachesBars = true := by simp [Card.reachesBars, allocated, listed, enabled, requested]
  apply Meets.bind _ (Meets.unwind mapBars_located fun xdev unlocated => errMap_outcome reached unlocated)
  rintro _ xdev ⟨configBarIdx, found, located⟩
  exact useBars_outcome reached found xdev located

theorem xdmaDeviceOpen_irqSide {card : Card} {xdev : Xdev} (opened : xdmaDeviceOpen card = .ok () xdev) :
    IrqSideOpened card xdev := by
  unfold xdmaDeviceOpen at opened
  split at opened
  · next allocated =>
    have outcome := @openCard_outcome card allocated (allocDevInstance card) (allocDevInstance_started card)
    rw [opened] at outcome
    exact outcome
  · cases opened

/-- When opening the card fails everything is released, except for a misnamed BAR and for the interrupt lines that were
    granted before one was refused. -/
theorem xdmaDeviceOpen_releases {card : Card} {e : Unit} {xdev : Xdev} (failed : xdmaDeviceOpen card = .error e xdev) :
    Released xdev ↔ ¬ card.leavesBar ∧ ¬ card.leavesIrqs := by
  unfold xdmaDeviceOpen at failed
  split at failed
  · next allocated =>
    have outcome := @openCard_outcome card allocated (allocDevInstance card) (allocDevInstance_started card)
    rw [failed] at outcome
    exact outcome
  · next missing =>
    cases failed
    exact iff_of_true (allocDevInstance_started card).released (not_reached (by simp [Card.reachesBars, missing]))

/-- The vector of the second channel is refused, and the first channel keeps its line. -/
theorem second_channel_refused : ∃ xdev,
    xdmaDeviceOpen { smallDevice with refuses := fun line => line == 33 } = .error () xdev ∧
      xdev.irq.irqs.owner 32 = some (.channelIrq 0) ∧ ¬ Released xdev := by
  refine ⟨_, rfl, rfl, ?_⟩
  intro released
  have freed := released.lines.1.nothing 32
  exact absurd freed (by decide)

theorem no_dma_mask_releases : ∃ xdev,
    xdmaDeviceOpen { smallDevice with dmaMask64 := false, dmaMask32 := false } = .error () xdev ∧
      (Released xdev ↔
        ¬ Card.leavesBar { smallDevice with dmaMask64 := false, dmaMask32 := false } ∧
          ¬ Card.leavesIrqs { smallDevice with dmaMask64 := false, dmaMask32 := false }) :=
  ⟨_, rfl, xdmaDeviceOpen_releases rfl⟩

end Failures

end CigCard.Xdma.Opening
