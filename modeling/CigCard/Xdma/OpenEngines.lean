import CigCard.Xdma.OpenBooks
import Mathlib.Data.List.TakeWhile

namespace CigCard.Xdma.Opening

open Ledger Unwinding

def Card.probes (card : Card) (configBarIdx : Nat) (dir : Direction) (channel : Nat) : Bool :=
  let identifier := card.identifier configBarIdx dir channel
  engineId identifier == expectedId dir && engineChannelId identifier == BitVec.ofNat 32 channel &&
    (card.allocatedParts dir (streamingBit identifier)).all (card.dmaAlloc dir channel)

theorem require_meets (granted : Bool) (pre : Xdev → Prop) :
    Meets (require granted) pre (fun _ xdev => granted = true ∧ pre xdev) (fun xdev => granted = false ∧ pre xdev) := by
  unfold require
  apply Meets.ite
  · intro yes
    exact Meets.pure _ fun _ holds => ⟨yes, holds⟩
  · intro no
    exact Meets.throw _ fun _ holds => ⟨Bool.eq_false_of_not_eq_true no, holds⟩

structure SettingUp (others : List Resource) (dir : Direction) (channel : Nat) (start xdev : Xdev) : Prop where
  booked : Booked others xdev
  one : OneEngine dir channel start xdev
  magic : (xdev.engine dir channel).magic = true
  offThread : (xdev.engine dir channel).part .cmplthp = false

structure GivenUp (others : List Resource) (dir : Direction) (channel : Nat) (start xdev : Xdev) : Prop where
  booked : Booked others xdev
  one : OneEngine dir channel start xdev
  nothing : (xdev.engine dir channel).part = fun _ => false

structure SetUp (card : Card) (others : List Resource) (dir : Direction) (channel : Nat) (start xdev : Xdev) : Prop where
  booked : Booked others xdev
  one : OneEngine dir channel start xdev
  magic : (xdev.engine dir channel).magic = true
  polled : card.pollMode = false → (xdev.engine dir channel).part .cmplthp = false

section Engine

variable {card : Card} {others : List Resource} {dir : Direction} {channel : Nat} {start : Xdev}

theorem SettingUp.takePart {part : EnginePart} {xdev : Xdev} (setting : SettingUp others dir channel start xdev)
    (missing : (xdev.engine dir channel).part part = false) (away : part ≠ .cmplthp) :
    SettingUp others dir channel start (takePart dir channel part xdev) where
  booked := setting.booked.takePart missing
  one := setting.one.trans (takePart_one part xdev)
  magic := by
    rw [← setting.magic]
    simp [Opening.takePart, setEngine_engine, EngineBook.setPart, acquire]
  offThread := by
    rw [takePart_part, if_neg away.symm]
    exact setting.offThread

theorem dmaAllocCoherent_meets {part : EnginePart} {rest : List EnginePart} (fresh : part ∉ rest)
    (away : part ≠ .cmplthp) :
    Meets (dmaAllocCoherent card dir channel part)
      (fun xdev => SettingUp others dir channel start xdev ∧
        ∀ p ∈ part :: rest, (xdev.engine dir channel).part p = false)
      (fun _ xdev => card.dmaAlloc dir channel part = true ∧ SettingUp others dir channel start xdev ∧
        ∀ p ∈ rest, (xdev.engine dir channel).part p = false)
      (fun xdev => card.dmaAlloc dir channel part = false ∧ SettingUp others dir channel start xdev) := by
  unfold dmaAllocCoherent
  have asked := require_meets (card.dmaAlloc dir channel part) fun xdev =>
    SettingUp others dir channel start xdev ∧ ∀ p ∈ part :: rest, (xdev.engine dir channel).part p = false
  apply Meets.bind _ (asked.failing fun _ holds => ⟨holds.1, holds.2.1⟩)
  intro _
  apply Meets.modify
  rintro xdev ⟨granted, setting, missing⟩
  refine ⟨granted, setting.takePart (missing part List.mem_cons_self) away, ?_⟩
  intro p member
  have other : p ≠ part := fun same => fresh (same ▸ member)
  rw [takePart_part, if_neg other]
  exact missing p (List.mem_cons_of_mem _ member)

theorem allocParts_meets {parts : List EnginePart} (distinct : parts.Nodup) (away : .cmplthp ∉ parts) :
    Meets (parts.forM (dmaAllocCoherent card dir channel))
      (fun xdev => SettingUp others dir channel start xdev ∧ ∀ p ∈ parts, (xdev.engine dir channel).part p = false)
      (fun _ xdev => parts.all (card.dmaAlloc dir channel) = true ∧ SettingUp others dir channel start xdev)
      (fun xdev => parts.all (card.dmaAlloc dir channel) = false ∧ SettingUp others dir channel start xdev) := by
  induction parts with
  | nil => exact Meets.pure _ fun _ holds => ⟨rfl, holds.1⟩
  | cons part rest ih =>
    rw [List.nodup_cons] at distinct
    rw [List.mem_cons, not_or] at away
    have first := @dmaAllocCoherent_meets card others dir channel start part rest distinct.1 (Ne.symm away.1)
    have asked := first.failing fun _ refused =>
      show (part :: rest).all (card.dmaAlloc dir channel) = false ∧ _ from
        ⟨by simp [refused.1], refused.2⟩
    apply Meets.bind _ asked
    intro _
    apply Meets.given
    intro granted
    have others := ih distinct.2 away.2
    apply others.weaken (fun _ holds => holds)
    · rintro _ xdev ⟨all, setting⟩
      exact ⟨by simp [granted, all], setting⟩
    · rintro xdev ⟨notAll, setting⟩
      exact ⟨by simpa [granted] using notAll, setting⟩

theorem allocatedParts_distinct (streaming : Bool) :
    (card.allocatedParts dir streaming).Nodup ∧ .cmplthp ∉ card.allocatedParts dir streaming := by
  unfold Card.allocatedParts
  split
  · split
    · decide
    · decide
  · split
    · decide
    · decide

theorem engineAllocResource_meets (streaming : Bool) :
    Meets (engineAllocResource card dir channel streaming)
      (fun xdev => SettingUp others dir channel start xdev ∧
        ∀ p ∈ card.allocatedParts dir streaming, (xdev.engine dir channel).part p = false)
      (fun _ xdev => (card.allocatedParts dir streaming).all (card.dmaAlloc dir channel) = true ∧
        SettingUp others dir channel start xdev)
      (fun xdev => (card.allocatedParts dir streaming).all (card.dmaAlloc dir channel) = false ∧
        GivenUp others dir channel start xdev) := by
  have distinct := @allocatedParts_distinct card dir streaming
  apply Meets.unwind (allocParts_meets distinct.1 distinct.2)
  rintro xdev ⟨refused, setting⟩
  refine ⟨refused, setting.booked.engineFreeResource, setting.one.trans (engineFreeResource_one xdev), ?_⟩
  funext p
  rw [engineFreeResource_part, setting.offThread, ite_self]

theorem SettingUp.begin {xdev : Xdev} (booked : Booked others xdev) (streaming : Bool) :
    let xdev' := setEngine dir channel (fun book => { book with magic := true, streaming }) xdev
    (xdev.engine dir channel).part .cmplthp = false → SettingUp others dir channel xdev xdev' := by
  intro xdev' offThread
  refine ⟨booked.setEngine rfl, setEngine_one _ xdev, ?_, ?_⟩
  · simp [xdev', setEngine_engine]
  · simpa [xdev', setEngine_engine] using offThread

theorem SettingUp.writeMask {xdev : Xdev} (setting : SettingUp others dir channel start xdev) (mask : BitVec 32) :
    SettingUp others dir channel start (writeInterruptEnableMask dir channel mask xdev) :=
  ⟨setting.booked, setting.one.trans (writeMask_one mask xdev), setting.magic, setting.offThread⟩

theorem SettingUp.finish {xdev : Xdev} (setting : SettingUp others dir channel start xdev) :
    SetUp card others dir channel start
      (if card.pollMode = true then Opening.takePart dir channel .cmplthp xdev else xdev) := by
  split
  · next poll =>
    refine ⟨setting.booked.takePart setting.offThread, setting.one.trans (takePart_one .cmplthp xdev), ?_, ?_⟩
    · rw [← setting.magic]
      simp [Opening.takePart, setEngine_engine, EngineBook.setPart, acquire]
    · intro interrupts
      rw [poll] at interrupts
      cases interrupts
  · exact ⟨setting.booked, setting.one, setting.magic, fun _ => setting.offThread⟩

theorem engineInit_meets (identifier : BitVec 32) :
    Meets (engineInit card dir channel identifier)
      (fun xdev => xdev = start ∧ Booked others xdev ∧ (xdev.engine dir channel).part = fun _ => false)
      (fun _ xdev => (card.allocatedParts dir (streamingBit identifier)).all (card.dmaAlloc dir channel) = true ∧
        SetUp card others dir channel start xdev)
      (fun xdev => (card.allocatedParts dir (streamingBit identifier)).all (card.dmaAlloc dir channel) = false ∧
        GivenUp others dir channel start xdev) := by
  unfold engineInit
  apply Meets.bind fun _ xdev => SettingUp others dir channel start xdev ∧
    ∀ p ∈ card.allocatedParts dir (streamingBit identifier), (xdev.engine dir channel).part p = false
  · apply Meets.modify
    rintro xdev ⟨rfl, booked, nothing⟩
    refine ⟨SettingUp.begin booked _ (by rw [nothing]), ?_⟩
    intro p _
    simp [setEngine_engine, nothing]
  · intro _
    apply Meets.bind _ (engineAllocResource_meets (streamingBit identifier))
    intro _
    apply Meets.bind fun _ xdev =>
      (card.allocatedParts dir (streamingBit identifier)).all (card.dmaAlloc dir channel) = true ∧
        SettingUp others dir channel start xdev
    · apply Meets.modify
      rintro xdev ⟨all, setting⟩
      exact ⟨all, setting.writeMask _⟩
    · rintro _ xdev ⟨all, setting⟩
      have finished := @SettingUp.finish card _ _ _ _ _ setting
      by_cases poll : card.pollMode = true
      · rw [if_pos poll] at finished ⊢
        exact ⟨all, finished⟩
      · rw [if_neg poll] at finished ⊢
        exact ⟨all, finished⟩

theorem probeForEngine_meets {configBarIdx : Nat} (config : start.configBarIdx = some configBarIdx) :
    Meets (probeForEngine card dir channel)
      (fun xdev => xdev = start ∧ Booked others xdev ∧ (xdev.engine dir channel).part = fun _ => false)
      (fun _ xdev => card.probes configBarIdx dir channel = true ∧ SetUp card others dir channel start xdev)
      (fun xdev => card.probes configBarIdx dir channel = false ∧ GivenUp others dir channel start xdev) := by
  rintro xdev ⟨rfl, booked, nothing⟩
  have identified : (xdev.configBarIdx.getD 0) = configBarIdx := by rw [config, Option.getD_some]
  unfold probeForEngine
  rw [EStateM.run_bind, EStateM.run_get]
  dsimp only
  rw [identified]
  have asked := require_meets
    (engineId (card.identifier configBarIdx dir channel) == expectedId dir &&
      engineChannelId (card.identifier configBarIdx dir channel) == BitVec.ofNat 32 channel)
    fun now => now = xdev ∧ Booked others now ∧ (now.engine dir channel).part = fun _ => false
  have known := asked.failing fun now refused =>
    show card.probes configBarIdx dir channel = false ∧ GivenUp others dir channel xdev now by
      obtain ⟨unknown, rfl, nowBooked, nowNothing⟩ := refused
      exact ⟨by simp only [Card.probes, unknown, Bool.false_and], nowBooked, .refl now, nowNothing⟩
  have rest : Meets (engineInit card dir channel (card.identifier configBarIdx dir channel))
      (fun now => (engineId (card.identifier configBarIdx dir channel) == expectedId dir &&
        engineChannelId (card.identifier configBarIdx dir channel) == BitVec.ofNat 32 channel) = true ∧
        now = xdev ∧ Booked others now ∧ (now.engine dir channel).part = fun _ => false)
      (fun _ now => card.probes configBarIdx dir channel = true ∧ SetUp card others dir channel xdev now)
      (fun now => card.probes configBarIdx dir channel = false ∧ GivenUp others dir channel xdev now) := by
    apply Meets.given
    intro matched
    have set := @engineInit_meets card others dir channel xdev (card.identifier configBarIdx dir channel)
    apply set.weaken (fun _ holds => holds)
    · rintro _ now ⟨all, made⟩
      exact ⟨by simp only [Card.probes, matched, all, Bool.and_self], made⟩
    · rintro now ⟨some, given⟩
      exact ⟨by simp only [Card.probes, some, Bool.and_false], given⟩
  exact Meets.bind _ known (fun _ => rest) xdev ⟨rfl, booked, nothing⟩

end Engine

section Probe

variable {card : Card} {others : List Resource} {dir : Direction}

def Card.answering (card : Card) (configBarIdx : Nat) (dir : Direction) (left i : Nat) : Nat :=
  ((List.range' i left).takeWhile (card.probes configBarIdx dir)).length

structure ProbedFrom (card : Card) (others : List Resource) (dir : Direction) (i last : Nat) (start xdev : Xdev) :
    Prop where
  booked : Booked others xdev
  only : EnginesOnly start xdev
  channelMax : xdev.channelMax = fun d => if d = dir then last else start.channelMax d
  untouched : ∀ d ch, ¬ (d = dir ∧ i ≤ ch) → xdev.engine d ch = start.engine d ch
  magic : ∀ ch, i ≤ ch → ch < last → (xdev.engine dir ch).magic = true
  polled : card.pollMode = false → ∀ ch, i ≤ ch → (xdev.engine dir ch).part .cmplthp = false
  nothing : ∀ ch, last ≤ ch → (xdev.engine dir ch).part = fun _ => false

theorem answering_next {configBarIdx left i : Nat} (answers : card.probes configBarIdx dir i = true) :
    card.answering configBarIdx dir (left + 1) i = card.answering configBarIdx dir left (i + 1) + 1 := by
  simp [Card.answering, List.range'_succ, answers]

theorem answering_none {configBarIdx left i : Nat} (silent : card.probes configBarIdx dir i = false) :
    card.answering configBarIdx dir (left + 1) i = 0 := by
  simp [Card.answering, List.range'_succ, silent]

theorem ProbedFrom.before {i last : Nat} {start next xdev : Xdev} (setUp : SetUp card others dir i start next)
    (rest : ProbedFrom card others dir (i + 1) last next xdev) : ProbedFrom card others dir i last start xdev where
  booked := rest.booked
  only := setUp.one.toEnginesOnly.trans rest.only
  channelMax := by rw [rest.channelMax, setUp.one.channelMax]
  untouched d ch away := by
    have later : ¬ (d = dir ∧ i + 1 ≤ ch) := fun both => away ⟨both.1, by omega⟩
    have other : ¬ (d = dir ∧ ch = i) := fun both => away ⟨both.1, by omega⟩
    rw [rest.untouched d ch later, setUp.one.elsewhere d ch other]
  magic ch atLeast below := by
    by_cases here : ch = i
    · subst here
      rw [rest.untouched dir ch (by omega)]
      exact setUp.magic
    · exact rest.magic ch (by omega) below
  polled interrupts ch atLeast := by
    by_cases here : ch = i
    · subst here
      rw [rest.untouched dir ch (by omega)]
      exact setUp.polled interrupts
    · exact rest.polled interrupts ch (by omega)
  nothing := rest.nothing

theorem GivenUp.probed {i : Nat} {start next : Xdev} (given : GivenUp others dir i start next)
    (nothing : ∀ ch, i ≤ ch → (start.engine dir ch).part = fun _ => false) :
    ProbedFrom card others dir i i start
      { next with channelMax := fun d => if d = dir then i else next.channelMax d } := by
  have none : ∀ ch, i ≤ ch → (next.engine dir ch).part = fun _ => false := by
    intro ch atLeast
    by_cases here : ch = i
    · subst here
      exact given.nothing
    · rw [given.one.elsewhere dir ch fun both => here both.2]
      exact nothing ch atLeast
  have counted : (fun d => if d = dir then i else next.channelMax d) = fun d => if d = dir then i else start.channelMax d := by
    rw [given.one.channelMax]
  have only := given.one.toEnginesOnly
  exact
    { booked := given.booked
      only := ⟨only.irqs, only.bar, only.configBarIdx, only.gotRegions, only.regionsInUse, only.msixEnabled, only.msiEnabled⟩
      channelMax := counted
      untouched := fun d ch away => given.one.elsewhere d ch fun both => away ⟨both.1, Nat.le_of_eq both.2.symm⟩
      magic := fun ch atLeast below => absurd below (Nat.not_lt.mpr atLeast)
      polled := fun _ ch atLeast => congrFun (none ch atLeast) .cmplthp
      nothing := none }

theorem probeFrom_probed {configBarIdx : Nat} (left i : Nat) {xdev : Xdev} (booked : Booked others xdev)
    (config : xdev.configBarIdx = some configBarIdx)
    (nothing : ∀ ch, i ≤ ch → (xdev.engine dir ch).part = fun _ => false) :
    ProbedFrom card others dir i (i + card.answering configBarIdx dir left i) xdev (probeFrom card dir left i xdev) := by
  induction left generalizing i xdev with
  | zero =>
    have given : GivenUp others dir i xdev xdev := ⟨booked, .refl xdev, nothing i (Nat.le_refl i)⟩
    exact given.probed nothing
  | succ left ih =>
    have probed := @probeForEngine_meets card others dir i xdev configBarIdx config xdev ⟨rfl, booked, nothing i (Nat.le_refl i)⟩
    unfold probeFrom
    cases ran : (probeForEngine card dir i).run xdev with
    | ok value next =>
      rw [ran] at probed
      obtain ⟨answers, setUp⟩ := probed
      have later : ∀ ch, i + 1 ≤ ch → (next.engine dir ch).part = fun _ => false := by
        intro ch after
        rw [setUp.one.elsewhere dir ch (by omega)]
        exact nothing ch (by omega)
      have rest := ih (i + 1) setUp.booked (setUp.one.configBarIdx.trans config) later
      have last : i + card.answering configBarIdx dir (left + 1) i = i + 1 + card.answering configBarIdx dir left (i + 1) := by
        rw [answering_next answers]
        omega
      rw [last]
      exact rest.before setUp
    | error e next =>
      rw [ran] at probed
      obtain ⟨silent, given⟩ := probed
      rw [answering_none silent, Nat.add_zero]
      exact given.probed nothing

def Card.engines (card : Card) (configBarIdx : Nat) (dir : Direction) : Nat :=
  card.answering configBarIdx dir (boundedMax xdmaChannelNumMax (card.channelMax dir)) 0

structure Probed (card : Card) (others : List Resource) (configBarIdx : Nat) (start xdev : Xdev) : Prop where
  booked : Booked others xdev
  only : EnginesOnly start xdev
  channelMax : xdev.channelMax = card.engines configBarIdx
  magic : ∀ dir, ∀ ch < xdev.channelMax dir, (xdev.engine dir ch).magic = true
  polled : card.pollMode = false → ∀ dir ch, (xdev.engine dir ch).part .cmplthp = false
  nothing : ∀ dir ch, xdev.channelMax dir ≤ ch → (xdev.engine dir ch).part = fun _ => false

theorem probeFrom_all {configBarIdx : Nat} {xdev : Xdev} (booked : Booked others xdev)
    (config : xdev.configBarIdx = some configBarIdx)
    (left : xdev.channelMax dir = boundedMax xdmaChannelNumMax (card.channelMax dir))
    (nothing : ∀ ch, (xdev.engine dir ch).part = fun _ => false) :
    ProbedFrom card others dir 0 (card.engines configBarIdx dir) xdev (probeFrom card dir (xdev.channelMax dir) 0 xdev) := by
  have probed := @probeFrom_probed card others dir configBarIdx (xdev.channelMax dir) 0 xdev booked config
    fun ch _ => nothing ch
  rw [Nat.zero_add] at probed
  rwa [Card.engines, ← left]

/-- The second loop leaves the engines of the first alone. -/
theorem ProbedFrom.both {configBarIdx : Nat} {xdev first last : Xdev}
    (h2c : ProbedFrom card others .toDevice 0 (card.engines configBarIdx .toDevice) xdev first)
    (c2h : ProbedFrom card others .fromDevice 0 (card.engines configBarIdx .fromDevice) first last) :
    Probed card others configBarIdx xdev last := by
  have counts : last.channelMax = card.engines configBarIdx := by
    rw [c2h.channelMax, h2c.channelMax]
    funext dir
    cases dir with
    | toDevice => rfl
    | fromDevice => rfl
  have firstStays : ∀ ch, last.engine .toDevice ch = first.engine .toDevice ch :=
    fun ch => c2h.untouched .toDevice ch (by simp)
  refine ⟨c2h.booked, h2c.only.trans c2h.only, counts, ?_, ?_, ?_⟩
  · intro dir ch below
    rw [counts] at below
    cases dir with
    | toDevice =>
      rw [firstStays]
      exact h2c.magic ch (Nat.zero_le ch) below
    | fromDevice => exact c2h.magic ch (Nat.zero_le ch) below
  · intro interrupts dir ch
    cases dir with
    | toDevice =>
      rw [firstStays]
      exact h2c.polled interrupts ch (Nat.zero_le ch)
    | fromDevice => exact c2h.polled interrupts ch (Nat.zero_le ch)
  · intro dir ch beyond
    rw [counts] at beyond
    cases dir with
    | toDevice =>
      rw [firstStays]
      exact h2c.nothing ch beyond
    | fromDevice => exact c2h.nothing ch beyond

theorem probeEngines_probed {configBarIdx : Nat} {xdev : Xdev} (booked : Booked others xdev)
    (config : xdev.configBarIdx = some configBarIdx)
    (channelMax : xdev.channelMax = fun dir => boundedMax xdmaChannelNumMax (card.channelMax dir))
    (nothing : ∀ dir ch, (xdev.engine dir ch).part = fun _ => false) :
    Probed card others configBarIdx xdev (probeEngines card xdev) := by
  have h2c := @probeFrom_all card others .toDevice configBarIdx xdev booked config (congrFun channelMax .toDevice)
    (nothing .toDevice)
  have left : (probeFrom card .toDevice (xdev.channelMax .toDevice) 0 xdev).channelMax .fromDevice =
      boundedMax xdmaChannelNumMax (card.channelMax .fromDevice) := by
    rw [h2c.channelMax, channelMax]
    rfl
  have noC2h : ∀ ch, ((probeFrom card .toDevice (xdev.channelMax .toDevice) 0 xdev).engine .fromDevice ch).part =
      fun _ => false := by
    intro ch
    rw [h2c.untouched .fromDevice ch (by simp)]
    exact nothing .fromDevice ch
  exact h2c.both (probeFrom_all h2c.booked (h2c.only.configBarIdx.trans config) left noC2h)

theorem removeEngines_spec {configBarIdx : Nat} {start xdev : Xdev} (probed : Probed card others configBarIdx start xdev) :
    Booked others (removeEngines card xdev) ∧ EnginesOnly xdev (removeEngines card xdev) ∧
      ∀ dir ch, ((removeEngines card xdev).engine dir ch).part = fun _ => false := by
  unfold removeEngines
  dsimp only
  obtain ⟨firstBooked, firstOnly, firstMax, firstEngines⟩ := removeEngines_upto card (xdev.channelMax .toDevice)
    probed.booked (probed.magic .toDevice) fun interrupts ch => probed.polled interrupts .toDevice ch
  generalize (List.range (xdev.channelMax .toDevice)).foldl (removeEngine card .toDevice) xdev = first at *
  have c2hStay : ∀ ch, first.engine .fromDevice ch = xdev.engine .fromDevice ch := by
    intro ch
    rw [firstEngines, if_neg (by simp)]
  rw [firstMax]
  have lastSpec := @removeEngines_upto .fromDevice others first card (xdev.channelMax .fromDevice) firstBooked
    (fun ch below => by
      rw [c2hStay]
      exact probed.magic .fromDevice ch below)
    fun interrupts ch => by
      rw [c2hStay]
      exact probed.polled interrupts .fromDevice ch
  obtain ⟨lastBooked, lastOnly, -, lastEngines⟩ := lastSpec
  refine ⟨lastBooked, firstOnly.trans lastOnly, ?_⟩
  intro dir ch
  rw [lastEngines]
  by_cases below : ch < xdev.channelMax dir
  · cases dir with
    | toDevice =>
      rw [if_neg (by simp), firstEngines, if_pos ⟨rfl, below⟩]
      rfl
    | fromDevice =>
      rw [if_pos ⟨rfl, below⟩]
      rfl
  · have beyond := probed.nothing dir ch (Nat.not_lt.mp below)
    cases dir with
    | toDevice => rw [if_neg (by simp), firstEngines, if_neg (fun both => below both.2), beyond]
    | fromDevice => rw [if_neg (fun both => below both.2), c2hStay, beyond]

end Probe

section Registers

variable {card : Card} {dir : Direction} {channel : Nat} {start : Xdev}

def SameIrq (start xdev : Xdev) : Prop := xdev.irq = start.irq ∧ xdev.channelMax = start.channelMax

theorem dropPart_irq (part : EnginePart) {xdev : Xdev} (same : SameIrq start xdev) :
    SameIrq start (dropPart dir channel part xdev) := by
  unfold dropPart
  split
  · exact same
  · exact same

theorem require_keeps (granted : Bool) (invariant : Xdev → Prop) : Keeps invariant (require granted) := by
  unfold require
  apply Meets.ite
  · intro _
    exact Keeps.pure _
  · intro _
    exact Keeps.throw _

theorem engineAllocResource_irq (streaming : Bool) :
    Keeps (SameIrq start) (engineAllocResource card dir channel streaming) := by
  unfold engineAllocResource
  apply Keeps.unwind
  · apply Keeps.forM
    intro part _
    unfold dmaAllocCoherent
    apply Keeps.bind (require_keeps _ _)
    intro _
    exact Keeps.modify fun _ same => same
  · intro xdev same
    exact dropPart_irq _ (dropPart_irq _ (dropPart_irq _ same))

def Enabled (card : Card) (dir : Direction) (channel : Nat) (start xdev : Xdev) : Prop :=
  xdev.irq = (writeInterruptEnableMask dir channel (engineInterruptEnable card.pollMode) start).irq ∧
    xdev.channelMax = start.channelMax

theorem probeForEngine_irq :
    Meets (probeForEngine card dir channel) (SameIrq start) (fun _ => Enabled card dir channel start) (SameIrq start) := by
  unfold probeForEngine
  apply Meets.bind fun _ => SameIrq start
  · exact Meets.get fun _ same => same
  · intro now
    apply Meets.bind _ (require_keeps _ _)
    intro _
    unfold engineInit
    apply Meets.bind fun _ => SameIrq start
    · exact Meets.modify _ fun _ same => same
    · intro _
      apply Meets.bind _ (engineAllocResource_irq _)
      intro _
      apply Meets.bind fun _ => Enabled card dir channel start
      · apply Meets.modify
        rintro xdev ⟨irq, channelMax⟩
        have number : xdev.engineNumber dir channel = start.engineNumber dir channel := by
          cases dir with
          | toDevice => rfl
          | fromDevice => simp only [Xdev.engineNumber, channelMax]
        exact ⟨by simp only [writeInterruptEnableMask, irq, number], channelMax⟩
      · intro _
        apply Meets.ite
        · intro _
          exact Meets.modify _ fun _ enabled => enabled
        · intro _
          exact Meets.pure _ fun _ enabled => enabled

def masked (pollMode : Bool) (first last : Nat) (irq : Device) : Device :=
  { irq with
    interruptEnableMask := fun k =>
      if first ≤ k ∧ k < last then engineInterruptEnable pollMode else irq.interruptEnableMask k }

theorem engineNumber_eq (xdev : Xdev) (dir : Direction) (channel : Nat) :
    xdev.engineNumber dir channel = xdev.engineNumber dir 0 + channel := by
  cases dir with
  | toDevice => exact (Nat.zero_add channel).symm
  | fromDevice => rfl

theorem masked_none (pollMode : Bool) (n : Nat) (irq : Device) : masked pollMode n n irq = irq := by
  have none : ∀ k, ¬ (n ≤ k ∧ k < n) := by omega
  simp only [masked, none, if_false]

theorem masked_first (pollMode : Bool) {first last : Nat} (below : first < last) (irq : Device) :
    masked pollMode (first + 1) last
      { irq with
        interruptEnableMask := fun k => if k = first then engineInterruptEnable pollMode else irq.interruptEnableMask k } =
      masked pollMode first last irq := by
  have same : ∀ k, (if first + 1 ≤ k ∧ k < last then engineInterruptEnable pollMode
        else if k = first then engineInterruptEnable pollMode else irq.interruptEnableMask k) =
      if first ≤ k ∧ k < last then engineInterruptEnable pollMode else irq.interruptEnableMask k := by
    intro k
    by_cases here : k = first
    · subst k
      simp [below]
    · have later : first + 1 ≤ k ∧ k < last ↔ first ≤ k ∧ k < last := by omega
      simp only [later, here, if_false]
  simp only [masked, same]

theorem masked_join (pollMode : Bool) (first more : Nat) (irq : Device) :
    masked pollMode first (first + more) (masked pollMode 0 first irq) = masked pollMode 0 (first + more) irq := by
  have same : ∀ k, (if first ≤ k ∧ k < first + more then engineInterruptEnable pollMode
        else if 0 ≤ k ∧ k < first then engineInterruptEnable pollMode else irq.interruptEnableMask k) =
      if 0 ≤ k ∧ k < first + more then engineInterruptEnable pollMode else irq.interruptEnableMask k := by
    intro k
    by_cases before : k < first
    · have inside : 0 ≤ k ∧ k < first + more := by omega
      simp [before, inside]
    · have later : first ≤ k ∧ k < first + more ↔ 0 ≤ k ∧ k < first + more := by omega
      simp [before, later]
  simp only [masked, same]

structure MaskedFrom (card : Card) (dir : Direction) (i : Nat) (start xdev : Xdev) : Prop where
  irq : xdev.irq =
    masked card.pollMode (start.engineNumber dir i) (start.engineNumber dir (xdev.channelMax dir)) start.irq
  atLeast : i ≤ xdev.channelMax dir
  others : ∀ d, d ≠ dir → xdev.channelMax d = start.channelMax d

theorem MaskedFrom.before {i : Nat} {next xdev : Xdev} (enabled : Enabled card dir i start next)
    (rest : MaskedFrom card dir (i + 1) next xdev) : MaskedFrom card dir i start xdev := by
  obtain ⟨irq, channelMax⟩ := enabled
  have numbers : ∀ ch, next.engineNumber dir ch = start.engineNumber dir ch := by
    intro ch
    cases dir with
    | toDevice => rfl
    | fromDevice => simp only [Xdev.engineNumber, channelMax]
  have last := engineNumber_eq start dir (xdev.channelMax dir)
  have here := engineNumber_eq start dir i
  have following := engineNumber_eq start dir (i + 1)
  have atLeast := rest.atLeast
  have below : start.engineNumber dir i < start.engineNumber dir (xdev.channelMax dir) := by omega
  have successor : start.engineNumber dir (i + 1) = start.engineNumber dir i + 1 := by omega
  refine ⟨?_, by omega, ?_⟩
  · rw [rest.irq, numbers, numbers, successor, ← masked_first card.pollMode below start.irq, irq]
    rfl
  · intro d other
    rw [rest.others d other, channelMax]

theorem MaskedFrom.ended {i : Nat} {next : Xdev} (same : SameIrq start next) :
    MaskedFrom card dir i start { next with channelMax := fun d => if d = dir then i else next.channelMax d } := by
  refine ⟨?_, ?_, ?_⟩
  · simp only [if_true, masked_none]
    exact same.1
  · simp
  · intro d other
    simp only [other, if_false, same.2]

theorem probeFrom_masked (left i : Nat) (xdev : Xdev) :
    MaskedFrom card dir i xdev (probeFrom card dir left i xdev) := by
  induction left generalizing i xdev with
  | zero => exact .ended ⟨rfl, rfl⟩
  | succ left ih =>
    have probed := @probeForEngine_irq card dir i xdev xdev ⟨rfl, rfl⟩
    unfold probeFrom
    cases ran : (probeForEngine card dir i).run xdev with
    | ok value next =>
      rw [ran] at probed
      exact (ih (i + 1) next).before probed
    | error e next =>
      rw [ran] at probed
      exact .ended probed

/-- The engines that were found have their masks, the H2C ones first. -/
theorem probeEngines_irq (xdev : Xdev) :
    (probeEngines card xdev).irq =
      masked card.pollMode 0
        ((probeEngines card xdev).channelMax .toDevice + (probeEngines card xdev).channelMax .fromDevice) xdev.irq := by
  unfold probeEngines
  dsimp only
  have h2c := @probeFrom_masked card .toDevice (xdev.channelMax .toDevice) 0 xdev
  generalize probeFrom card .toDevice (xdev.channelMax .toDevice) 0 xdev = first at h2c
  have c2h := @probeFrom_masked card .fromDevice (first.channelMax .fromDevice) 0 first
  generalize probeFrom card .fromDevice (first.channelMax .fromDevice) 0 first = last at c2h
  rw [c2h.irq, h2c.irq, c2h.others .toDevice (by decide)]
  exact masked_join card.pollMode (first.channelMax .toDevice) (last.channelMax .fromDevice) xdev.irq

end Registers

end CigCard.Xdma.Opening
