import CigCard.Xdma.DeviceOpen

namespace CigCard.Xdma.Opening

open Ledger Unwinding

def Resource.fixed : Resource → Bool
  | .bar _ | .engine _ _ _ => false
  | _ => true

def Xdev.accounts (others : List Resource) (xdev : Xdev) : Resource → Prop
  | .bar idx => (xdev.bar idx).isSome = true
  | .engine dir channel part => (xdev.engine dir channel).part part = true
  | resource => resource ∈ others

def Booked (others : List Resource) (xdev : Xdev) : Prop := xdev.held.Agrees (xdev.accounts others)

section Operations

variable {others : List Resource} {xdev : Xdev}

theorem accounts_fixed {resource : Resource} (fixed : resource.fixed = true) :
    xdev.accounts others resource ↔ resource ∈ others := by
  cases resource with
  | bar idx => cases fixed
  | engine dir channel part => cases fixed
  | xdevList | rcuList | regions | msix | msi => exact Iff.rfl

theorem Booked.acquire {resource : Resource} (booked : Booked others xdev) (fixed : resource.fixed = true)
    (away : resource ∉ others) : Booked (resource :: others) (acquire resource xdev) := by
  have free : ¬ xdev.accounts others resource := mt (accounts_fixed fixed).mp away
  apply (Registry.Agrees.acquire booked free).congr
  intro key
  by_cases here : key = resource
  · subst key
    simp [accounts_fixed fixed]
  · cases key with
    | bar idx => simp [here, Xdev.accounts, Opening.acquire]
    | engine dir channel part => simp [here, Xdev.accounts, Opening.acquire]
    | xdevList | rcuList | regions | msix | msi => simp [Xdev.accounts]

theorem Booked.release {resource : Resource} (booked : Booked (resource :: others) xdev) (fixed : resource.fixed = true)
    (away : resource ∉ others) : Booked others (release resource xdev) := by
  have here : xdev.accounts (resource :: others) resource := (accounts_fixed fixed).mpr List.mem_cons_self
  apply (Registry.Agrees.release booked here).congr
  intro key
  by_cases same : key = resource
  · subst key
    simp [accounts_fixed fixed, away]
  · cases key with
    | bar idx => simp [same, Xdev.accounts, Opening.release]
    | engine dir channel part => simp [same, Xdev.accounts, Opening.release]
    | xdevList | rcuList | regions | msix | msi => simp [same, Xdev.accounts]

theorem accounts_setBar {idx : Nat} (mapping : Option Mapping) (key : Resource) :
    (setBar idx mapping xdev).accounts others key ↔
      if key = .bar idx then mapping.isSome = true else xdev.accounts others key := by
  cases key with
  | bar i =>
    by_cases here : i = idx
    · simp [Xdev.accounts, setBar, here]
    · simp [Xdev.accounts, setBar, here]
  | engine _ _ _ | xdevList | rcuList | regions | msix | msi => simp [Xdev.accounts, setBar]

theorem Booked.mapBar {idx : Nat} (booked : Booked others xdev) (card : Card) (unmapped : xdev.bar idx = none) :
    Booked others (mapBar card idx xdev) := by
  have free : ¬ xdev.accounts others (.bar idx) := by simp [Xdev.accounts, unmapped]
  unfold Opening.mapBar
  cases (card.mapSingleBar idx).2 with
  | none =>
    apply Registry.Agrees.congr booked
    intro key
    rw [accounts_setBar]
    by_cases here : key = .bar idx
    · simp [here, free]
    · simp [here]
  | some mapping =>
    apply (Registry.Agrees.acquire booked free).congr
    intro key
    change _ ↔ (setBar idx (some mapping) xdev).accounts others key
    rw [accounts_setBar]
    by_cases here : key = .bar idx
    · simp [here]
    · simp [here]

theorem Booked.unmapBar (booked : Booked others xdev) (idx : Nat) : Booked others (unmapBar xdev idx) := by
  unfold Opening.unmapBar
  split
  · next mapped =>
    have here : xdev.accounts others (.bar idx) := mapped
    apply (Registry.Agrees.release booked here).congr
    intro key
    change _ ↔ (setBar idx none xdev).accounts others key
    rw [accounts_setBar]
    by_cases same : key = .bar idx
    · simp [same]
    · simp [same]
  · exact booked

variable {dir : Direction} {channel : Nat} {part : EnginePart}

theorem setEngine_engine (change : EngineBook → EngineBook) (d : Direction) (ch : Nat) :
    (setEngine dir channel change xdev).engine d ch =
      if d = dir ∧ ch = channel then change (xdev.engine dir channel) else xdev.engine d ch := rfl

theorem setPart_part (book : EngineBook) (here : Bool) (p : EnginePart) :
    (book.setPart part here).part p = if p = part then here else book.part p := rfl

theorem accounts_setPart (here : Bool) (key : Resource) :
    (setEngine dir channel (·.setPart part here) xdev).accounts others key ↔
      if key = .engine dir channel part then here = true else xdev.accounts others key := by
  cases key with
  | engine d ch p =>
    by_cases there : d = dir ∧ ch = channel
    · obtain ⟨rfl, rfl⟩ := there
      by_cases same : p = part
      · simp [Xdev.accounts, setEngine_engine, setPart_part, same]
      · simp [Xdev.accounts, setEngine_engine, setPart_part, same]
    · have other : ¬ (d = dir ∧ ch = channel ∧ p = part) := fun same => there ⟨same.1, same.2.1⟩
      simp [Xdev.accounts, setEngine_engine, there, other]
  | bar _ | xdevList | rcuList | regions | msix | msi => simp [Xdev.accounts, setEngine]

theorem Booked.takePart (booked : Booked others xdev) (missing : (xdev.engine dir channel).part part = false) :
    Booked others (takePart dir channel part xdev) := by
  have free : ¬ xdev.accounts others (.engine dir channel part) := by simp [Xdev.accounts, missing]
  apply (Registry.Agrees.acquire booked free).congr
  intro key
  change _ ↔ (setEngine dir channel (·.setPart part true) xdev).accounts others key
  rw [accounts_setPart]
  by_cases here : key = .engine dir channel part
  · simp [here]
  · simp [here]

theorem Booked.dropPart (booked : Booked others xdev) (dir : Direction) (channel : Nat) (part : EnginePart) :
    Booked others (dropPart dir channel part xdev) := by
  unfold Opening.dropPart
  split
  · next present =>
    have here : xdev.accounts others (.engine dir channel part) := present
    apply (Registry.Agrees.release booked here).congr
    intro key
    change _ ↔ (setEngine dir channel (·.setPart part false) xdev).accounts others key
    rw [accounts_setPart]
    by_cases same : key = .engine dir channel part
    · simp [same]
    · simp [same]
  · exact booked

end Operations

section Bars

variable {others : List Resource} {xdev : Xdev}

theorem mapBar_eq (card : Card) (idx : Nat) (xdev : Xdev) :
    mapBar card idx xdev =
      { xdev with
        bar := fun i => if i = idx then (card.mapSingleBar idx).2 else xdev.bar i
        held := (mapBar card idx xdev).held } := by
  unfold mapBar
  cases (card.mapSingleBar idx).2 with
  | none => rfl
  | some mapping => rfl

theorem unmapBar_eq (xdev : Xdev) (idx : Nat) :
    unmapBar xdev idx =
      { xdev with bar := fun i => if i = idx then none else xdev.bar i, held := (unmapBar xdev idx).held } := by
  unfold unmapBar
  split
  · rfl
  · next unmapped =>
    have same : (fun i => if i = idx then none else xdev.bar i) = xdev.bar := by
      funext i
      by_cases here : i = idx
      · subst i
        rw [if_pos rfl]
        exact (Option.not_isSome_iff_eq_none.mp unmapped).symm
      · simp [here]
    rw [same]

theorem unmapBars_upto (n : Nat) (booked : Booked others xdev) : ∃ held,
    (List.range n).foldl unmapBar xdev =
      { xdev with bar := fun i => if i < n then none else xdev.bar i, held } ∧
    Booked others ((List.range n).foldl unmapBar xdev) := by
  induction n with
  | zero => exact ⟨xdev.held, rfl, booked⟩
  | succ n ih =>
    obtain ⟨held, unmapped, stillBooked⟩ := ih
    rw [List.range_succ, List.foldl_append, List.foldl_cons, List.foldl_nil]
    refine ⟨(unmapBar ((List.range n).foldl unmapBar xdev) n).held, ?_, stillBooked.unmapBar n⟩
    rw [unmapBar_eq, unmapped]
    dsimp only
    have bars : (fun i => if i = n then none else if i < n then none else xdev.bar i) =
        fun i => if i < n + 1 then none else xdev.bar i := by
      funext i
      by_cases last : i = n
      · simp [last]
      · by_cases before : i < n
        · simp [before, Nat.lt_succ_of_lt before]
        · have after : ¬ i < n + 1 := by omega
          simp [last, before, after]
    rw [bars]

end Bars

structure EnginesOnly (before after : Xdev) : Prop where
  irqs : after.irq.irqs = before.irq.irqs
  bar : after.bar = before.bar
  configBarIdx : after.configBarIdx = before.configBarIdx
  gotRegions : after.gotRegions = before.gotRegions
  regionsInUse : after.regionsInUse = before.regionsInUse
  msixEnabled : after.msixEnabled = before.msixEnabled
  msiEnabled : after.msiEnabled = before.msiEnabled

theorem EnginesOnly.refl (xdev : Xdev) : EnginesOnly xdev xdev := ⟨rfl, rfl, rfl, rfl, rfl, rfl, rfl⟩

theorem EnginesOnly.trans {first second third : Xdev} (one : EnginesOnly first second)
    (two : EnginesOnly second third) : EnginesOnly first third where
  irqs := two.irqs.trans one.irqs
  bar := two.bar.trans one.bar
  configBarIdx := two.configBarIdx.trans one.configBarIdx
  gotRegions := two.gotRegions.trans one.gotRegions
  regionsInUse := two.regionsInUse.trans one.regionsInUse
  msixEnabled := two.msixEnabled.trans one.msixEnabled
  msiEnabled := two.msiEnabled.trans one.msiEnabled

structure OneEngine (dir : Direction) (channel : Nat) (before after : Xdev) : Prop extends EnginesOnly before after where
  channelMax : after.channelMax = before.channelMax
  elsewhere : ∀ d ch, ¬ (d = dir ∧ ch = channel) → after.engine d ch = before.engine d ch

section Engines

variable {dir : Direction} {channel : Nat} {others : List Resource} {xdev : Xdev}

theorem OneEngine.refl (xdev : Xdev) : OneEngine dir channel xdev xdev := ⟨.refl xdev, rfl, fun _ _ _ => rfl⟩

theorem OneEngine.trans {first second third : Xdev} (one : OneEngine dir channel first second)
    (two : OneEngine dir channel second third) : OneEngine dir channel first third where
  toEnginesOnly := one.toEnginesOnly.trans two.toEnginesOnly
  channelMax := two.channelMax.trans one.channelMax
  elsewhere d ch away := (two.elsewhere d ch away).trans (one.elsewhere d ch away)

theorem setEngine_one (change : EngineBook → EngineBook) (xdev : Xdev) :
    OneEngine dir channel xdev (setEngine dir channel change xdev) :=
  ⟨⟨rfl, rfl, rfl, rfl, rfl, rfl, rfl⟩, rfl, fun _ _ away => if_neg away⟩

theorem takePart_one (part : EnginePart) (xdev : Xdev) :
    OneEngine dir channel xdev (takePart dir channel part xdev) :=
  ⟨⟨rfl, rfl, rfl, rfl, rfl, rfl, rfl⟩, rfl, fun _ _ away => if_neg away⟩

theorem dropPart_one (part : EnginePart) (xdev : Xdev) :
    OneEngine dir channel xdev (dropPart dir channel part xdev) := by
  unfold dropPart
  split
  · exact ⟨⟨rfl, rfl, rfl, rfl, rfl, rfl, rfl⟩, rfl, fun _ _ away => if_neg away⟩
  · exact .refl xdev

theorem writeMask_one (mask : BitVec 32) (xdev : Xdev) :
    OneEngine dir channel xdev (writeInterruptEnableMask dir channel mask xdev) :=
  ⟨⟨rfl, rfl, rfl, rfl, rfl, rfl, rfl⟩, rfl, fun _ _ _ => rfl⟩

theorem dropPart_part (part p : EnginePart) (xdev : Xdev) :
    ((dropPart dir channel part xdev).engine dir channel).part p =
      if p = part then false else (xdev.engine dir channel).part p := by
  unfold dropPart
  split
  · simp [setEngine_engine, setPart_part, release]
  · next missing =>
    by_cases here : p = part
    · simpa [here] using missing
    · simp [here]

theorem takePart_part (part p : EnginePart) (xdev : Xdev) :
    ((takePart dir channel part xdev).engine dir channel).part p =
      if p = part then true else (xdev.engine dir channel).part p := by
  simp [takePart, setEngine_engine, setPart_part, acquire]

theorem Booked.setEngine (booked : Booked others xdev) {change : EngineBook → EngineBook}
    (same : (change (xdev.engine dir channel)).part = (xdev.engine dir channel).part) :
    Booked others (setEngine dir channel change xdev) := by
  apply Registry.Agrees.congr booked
  intro key
  cases key with
  | engine d ch p =>
    by_cases there : d = dir ∧ ch = channel
    · obtain ⟨rfl, rfl⟩ := there
      simp [Xdev.accounts, setEngine_engine, same]
    · simp [Xdev.accounts, setEngine_engine, there]
  | bar _ | xdevList | rcuList | regions | msix | msi => exact Iff.rfl

theorem engineFreeResource_one (xdev : Xdev) : OneEngine dir channel xdev (engineFreeResource dir channel xdev) :=
  ((dropPart_one .pollModeAddrVirt xdev).trans (dropPart_one .desc _)).trans (dropPart_one .cyclicResult _)

theorem Booked.engineFreeResource (booked : Booked others xdev) :
    Booked others (engineFreeResource dir channel xdev) :=
  ((booked.dropPart dir channel .pollModeAddrVirt).dropPart dir channel .desc).dropPart dir channel .cyclicResult

/-- What is left is the place on a polling thread. -/
theorem engineFreeResource_part (p : EnginePart) (xdev : Xdev) :
    ((engineFreeResource dir channel xdev).engine dir channel).part p =
      if p = .cmplthp then (xdev.engine dir channel).part .cmplthp else false := by
  unfold engineFreeResource
  simp only [dropPart_part]
  cases p with
  | desc | pollModeAddrVirt | cyclicResult | cmplthp => simp

theorem engineDestroy_spec (card : Card) (booked : Booked others xdev)
    (polled : card.pollMode = false → (xdev.engine dir channel).part .cmplthp = false) :
    Booked others (engineDestroy card dir channel xdev) ∧ OneEngine dir channel xdev (engineDestroy card dir channel xdev) ∧
      (engineDestroy card dir channel xdev).engine dir channel = .zeroed := by
  unfold engineDestroy
  dsimp only
  have masked : Booked others (writeInterruptEnableMask dir channel 0 xdev) := booked
  have maskedOne : OneEngine dir channel xdev (writeInterruptEnableMask dir channel 0 xdev) := writeMask_one 0 xdev
  have off : ∃ idle, Booked others idle ∧ OneEngine dir channel xdev idle ∧
      (idle.engine dir channel).part .cmplthp = false ∧
      (if card.pollMode = true then dropPart dir channel .cmplthp (writeInterruptEnableMask dir channel 0 xdev)
        else writeInterruptEnableMask dir channel 0 xdev) = idle := by
    split
    · refine ⟨_, masked.dropPart dir channel .cmplthp, maskedOne.trans (dropPart_one .cmplthp _), ?_, rfl⟩
      rw [dropPart_part, if_pos rfl]
    · next interrupts => exact ⟨_, masked, maskedOne, polled (by simpa using interrupts), rfl⟩
  obtain ⟨idle, idleBooked, idleOne, idlePart, same⟩ := off
  rw [same]
  have freed : Booked others (engineFreeResource dir channel idle) := idleBooked.engineFreeResource
  have none : (EngineBook.zeroed).part = ((engineFreeResource dir channel idle).engine dir channel).part := by
    funext p
    rw [engineFreeResource_part, idlePart, ite_self]
    rfl
  refine ⟨freed.setEngine none, (idleOne.trans (engineFreeResource_one idle)).trans (setEngine_one _ _), ?_⟩
  rw [setEngine_engine, if_pos ⟨rfl, rfl⟩]

theorem removeEngines_upto (card : Card) (n : Nat) (booked : Booked others xdev)
    (magic : ∀ channel < n, (xdev.engine dir channel).magic = true)
    (polled : card.pollMode = false → ∀ channel, (xdev.engine dir channel).part .cmplthp = false) :
    Booked others ((List.range n).foldl (removeEngine card dir) xdev) ∧
      EnginesOnly xdev ((List.range n).foldl (removeEngine card dir) xdev) ∧
      ((List.range n).foldl (removeEngine card dir) xdev).channelMax = xdev.channelMax ∧
      ∀ d ch, ((List.range n).foldl (removeEngine card dir) xdev).engine d ch =
        if d = dir ∧ ch < n then .zeroed else xdev.engine d ch := by
  induction n with
  | zero => exact ⟨booked, .refl xdev, rfl, fun d ch => by simp⟩
  | succ n ih =>
    obtain ⟨frontBooked, only, channels, engines⟩ := ih fun channel below => magic channel (Nat.lt_succ_of_lt below)
    rw [List.range_succ, List.foldl_append, List.foldl_cons, List.foldl_nil]
    have here : ((List.range n).foldl (removeEngine card dir) xdev).engine dir n = xdev.engine dir n := by
      rw [engines, if_neg (by simp)]
    have there : (((List.range n).foldl (removeEngine card dir) xdev).engine dir n).magic = true := by
      rw [here]
      exact magic n (Nat.lt_succ_self n)
    have lastPolled : card.pollMode = false →
        (((List.range n).foldl (removeEngine card dir) xdev).engine dir n).part .cmplthp = false := by
      intro interrupts
      rw [here]
      exact polled interrupts n
    obtain ⟨lastBooked, one, gone⟩ := engineDestroy_spec card frontBooked lastPolled
    rw [removeEngine, if_pos there]
    refine ⟨lastBooked, only.trans one.toEnginesOnly, one.channelMax.trans channels, ?_⟩
    intro d ch
    by_cases last : d = dir ∧ ch = n
    · obtain ⟨rfl, rfl⟩ := last
      simp [gone]
    · have before : (d = dir ∧ ch < n + 1) ↔ (d = dir ∧ ch < n) := by
        constructor
        · rintro ⟨same, below⟩
          have different : ch ≠ n := fun equal => last ⟨same, equal⟩
          exact ⟨same, by omega⟩
        · rintro ⟨same, below⟩
          exact ⟨same, by omega⟩
      rw [one.elsewhere d ch last, engines]
      simp only [before]

end Engines

end CigCard.Xdma.Opening
