import CigCard.Xdma.ChannelIrq
import CigCard.Xdma.DeviceLifetime

namespace CigCard.Xdma.Opening

open Unwinding

structure Numbering where
  enginesNum : Nat
  maskIrq : Direction → BitVec 32
  irqBitmask : Direction → Nat → BitVec 32
  bypassOffset : Direction → Nat → Nat

def Numbering.zeroed : Numbering := ⟨0, fun _ => 0, fun _ _ => 0, fun _ _ => 0⟩

def xdmaEngIrqNum : Nat := 1
def bypassModeSpacing : Nat := 0x100

def Numbering.give (dir : Direction) (channel : Nat) (numbers : Numbering) : Numbering :=
  let bitmask := ((1#32 <<< xdmaEngIrqNum) - 1) <<< (numbers.enginesNum * xdmaEngIrqNum)
  let offset := numbers.enginesNum * bypassModeSpacing
  { enginesNum := numbers.enginesNum + 1
    maskIrq := fun d => if d = dir then numbers.maskIrq dir ||| bitmask else numbers.maskIrq d
    irqBitmask := fun d ch => if d = dir ∧ ch = channel then bitmask else numbers.irqBitmask d ch
    bypassOffset := fun d ch => if d = dir ∧ ch = channel then offset else numbers.bypassOffset d ch }

def Card.identified (card : Card) (configBarIdx : Nat) (dir : Direction) (channel : Nat) : Bool :=
  engineId (card.identifier configBarIdx dir channel) == expectedId dir &&
    engineChannelId (card.identifier configBarIdx dir channel) == BitVec.ofNat 32 channel

def numberFrom (card : Card) (dir : Direction) : Nat → Nat → Xdev → Numbering → Numbering
  | 0, _, _, numbers => numbers
  | left + 1, i, xdev, numbers =>
    if card.identified (xdev.configBarIdx.getD 0) dir i then
      match (probeForEngine card dir i).run xdev with
      | .ok _ xdev => numberFrom card dir left (i + 1) xdev (numbers.give dir i)
      | .error _ _ => numbers.give dir i
    else numbers

def numberEngines (card : Card) (xdev : Xdev) : Numbering :=
  let numbers := numberFrom card .toDevice (xdev.channelMax .toDevice) 0 xdev .zeroed
  let xdev := probeFrom card .toDevice (xdev.channelMax .toDevice) 0 xdev
  numberFrom card .fromDevice (xdev.channelMax .fromDevice) 0 xdev numbers

def locate (card : Card) : EStateM Unit Xdev Unit := do
  xdevListAdd card
  unwind (pciEnableDevice card) errEnable
  unwind (requestRegions card) errRegions
  unwind (mapBars card) errMap
  unwind (setDmaMask card) errMask

def Card.numbering (card : Card) : Numbering :=
  match (locate card).run (allocDevInstance card) with
  | .ok _ xdev => numberEngines card (interruptsOff xdev)
  | .error _ _ => .zeroed

def scheduleChannels (numbers : Numbering) (xdev : Xdev) (dir : Direction) :
    List Nat → BitVec 32 → List (Direction × Nat)
  | [], _ => []
  | channel :: rest, mask =>
    if mask = 0 then []
    else if numbers.irqBitmask dir channel &&& mask ≠ 0 ∧ (xdev.engine dir channel).magic = true then
      (dir, channel) :: scheduleChannels numbers xdev dir rest (mask &&& ~~~numbers.irqBitmask dir channel)
    else scheduleChannels numbers xdev dir rest mask

def isrSchedules (numbers : Numbering) (xdev : Xdev) (chIrq : BitVec 32) : List (Direction × Nat) :=
  scheduleChannels numbers xdev .toDevice (List.range (xdev.channelMax .toDevice))
      (chIrq &&& numbers.maskIrq .toDevice) ++
    scheduleChannels numbers xdev .fromDevice (List.range (xdev.channelMax .fromDevice))
      (chIrq &&& numbers.maskIrq .fromDevice)

section Giving

variable {dir : Direction} {start numbers : Numbering} {i count : Nat}

theorem irqBitmask_bit {number b : Nat} (small : b < 32) :
    (Xdma.irqBitmask number).getLsbD b = decide (b = number) := by
  rw [Xdma.irqBitmask, ← BitVec.twoPow_eq, BitVec.getLsbD_twoPow]
  by_cases here : b = number
  · subst here
    simp [small]
  · simp [here, Ne.symm here]

theorem given_bitmask (start : Numbering) :
    ((1#32 <<< xdmaEngIrqNum) - 1) <<< (start.enginesNum * xdmaEngIrqNum) = Xdma.irqBitmask start.enginesNum := by
  rw [xdmaEngIrqNum, Nat.mul_one]
  rfl

theorem give_enginesNum : (start.give dir i).enginesNum = start.enginesNum + 1 := rfl

theorem give_irqBitmask (d : Direction) (ch : Nat) : (start.give dir i).irqBitmask d ch =
    if d = dir ∧ ch = i then Xdma.irqBitmask start.enginesNum else start.irqBitmask d ch := by
  rw [← given_bitmask]
  rfl

theorem give_bypassOffset (d : Direction) (ch : Nat) : (start.give dir i).bypassOffset d ch =
    if d = dir ∧ ch = i then start.enginesNum * bypassModeSpacing else start.bypassOffset d ch := rfl

theorem give_maskIrq (d : Direction) : (start.give dir i).maskIrq d =
    if d = dir then start.maskIrq dir ||| Xdma.irqBitmask start.enginesNum else start.maskIrq d := by
  rw [← given_bitmask]
  rfl

structure Gave (dir : Direction) (i count : Nat) (start numbers : Numbering) : Prop where
  enginesNum : numbers.enginesNum = start.enginesNum + count
  bits : ∀ k < count, numbers.irqBitmask dir (i + k) = Xdma.irqBitmask (start.enginesNum + k)
  offsets : ∀ k < count, numbers.bypassOffset dir (i + k) = (start.enginesNum + k) * bypassModeSpacing
  kept : ∀ d ch, ¬ (d = dir ∧ i ≤ ch) →
    numbers.irqBitmask d ch = start.irqBitmask d ch ∧ numbers.bypassOffset d ch = start.bypassOffset d ch
  mask : ∀ b < 32, (numbers.maskIrq dir).getLsbD b =
    ((start.maskIrq dir).getLsbD b || decide (start.enginesNum ≤ b ∧ b < start.enginesNum + count))
  otherMask : ∀ d, d ≠ dir → numbers.maskIrq d = start.maskIrq d

theorem Gave.none (dir : Direction) (i : Nat) (start : Numbering) : Gave dir i 0 start start where
  enginesNum := rfl
  bits k below := absurd below (Nat.not_lt_zero k)
  offsets k below := absurd below (Nat.not_lt_zero k)
  kept _ _ _ := ⟨rfl, rfl⟩
  mask b _ := by
    have outside : ¬ (start.enginesNum ≤ b ∧ b < start.enginesNum + 0) := by omega
    rw [decide_eq_false outside, Bool.or_false]
  otherMask _ _ := rfl

theorem Gave.before (gave : Gave dir (i + 1) count (start.give dir i) numbers) :
    Gave dir i (count + 1) start numbers where
  enginesNum := by
    rw [gave.enginesNum, give_enginesNum]
    omega
  bits k below := by
    cases k with
    | zero =>
      have here := (gave.kept dir i (by omega)).1
      rw [Nat.add_zero, here, give_irqBitmask, if_pos ⟨rfl, rfl⟩, Nat.add_zero]
    | succ k =>
      have later := gave.bits k (by omega)
      rwa [give_enginesNum, Nat.add_right_comm, Nat.add_right_comm start.enginesNum] at later
  offsets k below := by
    cases k with
    | zero =>
      have here := (gave.kept dir i (by omega)).2
      rw [Nat.add_zero, here, give_bypassOffset, if_pos ⟨rfl, rfl⟩, Nat.add_zero]
    | succ k =>
      have later := gave.offsets k (by omega)
      rwa [give_enginesNum, Nat.add_right_comm, Nat.add_right_comm start.enginesNum] at later
  kept d ch away := by
    have later : ¬ (d = dir ∧ i + 1 ≤ ch) := fun both => away ⟨both.1, by omega⟩
    have other : ¬ (d = dir ∧ ch = i) := fun both => away ⟨both.1, by omega⟩
    obtain ⟨bit, offset⟩ := gave.kept d ch later
    rw [bit, offset, give_irqBitmask, give_bypassOffset, if_neg other, if_neg other]
    exact ⟨rfl, rfl⟩
  mask b small := by
    rw [gave.mask b small, give_maskIrq, if_pos rfl, give_enginesNum, BitVec.getLsbD_or, irqBitmask_bit small,
      Bool.or_assoc, ← Bool.decide_or]
    congr 1
    apply decide_eq_decide.mpr
    omega
  otherMask d other := by
    rw [gave.otherMask d other, give_maskIrq, if_neg other]

end Giving

section Probing

variable {card : Card} {others : List Resource} {dir : Direction} {configBarIdx : Nat}

def Card.refused (card : Card) (configBarIdx : Nat) (dir : Direction) (left i : Nat) : Bool :=
  decide (card.answering configBarIdx dir left i < left) &&
    card.identified configBarIdx dir (i + card.answering configBarIdx dir left i)

def Card.numbered (card : Card) (configBarIdx : Nat) (dir : Direction) (left i : Nat) : Nat :=
  card.answering configBarIdx dir left i + if card.refused configBarIdx dir left i then 1 else 0

theorem numbered_next {left i : Nat} (answers : card.probes configBarIdx dir i = true) :
    card.numbered configBarIdx dir (left + 1) i = card.numbered configBarIdx dir left (i + 1) + 1 := by
  have next := @answering_next card dir configBarIdx left i answers
  have place : i + (card.answering configBarIdx dir left (i + 1) + 1) =
      i + 1 + card.answering configBarIdx dir left (i + 1) := by omega
  have same : card.refused configBarIdx dir (left + 1) i = card.refused configBarIdx dir left (i + 1) := by
    unfold Card.refused
    rw [next, place]
    simp only [Nat.add_lt_add_iff_right]
  rw [Card.numbered, Card.numbered, same, next]
  omega

theorem numbered_none {left i : Nat} (silent : card.probes configBarIdx dir i = false) :
    card.numbered configBarIdx dir (left + 1) i = if card.identified configBarIdx dir i then 1 else 0 := by
  have none := @answering_none card dir configBarIdx left i silent
  rw [Card.numbered, Card.refused, none, Nat.zero_add, Nat.add_zero]
  simp

theorem identified_of_probes {i : Nat} (answers : card.probes configBarIdx dir i = true) :
    card.identified configBarIdx dir i = true := by
  unfold Card.probes at answers
  exact (Bool.and_eq_true_iff.mp answers).1

/-- The loop gives numbers to the engines that answer, and to the one that is refused. -/
theorem numberFrom_gave (left i : Nat) {xdev : Xdev} (booked : Booked others xdev)
    (config : xdev.configBarIdx = some configBarIdx)
    (nothing : ∀ ch, i ≤ ch → (xdev.engine dir ch).part = fun _ => false) (numbers : Numbering) :
    Gave dir i (card.numbered configBarIdx dir left i) numbers (numberFrom card dir left i xdev numbers) := by
  induction left generalizing i xdev numbers with
  | zero =>
    have none : card.numbered configBarIdx dir 0 i = 0 := by simp [Card.numbered, Card.refused, Card.answering]
    rw [none]
    exact Gave.none dir i numbers
  | succ left ih =>
    have probed := @probeForEngine_meets card others dir i xdev configBarIdx config xdev
      ⟨rfl, booked, nothing i (Nat.le_refl i)⟩
    unfold numberFrom
    rw [config, Option.getD_some]
    cases ran : (probeForEngine card dir i).run xdev with
    | ok value next =>
      rw [ran] at probed
      obtain ⟨answers, setUp⟩ := probed
      have later : ∀ ch, i + 1 ≤ ch → (next.engine dir ch).part = fun _ => false := by
        intro ch after
        rw [setUp.one.elsewhere dir ch (by omega)]
        exact nothing ch (by omega)
      rw [if_pos (identified_of_probes answers), numbered_next answers]
      exact (ih (i + 1) setUp.booked (setUp.one.configBarIdx.trans config) later (numbers.give dir i)).before
    | error e next =>
      rw [ran] at probed
      obtain ⟨silent, -⟩ := probed
      rw [numbered_none silent]
      split
      · exact (Gave.none dir (i + 1) (numbers.give dir i)).before
      · exact Gave.none dir i numbers

theorem place_iff (first count b : Nat) : first ≤ b ∧ b < first + count ↔ ∃ k < count, b = first + k := by
  constructor
  · intro both
    rcases both with ⟨atLeast, below⟩
    exact ⟨b - first, by omega, by omega⟩
  · intro found
    rcases found with ⟨k, below, rfl⟩
    exact ⟨Nat.le_add_right first k, Nat.add_lt_add_left below first⟩

def Card.numberedEngines (card : Card) (configBarIdx : Nat) (dir : Direction) : Nat :=
  card.numbered configBarIdx dir (boundedMax xdmaChannelNumMax (card.channelMax dir)) 0

def Card.engineBit (card : Card) (configBarIdx : Nat) (dir : Direction) (channel : Nat) : Nat :=
  match dir with
  | .toDevice => channel
  | .fromDevice => card.numberedEngines configBarIdx .toDevice + channel

structure Numbered (card : Card) (configBarIdx : Nat) (numbers : Numbering) : Prop where
  bits : ∀ dir, ∀ ch < card.numberedEngines configBarIdx dir,
    numbers.irqBitmask dir ch = Xdma.irqBitmask (card.engineBit configBarIdx dir ch) ∧
      numbers.bypassOffset dir ch = card.engineBit configBarIdx dir ch * bypassModeSpacing
  mask : ∀ dir, ∀ b < 32, (numbers.maskIrq dir).getLsbD b =
    decide (∃ ch < card.numberedEngines configBarIdx dir, b = card.engineBit configBarIdx dir ch)

theorem numberEngines_numbered {xdev : Xdev} (booked : Booked others xdev)
    (config : xdev.configBarIdx = some configBarIdx)
    (channelMax : xdev.channelMax = fun dir => boundedMax xdmaChannelNumMax (card.channelMax dir))
    (nothing : ∀ dir ch, (xdev.engine dir ch).part = fun _ => false) :
    Numbered card configBarIdx (numberEngines card xdev) := by
  have probed := @probeFrom_all card others .toDevice configBarIdx xdev booked config (congrFun channelMax .toDevice)
    (nothing .toDevice)
  have left : (probeFrom card .toDevice (xdev.channelMax .toDevice) 0 xdev).channelMax .fromDevice =
      boundedMax xdmaChannelNumMax (card.channelMax .fromDevice) := by
    rw [probed.channelMax, channelMax]
    rfl
  have noC2h : ∀ ch, 0 ≤ ch →
      ((probeFrom card .toDevice (xdev.channelMax .toDevice) 0 xdev).engine .fromDevice ch).part = fun _ => false := by
    intro ch _
    rw [probed.untouched .fromDevice ch (by simp)]
    exact nothing .fromDevice ch
  have h2c := @numberFrom_gave card others .toDevice configBarIdx (xdev.channelMax .toDevice) 0 xdev booked config
    (fun ch _ => nothing .toDevice ch) .zeroed
  have c2h := @numberFrom_gave card others .fromDevice configBarIdx
    ((probeFrom card .toDevice (xdev.channelMax .toDevice) 0 xdev).channelMax .fromDevice) 0 _ probed.booked
    (probed.only.configBarIdx.trans config) noC2h
    (numberFrom card .toDevice (xdev.channelMax .toDevice) 0 xdev .zeroed)
  rw [left] at c2h
  rw [congrFun channelMax .toDevice] at h2c
  have place : numberEngines card xdev = numberFrom card .fromDevice
      (boundedMax xdmaChannelNumMax (card.channelMax .fromDevice)) 0
      (probeFrom card .toDevice (xdev.channelMax .toDevice) 0 xdev)
      (numberFrom card .toDevice (xdev.channelMax .toDevice) 0 xdev .zeroed) := by
    rw [← left]
    rfl
  rw [← place, congrFun channelMax .toDevice] at c2h
  have count : (numberFrom card .toDevice (boundedMax xdmaChannelNumMax (card.channelMax .toDevice)) 0 xdev
      .zeroed).enginesNum = card.numberedEngines configBarIdx .toDevice := by
    rw [h2c.enginesNum]
    exact Nat.zero_add _
  constructor
  · intro dir ch below
    cases dir with
    | toDevice =>
      have bit := h2c.bits ch below
      have offset := h2c.offsets ch below
      obtain ⟨sameBit, sameOffset⟩ := c2h.kept .toDevice ch (by simp)
      rw [Nat.zero_add] at bit offset
      rw [sameBit, sameOffset, bit, offset]
      simp [Numbering.zeroed, Card.engineBit]
    | fromDevice =>
      have bit := c2h.bits ch below
      have offset := c2h.offsets ch below
      rw [Nat.zero_add, count] at bit offset
      exact ⟨bit, offset⟩
  · intro dir b small
    have empty : ∀ d, (Numbering.zeroed.maskIrq d).getLsbD b = false := fun _ => BitVec.getLsbD_zero
    cases dir with
    | toDevice =>
      rw [c2h.otherMask .toDevice (by decide), h2c.mask b small, empty, Bool.false_or]
      apply decide_eq_decide.mpr
      rw [place_iff]
      simp [Numbering.zeroed, Card.engineBit, Card.numberedEngines]
    | fromDevice =>
      rw [c2h.mask b small, h2c.otherMask .fromDevice (by decide), count, empty, Bool.false_or]
      exact decide_eq_decide.mpr (place_iff _ _ b)

end Probing

section Scheduling

variable {card : Card} {configBarIdx : Nat}

/-- The loop schedules the engines whose bits are set, each once. -/
theorem scheduleChannels_eq {numbers : Numbering} {xdev : Xdev} {dir : Direction} {bit : Nat → Nat}
    (apart : Function.Injective bit) {channels : List Nat} (distinct : channels.Nodup)
    (own : ∀ ch ∈ channels, bit ch < 32 ∧ numbers.irqBitmask dir ch = Xdma.irqBitmask (bit ch) ∧
      (xdev.engine dir ch).magic = true) (mask : BitVec 32) :
    scheduleChannels numbers xdev dir channels mask =
      (channels.filter fun ch => mask.getLsbD (bit ch)).map (dir, ·) := by
  induction channels generalizing mask with
  | nil => rfl
  | cons channel rest ih =>
    obtain ⟨away, others⟩ := List.nodup_cons.mp distinct
    obtain ⟨small, bitmask, magic⟩ := own channel List.mem_cons_self
    have set := @and_shifted_one mask (bit channel) small
    rw [← Xdma.irqBitmask, BitVec.and_comm] at set
    have later := ih others fun ch member => own ch (List.mem_cons_of_mem _ member)
    unfold scheduleChannels
    rw [bitmask]
    by_cases none : mask = 0
    · rw [if_pos none, none]
      simp
    · rw [if_neg none]
      by_cases here : mask.getLsbD (bit channel) = true
      · have same : rest.filter (fun ch => (mask &&& ~~~Xdma.irqBitmask (bit channel)).getLsbD (bit ch)) =
            rest.filter fun ch => mask.getLsbD (bit ch) := by
          apply List.filter_congr
          intro ch member
          exact clear_shifted_one fun same => away (apart same ▸ member)
        rw [if_pos ⟨set.mpr here, magic⟩, later, same, List.filter_cons, if_pos here, List.map_cons]
      · rw [if_neg fun both => here (set.mp both.1), later, List.filter_cons, if_neg here]

def Xdev.foundEngines (xdev : Xdev) : List (Direction × Nat) :=
  (List.range (xdev.channelMax .toDevice)).map (.toDevice, ·) ++
    (List.range (xdev.channelMax .fromDevice)).map (.fromDevice, ·)

theorem numberedEngines_le (dir : Direction) :
    card.engines configBarIdx dir ≤ card.numberedEngines configBarIdx dir ∧
      card.numberedEngines configBarIdx dir ≤ 4 := by
  have limit := boundedMax_channels (card.channelMax dir)
  have found : card.answering configBarIdx dir (boundedMax xdmaChannelNumMax (card.channelMax dir)) 0 ≤
      boundedMax xdmaChannelNumMax (card.channelMax dir) := by
    have asked := @List.length_range' 0 1 (boundedMax xdmaChannelNumMax (card.channelMax dir))
    exact (List.takeWhile_sublist _).length_le.trans (Nat.le_of_eq asked)
  unfold Card.engines Card.numberedEngines Card.numbered
  split
  · next refused =>
    unfold Card.refused at refused
    have room := of_decide_eq_true (Bool.and_eq_true_iff.mp refused).1
    omega
  · omega

theorem isrSchedules_eq {numbers : Numbering} {xdev : Xdev} (numbered : Numbered card configBarIdx numbers)
    (channelMax : xdev.channelMax = card.engines configBarIdx)
    (magic : ∀ dir, ∀ ch < xdev.channelMax dir, (xdev.engine dir ch).magic = true) (chIrq : BitVec 32) :
    isrSchedules numbers xdev chIrq =
      xdev.foundEngines.filter fun engine => chIrq.getLsbD (card.engineBit configBarIdx engine.1 engine.2) := by
  have loop : ∀ dir, scheduleChannels numbers xdev dir (List.range (xdev.channelMax dir))
      (chIrq &&& numbers.maskIrq dir) =
      ((List.range (xdev.channelMax dir)).map (dir, ·)).filter fun engine =>
        chIrq.getLsbD (card.engineBit configBarIdx engine.1 engine.2) := by
    intro dir
    have apart : Function.Injective (card.engineBit configBarIdx dir) := by
      intro ch other same
      cases dir with
      | toDevice => exact same
      | fromDevice => exact Nat.add_left_cancel same
    have inside : ∀ ch ∈ List.range (xdev.channelMax dir), ch < card.numberedEngines configBarIdx dir ∧
        card.engineBit configBarIdx dir ch < 32 := by
      intro ch member
      have below := List.mem_range.mp member
      have counts := @numberedEngines_le card configBarIdx dir
      have h2c := @numberedEngines_le card configBarIdx .toDevice
      rw [channelMax] at below
      cases dir with
      | toDevice =>
        rw [Card.engineBit]
        omega
      | fromDevice =>
        rw [Card.engineBit]
        omega
    have scheduled := @scheduleChannels_eq numbers xdev dir _ apart _ List.nodup_range
      (fun ch member => ⟨(inside ch member).2, (numbered.bits dir ch (inside ch member).1).1,
        magic dir ch (List.mem_range.mp member)⟩) (chIrq &&& numbers.maskIrq dir)
    rw [scheduled, List.filter_map]
    congr 1
    apply List.filter_congr
    intro ch member
    obtain ⟨known, small⟩ := inside ch member
    have masked : (numbers.maskIrq dir).getLsbD (card.engineBit configBarIdx dir ch) = true := by
      rw [numbered.mask dir _ small]
      exact decide_eq_true ⟨ch, known, rfl⟩
    rw [BitVec.getLsbD_and, masked, Bool.and_true]
    rfl
  rw [isrSchedules, loop, loop, ← List.filter_append]
  rfl

end Scheduling

section Opened

variable {card : Card} {xdev : Xdev}

theorem locate_located : Meets (locate card) (Started card [])
    (fun _ xdev => ∃ configBarIdx, card.configBar = some configBarIdx ∧
      Located card (.regions :: onLists) configBarIdx xdev) (fun _ => True) := by
  unfold locate
  apply Meets.bind _ (xdevListAdd_meets.failing fun _ _ => trivial)
  intro _
  apply Meets.given
  intro _
  apply Meets.bind _ (Meets.unwind pciEnableDevice_meets fun _ _ => trivial)
  intro _
  apply Meets.given
  intro _
  apply Meets.bind _ (Meets.unwind requestRegions_meets fun _ _ => trivial)
  intro _
  apply Meets.given
  intro _
  apply Meets.bind _ (Meets.unwind mapBars_located fun _ _ => trivial)
  intro _
  apply Meets.unwind
  · apply (require_meets (card.dmaMask64 || card.dmaMask32) _).weaken (fun _ there => there)
    · exact fun _ _ there => there.2
    · exact fun _ _ => trivial
  · exact fun _ _ => trivial

theorem openCard_eq :
    openCard card =
      (do
        locate card
        modify (prepareEngines card)
        unwind (enableMsiMsix card) (errEngines card)
        unwind (setupIrqs card) (errMsix card)
        modify (goOnline card)) := by
  simp only [openCard, locate, bind_assoc]

theorem numbering_numbered {configBarIdx : Nat} (opened : xdmaDeviceOpen card = .ok () xdev)
    (found : card.configBar = some configBarIdx) : Numbered card configBarIdx card.numbering := by
  unfold xdmaDeviceOpen at opened
  split at opened
  · have reached := @locate_located card (allocDevInstance card) (allocDevInstance_started card)
    rw [openCard_eq, EStateM.run_bind] at opened
    unfold Card.numbering
    cases ran : (locate card).run (allocDevInstance card) with
    | ok value next =>
      rw [ran] at reached
      obtain ⟨other, same, located⟩ := reached
      rw [found] at same
      cases same
      have quiet : Booked (.regions :: onLists) (interruptsOff next) := located.booked
      exact numberEngines_numbered quiet located.config located.channelMax located.parts
    | error e next =>
      rw [ran] at opened
      cases opened
  · cases opened

theorem inUse_engines {configBarIdx : Nat} (inUse : InUse card configBarIdx xdev) (calls : List DeviceCall) :
    (performCalls card calls xdev).channelMax = card.engines configBarIdx ∧
      ∀ dir, ∀ ch < (performCalls card calls xdev).channelMax dir,
        ((performCalls card calls xdev).engine dir ch).magic = true := by
  rw [performCalls_eq]
  exact ⟨inUse.past.probed.channelMax, inUse.past.probed.magic⟩

theorem mem_foundEngines {dir : Direction} {ch : Nat} : (dir, ch) ∈ xdev.foundEngines ↔ ch < xdev.channelMax dir := by
  cases dir with
  | toDevice => simp [Xdev.foundEngines]
  | fromDevice => simp [Xdev.foundEngines]

theorem foundEngines_numbers :
    xdev.foundEngines.map (fun engine => xdev.engineNumber engine.1 engine.2) =
      List.range (xdev.channelMax .toDevice + xdev.channelMax .fromDevice) := by
  rw [Xdev.foundEngines, List.map_append, List.map_map, List.map_map, List.range_add]
  congr 1
  exact List.map_id _

theorem bits_numbers_iff {configBarIdx : Nat} (counts : xdev.channelMax = card.engines configBarIdx) :
    (∀ engine ∈ xdev.foundEngines,
      card.engineBit configBarIdx engine.1 engine.2 = xdev.engineNumber engine.1 engine.2) ↔
    ¬ (card.refused configBarIdx .toDevice (boundedMax xdmaChannelNumMax (card.channelMax .toDevice)) 0 = true ∧
      0 < xdev.channelMax .fromDevice) := by
  have h2c : xdev.channelMax .toDevice = card.engines configBarIdx .toDevice := congrFun counts .toDevice
  have numbered : card.numberedEngines configBarIdx .toDevice = card.engines configBarIdx .toDevice +
      if card.refused configBarIdx .toDevice (boundedMax xdmaChannelNumMax (card.channelMax .toDevice)) 0
      then 1 else 0 := rfl
  constructor
  · intro same both
    rcases both with ⟨refused, some⟩
    have first := same (.fromDevice, 0) (mem_foundEngines.mpr some)
    rw [if_pos refused] at numbered
    dsimp only [Card.engineBit, Xdev.engineNumber] at first
    omega
  · intro clear engine member
    rcases engine with ⟨dir, ch⟩
    cases dir with
    | toDevice => rfl
    | fromDevice =>
      have some : 0 < xdev.channelMax .fromDevice := (Nat.zero_le ch).trans_lt (mem_foundEngines.mp member)
      rw [if_neg fun refused => clear ⟨refused, some⟩] at numbered
      dsimp only [Card.engineBit, Xdev.engineNumber]
      omega

theorem bits_distinct {configBarIdx : Nat} (counts : xdev.channelMax = card.engines configBarIdx) :
    (xdev.foundEngines.map fun engine => card.engineBit configBarIdx engine.1 engine.2).Nodup := by
  have h2c := (@numberedEngines_le card configBarIdx .toDevice).1
  rw [Xdev.foundEngines, List.map_append, List.map_map, List.map_map, List.nodup_append]
  refine ⟨List.nodup_range.map fun _ _ same => same, List.nodup_range.map fun _ _ same => Nat.add_left_cancel same, ?_⟩
  intro bit first other second
  obtain ⟨ch, inside, rfl⟩ := List.mem_map.mp first
  obtain ⟨ch', -, rfl⟩ := List.mem_map.mp second
  have below := List.mem_range.mp inside
  rw [counts] at below
  dsimp only [Function.comp, Card.engineBit]
  omega

/-- On an open card, whatever is called on it: every engine that was found has an interrupt bit of its own, and the
    handler schedules the engines whose bits are set. The bits are the numbers under which the MSI-X lines know the
    engines, unless there was no memory for an H2C engine that is there: it keeps its bit. -/
theorem engine_bits (opened : xdmaDeviceOpen card = .ok () xdev) (calls : List DeviceCall) :
    ∃ configBarIdx, card.configBar = some configBarIdx ∧
      let later := performCalls card calls xdev
      let bit := fun engine : Direction × Nat => card.engineBit configBarIdx engine.1 engine.2
      let number := fun engine : Direction × Nat => later.engineNumber engine.1 engine.2
      let refused := card.refused configBarIdx .toDevice (boundedMax xdmaChannelNumMax (card.channelMax .toDevice)) 0
      (later.foundEngines.map bit).Nodup ∧
      (∀ engine ∈ later.foundEngines, card.numbering.irqBitmask engine.1 engine.2 = Xdma.irqBitmask (bit engine) ∧
        card.numbering.bypassOffset engine.1 engine.2 = bit engine * bypassModeSpacing) ∧
      (∀ chIrq, isrSchedules card.numbering later chIrq =
        later.foundEngines.filter fun engine => chIrq.getLsbD (bit engine)) ∧
      ((∀ engine ∈ later.foundEngines, bit engine = number engine) ↔
        ¬ (refused = true ∧ 0 < later.channelMax .fromDevice)) ∧
      ((∀ engine ∈ later.foundEngines, bit engine = number engine) → ∀ chIrq userIrq s,
        (xdmaIsr (later.irqConfig card) chIrq userIrq s).scheduled =
          s.scheduled ++ (isrSchedules card.numbering later chIrq).map number) := by
  obtain ⟨configBarIdx, found, inUse⟩ := xdmaDeviceOpen_located opened
  have numbered := numbering_numbered opened found
  obtain ⟨counts, magic⟩ := inUse_engines inUse calls
  refine ⟨configBarIdx, found, bits_distinct counts, ?_, isrSchedules_eq numbered counts magic,
    bits_numbers_iff counts, ?_⟩
  · intro engine member
    rcases engine with ⟨dir, ch⟩
    have below := mem_foundEngines.mp member
    rw [counts] at below
    exact numbered.bits dir ch (below.trans_le (numberedEngines_le dir).1)
  · intro agree chIrq userIrq s
    have few : ((performCalls card calls xdev).irqConfig card).channels ≤ 32 := by
      have h2c := @numberedEngines_le card configBarIdx .toDevice
      have c2h := @numberedEngines_le card configBarIdx .fromDevice
      show (performCalls card calls xdev).channelMax .toDevice +
        (performCalls card calls xdev).channelMax .fromDevice ≤ 32
      rw [counts]
      omega
    rw [(xdmaIsr_channels few chIrq userIrq s).2, isrSchedules_eq numbered counts magic]
    congr 1
    show (List.range ((performCalls card calls xdev).channelMax .toDevice +
      (performCalls card calls xdev).channelMax .fromDevice)).filter _ = _
    rw [← foundEngines_numbers, List.filter_map]
    congr 1
    apply List.filter_congr
    intro engine member
    exact congrArg (fun b => chIrq.getLsbD b) (agree engine member).symm

def shortOfMemory : Card :=
  { smallDevice with
    channelMax := fun dir => if dir = .toDevice then 2 else 1
    register := fun idx reg => if reg = channelSpacing then 0x1fc00106 else smallDevice.register idx reg
    dmaAlloc := fun dir channel _ => dir = .fromDevice || channel = 0 }

theorem shortOfMemory_bits : ∃ xdev, xdmaDeviceOpen shortOfMemory = .ok () xdev ∧
    isrSchedules shortOfMemory.numbering (performCalls shortOfMemory [.offline] xdev) 4 = [(.fromDevice, 0)] ∧
      (performCalls shortOfMemory [.offline] xdev).engineNumber .fromDevice 0 = 1 := by
  have happens : ∃ xdev, xdmaDeviceOpen shortOfMemory = .ok () xdev := ⟨_, rfl⟩
  obtain ⟨xdev, opened⟩ := happens
  obtain ⟨idx, named, -, -, scheduled, -⟩ := engine_bits opened [.offline]
  obtain ⟨configBarIdx, found, inUse⟩ := xdmaDeviceOpen_located opened
  have first : shortOfMemory.configBar = some 0 := by decide
  rw [first] at found named
  cases found
  cases named
  have counts := (inUse_engines inUse [.offline]).1
  have h2c : (performCalls shortOfMemory [.offline] xdev).channelMax .toDevice = 1 := by
    rw [counts]
    decide
  have c2h : (performCalls shortOfMemory [.offline] xdev).channelMax .fromDevice = 1 := by
    rw [counts]
    decide
  have engines : (performCalls shortOfMemory [.offline] xdev).foundEngines = [(.toDevice, 0), (.fromDevice, 0)] := by
    rw [Xdev.foundEngines, h2c, c2h]
    rfl
  refine ⟨xdev, opened, ?_, h2c⟩
  rw [scheduled, engines]
  decide

end Opened

end CigCard.Xdma.Opening
