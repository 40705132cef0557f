import CigCard.Xdma.LinePhases

namespace CigCard.Xdma

/-- The inner loop of `prog_irq_msix_user` and `prog_irq_msix_channel`, with `left` lanes of the word to go, and the
    vector that it stops at. -/
def packLanes (max : Nat) : Nat → Nat → Nat → BitVec 32 → BitVec 32 × Nat
  | 0, i, _, val => (val, i)
  | left + 1, i, shift, val =>
    if i < max then packLanes max left (i + 1) (shift + 8) (val ||| ((BitVec.ofNat 32 i &&& 0x1f) <<< shift))
    else (val, i)

/-- The outer loop, from vector `i` and register `j` on. Each round takes a vector at least, so that as many rounds
    suffice as there are vectors `left`. -/
def progVectors (clear : Bool) (max : Nat) : Nat → Nat → Nat → (Nat → BitVec 32) → Nat → BitVec 32
  | 0, _, _, regs => regs
  | left + 1, i, j, regs =>
    if i < max then
      let word : BitVec 32 × Nat := if clear then (0, i + 4) else packLanes max 4 i 0 0
      progVectors clear max left word.2 (j + 1) fun k => if k = j then word.1 else regs k
    else regs

structure VectorRegs where
  userMsiVector : Nat → BitVec 32
  channelMsiVector : Nat → BitVec 32

def progIrqMsixUser (cfg : Config) (clear : Bool) (regs : VectorRegs) : VectorRegs :=
  { regs with
    userMsiVector :=
      progVectors clear (cfg.channels + cfg.userMax) cfg.userMax cfg.channels 0 regs.userMsiVector }

def progIrqMsixChannel (cfg : Config) (clear : Bool) (regs : VectorRegs) : VectorRegs :=
  { regs with channelMsiVector := progVectors clear cfg.channels cfg.channels 0 0 regs.channelMsiVector }

/-- The pin that `irq_legacy_setup` reads is a byte, and the same word goes to six registers. -/
def legacyVectors (pin : Nat) (regs : VectorRegs) : VectorRegs :=
  let val := BitVec.ofNat 32 (pin % 256 - 1)
  let w := val <<< 24 ||| val <<< 16 ||| val <<< 8 ||| val
  { userMsiVector := fun k => if k < 4 then w else regs.userMsiVector k
    channelMsiVector := fun k => if k < 2 then w else regs.channelMsiVector k }

def irqSetupVectors (cfg : Config) (granted : Bool) (regs : VectorRegs) : VectorRegs :=
  match cfg.mode with
  | .msix => if granted then progIrqMsixUser cfg false (progIrqMsixChannel cfg false regs) else regs
  | .msi => regs
  | .legacy => if 1 < cfg.interruptPin % 256 then legacyVectors cfg.interruptPin regs else regs

def irqTeardownVectors (cfg : Config) (regs : VectorRegs) : VectorRegs :=
  match cfg.mode with
  | .msix => progIrqMsixUser cfg true (progIrqMsixChannel cfg true regs)
  | .msi | .legacy => regs

structure WiredDevice where
  xdev : Device
  regs : VectorRegs

namespace WiredDevice

def perform (cfg : Config) (wired : WiredDevice) (call : DeviceCall) : WiredDevice where
  xdev := call.perform cfg wired.xdev
  regs :=
    match call with
    | .offline => irqTeardownVectors cfg wired.regs
    | .online refuses =>
      if cfg.pollMode then wired.regs
      else irqSetupVectors cfg (irqSetup cfg refuses (cfg.initEngines wired.xdev)).1 wired.regs
    | .userIsr _ => wired.regs

def performEach (cfg : Config) (calls : List DeviceCall) (wired : WiredDevice) : WiredDevice :=
  calls.foldl (perform cfg) wired

end WiredDevice

section Lanes

def lane (word : BitVec 32) (k : Nat) : BitVec 32 := (word >>> (8 * k)) &&& 0x1f

theorem low_five (word : BitVec 32) (b : Nat) : (word &&& 0x1f).getLsbD b = (word.getLsbD b && decide (b < 5)) := by
  have mask : (0x1f : BitVec 32) = BitVec.ofNat 32 (2 ^ 5 - 1) := rfl
  rw [mask, BitVec.getLsbD_and, BitVec.getLsbD_ofNat, Nat.testBit_two_pow_sub_one]
  by_cases low : b < 5
  · simp [low]
    omega
  · simp [low]

theorem lane_bit (word : BitVec 32) (k b : Nat) : (lane word k).getLsbD b = (word.getLsbD (8 * k + b) && decide (b < 5)) := by
  rw [lane, low_five, BitVec.getLsbD_ushiftRight]

theorem lane_other (word x : BitVec 32) {j k : Nat} (away : j ≠ k) :
    lane (word ||| ((x &&& 0x1f) <<< (8 * j))) k = lane word k := by
  apply BitVec.eq_of_getLsbD_eq
  intro b _
  rw [lane_bit, lane_bit, BitVec.getLsbD_or, BitVec.getLsbD_shiftLeft, low_five]
  by_cases low : b < 5
  · by_cases above : 8 * k + b < 8 * j
    · simp [above]
    · have high : ¬ 8 * k + b - 8 * j < 5 := by omega
      simp [high]
  · simp [low]

theorem lane_same (word x : BitVec 32) {k : Nat} (inside : k < 4) :
    lane (word ||| ((x &&& 0x1f) <<< (8 * k))) k = lane word k ||| (x &&& 0x1f) := by
  apply BitVec.eq_of_getLsbD_eq
  intro b _
  rw [BitVec.getLsbD_or, lane_bit, lane_bit, BitVec.getLsbD_or, BitVec.getLsbD_shiftLeft, low_five, low_five]
  by_cases low : b < 5
  · have whole : 8 * k + b < 32 := by omega
    have above : ¬ 8 * k + b < 8 * k := by omega
    simp [low, whole, above]
  · simp [low]

theorem packLanes_next (max left i shift : Nat) (val : BitVec 32) (inside : i < max) :
    (packLanes max left i shift val).2 = min (i + left) max := by
  induction left generalizing i shift val with
  | zero => exact (Nat.min_eq_left (Nat.le_of_lt inside)).symm
  | succ left ih =>
    rw [packLanes, if_pos inside]
    by_cases more : i + 1 < max
    · rw [ih (i + 1) _ _ more]
      omega
    · have ends : ∀ n val, (packLanes max n (i + 1) (shift + 8) val).2 = i + 1 := by
        intro n val
        cases n with
        | zero => rfl
        | succ n => simp [packLanes, more]
      rw [ends]
      omega

theorem packLanes_lane (max left i j : Nat) (val : BitVec 32) (four : j + left ≤ 4) (k : Nat) :
    lane (packLanes max left i (8 * j) val).1 k =
      if j ≤ k ∧ k < j + left ∧ i + (k - j) < max then lane val k ||| (BitVec.ofNat 32 (i + (k - j)) &&& 0x1f)
      else lane val k := by
  induction left generalizing i j val with
  | zero => rw [packLanes, if_neg (by omega)]
  | succ left ih =>
    by_cases inside : i < max
    · have next := ih (i + 1) (j + 1) (val ||| ((BitVec.ofNat 32 i &&& 0x1f) <<< (8 * j))) (by omega)
      rw [packLanes, if_pos inside, show 8 * j + 8 = 8 * (j + 1) from rfl, next]
      by_cases here : k = j
      · subst here
        rw [lane_same _ _ (by omega)]
        simp [inside]
      · rw [lane_other _ _ fun same => here same.symm]
        by_cases later : j + 1 ≤ k
        · have place : i + 1 + (k - (j + 1)) = i + (k - j) := by omega
          have bounds : (j + 1 ≤ k ∧ k < j + 1 + left ∧ i + (k - j) < max) ↔
              (j ≤ k ∧ k < j + (left + 1) ∧ i + (k - j) < max) := by omega
          simp only [place, bounds]
        · rw [if_neg (by omega), if_neg (by omega)]
    · rw [packLanes, if_neg inside, if_neg (by omega)]

/-- The word for the vectors from `i` on has them in its lanes. -/
theorem packed_lane {max i k : Nat} (inside : k < 4) (below : i + k < max) (small : i + k < 32) :
    lane (packLanes max 4 i 0 0).1 k = BitVec.ofNat 32 (i + k) := by
  have filled := packLanes_lane max 4 i 0 0 (Nat.le_refl 4) k
  rw [Nat.mul_zero] at filled
  rw [filled, if_pos ⟨Nat.zero_le k, by omega, by omega⟩, Nat.sub_zero]
  apply BitVec.eq_of_getLsbD_eq
  intro b _
  rw [BitVec.getLsbD_or, lane_bit, low_five]
  have high : 5 ≤ b → (BitVec.ofNat 32 (i + k)).getLsbD b = false := by
    intro beyond
    rw [BitVec.getLsbD_ofNat, Nat.testBit_lt_two_pow (Nat.lt_of_lt_of_le small (Nat.pow_le_pow_right Nat.two_pos beyond))]
    simp
  by_cases low : b < 5
  · simp [low]
  · simp [high (by omega)]

theorem progVectors_eq (clear : Bool) (max left i j : Nat) (regs : Nat → BitVec 32) (enough : max - i ≤ left) (n : Nat) :
    progVectors clear max left i j regs n =
      if j ≤ n ∧ i + 4 * (n - j) < max then if clear then 0 else (packLanes max 4 (i + 4 * (n - j)) 0 0).1
      else regs n := by
  induction left generalizing i j regs with
  | zero =>
    rw [if_neg (by omega)]
    rfl
  | succ left ih =>
    unfold progVectors
    by_cases inside : i < max
    · rw [if_pos inside]
      have word : (if clear then ((0 : BitVec 32), i + 4) else packLanes max 4 i 0 0) =
          (if clear then 0 else (packLanes max 4 i 0 0).1, if clear then i + 4 else min (i + 4) max) := by
        cases clear with
        | true => rfl
        | false => exact Prod.ext rfl (packLanes_next max 4 i 0 0 inside)
      have next : (if clear then i + 4 else min (i + 4) max) = i + 4 ∨
          (max ≤ i + 4 ∧ (if clear then i + 4 else min (i + 4) max) = max) := by
        split
        · exact .inl rfl
        · omega
      simp only [word]
      generalize (if clear then i + 4 else min (i + 4) max) = following at next
      rw [ih _ _ _ (by omega)]
      by_cases here : n = j
      · subst here
        have place : i + 4 * (n - n) = i := by omega
        have past : ¬ (n + 1 ≤ n ∧ following + 4 * (n - (n + 1)) < max) := by omega
        rw [if_neg past, if_pos rfl, place]
        exact (if_pos ⟨Nat.le_refl n, inside⟩).symm
      · rw [if_neg here]
        by_cases later : j + 1 ≤ n ∧ i + 4 * (n - j) < max
        · obtain same | last := next
          · have place : following + 4 * (n - (j + 1)) = i + 4 * (n - j) := by omega
            have before : j ≤ n ∧ i + 4 * (n - j) < max := by omega
            rw [place, if_pos later, if_pos before]
          · omega
        · have past : ¬ (j + 1 ≤ n ∧ following + 4 * (n - (j + 1)) < max) := by omega
          have before : ¬ (j ≤ n ∧ i + 4 * (n - j) < max) := by omega
          rw [if_neg past, if_neg before]
    · rw [if_neg inside, if_neg (by omega)]

end Lanes

namespace VectorRegs

def userVector (regs : VectorRegs) (user : Nat) : Nat := (lane (regs.userMsiVector (user / 4)) (user % 4)).toNat

def channelVector (regs : VectorRegs) (engine : Nat) : Nat :=
  (lane (regs.channelMsiVector (engine / 4)) (engine % 4)).toNat

structure Programmed (cfg : Config) (regs : VectorRegs) : Prop where
  channels : ∀ engine < cfg.channels, regs.channelVector engine = engine
  users : ∀ user < cfg.userMax, regs.userVector user = cfg.channels + user

structure Cleared (cfg : Config) (regs : VectorRegs) : Prop where
  channels : ∀ engine < cfg.channels, regs.channelVector engine = 0
  users : ∀ user < cfg.userMax, regs.userVector user = 0

variable {cfg : Config}

theorem progIrqMsixChannel_vector (small : cfg.channels ≤ 32) (clear : Bool) (regs : VectorRegs) {engine : Nat}
    (below : engine < cfg.channels) :
    (progIrqMsixChannel cfg clear regs).channelVector engine = if clear then 0 else engine := by
  have word := progVectors_eq clear cfg.channels cfg.channels 0 0 regs.channelMsiVector (by omega) (engine / 4)
  rw [if_pos (by omega)] at word
  simp only [channelVector, progIrqMsixChannel, word]
  cases clear with
  | true => simp [lane]
  | false =>
    simp only [Bool.false_eq_true, if_false]
    rw [packed_lane (Nat.mod_lt _ (by decide)) (by omega) (by omega), BitVec.toNat_ofNat]
    omega

theorem progIrqMsixUser_vector (small : cfg.channels + cfg.userMax ≤ 32) (clear : Bool) (regs : VectorRegs) {user : Nat}
    (below : user < cfg.userMax) :
    (progIrqMsixUser cfg clear regs).userVector user = if clear then 0 else cfg.channels + user := by
  have word := progVectors_eq clear (cfg.channels + cfg.userMax) cfg.userMax cfg.channels 0 regs.userMsiVector (by omega)
    (user / 4)
  rw [if_pos (by omega)] at word
  simp only [userVector, progIrqMsixUser, word]
  cases clear with
  | true => simp [lane]
  | false =>
    simp only [Bool.false_eq_true, if_false]
    rw [packed_lane (Nat.mod_lt _ (by decide)) (by omega) (by omega), BitVec.toNat_ofNat]
    omega

theorem setup_programmed (mode : cfg.mode = .msix) (small : cfg.channels + cfg.userMax ≤ 32) (regs : VectorRegs) :
    (irqSetupVectors cfg true regs).Programmed cfg := by
  rw [irqSetupVectors, mode]
  constructor
  · intro engine below
    exact progIrqMsixChannel_vector (by omega) false regs below
  · intro user below
    exact progIrqMsixUser_vector small false _ below

theorem setup_refused (mode : cfg.mode = .msix) (regs : VectorRegs) : irqSetupVectors cfg false regs = regs := by
  rw [irqSetupVectors, mode]
  rfl

theorem teardown_cleared (mode : cfg.mode = .msix) (small : cfg.channels + cfg.userMax ≤ 32) (regs : VectorRegs) :
    (irqTeardownVectors cfg regs).Cleared cfg := by
  rw [irqTeardownVectors, mode]
  constructor
  · intro engine below
    exact progIrqMsixChannel_vector (by omega) true regs below
  · intro user below
    exact progIrqMsixUser_vector small true _ below

end VectorRegs

namespace WiredDevice

open LinePhase VectorRegs

variable {cfg : Config} {wired : WiredDevice}

structure Follows (cfg : Config) (wired : WiredDevice) (phase : LinePhase) : Prop where
  lines : phase.Describes cfg wired.xdev
  held : phase = .held → wired.regs.Programmed cfg
  down : phase = .freed ∨ phase = .half → wired.regs.Cleared cfg

theorem Follows.offline {phase : LinePhase} (follows : Follows cfg wired phase) (mode : cfg.mode = .msix)
    (small : cfg.channels + cfg.userMax ≤ 32) :
    Follows cfg (wired.perform cfg .offline) (phase.next cfg .offline) := by
  refine ⟨follows.lines.offline, ?_, ?_⟩
  · intro held
    cases phase with
    | held | freed | half | spoiled => cases held
  · intro _
    exact teardown_cleared mode small wired.regs

theorem Follows.online {phase : LinePhase} (follows : Follows cfg wired phase) (mode : cfg.mode = .msix)
    (small : cfg.channels + cfg.userMax ≤ 32) (wiredPin : cfg.mode = .legacy → cfg.interruptPin ≠ 0)
    (refuses : Nat → Bool) :
    Follows cfg (wired.perform cfg (.online refuses)) (phase.next cfg (.online refuses)) := by
  have lines := follows.lines.perform wiredPin (.online refuses)
  by_cases poll : cfg.pollMode = true
  · have same : phase.next cfg (.online refuses) = phase := by
      cases phase with
      | held | freed | half => simp [next, poll]
      | spoiled => rfl
    have regs : (wired.perform cfg (.online refuses)).regs = wired.regs := if_pos poll
    rw [same] at lines ⊢
    refine ⟨lines, ?_, ?_⟩
    · rw [regs]
      exact follows.held
    · rw [regs]
      exact follows.down
  · have regs : (wired.perform cfg (.online refuses)).regs =
        irqSetupVectors cfg (irqSetup cfg refuses (cfg.initEngines wired.xdev)).1 wired.regs := if_neg poll
    cases phase with
    | held | half | spoiled =>
      refine ⟨lines, ?_, ?_⟩
      · simp [next, poll]
      · simp [next, poll]
    | freed =>
      have start : Standing cfg [] (cfg.initEngines wired.xdev) := by
        rw [initEngines_eq]
        exact Standing.congr follows.lines rfl rfl rfl
      by_cases granted : cfg.grants refuses
      · obtain ⟨irqLine, msixIrqLine, setup, -⟩ := irqSetup_granted wiredPin start.holds granted
        refine ⟨lines, ?_, ?_⟩
        · intro _
          rw [regs, setup]
          exact setup_programmed mode small wired.regs
        · simp [next, poll, granted]
      · have setup : (irqSetup cfg refuses (cfg.initEngines wired.xdev)).1 = false :=
          irqSetup_refused_fails start.holds granted
        refine ⟨lines, ?_, ?_⟩
        · intro held
          simp only [next, poll, granted, if_false] at held
          split_ifs at held
        · intro _
          rw [regs, setup, setup_refused mode]
          exact follows.down (.inl rfl)

theorem Follows.run {phase : LinePhase} (follows : Follows cfg wired phase) (mode : cfg.mode = .msix)
    (small : cfg.channels + cfg.userMax ≤ 32) (wiredPin : cfg.mode = .legacy → cfg.interruptPin ≠ 0)
    (calls : List DeviceCall) :
    Follows cfg (wired.performEach cfg calls) (calls.foldl (LinePhase.next cfg) phase) := by
  induction calls generalizing wired phase with
  | nil => exact follows
  | cons call calls ih =>
    rw [performEach, List.foldl_cons, List.foldl_cons]
    apply ih
    cases call with
    | offline => exact follows.offline mode small
    | online refuses => exact follows.online mode small wiredPin refuses
    | userIsr call =>
      have same : phase.next cfg (.userIsr call) = phase := by
        cases phase with
        | held | freed | half | spoiled => rfl
      rw [same]
      exact ⟨follows.lines.userIsr call, follows.held, follows.down⟩

end WiredDevice

section Routing

open WiredDevice

end Routing

end CigCard.Xdma
