import CigCard.Xdma.Interrupts

namespace CigCard.Xdma

structure UserIrq where
  handler : Bool
  eventsIrq : Bool

/-- What the interrupt handlers touch. The lists record calls in the order they are made: of `user_irq_service`, of
    registered handlers, of waking the event queue, of `schedule_work`, and the writes to the user BAR. -/
structure IsrState where
  xdev : Device
  userIrq : Nat → UserIrq
  irqCount : Nat
  serviced : List Nat
  handled : List Nat
  woken : List Nat
  scheduled : List Nat
  userWrites : List (Nat × BitVec 32)

def userIrqService (user : Nat) (s : IsrState) : IsrState :=
  let s := { s with serviced := s.serviced ++ [user] }
  if (s.userIrq user).handler then { s with handled := s.handled ++ [user] }
  else if (s.userIrq user).eventsIrq then s
  else
    { s with
      userIrq := fun i => if i = user then { s.userIrq user with eventsIrq := true } else s.userIrq i
      woken := s.woken ++ [user] }

def dispatchUsers : Nat → Nat → BitVec 32 → BitVec 32 → IsrState → IsrState
  | 0, _, _, _, s => s
  | left + 1, user, mask, userIrq, s =>
    if userIrq = 0 then s
    else if userIrq &&& mask ≠ 0 then
      dispatchUsers left (user + 1) (mask <<< 1) (userIrq &&& ~~~mask) (userIrqService user s)
    else dispatchUsers left (user + 1) (mask <<< 1) userIrq s

def irqBitmask (engine : Nat) : BitVec 32 := 1#32 <<< engine

def dispatchEngines : List Nat → BitVec 32 → IsrState → IsrState
  | [], _, s => s
  | engine :: rest, mask, s =>
    if mask = 0 then s
    else if irqBitmask engine &&& mask ≠ 0 then
      dispatchEngines rest (mask &&& ~~~irqBitmask engine) { s with scheduled := s.scheduled ++ [engine] }
    else dispatchEngines rest mask s

def engineMask (engines : List Nat) : BitVec 32 :=
  engines.foldl (fun mask engine => mask ||| irqBitmask engine) 0

def Config.h2cList (cfg : Config) : List Nat := List.range cfg.h2cChannelMax

def Config.c2hList (cfg : Config) : List Nat := (List.range cfg.c2hChannelMax).map (cfg.h2cChannelMax + ·)

def regsUserOfsIntV2 : Nat := 0x30000

def xdmaIsr (cfg : Config) (chIrq userIrq : BitVec 32) (s : IsrState) : IsrState :=
  let s := if chIrq ≠ 0 then { s with xdev := channelInterruptsDisable chIrq s.xdev } else s
  let userIrq := userIrq &&& 0xff
  let s := { s with userWrites := s.userWrites ++ [(regsUserOfsIntV2 + 0xb0, userIrq)] }
  let s := if userIrq ≠ 0 then dispatchUsers cfg.userMax 0 1 userIrq s else s
  let s := dispatchEngines cfg.h2cList (chIrq &&& engineMask cfg.h2cList) s
  let s := dispatchEngines cfg.c2hList (chIrq &&& engineMask cfg.c2hList) s
  { s with irqCount := s.irqCount + 1 }

def xdmaUserIrq (user : Nat) (s : IsrState) : IsrState := userIrqService user s

def probeMask (userMax : Nat) : BitVec 32 := (1#32 <<< (userMax + 1)) - 1

/-- An interrupt: the user lines that are raised then, and for MSI-X the line whose vector it is. -/
inductive Interrupt where
  | shared (chIrq lines : BitVec 32)
  | msix (user : Nat) (lines : BitVec 32)

def Interrupt.handle (cfg : Config) (s : IsrState) : Interrupt → IsrState
  | .shared chIrq lines => xdmaIsr cfg chIrq (lines &&& s.xdev.userIntEnable) s
  | .msix user _ => xdmaUserIrq user s

def Interrupt.asserts (i : Nat) : Interrupt → Bool
  | .shared _ lines => lines.getLsbD i
  | .msix user lines => lines.getLsbD i && decide (i = user)

structure Served (i : Nat) (before after : IsrState) : Prop where
  delivered : after.serviced.count i = before.serviced.count i + 1
  acknowledged : ∃ writes, after.userWrites = before.userWrites ++ writes ∧
    ∃ value, (regsUserOfsIntV2 + 0xb0, value) ∈ writes ∧ value.getLsbD i = true

/-- Every handler run of the sequence serves each line below `user_max` that is asserted then. -/
def AllServed (cfg : Config) : List Interrupt → IsrState → Prop
  | [], _ => True
  | interrupt :: interrupts, s =>
    (∀ i < cfg.userMax, interrupt.asserts i = true → Served i s (interrupt.handle cfg s)) ∧
      AllServed cfg interrupts (interrupt.handle cfg s)

theorem probeMask_bit {userMax i : Nat} (bound : userMax ≤ maxUserIrq) (below : i < userMax) :
    (probeMask userMax).getLsbD i = true := by
  unfold maxUserIrq at bound
  have small : userMax + 1 ≤ 17 := by omega
  have power : (1#32 <<< (userMax + 1)) - 1 = BitVec.ofNat 32 (2 ^ (userMax + 1) - 1) := by
    apply BitVec.eq_of_toNat_eq
    have pos : 0 < 2 ^ (userMax + 1) := Nat.two_pow_pos _
    have high : 2 ^ (userMax + 1) ≤ 2 ^ 17 := Nat.pow_le_pow_right (by decide) small
    simp [BitVec.toNat_sub, Nat.shiftLeft_eq]
    omega
  rw [probeMask, power, BitVec.getLsbD_ofNat, Nat.testBit_two_pow_sub_one]
  simp
  omega

section Handlers

variable {cfg : Config} {s : IsrState}

@[simp] theorem userIrqService_xdev (user : Nat) : (userIrqService user s).xdev = s.xdev := by
  simp only [userIrqService]
  split_ifs <;> rfl

@[simp] theorem userIrqService_serviced (user : Nat) : (userIrqService user s).serviced = s.serviced ++ [user] := by
  simp only [userIrqService]
  split_ifs <;> rfl

@[simp] theorem userIrqService_userWrites (user : Nat) : (userIrqService user s).userWrites = s.userWrites := by
  simp only [userIrqService]
  split_ifs <;> rfl

theorem dispatchUsers_frame (left user : Nat) (mask userIrq : BitVec 32) :
    (dispatchUsers left user mask userIrq s).xdev = s.xdev ∧
      (dispatchUsers left user mask userIrq s).userWrites = s.userWrites := by
  induction left generalizing user mask userIrq s with
  | zero => exact ⟨rfl, rfl⟩
  | succ left ih =>
    unfold dispatchUsers
    split_ifs with none asserted
    · exact ⟨rfl, rfl⟩
    · simpa using @ih (userIrqService user s) (user + 1) (mask <<< 1) (userIrq &&& ~~~mask)
    · exact ih (user + 1) (mask <<< 1) userIrq

theorem dispatchEngines_frame (engines : List Nat) (mask : BitVec 32) :
    (dispatchEngines engines mask s).xdev = s.xdev ∧ (dispatchEngines engines mask s).userWrites = s.userWrites ∧
      (dispatchEngines engines mask s).serviced = s.serviced := by
  induction engines generalizing mask s with
  | nil => exact ⟨rfl, rfl, rfl⟩
  | cons engine engines ih =>
    unfold dispatchEngines
    split_ifs
    · exact ⟨rfl, rfl, rfl⟩
    · exact ih (mask &&& ~~~irqBitmask engine)
    · exact ih mask

theorem and_shifted_one {word : BitVec 32} {user : Nat} (small : user < 32) :
    word &&& (1#32 <<< user) ≠ 0 ↔ word.getLsbD user = true := by
  rw [← BitVec.twoPow_eq, BitVec.and_twoPow]
  have nonzero : BitVec.twoPow 32 user ≠ 0#32 := by
    intro zero
    have selected := congrArg (fun bits => bits.getLsbD user) zero
    simp [small] at selected
  cases present : word.getLsbD user <;> simp [nonzero]

theorem clear_shifted_one {word : BitVec 32} {user i : Nat} (other : i ≠ user) :
    (word &&& ~~~(1#32 <<< user)).getLsbD i = word.getLsbD i := by
  rw [← BitVec.twoPow_eq, BitVec.getLsbD_and, BitVec.getLsbD_not, BitVec.getLsbD_twoPow]
  by_cases small : i < 32
  · simp [small, Ne.symm other]
  · simp [BitVec.getLsbD_of_ge word i (by omega)]

theorem range_next_iff {first i left : Nat} {set : Prop} (apart : set → first ≠ i) :
    (first + 1 ≤ i ∧ i < first + 1 + left ∧ set) ↔ (first ≤ i ∧ i < first + (left + 1) ∧ set) := by
  constructor
  · rintro ⟨low, high, here⟩
    exact ⟨by omega, by omega, here⟩
  · rintro ⟨low, high, here⟩
    have other := apart here
    exact ⟨by omega, by omega, here⟩

/-- The loop hands over each line that is set in the word, once. -/
theorem dispatchUsers_count {left user : Nat} {userIrq : BitVec 32} (bound : user + left ≤ 32) (i : Nat) :
    (dispatchUsers left user (1#32 <<< user) userIrq s).serviced.count i =
      s.serviced.count i + if user ≤ i ∧ i < user + left ∧ userIrq.getLsbD i = true then 1 else 0 := by
  induction left generalizing user userIrq s with
  | zero =>
    have outside : ¬ (user ≤ i ∧ i < user + 0 ∧ userIrq.getLsbD i = true) := by omega
    rw [if_neg outside]
    rfl
  | succ left ih =>
    have bit := @and_shifted_one userIrq user (by omega)
    have shift : (1#32 <<< user) <<< 1 = 1#32 <<< (user + 1) := by
      rw [BitVec.shiftLeft_add]
    unfold dispatchUsers
    by_cases none : userIrq = 0
    · simp [none]
    · rw [if_neg none, shift]
      by_cases asserted : userIrq.getLsbD user = true
      · rw [if_pos (bit.mpr asserted), ih (by omega), userIrqService_serviced, List.count_append]
        by_cases here : i = user
        · subst i
          simp [asserted]
        · have apart : ¬ user = i := fun same => here same.symm
          rw [clear_shifted_one here]
          simp only [@range_next_iff user i left (userIrq.getLsbD i = true) fun _ => apart]
          simp [apart]
      · rw [if_neg (fun set => asserted (bit.mp set)), ih (by omega)]
        have apart : userIrq.getLsbD i = true → user ≠ i := by
          rintro set rfl
          exact asserted set
        simp only [@range_next_iff user i left _ apart]

theorem xdmaIsr_effects (chIrq userIrq : BitVec 32) :
    (xdmaIsr cfg chIrq userIrq s).xdev.userIntEnable = s.xdev.userIntEnable ∧
      (xdmaIsr cfg chIrq userIrq s).userWrites =
        s.userWrites ++ [(regsUserOfsIntV2 + 0xb0, userIrq &&& 0xff)] ∧
      ∀ i, (xdmaIsr cfg chIrq userIrq s).serviced.count i =
        s.serviced.count i + if i < cfg.userMax ∧ (userIrq &&& 0xff).getLsbD i = true then 1 else 0 := by
  let quiet : IsrState := if chIrq ≠ 0 then { s with xdev := channelInterruptsDisable chIrq s.xdev } else s
  let acked := { quiet with userWrites := quiet.userWrites ++ [(regsUserOfsIntV2 + 0xb0, userIrq &&& 0xff)] }
  let users := if userIrq &&& 0xff ≠ 0 then dispatchUsers cfg.userMax 0 1 (userIrq &&& 0xff) acked else acked
  let h2c := dispatchEngines cfg.h2cList (chIrq &&& engineMask cfg.h2cList) users
  have quieted : quiet.xdev.userIntEnable = s.xdev.userIntEnable ∧ quiet.userWrites = s.userWrites ∧
      quiet.serviced = s.serviced := by
    simp only [quiet]
    split_ifs
    · exact ⟨rfl, rfl, rfl⟩
    · exact ⟨rfl, rfl, rfl⟩
  have dispatched : users.xdev = quiet.xdev ∧ users.userWrites = acked.userWrites := by
    simp only [users]
    split_ifs
    · exact dispatchUsers_frame (s := acked) cfg.userMax 0 1 (userIrq &&& 0xff)
    · exact ⟨rfl, rfl⟩
  have counted : ∀ i, users.serviced.count i =
      s.serviced.count i + if i < cfg.userMax ∧ (userIrq &&& 0xff).getLsbD i = true then 1 else 0 := by
    intro i
    have small : 0 + cfg.userMax ≤ 32 := by
      have bound := cfg.user_le
      unfold maxUserIrq at bound
      omega
    have loop := @dispatchUsers_count acked _ _ (userIrq &&& 0xff) small i
    have start : acked.serviced = s.serviced := quieted.2.2
    simp only [Nat.zero_le, true_and, Nat.zero_add, BitVec.shiftLeft_zero, start] at loop
    by_cases none : userIrq &&& 0xff = 0
    · have idle : users = acked := by simp only [users, none, ne_eq, not_true_eq_false, if_false]
      rw [idle, start, none]
      simp
    · have busy : users = dispatchUsers cfg.userMax 0 1 (userIrq &&& 0xff) acked := if_pos none
      rw [busy]
      exact loop
  have first := dispatchEngines_frame (s := users) cfg.h2cList (chIrq &&& engineMask cfg.h2cList)
  have second := dispatchEngines_frame (s := h2c) cfg.c2hList (chIrq &&& engineMask cfg.c2hList)
  refine ⟨?_, ?_, fun i => ?_⟩
  · change (dispatchEngines cfg.c2hList (chIrq &&& engineMask cfg.c2hList) h2c).xdev.userIntEnable = _
    rw [second.1, first.1, dispatched.1, quieted.1]
  · change (dispatchEngines cfg.c2hList (chIrq &&& engineMask cfg.c2hList) h2c).userWrites = _
    rw [second.2.1, first.2.1, dispatched.2]
    simp only [acked, quieted.2.1]
  · change (dispatchEngines cfg.c2hList (chIrq &&& engineMask cfg.c2hList) h2c).serviced.count i = _
    rw [second.2.2, first.2.2, counted i]

theorem low_byte {word : BitVec 32} (i : Nat) : (word &&& 0xff).getLsbD i = (word.getLsbD i && decide (i < 8)) := by
  have mask : (0xff : BitVec 32) = BitVec.ofNat 32 (2 ^ 8 - 1) := rfl
  rw [mask, BitVec.getLsbD_and, BitVec.getLsbD_ofNat, Nat.testBit_two_pow_sub_one]
  by_cases low : i < 8
  · simp [low]
    omega
  · simp [low]

end Handlers

def Interrupt.servable (cfg : Config) : Interrupt → Prop
  | .shared _ lines => ∀ i, 8 ≤ i → i < cfg.userMax → lines.getLsbD i = false
  | .msix user lines => user < cfg.userMax → lines.getLsbD user = false

theorem served_iff {cfg : Config} {s : IsrState} (enabled : ∀ i < cfg.userMax, s.xdev.userIntEnable.getLsbD i = true)
    (interrupt : Interrupt) :
    (∀ i < cfg.userMax, interrupt.asserts i = true → Served i s (interrupt.handle cfg s)) ↔
      interrupt.servable cfg := by
  cases interrupt with
  | shared chIrq lines =>
    obtain ⟨-, writes, counts⟩ := @xdmaIsr_effects cfg s chIrq (lines &&& s.xdev.userIntEnable)
    have bit : ∀ i < cfg.userMax, ((lines &&& s.xdev.userIntEnable) &&& 0xff).getLsbD i =
        (lines.getLsbD i && decide (i < 8)) := by
      intro i below
      rw [low_byte, BitVec.getLsbD_and, enabled i below, Bool.and_true]
    constructor
    · intro served i high below
      by_contra raised
      have asserted : lines.getLsbD i = true := by simpa using raised
      have delivered := (served i below asserted).delivered
      have counted := counts i
      rw [bit i below] at counted
      simp only [Interrupt.handle, counted, Nat.not_lt.mpr high, decide_false, Bool.and_false] at delivered
      simp at delivered
    · intro low i below asserted
      have asserts : lines.getLsbD i = true := asserted
      have small : i < 8 := by
        by_contra high
        have quiet := low i (by omega) below
        rw [asserts] at quiet
        cases quiet
      have set : ((lines &&& s.xdev.userIntEnable) &&& 0xff).getLsbD i = true := by
        rw [bit i below, asserts]
        simp [small]
      refine ⟨?_, _, writes, _, List.mem_singleton_self _, set⟩
      have counted := counts i
      rw [if_pos ⟨below, set⟩] at counted
      exact counted
  | msix user lines =>
    have writes : (xdmaUserIrq user s).userWrites = s.userWrites := userIrqService_userWrites user
    constructor
    · intro served below
      by_contra raised
      have asserted : lines.getLsbD user = true := by simpa using raised
      obtain ⟨added, all, value, member, -⟩ := (served user below (by simp [Interrupt.asserts, asserted])).acknowledged
      have none : added = [] := by
        have same : s.userWrites = s.userWrites ++ added := writes.symm.trans all
        simpa using same
      rw [none] at member
      cases member
    · intro silent i below asserted
      simp only [Interrupt.asserts, Bool.and_eq_true, decide_eq_true_eq] at asserted
      obtain ⟨raised, rfl⟩ := asserted
      rw [silent below] at raised
      cases raised

theorem handle_enabled {cfg : Config} {s : IsrState} (interrupt : Interrupt) :
    (interrupt.handle cfg s).xdev.userIntEnable = s.xdev.userIntEnable := by
  cases interrupt with
  | shared chIrq lines => exact (xdmaIsr_effects chIrq _).1
  | msix user lines =>
    simp only [Interrupt.handle, xdmaUserIrq, userIrqService_xdev]

theorem all_served_iff (cfg : Config) (interrupts : List Interrupt) (s : IsrState) :
    AllServed cfg interrupts { s with xdev := xdmaUserIsrEnable (probeMask cfg.userMax) s.xdev } ↔
      ∀ interrupt ∈ interrupts, interrupt.servable cfg := by
  have run : ∀ s : IsrState, (∀ i < cfg.userMax, s.xdev.userIntEnable.getLsbD i = true) →
      (AllServed cfg interrupts s ↔ ∀ interrupt ∈ interrupts, interrupt.servable cfg) := by
    induction interrupts with
    | nil => simp [AllServed]
    | cons interrupt interrupts ih =>
      intro s enabled
      have next : ∀ i < cfg.userMax, (interrupt.handle cfg s).xdev.userIntEnable.getLsbD i = true := by
        intro i below
        rw [handle_enabled]
        exact enabled i below
      simp only [AllServed, served_iff enabled, ih _ next, List.forall_mem_cons]
  apply run
  intro i below
  simp [xdmaUserIsrEnable, userInterruptsEnable, probeMask_bit cfg.user_le below]

def idleIsrState : IsrState :=
  ⟨allocDevInstance 0 0 fun _ => 0, fun _ => ⟨false, false⟩, 0, [], [], [], [], []⟩

/-- On a card with sixteen user lines the shared handler drops line 8, and the MSI-X handler of line 0 acknowledges
    nothing. -/
theorem lines_not_served :
    let cfg := smallCard.config false 16 1 1
    let enabled := { idleIsrState with xdev := xdmaUserIsrEnable (probeMask cfg.userMax) idleIsrState.xdev }
    ¬ AllServed cfg [.shared 0 0x100] enabled ∧ ¬ AllServed cfg [.msix 0 1] enabled := by
  intro cfg enabled
  refine ⟨fun served => ?_, fun served => ?_⟩
  · have delivered := (served.1 8 (by decide) (by decide)).delivered
    exact absurd delivered (by decide)
  · obtain ⟨writes, all, value, member, -⟩ := (served.1 0 (by decide) (by decide)).acknowledged
    have none : writes = [] := by simpa [enabled, Interrupt.handle, xdmaUserIrq] using all
    rw [none] at member
    cases member

end CigCard.Xdma
