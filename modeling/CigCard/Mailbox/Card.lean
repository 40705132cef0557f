import CigCard.Mailbox.Registers
import CigCard.Interaction.RelyGuarantee

namespace CigCard.Mailbox

open Interaction ByteMemory

/-- What the A53 is doing. A job carries the number of doorbells that had been rung when it was picked
    up and the bytes of the window the A53 has looked at since. -/
inductive A53 (R : Type) where
  | idle
  | working (ring : Nat) (seen : List (Nat × Byte))
  | answering (ring : Nat) (seen : List (Nat × Byte)) (response : R) (pending : List (Nat × List Byte))

def A53.isIdle {R : Type} : A53 R → Bool
  | .idle => true
  | _ => false

/-- What the A53 holds in hand: the doorbell it answers and what it has seen. -/
def A53.InHand {R : Type} (ring : Nat) (seen : List (Nat × Byte)) (a53 : A53 R) : Prop :=
  a53 = .working ring seen ∨ ∃ response pending, a53 = .answering ring seen response pending

/-- A doorbell: the window at that moment, and whether the A53 had nothing else in hand. -/
structure Ring where
  memory : Memory
  idle : Bool

structure Job (R : Type) where
  ring : Nat
  seen : List (Nat × Byte)
  response : R

/-- The card as host and A53 share it. `rings`, `served` and `awaiting` record the history of the run
    and influence nothing: `awaiting` says that the host has rung and not read the interrupt register
    as 0 since. -/
structure Card (R : Type) where
  memory : Memory
  a53 : A53 R
  rings : List Ring
  served : List (Job R)
  awaiting : Bool

variable {R : Type}

def Card.door (card : Card R) : Nat := load32 card.memory interruptReg

def Card.hostLoad (card : Card R) (addr : Nat) : Card R :=
  if addr = interruptReg ∧ card.door = 0 then { card with awaiting := false } else card

def Card.hostStore32 (card : Card R) (addr value : Nat) : Card R :=
  let memory := store32 card.memory addr value
  if addr = interruptReg ∧ value % 2 ^ 32 ≠ 0 then
    { card with memory, rings := card.rings ++ [⟨memory, card.a53.isIdle⟩], awaiting := true }
  else { card with memory }

def Card.hostStore8 (card : Card R) (addr : Nat) (byte : Byte) : Card R :=
  { card with memory := store card.memory addr [byte] }

/-- The moves of the A53: it picks a job up while the interrupt register is non-zero, looks at the
    window only while that is so, decides on a response at any later time, stores it piece by piece and
    clears the interrupt register last. -/
inductive Move (stores : R → List (Nat × List Byte)) : Card R → Card R → Prop where
  | pickUp (card : Card R) : card.a53 = .idle → card.door ≠ 0 →
      Move stores card { card with a53 := .working card.rings.length [] }
  | look (card : Card R) (ring : Nat) (seen : List (Nat × Byte)) (addr : Nat) :
      card.a53 = .working ring seen → card.door ≠ 0 →
      Move stores card { card with a53 := .working ring (seen ++ [(addr, card.memory addr)]) }
  | answer (card : Card R) (ring : Nat) (seen : List (Nat × Byte)) (response : R) :
      card.a53 = .working ring seen →
      Move stores card { card with a53 := .answering ring seen response (stores response) }
  | put (card : Card R) (ring : Nat) (seen : List (Nat × Byte)) (response : R) (addr : Nat)
      (bytes : List Byte) (pending : List (Nat × List Byte)) :
      card.a53 = .answering ring seen response ((addr, bytes) :: pending) →
      Move stores card { card with
        memory := store card.memory addr bytes
        a53 := .answering ring seen response pending }
  | finish (card : Card R) (ring : Nat) (seen : List (Nat × Byte)) (response : R) :
      card.a53 = .answering ring seen response [] →
      Move stores card { card with
        memory := store32 card.memory interruptReg 0
        a53 := .idle
        served := card.served ++ [⟨ring, seen, response⟩] }

def Act : (access : Access) → Card R → access.Answer → Card R → Prop
  | .load32 addr, before, value, after => value = load32 before.memory addr ∧ after = before.hostLoad addr
  | .store32 addr value, before, _, after => after = before.hostStore32 addr value
  | .store8 addr byte, before, _, after => after = before.hostStore8 addr byte

def world (stores : R → List (Nat × List Byte)) : World Access Access.Answer (Card R) where
  act := Act
  env := Move stores

structure Card.AtRest (card : Card R) : Prop where
  idle : card.a53 = .idle
  clear : card.door = 0
  unrung : card.rings = []
  unserved : card.served = []
  quiet : card.awaiting = false

def Card.Quiet (card : Card R) : Prop := card.a53 = .idle ∧ card.door = 0

@[simp] theorem hostLoad_memory (card : Card R) (addr : Nat) : (card.hostLoad addr).memory = card.memory := by
  unfold Card.hostLoad; split <;> rfl

@[simp] theorem hostLoad_a53 (card : Card R) (addr : Nat) : (card.hostLoad addr).a53 = card.a53 := by
  unfold Card.hostLoad; split <;> rfl

@[simp] theorem hostLoad_rings (card : Card R) (addr : Nat) : (card.hostLoad addr).rings = card.rings := by
  unfold Card.hostLoad; split <;> rfl

@[simp] theorem hostLoad_served (card : Card R) (addr : Nat) : (card.hostLoad addr).served = card.served := by
  unfold Card.hostLoad; split <;> rfl

@[simp] theorem hostLoad_door (card : Card R) (addr : Nat) : (card.hostLoad addr).door = card.door := by
  simp [Card.door]

@[simp] theorem hostStore32_memory (card : Card R) (addr value : Nat) :
    (card.hostStore32 addr value).memory = store32 card.memory addr value := by
  unfold Card.hostStore32; split <;> rfl

@[simp] theorem hostStore32_a53 (card : Card R) (addr value : Nat) :
    (card.hostStore32 addr value).a53 = card.a53 := by
  unfold Card.hostStore32; split <;> rfl

@[simp] theorem hostStore32_served (card : Card R) (addr value : Nat) :
    (card.hostStore32 addr value).served = card.served := by
  unfold Card.hostStore32; split <;> rfl

theorem hostStore32_plain (card : Card R) (addr value : Nat) (elsewhere : addr ≠ interruptReg) :
    card.hostStore32 addr value = { card with memory := store32 card.memory addr value } := by
  simp [Card.hostStore32, elsewhere]

theorem hostStore32_clear (card : Card R) :
    card.hostStore32 interruptReg 0 = { card with memory := store32 card.memory interruptReg 0 } := by
  simp [Card.hostStore32]

theorem hostStore32_ring (card : Card R) : card.hostStore32 interruptReg 1 =
    { card with
      memory := store32 card.memory interruptReg 1
      rings := card.rings ++ [⟨store32 card.memory interruptReg 1, card.a53.isIdle⟩]
      awaiting := true } := by
  simp [Card.hostStore32]

theorem Card.Quiet.stuck {stores : R → List (Nat × List Byte)} {before after : Card R} (quiet : before.Quiet)
    (moved : Move stores before after) : False := by
  obtain ⟨idle, clear⟩ := quiet
  cases moved <;> simp_all

theorem Move.rings_eq {stores : R → List (Nat × List Byte)} {before after : Card R}
    (moved : Move stores before after) : after.rings = before.rings := by
  cases moved <;> rfl

theorem Move.served_prefix {stores : R → List (Nat × List Byte)} {before after : Card R}
    (moved : Move stores before after) : before.served <+: after.served := by
  cases moved <;> first | exact List.prefix_refl _ | exact List.prefix_append _ _

theorem Act.rings_prefix {access : Access} {before after : Card R} {answer : access.Answer}
    (acted : Act access before answer after) : before.rings <+: after.rings := by
  cases access with
  | load32 addr =>
    obtain ⟨-, rfl⟩ := acted
    simp
  | store32 addr value =>
    obtain rfl := acted
    unfold Card.hostStore32
    split
    · exact List.prefix_append _ _
    · exact List.prefix_refl _
  | store8 addr byte =>
    obtain rfl := acted
    exact List.prefix_refl _

theorem Act.served_eq {access : Access} {before after : Card R} {answer : access.Answer}
    (acted : Act access before answer after) : after.served = before.served := by
  cases access with
  | load32 addr => obtain ⟨-, rfl⟩ := acted; simp
  | store32 addr value => obtain rfl := acted; simp
  | store8 addr byte => obtain rfl := acted; rfl

theorem Act.rings_eq {access : Access} {before after : Card R} {answer : access.Answer}
    (plain : access.Plain) (acted : Act access before answer after) : after.rings = before.rings := by
  cases access with
  | load32 addr => obtain ⟨-, rfl⟩ := acted; simp
  | store32 addr value =>
    obtain rfl := acted
    simp only [Access.Plain] at plain
    rw [hostStore32_plain _ _ _ (by omega)]
  | store8 addr byte => obtain rfl := acted; rfl

theorem Act.a53_eq {access : Access} {before after : Card R} {answer : access.Answer}
    (acted : Act access before answer after) : after.a53 = before.a53 := by
  cases access with
  | load32 addr => obtain ⟨-, rfl⟩ := acted; simp
  | store32 addr value => obtain rfl := acted; simp
  | store8 addr byte => obtain rfl := acted; rfl

theorem Act.door_eq {access : Access} {before after : Card R} {answer : access.Answer}
    (plain : access.Plain) (acted : Act access before answer after) : after.door = before.door := by
  cases access with
  | load32 addr => obtain ⟨-, rfl⟩ := acted; simp
  | store32 addr value =>
    obtain rfl := acted
    simp only [Access.Plain] at plain
    simp only [Card.door, hostStore32_memory]
    rw [load32_store32_disjoint _ _ _ _ (by omega)]
  | store8 addr byte =>
    obtain rfl := acted
    simp only [Access.Plain] at plain
    simp only [Card.door, Card.hostStore8]
    rw [load32_store_disjoint _ _ _ _ (by simp only [List.length_singleton]; omega)]

theorem Act.awaiting_eq {access : Access} {before after : Card R} {answer : access.Answer}
    (plain : access.Plain) (acted : Act access before answer after) (calm : before.awaiting = false) :
    after.awaiting = false := by
  cases access with
  | load32 addr =>
    obtain ⟨-, rfl⟩ := acted
    unfold Card.hostLoad
    split
    · rfl
    · exact calm
  | store32 addr value =>
    obtain rfl := acted
    simp only [Access.Plain] at plain
    rw [hostStore32_plain _ _ _ (by omega)]
    exact calm
  | store8 addr byte => obtain rfl := acted; exact calm

theorem Card.Quiet.act {access : Access} {before after : Card R} {answer : access.Answer} (quiet : before.Quiet)
    (plain : access.Plain) (acted : Act access before answer after) : after.Quiet :=
  ⟨acted.a53_eq.trans quiet.1, (acted.door_eq plain).trans quiet.2⟩

theorem Access.IsLoad.plain {access : Access} (load : access.IsLoad) : access.Plain := by
  cases access with
  | load32 addr => trivial
  | store32 addr value => cases load
  | store8 addr byte => cases load

end CigCard.Mailbox
