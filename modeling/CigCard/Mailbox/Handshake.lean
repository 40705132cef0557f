import CigCard.Mailbox.Card

namespace CigCard.Mailbox

open Interaction ByteMemory

variable {R : Type}

def putAll (memory : Memory) (stores : List (Nat × List Byte)) : Memory :=
  stores.foldl (fun current piece => store current piece.1 piece.2) memory

theorem putAll_append (memory : Memory) (first second : List (Nat × List Byte)) :
    putAll memory (first ++ second) = putAll (putAll memory first) second := by
  simp [putAll]

def AwayFrom (address count : Nat) (stores : List (Nat × List Byte)) : Prop :=
  ∀ piece ∈ stores, address + count ≤ piece.1 ∨ piece.1 + piece.2.length ≤ address

theorem number_putAll (memory : Memory) (address count : Nat) (stores : List (Nat × List Byte))
    (away : AwayFrom address count stores) :
    number (putAll memory stores) address count = number memory address count := by
  induction stores generalizing memory with
  | nil => rfl
  | cons piece stores ih =>
    have head := away piece (List.mem_cons_self ..)
    have tail : AwayFrom address count stores := fun other member => away other (List.mem_cons_of_mem _ member)
    have step : putAll memory (piece :: stores) = putAll (store memory piece.1 piece.2) stores := rfl
    rw [step, ih _ tail, number_store_disjoint _ _ _ _ _ head]

def SeenIn (window : Memory) (seen : List (Nat × Byte)) : Prop := ∀ look ∈ seen, window look.1 = look.2

theorem SeenIn.look {window : Memory} {seen : List (Nat × Byte)} (before : SeenIn window seen) (addr : Nat) :
    SeenIn window (seen ++ [(addr, window addr)]) := by
  intro look member
  rcases List.mem_append.mp member with member | member
  · exact before look member
  · rw [List.mem_singleton.mp member]

/-- The life of one doorbell, rung while the A53 was idle: until the A53 stores its response nobody
    touches the window, and the interrupt register is cleared last. -/
inductive Outstanding (stores : R → List (Nat × List Byte)) (ring : Nat) (window : Memory)
    (earlier : List (Job R)) (card : Card R) : Prop where
  | rung : card.a53 = .idle → card.memory = window → card.served = earlier →
      Outstanding stores ring window earlier card
  | working (seen : List (Nat × Byte)) : card.a53 = .working ring seen → card.memory = window →
      SeenIn window seen → card.served = earlier → Outstanding stores ring window earlier card
  | answering (seen : List (Nat × Byte)) (response : R) (done pending : List (Nat × List Byte)) :
      card.a53 = .answering ring seen response pending → stores response = done ++ pending →
      card.memory = putAll window done → SeenIn window seen → card.served = earlier →
      Outstanding stores ring window earlier card
  | answered (job : Job R) : card.a53 = .idle → job.ring = ring → SeenIn window job.seen →
      card.memory = store32 (putAll window (stores job.response)) interruptReg 0 →
      card.served = earlier ++ [job] → Outstanding stores ring window earlier card

def Settled (stores : R → List (Nat × List Byte)) (ring : Nat) (window : Memory) (earlier : List (Job R))
    (card : Card R) : Prop :=
  card.a53 = .idle ∧ ∃ job : Job R, job.ring = ring ∧ SeenIn window job.seen ∧
    card.memory = store32 (putAll window (stores job.response)) interruptReg 0 ∧ card.served = earlier ++ [job]

section
variable {stores : R → List (Nat × List Byte)} {ring : Nat} {window : Memory} {earlier : List (Job R)}

def SparesDoor (stores : R → List (Nat × List Byte)) : Prop :=
  ∀ response, AwayFrom interruptReg 4 (stores response)

theorem door_putAll (spares : SparesDoor stores) (response : R) (done pending : List (Nat × List Byte))
    (split : stores response = done ++ pending) :
    load32 (putAll window done) interruptReg = load32 window interruptReg := by
  apply number_putAll
  intro piece member
  exact spares response piece (by rw [split]; exact List.mem_append_left _ member)

theorem Settled.quiet {card : Card R} (settled : Settled stores ring window earlier card) : card.Quiet := by
  obtain ⟨idle, job, -, -, memory, -⟩ := settled
  exact ⟨idle, by simp [Card.door, memory]⟩

/-- While the interrupt register is non-zero the response is not complete; once it is 0 it is. -/
theorem Outstanding.settled {card : Card R} (outstanding : Outstanding stores ring window earlier card)
    (spares : SparesDoor stores) (rang : load32 window interruptReg ≠ 0) (clear : card.door = 0) :
    Settled stores ring window earlier card := by
  unfold Card.door at clear
  cases outstanding with
  | rung _ memory _ => rw [memory] at clear; exact absurd clear rang
  | working seen _ memory _ _ => rw [memory] at clear; exact absurd clear rang
  | answering seen response done pending _ split memory _ _ =>
    rw [memory, door_putAll spares response done pending split] at clear
    exact absurd clear rang
  | answered job idle tag seen memory served => exact ⟨idle, job, tag, seen, memory, served⟩

theorem Outstanding.move {before after : Card R} (outstanding : Outstanding stores ring window earlier before)
    (length : before.rings.length = ring) (moved : Move stores before after) :
    Outstanding stores ring window earlier after := by
  cases outstanding with
  | rung idle memory served =>
    cases moved with
    | pickUp => exact .working [] (by rw [← length]) memory (by simp [SeenIn]) served
    | look r s addr busy => simp [idle] at busy
    | answer r s response busy => simp [idle] at busy
    | put r s response addr bytes pending busy => simp [idle] at busy
    | finish r s response busy => simp [idle] at busy
  | working seen busy memory agree served =>
    cases moved with
    | pickUp idle => simp [busy] at idle
    | look r s addr busy' =>
      obtain ⟨rfl, rfl⟩ : ring = r ∧ seen = s := by simpa [busy] using busy'
      refine .working (seen ++ [(addr, before.memory addr)]) rfl memory ?_ served
      rw [memory]
      exact agree.look addr
    | answer r s response busy' =>
      obtain ⟨rfl, rfl⟩ : ring = r ∧ seen = s := by simpa [busy] using busy'
      exact .answering seen response [] (stores response) rfl rfl memory agree served
    | put r s response addr bytes pending busy' => simp [busy] at busy'
    | finish r s response busy' => simp [busy] at busy'
  | answering seen response done pending busy split memory agree served =>
    cases moved with
    | pickUp idle => simp [busy] at idle
    | look r s addr busy' => simp [busy] at busy'
    | answer r s response' busy' => simp [busy] at busy'
    | put r s response' addr bytes pending' busy' =>
      obtain ⟨rfl, rfl, rfl, rfl⟩ : ring = r ∧ seen = s ∧ response = response' ∧
        pending = (addr, bytes) :: pending' := by simpa [busy] using busy'
      refine .answering seen response (done ++ [(addr, bytes)]) pending' rfl (by simp [split]) ?_ agree served
      rw [putAll_append, ← memory]
      rfl
    | finish r s response' busy' =>
      obtain ⟨rfl, rfl, rfl, rfl⟩ : ring = r ∧ seen = s ∧ response = response' ∧ pending = [] := by
        simpa [busy] using busy'
      refine .answered ⟨ring, seen, response⟩ rfl rfl agree ?_ (by rw [served])
      simp only [split, List.append_nil, ← memory]
  | answered job idle tag agree memory served =>
    exact absurd moved (fun step => Card.Quiet.stuck ⟨idle, by simp [Card.door, memory]⟩ step)

/-- The state between the doorbell and the first 0 that the host reads. With `owned` false the A53 was
    busy with something else when the bell rang, and nothing is known. -/
def Waiting (stores : R → List (Nat × List Byte)) (owned : Prop) (rings : List Ring) (window : Memory)
    (earlier : List (Job R)) (card : Card R) : Prop :=
  card.rings = rings ∧ (owned → Outstanding stores rings.length window earlier card)

def Cleared (stores : R → List (Nat × List Byte)) (owned : Prop) (rings : List Ring) (window : Memory)
    (earlier : List (Job R)) (card : Card R) : Prop :=
  card.rings = rings ∧ card.awaiting = false ∧ (owned → Settled stores rings.length window earlier card)

variable {owned : Prop} {rings : List Ring}

theorem Waiting.stable : Stable (world stores) (Waiting stores owned rings window earlier) := by
  intro before after waiting moved
  obtain ⟨same, outstanding⟩ := waiting
  refine ⟨by rw [moved.rings_eq, same], fun own => (outstanding own).move (by rw [same]) moved⟩

theorem Cleared.stable : Stable (world stores) (Cleared stores owned rings window earlier) := by
  intro before after cleared moved
  obtain ⟨same, quiet, settled⟩ := cleared
  refine ⟨by rw [moved.rings_eq, same], ?_, fun own => absurd moved (settled own).quiet.stuck⟩
  cases moved <;> exact quiet

theorem Cleared.hostLoad {card : Card R} (cleared : Cleared stores owned rings window earlier card) (addr : Nat) :
    Cleared stores owned rings window earlier (card.hostLoad addr) := by
  obtain ⟨same, quiet, settled⟩ := cleared
  refine ⟨by simp [same], ?_, fun own => ?_⟩
  · unfold Card.hostLoad
    split <;> simp [quiet]
  · simpa [Settled] using settled own

theorem Waiting.cleared {card : Card R} (waiting : Waiting stores owned rings window earlier card)
    (spares : SparesDoor stores) (rang : load32 window interruptReg ≠ 0) (clear : card.door = 0) :
    Cleared stores owned rings window earlier (card.hostLoad interruptReg) := by
  obtain ⟨same, outstanding⟩ := waiting
  refine ⟨by simp [same], by simp [Card.hostLoad, clear], fun own => ?_⟩
  simpa [Settled] using (outstanding own).settled spares rang clear

/-- The wait loop: it stops early only on a 0, and then the response is there. -/
theorem awaitClear_triple {guard : Access → Card R → Prop} (spares : SparesDoor stores)
    (rang : load32 window interruptReg ≠ 0)
    (allowed : ∀ s, Waiting stores owned rings window earlier s → guard (.load32 interruptReg) s)
    (remaining loopCount result : Nat) (started : result ≠ 0 ∨ 0 < remaining) :
    Triple (world stores) guard (Waiting stores owned rings window earlier)
      (awaitClear remaining loopCount result) (fun out s =>
        (out.2 = 0 → out.1 < loopCount + remaining ∧ Cleared stores owned rings window earlier s) ∧
        (out.2 ≠ 0 → out.1 = loopCount + remaining ∧ Waiting stores owned rings window earlier s)) := by
  induction remaining generalizing loopCount result with
  | zero =>
    refine .pure Waiting.stable fun s waiting => ?_
    have nonzero : result ≠ 0 := by omega
    exact ⟨fun zero => absurd zero nonzero, fun _ => ⟨rfl, waiting⟩⟩
  | succ remaining ih =>
    refine Triple.call (fun value s => (value = 0 → Cleared stores owned rings window earlier s) ∧
      (value ≠ 0 → Waiting stores owned rings window earlier s)) Waiting.stable allowed ?_ ?_
    · intro s value t waiting acted
      obtain ⟨rfl, rfl⟩ := acted
      refine ⟨fun clear => waiting.cleared spares rang clear, fun busy => ?_⟩
      have kept : s.hostLoad interruptReg = s := by simp [Card.hostLoad, Card.door, busy]
      rw [kept]
      exact waiting
    · intro value
      by_cases zero : value = 0
      · simp only [zero, Program.pure_bind, if_true, Program.pure_eq]
        refine .pure ?_ fun s cleared => ?_
        · intro before after cleared moved
          exact ⟨fun _ => Cleared.stable _ _ (cleared.1 trivial) moved, fun nonzero => absurd rfl nonzero⟩
        · exact ⟨fun _ => ⟨by omega, cleared.1 trivial⟩, fun nonzero => absurd rfl nonzero⟩
      · simp only [zero, Program.pure_bind, if_false]
        apply (ih (loopCount + 1) value (.inl zero)).consequence (fun s waiting => waiting.2 zero)
        intro out s ends
        refine ⟨fun clear => ⟨?_, (ends.1 clear).2⟩, fun busy => ⟨?_, (ends.2 busy).2⟩⟩
        · have := (ends.1 clear).1
          omega
        · have := (ends.2 busy).1
          omega

theorem Move.completes (card : Card R) (tag : Nat) (seen : List (Nat × Byte)) (response : R)
    (busy : card.a53 = .working tag seen) : Relation.ReflTransGen (Move stores) card { card with
      memory := store32 (putAll card.memory (stores response)) interruptReg 0
      a53 := .idle
      served := card.served ++ [⟨tag, seen, response⟩] } := by
  have puts : ∀ (pending : List (Nat × List Byte)) (start : Card R),
      start.a53 = .answering tag seen response pending → Relation.ReflTransGen (Move stores) start
        { start with memory := putAll start.memory pending, a53 := .answering tag seen response [] } := by
    intro pending
    induction pending with
    | nil =>
      intro start answering
      simp only [putAll, List.foldl_nil, ← answering]
      exact .refl
    | cons piece pending ih =>
      intro start answering
      exact .head (.put start tag seen response piece.1 piece.2 pending answering) (ih _ rfl)
  refine .head (.answer card tag seen response busy) (.tail (puts (stores response) _ rfl) ?_)
  exact .finish _ tag seen response rfl

theorem xdmaRegWrite_runs {α : Type} (card : Card R) (addr value : Nat) (next : Unit → Host α) :
    Runs (world stores) ((xdmaRegWrite addr value).bind next, card) (next (), card.hostStore32 addr value) := by
  have acted : Act (.store32 addr value) card () (card.hostStore32 addr value) := rfl
  exact .head (.act acted) .refl

theorem xdmaRegRead_runs {α : Type} (card : Card R) (addr value : Nat) (next : Nat → Host α)
    (found : load32 card.memory addr = value) :
    Runs (world stores) ((xdmaRegRead addr).bind next, card) (next value, card.hostLoad addr) := by
  have acted : Act (.load32 addr) card value (card.hostLoad addr) := ⟨found.symm, rfl⟩
  exact .head (.act acted) .refl

theorem awaitClear_busy {α : Type} (card : Card R) (busy : card.door ≠ 0) (remaining loopCount result : Nat)
    (next : Nat × Nat → Host α) : Runs (world stores) ((awaitClear (remaining + 1) loopCount result).bind next, card)
      (next (loopCount + (remaining + 1), card.door), card) := by
  have poll : Act (.load32 interruptReg) card card.door card := ⟨rfl, by simp [Card.hostLoad, busy]⟩
  induction remaining generalizing loopCount result with
  | zero =>
    refine .head (.act poll) ?_
    simp only [Program.pure_bind, busy, if_false, awaitClear, Program.pure_eq]
    exact .refl
  | succ remaining ih =>
    refine .head (.act poll) ?_
    simp only [Program.pure_bind, busy, if_false]
    rw [show loopCount + (remaining + 1 + 1) = loopCount + 1 + (remaining + 1) by omega]
    exact ih (loopCount + 1) card.door

theorem awaitClear_clear {α : Type} (card : Card R) (clear : card.door = 0) (remaining loopCount result : Nat)
    (next : Nat × Nat → Host α) : Runs (world stores) ((awaitClear (remaining + 1) loopCount result).bind next, card)
      (next (loopCount, 0), card.hostLoad interruptReg) := by
  rw [awaitClear, Program.bind_eq, Program.bind_assoc]
  exact (xdmaRegRead_runs card interruptReg 0 _ clear).trans .refl

end

end CigCard.Mailbox
