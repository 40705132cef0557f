import CigCard.Mailbox.CommandMatching

namespace CigCard.Mailbox

open Interaction ByteMemory

def Card.Spares {R : Type} (card : Card R) : Prop :=
  ∀ tag seen response pending, card.a53 = .answering tag seen response pending → AwayFrom interruptReg 4 pending

/-- Between two calls: the doorbell is down, and the A53 has nothing in hand or the command `left` that the
    host gave up on. -/
structure Resting (rings : List Ring) (left : Option Nat) (card : Card CommandResponse) : Prop where
  rung : card.rings = rings
  down : card.door = 0
  spares : card.Spares
  held : card.a53 = .idle ∨ ∃ tag seen, left = some tag ∧ card.a53.InHand tag seen

/-- After a doorbell: the A53 has one command to answer, `tag`, and takes the doorbell back with it. -/
structure Answering (rings : List Ring) (tag : Nat) (card : Card CommandResponse) : Prop where
  rung : card.rings = rings
  spares : card.Spares
  one : card.Quiet ∨ (card.door ≠ 0 ∧ (card.a53 = .idle ∧ card.rings.length = tag ∨
    ∃ seen, card.a53.InHand tag seen))

section
variable {rings : List Ring} {left : Option Nat} {tag : Nat} {card after : Card CommandResponse}

theorem not_inHand_idle {seen : List (Nat × Byte)} (idle : card.a53 = .idle) : ¬ card.a53.InHand tag seen := by
  intro held
  rcases held with working | ⟨response, pending, answering⟩
  · rw [idle] at working
    cases working
  · rw [idle] at answering
    cases answering

theorem Card.Spares.move (spares : card.Spares) (moved : Move CommandResponse.stores card after) : after.Spares := by
  intro tag seen response pending answering
  cases moved with
  | pickUp => cases answering
  | look => cases answering
  | answer =>
    cases answering
    exact commandStores_spare response
  | put tag' seen' response' addr bytes pending' busy =>
    cases answering
    exact fun piece member => spares _ _ _ _ busy piece (List.mem_cons_of_mem _ member)
  | finish => cases answering

theorem Card.Spares.act {access : Access} {answer : access.Answer} (spares : card.Spares)
    (acted : Act access card answer after) : after.Spares := by
  intro tag seen response pending answering
  rw [acted.a53_eq] at answering
  exact spares tag seen response pending answering

theorem Card.Quiet.spares (quiet : card.Quiet) : card.Spares := by
  intro tag seen response pending answering
  rw [quiet.1] at answering
  cases answering

/-- What the A53 does to a command in hand: it keeps it, or has answered it and taken the doorbell back. -/
theorem Card.Spares.inHand {seen : List (Nat × Byte)} (spares : card.Spares) (held : card.a53.InHand tag seen)
    (moved : Move CommandResponse.stores card after) :
    ((∃ seen, after.a53.InHand tag seen) ∧ after.door = card.door) ∨ after.Quiet := by
  cases moved with
  | pickUp idle => exact absurd held (not_inHand_idle idle)
  | look tag' seen' addr busy =>
    rcases held with working | ⟨response, pending, answering⟩
    · obtain ⟨rfl, rfl⟩ := A53.working.inj (busy.symm.trans working)
      exact .inl ⟨⟨_, .inl rfl⟩, rfl⟩
    · cases busy.symm.trans answering
  | answer tag' seen' response busy =>
    rcases held with working | ⟨response, pending, answering⟩
    · obtain ⟨rfl, rfl⟩ := A53.working.inj (busy.symm.trans working)
      exact .inl ⟨⟨_, .inr ⟨_, _, rfl⟩⟩, rfl⟩
    · cases busy.symm.trans answering
  | put tag' seen' response addr bytes pending busy =>
    have away := spares _ _ _ _ busy _ (List.mem_cons_self ..)
    have same : load32 (store card.memory addr bytes) interruptReg = load32 card.memory interruptReg :=
      load32_store_disjoint _ _ _ _ away
    rcases held with working | ⟨response, pending, answering⟩
    · cases busy.symm.trans working
    · obtain ⟨rfl, -⟩ := A53.answering.inj (busy.symm.trans answering)
      exact .inl ⟨⟨_, .inr ⟨_, _, rfl⟩⟩, same⟩
  | finish tag' seen' response busy => exact .inr ⟨rfl, by simp [Card.door]⟩

theorem Resting.keeps : Keeps commandWorld anything Access.Plain (Resting rings left) where
  stable := by
    intro before after resting moved
    obtain ⟨same, down, spares, held⟩ := resting
    have rung := moved.rings_eq.trans same
    rcases held with idle | ⟨tag, seen, abandoned, held⟩
    · exact absurd moved (fun step => Card.Quiet.stuck ⟨idle, down⟩ step)
    · rcases spares.inHand held moved with ⟨⟨seen, held⟩, door⟩ | quiet
      · exact ⟨rung, door.trans down, spares.move moved, .inr ⟨tag, seen, abandoned, held⟩⟩
      · exact ⟨rung, quiet.2, spares.move moved, .inl quiet.1⟩
  guarded _ _ _ _ := trivial
  acts := by
    intro access s answer t plain resting acted
    refine ⟨(acted.rings_eq plain).trans resting.rung, (acted.door_eq plain).trans resting.down,
      resting.spares.act acted, ?_⟩
    rw [acted.a53_eq]
    exact resting.held

theorem Answering.stable : Stable commandWorld (Answering rings tag) := by
  intro before after answering moved
  obtain ⟨same, spares, one⟩ := answering
  refine ⟨moved.rings_eq.trans same, spares.move moved, ?_⟩
  rcases one with quiet | ⟨rung, ⟨idle, own⟩ | ⟨seen, held⟩⟩
  · exact absurd moved quiet.stuck
  · cases moved with
    | pickUp =>
      exact .inr ⟨rung, .inr ⟨[], .inl (by rw [own])⟩⟩
    | look tag' seen' addr busy => cases idle.symm.trans busy
    | answer tag' seen' response busy => cases idle.symm.trans busy
    | put tag' seen' response addr bytes pending busy => cases idle.symm.trans busy
    | finish tag' seen' response busy => cases idle.symm.trans busy
  · rcases spares.inHand held moved with ⟨⟨seen, held⟩, door⟩ | quiet
    · exact .inr ⟨by rw [door]; exact rung, .inr ⟨seen, held⟩⟩
    · exact .inl quiet

theorem Answering.keeps : Keeps commandWorld anything Access.IsLoad (Answering rings tag) where
  stable := Answering.stable
  guarded _ _ _ _ := trivial
  acts := by
    intro access s answer t load answering acted
    refine ⟨(acted.rings_eq load.plain).trans answering.rung, answering.spares.act acted, ?_⟩
    rw [Card.Quiet, acted.a53_eq, acted.door_eq load.plain, acted.rings_eq load.plain]
    exact answering.one

theorem Answering.quiet (answering : Answering rings tag card) (down : card.door = 0) : card.Quiet := by
  rcases answering.one with quiet | ⟨rung, -⟩
  · exact quiet
  · exact absurd down rung

/-- The host gives up: what the A53 has not begun it never begins. -/
theorem Answering.abandon (answering : Answering rings tag card) :
    Resting rings (some tag) (card.hostStore32 interruptReg 0) := by
  rw [hostStore32_clear]
  refine ⟨answering.rung, by simp [Card.door], answering.spares, ?_⟩
  rcases answering.one with quiet | ⟨-, ⟨idle, -⟩ | ⟨seen, held⟩⟩
  · exact .inl quiet.1
  · exact .inl idle
  · exact .inr ⟨tag, seen, rfl, held⟩

theorem awaitClear_answers (remaining loopCount result : Nat) (started : result ≠ 0 ∨ 0 < remaining) :
    Triple commandWorld anything (Answering rings tag) (awaitClear remaining loopCount result) (fun out s =>
      Answering rings tag s ∧ (out.2 = 0 → s.Quiet) ∧ (out.2 ≠ 0 → out.1 = loopCount + remaining)) := by
  induction remaining generalizing loopCount result with
  | zero => exact .pure Answering.stable fun s answering => ⟨answering, by omega, fun _ => rfl⟩
  | succ remaining ih =>
    refine Triple.call (fun value s => Answering rings tag s ∧ (value = 0 → s.Quiet)) Answering.stable
      (fun _ _ => trivial) ?_ ?_
    · intro s value t answering acted
      have kept := Answering.keeps.acts (.load32 interruptReg) s value t trivial answering acted
      obtain ⟨rfl, rfl⟩ := acted
      exact ⟨kept, fun zero => kept.quiet (by simpa [Card.door] using zero)⟩
    · intro value
      by_cases zero : value = 0
      · simp only [zero, Program.pure_bind, if_true, Program.pure_eq]
        refine .pure ?_ fun s read => ⟨read.1, fun _ => read.2 trivial, fun nonzero => absurd rfl nonzero⟩
        exact fun before after read moved => absurd moved (read.2 trivial).stuck
      · simp only [zero, Program.pure_bind, if_false]
        apply (ih (loopCount + 1) value (.inl zero)).consequence (fun s read => read.1)
        intro out s ends
        exact ⟨ends.1, ends.2.1, fun busy => by have := ends.2.2 busy; omega⟩

/-- The command that the A53 answers after this doorbell: the one it still had in hand, else the new one. -/
def Ring.answers (ring : Ring) (left : Option Nat) (number : Nat) : Nat :=
  if ring.idle then number else left.getD number

/-- What `read_result` and the copy loop leave in the buffer: an error leaves it alone. -/
def Returns (cmdResult : Memory) (out : Exit × Memory) : Prop :=
  out.1 = .ok ∨ out.1 = .copying ∨ ((out.1 = .resultError ∨ out.1 = .flagError) ∧ out.2 = cmdResult)

theorem Returns.not_timeout {cmdResult : Memory} {out : Exit × Memory} (returns : Returns cmdResult out) :
    out.1 ≠ .timeout := by
  rcases returns with exit | exit | ⟨exit | exit, -⟩ <;> simp [exit]

theorem copyResult_leaves (resultLength rounds cursor bufCursor : Nat) (buffer cmdResult : Memory) :
    (copyResult resultLength rounds cursor bufCursor buffer).Leaves (Returns cmdResult) := by
  induction rounds generalizing cursor bufCursor buffer with
  | zero => exact .inr (.inl rfl)
  | succ rounds ih =>
    unfold copyResult
    split
    · exact fun word => ih _ _ _
    · exact .inl rfl

theorem readResult_leaves (rounds : Nat) (cmdResult : Memory) :
    (readResult rounds cmdResult).Leaves (Returns cmdResult) := by
  apply Program.Leaves.bind
  intro status
  change Program.Leaves _ (ite _ _ _)
  split
  · exact .inr (.inr ⟨.inl rfl, rfl⟩)
  · apply Program.Leaves.bind
    intro flag
    change Program.Leaves _ (ite _ _ _)
    split
    · exact .inr (.inr ⟨.inr rfl, rfl⟩)
    · exact fun resultLength => copyResult_leaves _ _ _ _ _ _

/-- What a call leaves the A53 with: nothing, or after a timeout the command that it was to answer. -/
structure HandsOver (rings : List Ring) (left : Option Nat) (cmdResult : Memory) (ring : Ring) (out : Exit × Memory)
    (card : Card CommandResponse) : Prop where
  rung : card.rings = rings ++ [ring]
  busy : ring.idle = false → left.isSome
  timedOut : out.1 = .timeout → out.2 = cmdResult ∧
    Resting (rings ++ [ring]) (some (ring.answers left (rings.length + 1))) card
  returned : out.1 ≠ .timeout → card.Quiet ∧ Returns cmdResult out

theorem rung_answers (resting : Resting rings left card) : ∃ ring : Ring, (ring.idle = false → left.isSome) ∧
    Answering (rings ++ [ring]) (ring.answers left (rings.length + 1)) (card.hostStore32 interruptReg 1) := by
  rw [hostStore32_ring]
  refine ⟨⟨store32 card.memory interruptReg 1, card.a53.isIdle⟩, ?_, by rw [resting.rung], resting.spares,
    .inr ⟨by simp [Card.door], ?_⟩⟩
  · intro busy
    rcases resting.held with idle | ⟨tag, seen, abandoned, held⟩
    · simp [idle, A53.isIdle] at busy
    · simp [abandoned]
  · rcases resting.held with idle | ⟨tag, seen, abandoned, held⟩
    · exact .inl ⟨idle, by simp [Ring.answers, idle, A53.isIdle, resting.rung]⟩
    · have busy : card.a53.isIdle = false := by
        rcases held with working | ⟨response, pending, answering⟩
        · rw [working]
          rfl
        · rw [answering]
          rfl
      refine .inr ⟨seen, ?_⟩
      simpa [Ring.answers, busy, abandoned] using held

theorem answering_handsOver (rounds : Nat) (cmdResult : Memory) (ring : Ring) (busy : ring.idle = false → left.isSome) :
    Triple commandWorld anything (Answering (rings ++ [ring]) (ring.answers left (rings.length + 1)))
      ((awaitClear 1000 0 0).bind (afterWait rounds cmdResult)) (HandsOver rings left cmdResult ring) := by
  refine Triple.bind _ (awaitClear_answers 1000 0 0 (.inr (by decide))) fun out => ?_
  unfold afterWait
  by_cases zero : out.2 = 0
  · rw [if_neg (by simp [zero])]
    have quiet : Keeps commandWorld anything Access.IsLoad fun s => s.rings = rings ++ [ring] ∧ s.Quiet := by
      constructor
      · exact fun _ _ both moved => absurd moved both.2.stuck
      · exact fun _ _ _ _ => trivial
      · exact fun _ _ _ _ load both acted =>
          ⟨(acted.rings_eq load.plain).trans both.1, both.2.act load.plain acted⟩
    apply ((Triple.keeps quiet (readResult_isLoad rounds cmdResult)).leaves (readResult_leaves _ _)).consequence
    · exact fun s ends => ⟨ends.1.rung, ends.2.1 zero⟩
    · exact fun out s ends => ⟨ends.1.1, busy, fun late => absurd late ends.2.not_timeout, fun _ => ⟨ends.1.2, ends.2⟩⟩
  · by_cases late : out.1 = 1000
    · rw [if_pos ⟨late, zero⟩]
      refine (Triple.perform_bind (fun _ => Resting (rings ++ [ring]) (some (ring.answers left (rings.length + 1))))
        Answering.stable (fun _ _ => trivial) ?_ fun _ => ?_).consequence (fun s ends => ends.1) fun _ _ h => h
      · intro s answer t answering acted
        obtain rfl := acted
        exact answering.abandon
      · refine .pure Resting.keeps.stable fun s resting => ⟨resting.rung, busy, fun _ => ⟨rfl, resting⟩, ?_⟩
        exact fun returned => absurd rfl returned
    · intro state ends
      exact absurd (by simpa using ends.2.2 zero) late

theorem sendCmdToA53Sync_handsOver (rounds : Nat) (sendCmd : Command) (cmdResult : Memory) :
    Triple commandWorld anything (Resting rings left) (sendCmdToA53Sync rounds sendCmd cmdResult)
      (fun out card => ∃ ring, HandsOver rings left cmdResult ring out card) := by
  have fits := sendCmd.fits
  apply Triple.keeps_bind Resting.keeps (xdmaRegWrite_plain _ _ (by decide))
  intro
  apply Triple.keeps_bind Resting.keeps (writeWords_plain 8 0 sendCmd.bytes (by omega) (by decide))
  intro
  apply Triple.keeps_bind Resting.keeps (xdmaRegWrite_plain _ _ (by decide))
  intro
  apply Triple.keeps_bind Resting.keeps (xdmaRegWrite_plain _ _ (by decide))
  intro
  refine Triple.perform_bind (fun _ s => ∃ ring : Ring, (ring.idle = false → left.isSome) ∧
    Answering (rings ++ [ring]) (ring.answers left (rings.length + 1)) s) Resting.keeps.stable (fun _ _ => trivial) ?_
    fun _ => ?_
  · intro s answer t resting acted
    obtain rfl := acted
    exact rung_answers resting
  · refine .exists_pre fun ring => .given fun busy => ?_
    exact (answering_handsOver rounds cmdResult ring busy).consequence (fun _ h => h) fun out s ends => ⟨ring, ends⟩

end

end CigCard.Mailbox
