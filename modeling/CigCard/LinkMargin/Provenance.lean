import CigCard.LinkMargin.Sweep
import CigCard.Mailbox.LateResults

namespace CigCard.LinkMargin

open Interaction ByteMemory Mailbox

/-- The global buffer, and the history of the run: the commands with their outcomes, the results that
    have been parsed, and the command the buffer belongs to. `busy` is a command that the host gave up on
    and that the A53 may still have in hand (`some none`: one from before the run), `rungBusy` numbers the
    commands whose doorbell it had not looked at because of that. -/
structure Bus where
  cmdResult : Memory
  owner : Option Nat
  busy : Option (Option Nat)
  sent : List (Request × Exit)
  parsed : List Parsed
  rungBusy : List Nat

def Bus.Holds (bus : Bus) (held : Option (Option Nat)) : Prop := held = none ∨ held = bus.busy

def Bus.answered (bus : Bus) (held : Option (Option Nat)) : Option Nat := held.getD (some bus.sent.length)

def Bus.record (bus : Bus) (request : Request) (held : Option (Option Nat)) (exit : Exit) : Bus := { bus with
  sent := bus.sent ++ [(request, exit)]
  rungBusy := if held.isSome then bus.rungBusy ++ [bus.sent.length] else bus.rungBusy }

/-- A call of `send_cmd_to_a53_sync`: a success fills the buffer with what the A53 returned, for whichever
    command it did; a failure leaves it alone, and after a timeout the A53 may go on. -/
inductive Bus.Sends (request : Request) (bus : Bus) : Exit → Bus → Prop where
  | ok (held : Option (Option Nat)) (filled : Memory) : bus.Holds held → Bus.Sends request bus .ok
      { bus.record request held .ok with cmdResult := filled, owner := bus.answered held, busy := none }
  | refused (held : Option (Option Nat)) (exit : Exit) : bus.Holds held → exit = .resultError ∨ exit = .flagError →
      Bus.Sends request bus exit { bus.record request held exit with busy := none }
  | timeout (held busy : Option (Option Nat)) : bus.Holds held → busy = none ∨ busy = some (bus.answered held) →
      Bus.Sends request bus .timeout { bus.record request held .timeout with busy }

def Bus.parse (bus : Bus) : Parsed := ⟨bus.sent.length - 1, bus.owner, getCmdResult bus.cmdResult⟩

def busWorld : World Call Call.Answer Bus where
  act
    | .sendCmdToA53Sync request, bus, exit, after => bus.Sends request exit after
    | .getCmdResult, bus, parsed, after => parsed = bus.parse ∧ after = { bus with parsed := bus.parsed ++ [bus.parse] }
  env _ _ := False

/-- The number of a command's doorbell, `early` of them having been rung before the run. -/
def Names (early : Nat) : Option Nat → Nat → Prop
  | none, tag => tag ≤ early
  | some k, tag => tag = early + k + 1

/-- The card between two calls, as the bus has it. -/
structure Bus.Stands (early : Nat) (bus : Bus) (card : Card CommandResponse) : Prop where
  rung : card.rings.length = early + bus.sent.length
  rests : ∃ left, Resting card.rings left card ∧ ∀ tag, left = some tag → ∃ k, bus.busy = some k ∧ Names early k tag

section
variable {early : Nat} {bus : Bus} {request : Request} {card after : Card CommandResponse} {left : Option Nat}
  {exit : Exit} {cmdResult : Memory} {ring : Ring}

/-- What the A53 held at the doorbell, and the tag of the command that it then answers. -/
theorem Bus.Stands.held (rung : card.rings.length = early + bus.sent.length)
    (busy : ∀ tag, left = some tag → ∃ k, bus.busy = some k ∧ Names early k tag)
    (handed : HandsOver card.rings left bus.cmdResult ring (exit, cmdResult) after) :
    ∃ held, bus.Holds held ∧ (held = none ↔ ring.idle = true) ∧
      ∃ k, bus.answered held = k ∧ Names early k (ring.answers left (card.rings.length + 1)) := by
  cases idle : ring.idle with
  | true =>
    refine ⟨none, .inl rfl, by simp, some bus.sent.length, rfl, ?_⟩
    simp [Names, Ring.answers, idle, rung]
  | false =>
    obtain ⟨tag, rfl⟩ := Option.isSome_iff_exists.mp (handed.busy idle)
    obtain ⟨k, isBusy, names⟩ := busy tag rfl
    refine ⟨some k, .inr isBusy.symm, by simp, k, rfl, ?_⟩
    simpa [Ring.answers, idle] using names

/-- Every call on the card is one that `Bus.Sends` allows, and a result that was not rung for while the
    A53 was busy is the command's own. -/
theorem sendCmdToA53Sync_sends (rounds : Nat) (stands : bus.Stands early card)
    (run : Runs commandWorld (sendCmdToA53Sync rounds request.command bus.cmdResult, card)
      (.pure (exit, cmdResult), after)) (returned : exit ≠ .copying) :
    ∃ next, bus.Sends request exit next ∧ next.cmdResult = cmdResult ∧ next.Stands early after ∧
      (exit = .ok → bus.sent.length ∉ next.rungBusy → ∃ job ∈ after.served,
        job.ring = early + bus.sent.length + 1 ∧ Copied job.response.bytes cmdResult) := by
  obtain ⟨rung, left, resting, busy⟩ := stands
  have prepared : Preparing False card.rings card := ⟨rfl, False.elim⟩
  obtain ⟨ring, handed⟩ := (sendCmdToA53Sync_handsOver rounds request.command bus.cmdResult).reachable resting run
  obtain ⟨ring', same, -, own⟩ :=
    (sendCmdToA53Sync_triple rounds request.command bus.cmdResult).reachable prepared run
  obtain rfl : ring = ring' := by simpa [handed.rung] using same
  obtain ⟨held, holds, free, k, answered, names⟩ := Bus.Stands.held rung busy handed
  have longer : after.rings.length = early + (bus.sent.length + 1) := by simp [handed.rung, rung, Nat.add_assoc]
  have mine : exit = .ok → bus.sent.length ∉ (bus.record request held exit).rungBusy → ∃ job ∈ after.served,
      job.ring = early + bus.sent.length + 1 ∧ Copied job.response.bytes cmdResult := by
    intro done free'
    have idle : ring.idle = true := by
      rw [← free]
      cases held with
      | none => rfl
      | some k => simp [Bus.record] at free'
    rw [← rung]
    exact (own idle).1 done
  have idles : exit ≠ .timeout → ∀ next : Bus, next.sent = bus.sent ++ [(request, exit)] → next.Stands early after := by
    intro late next sent
    refine ⟨by rw [longer, sent, List.length_append, List.length_singleton], none, ?_, by simp⟩
    have quiet := (handed.returned late).1
    exact ⟨rfl, quiet.2, quiet.spares, .inl quiet.1⟩
  cases exit with
  | timeout =>
    obtain ⟨kept, rests⟩ := handed.timedOut rfl
    refine ⟨_, .timeout held (some k) holds (.inr (by rw [answered])), kept.symm, ⟨?_, _, handed.rung ▸ rests, ?_⟩,
      by simp⟩
    · rw [longer]
      simp [Bus.record]
    · intro tag same
      obtain rfl := Option.some.inj same
      exact ⟨k, rfl, names⟩
  | resultError =>
    obtain ⟨-, ok | copying | ⟨-, kept⟩⟩ := handed.returned (by simp)
    · cases ok
    · cases copying
    · exact ⟨_, .refused held _ holds (.inl rfl), kept.symm, idles (by simp) _ rfl, by simp⟩
  | flagError =>
    obtain ⟨-, ok | copying | ⟨-, kept⟩⟩ := handed.returned (by simp)
    · cases ok
    · cases copying
    · exact ⟨_, .refused held _ holds (.inr rfl), kept.symm, idles (by simp) _ rfl, by simp⟩
  | ok => exact ⟨_, .ok held cmdResult holds, rfl, idles (by simp) _ rfl, mine⟩
  | copying => exact absurd rfl returned

end

def Bus.Read (bus : Bus) (channel : Nat) (reading : Reading) : Prop :=
  reading.parsed ∈ bus.parsed ∧
    ∃ exit, bus.sent[reading.parsed.command]? = some (.read channel reading.dev reading.reg, exit)

structure Bus.Orderly (channel : Nat) (bus : Bus) : Prop where
  owner : ∀ n, bus.owner = some n → n < bus.sent.length
  busy : ∀ n, bus.busy = some (some n) → n < bus.sent.length
  rungBusy : ∀ n ∈ bus.rungBusy, n < bus.sent.length
  last : ∀ request exit, bus.sent.getLast? = some (request, exit) →
    (bus.owner = some (bus.sent.length - 1) ↔ exit = .ok ∧ bus.sent.length - 1 ∉ bus.rungBusy)
  parsed : ∀ p ∈ bus.parsed, ∃ request exit, bus.sent[p.command]? = some (request, exit) ∧
    (p.origin = some p.command ↔ exit = .ok ∧ p.command ∉ bus.rungBusy)
  writes : ∀ (k : Nat) channel' dev reg value reading change exit,
    bus.sent[k]? = some (.write channel' dev reg value (some (reading, change)), exit) →
      channel' = channel ∧ reading.dev = dev ∧ reading.reg = reg ∧ value = change.apply reading.value ∧
        reading.parsed.command < k ∧ bus.Read channel reading

/-- A write may only put back a value that was read from the same register of the same chip. -/
def Request.Backed (channel : Nat) (bus : Bus) : Request → Prop
  | .read _ _ _ | .write _ _ _ _ none => True
  | .write channel' dev reg value (some (reading, change)) =>
    channel' = channel ∧ reading.dev = dev ∧ reading.reg = reg ∧ value = change.apply reading.value ∧ bus.Read channel reading

section
variable {channel : Nat} {bus after : Bus} {exit : Exit} {request : Request}

theorem Bus.Sends.sent_eq (sends : bus.Sends request exit after) : after.sent = bus.sent ++ [(request, exit)] := by
  cases sends <;> rfl

theorem Bus.Sends.parsed_eq (sends : bus.Sends request exit after) : after.parsed = bus.parsed := by
  cases sends <;> rfl

theorem Bus.Sends.known (sends : bus.Sends request exit after) {k : Nat} {entry : Request × Exit}
    (found : bus.sent[k]? = some entry) : after.sent[k]? = some entry := by
  rw [sends.sent_eq, List.getElem?_append_left (List.getElem?_eq_some_iff.mp found).1, found]

theorem Bus.Sends.read (sends : bus.Sends request exit after) {reading : Reading}
    (read : bus.Read channel reading) : after.Read channel reading := by
  obtain ⟨member, exit', found⟩ := read
  exact ⟨sends.parsed_eq ▸ member, exit', sends.known found⟩

theorem Bus.Orderly.answered_le (orderly : bus.Orderly channel) {held : Option (Option Nat)}
    (holds : bus.Holds held) {n : Nat} (answered : bus.answered held = some n) :
    n ≤ bus.sent.length ∧ (n = bus.sent.length ↔ held = none) := by
  rcases holds with rfl | rfl
  · obtain rfl := Option.some.inj answered
    simp
  · cases left : bus.busy with
    | none =>
      rw [left] at answered
      obtain rfl := Option.some.inj answered
      simp
    | some k =>
      rw [left] at answered
      obtain rfl : k = some n := answered
      have before := orderly.busy n left
      exact ⟨by omega, by simp; omega⟩

/-- What one call does to the history, whatever the A53 held. -/
theorem Bus.Sends.cases (sends : bus.Sends request exit after) : ∃ held, bus.Holds held ∧
    after.rungBusy = (bus.record request held exit).rungBusy ∧
    (exit = .ok ∧ after.owner = bus.answered held ∨ exit ≠ .ok ∧ after.owner = bus.owner) ∧
    (after.busy = none ∨ after.busy = some (bus.answered held)) := by
  cases sends with
  | ok held filled holds => exact ⟨held, holds, rfl, .inl ⟨rfl, rfl⟩, .inl rfl⟩
  | refused held exit holds failed =>
    have other : exit ≠ .ok := by rcases failed with rfl | rfl <;> simp
    exact ⟨held, holds, rfl, .inr ⟨other, rfl⟩, .inl rfl⟩
  | timeout held busy holds left => exact ⟨held, holds, rfl, .inr ⟨by simp, rfl⟩, left⟩

theorem Bus.record_old (held : Option (Option Nat)) {n : Nat} (old : n < bus.sent.length) :
    n ∈ (bus.record request held exit).rungBusy ↔ n ∈ bus.rungBusy := by
  unfold Bus.record
  split
  · simp [Nat.ne_of_lt old]
  · exact Iff.rfl

theorem Bus.Orderly.rung_lt (orderly : bus.Orderly channel) (held : Option (Option Nat)) {n : Nat}
    (member : n ∈ (bus.record request held exit).rungBusy) : n < bus.sent.length + 1 := by
  by_cases old : n < bus.sent.length
  · exact Nat.lt_succ_of_lt old
  · unfold Bus.record at member
    split at member
    · rcases List.mem_append.mp member with before | last
      · exact absurd (orderly.rungBusy n before) old
      · rw [List.mem_singleton.mp last]
        exact Nat.lt_succ_self _
    · exact absurd (orderly.rungBusy n member) old

theorem Bus.Orderly.rung_new (orderly : bus.Orderly channel) (held : Option (Option Nat)) :
    bus.sent.length ∈ (bus.record request held exit).rungBusy ↔ held ≠ none := by
  have fresh : bus.sent.length ∉ bus.rungBusy := fun member => absurd (orderly.rungBusy _ member) (Nat.lt_irrefl _)
  cases held with
  | none => simpa [Bus.record] using fresh
  | some k => simp [Bus.record]

theorem Bus.Orderly.send (orderly : bus.Orderly channel) (backed : request.Backed channel bus)
    (sends : bus.Sends request exit after) : after.Orderly channel := by
  have longer : after.sent.length = bus.sent.length + 1 := by simp [sends.sent_eq]
  obtain ⟨held, holds, rung, owner, busy⟩ := sends.cases
  refine ⟨?_, ?_, ?_, ?_, ?_, ?_⟩
  · intro n owned
    rcases owner with ⟨-, filled⟩ | ⟨-, kept⟩
    · have bound := orderly.answered_le holds (filled.symm.trans owned)
      omega
    · have old := orderly.owner n (kept.symm.trans owned)
      omega
  · intro n left
    rcases busy with idle | given
    · cases idle.symm.trans left
    · have bound := orderly.answered_le holds (Option.some.inj (given.symm.trans left))
      omega
  · intro n member
    rw [rung] at member
    rw [longer]
    exact orderly.rung_lt held member
  · intro request' exit' latest
    rw [sends.sent_eq, List.getLast?_concat, Option.some.injEq, Prod.mk.injEq] at latest
    obtain ⟨rfl, rfl⟩ := latest
    rw [longer, Nat.add_sub_cancel, rung, orderly.rung_new]
    rcases owner with ⟨done, filled⟩ | ⟨failed, kept⟩
    · rw [filled]
      constructor
      · exact fun own => ⟨done, not_not_intro ((orderly.answered_le holds own).2.mp rfl)⟩
      · intro free
        rw [not_not.mp free.2]
        rfl
    · constructor
      · intro owned
        exact absurd (orderly.owner _ (kept.symm.trans owned)) (Nat.lt_irrefl _)
      · exact fun same => absurd same.1 failed
  · intro p member
    rw [sends.parsed_eq] at member
    obtain ⟨request', exit', found, own⟩ := orderly.parsed p member
    have old : p.command < bus.sent.length := (List.getElem?_eq_some_iff.mp found).1
    exact ⟨request', exit', sends.known found, by rw [rung, Bus.record_old held old]; exact own⟩
  · intro k channel' dev reg value reading change exit' found
    rcases Nat.lt_trichotomy k bus.sent.length with old | rfl | beyond
    · rw [sends.sent_eq, List.getElem?_append_left old] at found
      obtain ⟨line, same, place, changed, before, read⟩ := orderly.writes k _ dev reg value reading change exit' found
      exact ⟨line, same, place, changed, before, sends.read read⟩
    · rw [sends.sent_eq, List.getElem?_concat_length, Option.some.injEq, Prod.mk.injEq] at found
      obtain ⟨rfl, rfl⟩ := found
      obtain ⟨line, same, place, changed, read⟩ := backed
      have before : reading.parsed.command < bus.sent.length := by
        obtain ⟨_, earlier⟩ := read.2
        exact (List.getElem?_eq_some_iff.mp earlier).1
      exact ⟨line, same, place, changed, before, sends.read read⟩
    · rw [List.getElem?_eq_none (by omega)] at found
      cases found

def Bus.afterParse (bus : Bus) : Bus := { bus with parsed := bus.parsed ++ [bus.parse] }

theorem Bus.Read.afterParse {reading : Reading} (read : bus.Read channel reading) :
    bus.afterParse.Read channel reading :=
  ⟨List.mem_append_left _ read.1, read.2⟩

theorem Bus.Orderly.afterParse (orderly : bus.Orderly channel)
    (latest : bus.sent.getLast? = some (request, exit)) : bus.afterParse.Orderly channel := by
  refine ⟨orderly.owner, orderly.busy, orderly.rungBusy, orderly.last, ?_, ?_⟩
  · intro p member
    rcases List.mem_append.mp member with old | new
    · exact orderly.parsed p old
    · rw [List.mem_singleton.mp new]
      refine ⟨request, exit, ?_, orderly.last _ _ latest⟩
      rw [← latest, List.getLast?_eq_getElem?]
      rfl
  · intro k channel' dev reg value reading change exit' found
    obtain ⟨line, same, place, changed, before, read⟩ := orderly.writes k _ dev reg value reading change exit' found
    exact ⟨line, same, place, changed, before, read.afterParse⟩

end

def Tracks (channel : Nat) (known : List Reading) (bus : Bus) : Prop :=
  bus.Orderly channel ∧ ∀ reading ∈ known, bus.Read channel reading

def ordered (channel : Nat) : Call → Bus → Prop := fun _ bus => bus.Orderly channel

theorem busWorld_stable (assertion : Bus → Prop) : Stable busWorld assertion := fun _ _ _ moved => moved.elim

section
variable {channel : Nat} {known : List Reading} {α β : Type} {post : α → Bus → Prop}

theorem iicReg16Rd8_tracks (dev : Byte) (reg : BitVec 16) {next : Reading → Margin α}
    (continues : ∀ parsed, Triple busWorld (ordered channel) (Tracks channel (⟨dev, reg, parsed⟩ :: known))
      (next ⟨dev, reg, parsed⟩) post) :
    Triple busWorld (ordered channel) (Tracks channel known) ((iicReg16Rd8 channel dev reg).bind next) post := by
  refine Triple.perform_bind (fun exit bus => Tracks channel known bus ∧
    bus.sent.getLast? = some (.read channel dev reg, exit)) (busWorld_stable _) (fun _ tracks => tracks.1) ?_ ?_
  · intro bus exit after tracks sends
    have backed : Request.Backed channel bus (.read channel dev reg) := trivial
    refine ⟨⟨tracks.1.send backed sends, fun reading member => sends.read (tracks.2 reading member)⟩, ?_⟩
    rw [Bus.Sends.sent_eq sends, List.getLast?_concat]
  · intro exit
    refine Triple.perform_bind (fun parsed => Tracks channel (⟨dev, reg, parsed⟩ :: known)) (busWorld_stable _)
      (fun _ tracks => tracks.1.1) ?_ continues
    intro bus parsed after holds acted
    obtain ⟨tracks, latest⟩ := holds
    obtain ⟨rfl, rfl⟩ := acted
    refine ⟨tracks.1.afterParse latest, ?_⟩
    intro reading member
    rcases List.mem_cons.mp member with rfl | old
    · refine ⟨List.mem_append_right _ (List.mem_singleton_self _), exit, ?_⟩
      rw [← latest, List.getLast?_eq_getElem?]
      rfl
    · exact (tracks.2 reading old).afterParse

theorem writeBack_tracks (dev : Byte) (reg : BitVec 16) (reading : Reading) (change : Change)
    (member : reading ∈ known) (same : reading.dev = dev) (place : reading.reg = reg) {next : Unit → Margin α}
    (continues : Triple busWorld (ordered channel) (Tracks channel known) (next ()) post) :
    Triple busWorld (ordered channel) (Tracks channel known) ((writeBack channel dev reg reading change).bind next)
      post := by
  refine Triple.perform_bind (fun _ => Tracks channel known) (busWorld_stable _) (fun _ tracks => tracks.1) ?_
    fun _ => continues
  intro bus exit after tracks sends
  have backed : Request.Backed channel bus (.write channel dev reg (change.apply reading.value) (some (reading, change))) :=
    ⟨rfl, same, place, rfl, tracks.2 reading member⟩
  exact ⟨tracks.1.send backed sends, fun reading member => sends.read (tracks.2 reading member)⟩

def Careful (channel : Nat) (program : Margin α) : Prop :=
  ∀ known, Triple busWorld (ordered channel) (Tracks channel known) program (fun _ => Tracks channel known)

theorem Careful.pure (value : α) : Careful channel (.pure value) :=
  fun _ => .pure (busWorld_stable _) fun _ tracks => tracks

theorem Careful.bind {program : Margin α} {next : α → Margin β} (first : Careful channel program)
    (second : ∀ value, Careful channel (next value)) : Careful channel (program.bind next) :=
  fun known => Triple.bind _ (first known) fun value => second value known

theorem Careful.forget {program : Margin α} {reading : Reading} (careful : Careful channel program) :
    Triple busWorld (ordered channel) (Tracks channel (reading :: known)) program (fun _ => Tracks channel known) :=
  (careful known).consequence (fun _ tracks => ⟨tracks.1, fun r member => tracks.2 r (List.mem_cons_of_mem _ member)⟩)
    fun _ _ tracks => tracks

theorem iicReg16Rd8_careful (dev : Byte) (reg : BitVec 16) {next : Reading → Margin α}
    (rest : ∀ reading, Careful channel (next reading)) :
    Careful channel ((iicReg16Rd8 channel dev reg).bind next) :=
  fun _ => iicReg16Rd8_tracks dev reg fun parsed => (rest ⟨dev, reg, parsed⟩).forget

theorem iicReg16Wr8_careful (dev : Byte) (reg : BitVec 16) (value : Byte) :
    Careful channel (iicReg16Wr8 channel dev reg value none) := by
  intro known
  refine Triple.perform_bind (fun _ => Tracks channel known) (busWorld_stable _) (fun _ tracks => tracks.1) ?_
    fun _ => .pure (busWorld_stable _) fun _ tracks => tracks
  intro bus exit after tracks sends
  have backed : Request.Backed channel bus (.write channel dev reg value none) := trivial
  exact ⟨tracks.1.send backed sends, fun reading member => sends.read (tracks.2 reading member)⟩

theorem clearBoth_careful (reg : BitVec 16) (mask : Byte) : Careful channel (clearBoth channel reg mask) := by
  intro known
  apply iicReg16Rd8_tracks
  intro se
  apply iicReg16Rd8_tracks
  intro de
  apply writeBack_tracks SE reg _ _ (by simp) rfl rfl
  change Triple _ _ _ ((writeBack channel DE reg ⟨DE, reg, de⟩ (.clear mask)).bind .pure) _
  apply writeBack_tracks DE reg _ _ (by simp) rfl rfl
  refine .pure (busWorld_stable _) fun s tracks => ⟨tracks.1, fun r member => tracks.2 r ?_⟩
  simp [member]

theorem globalAdapt_careful (change : Change) : Careful channel (globalAdapt channel change) := by
  intro known
  apply iicReg16Rd8_tracks
  intro parsed
  change Triple _ _ _ ((writeBack channel DE RLMS3 ⟨DE, RLMS3, parsed⟩ change).bind .pure) _
  apply writeBack_tracks DE RLMS3 _ _ (by simp) rfl rfl
  exact (Careful.pure ()).forget

theorem linkMarginInit_careful (amplitudes : Amplitudes) : Careful channel (linkMarginInit channel amplitudes) := by
  apply iicReg16Rd8_careful
  intro deRate
  apply Careful.bind (iicReg16Wr8_careful _ _ _)
  intro
  apply iicReg16Rd8_careful
  intro seRate
  apply Careful.bind (iicReg16Wr8_careful _ _ _)
  intro
  apply Careful.bind (clearBoth_careful _ _)
  intro
  apply Careful.bind (clearBoth_careful _ _)
  intro
  apply Careful.bind (clearBoth_careful _ _)
  intro
  apply Careful.bind (clearBoth_careful _ _)
  intro
  apply iicReg16Rd8_careful
  intro
  apply iicReg16Rd8_careful
  exact fun _ => .pure _

theorem awaitLink_careful (remaining : Nat) (last : Byte × Byte) :
    Careful channel (awaitLink channel remaining last) := by
  induction remaining generalizing last with
  | zero => exact .pure _
  | succ remaining ih =>
    apply iicReg16Rd8_careful
    intro deCnt0
    apply iicReg16Rd8_careful
    intro deCtrl3
    split
    · exact .pure _
    · exact ih _

theorem awaitLock_careful (remaining : Nat) : Careful channel (awaitLock channel remaining) := by
  induction remaining with
  | zero => exact .pure _
  | succ remaining ih =>
    apply iicReg16Rd8_careful
    intro deCtrl3
    split
    · exact .pure _
    · exact ih

theorem lowerAmplitude_careful : Careful channel (lowerAmplitude channel) := by
  intro known
  apply iicReg16Rd8_tracks
  intro parsed
  apply writeBack_tracks SE RLMS95 _ _ (by simp) rfl rfl
  apply Careful.forget
  apply Careful.bind (globalAdapt_careful _)
  intro
  apply Careful.bind (globalAdapt_careful _)
  intro
  apply Careful.bind (awaitLock_careful _)
  intro
  apply iicReg16Rd8_careful
  intro
  apply iicReg16Rd8_careful
  exact fun _ => .pure _

theorem sweep_careful (rounds : Nat) : Careful channel (sweep channel rounds) := by
  induction rounds with
  | zero => exact .pure _
  | succ rounds ih =>
    apply Careful.bind lowerAmplitude_careful
    intro out
    change Careful channel (if out.1 = 0 ∧ out.2 > 10 then _ else _)
    split
    · exact ih
    · exact .pure _

theorem forwardLinkMargin_careful (rounds : Nat) (seTxAmpOrg : Byte) (garbage : Byte × Byte) :
    Careful channel (forwardLinkMargin channel rounds seTxAmpOrg garbage) := by
  apply Careful.bind (awaitLink_careful _ _)
  intro out
  change Careful channel (if out.1 ≠ 0 ∨ out.2 &&& 0x80 = 0 then _ else _)
  split
  · exact .pure _
  · apply Careful.bind (sweep_careful _)
    intro swept
    cases swept with
    | none => exact .pure _
    | some seTxAmp =>
      apply Careful.bind (iicReg16Wr8_careful _ _ _)
      intro
      apply Careful.bind (globalAdapt_careful _)
      intro
      apply Careful.bind (globalAdapt_careful _)
      exact fun _ => .pure _

theorem initThenForward_careful (rounds : Nat) (amplitudes : Amplitudes) (garbage : Byte × Byte) :
    Careful channel (initThenForward channel rounds amplitudes garbage) :=
  .bind (linkMarginInit_careful amplitudes) fun _ => forwardLinkMargin_careful _ _ _

end

/-- No register value is invented: what a read returns was parsed from its own command's result, and what
    is written back is made from a successful read of that register. -/
structure Bus.Sound (channel : Nat) (bus : Bus) : Prop where
  own : ∀ p ∈ bus.parsed, p.origin = some p.command
  writes : ∀ (k : Nat) channel' dev reg value reading change exit,
    bus.sent[k]? = some (.write channel' dev reg value (some (reading, change)), exit) →
      channel' = channel ∧ value = change.apply reading.value ∧ reading.parsed ∈ bus.parsed ∧
        reading.parsed.command < k ∧ bus.sent[reading.parsed.command]? = some (.read channel dev reg, .ok)

def Bus.ReadsSucceed (bus : Bus) : Prop :=
  ∀ p ∈ bus.parsed, p.command ∉ bus.rungBusy ∧ ∃ request, bus.sent[p.command]? = some (request, .ok)

theorem Bus.Orderly.sound_iff {channel : Nat} {bus : Bus} (orderly : bus.Orderly channel) :
    bus.Sound channel ↔ bus.ReadsSucceed := by
  constructor
  · intro sound p member
    obtain ⟨request, exit, found, own⟩ := orderly.parsed p member
    obtain ⟨rfl, free⟩ := own.mp (sound.own p member)
    exact ⟨free, request, found⟩
  · intro succeed
    have succeeded : ∀ p ∈ bus.parsed, ∀ request exit, bus.sent[p.command]? = some (request, exit) → exit = .ok := by
      intro p member request exit found
      obtain ⟨_, ok⟩ := (succeed p member).2
      rw [ok] at found
      exact (Prod.mk.inj (Option.some.inj found)).2.symm
    constructor
    · intro p member
      obtain ⟨request, exit, found, own⟩ := orderly.parsed p member
      exact own.mpr ⟨succeeded p member request exit found, (succeed p member).1⟩
    · intro k channel' dev reg value reading change exit found
      obtain ⟨line, same, place, changed, before, member, exit', asked⟩ :=
        orderly.writes k channel' dev reg value reading change exit found
      obtain rfl := succeeded _ member _ _ asked
      exact ⟨line, changed, member, before, by rw [asked, same, place]⟩

/-- Before the run; `early` says that the A53 may still be at a command from before it. -/
def Bus.start (cmdResult : Memory) (early : Bool) : Bus :=
  ⟨cmdResult, none, if early then some none else none, [], [], []⟩

theorem Bus.start_orderly (channel : Nat) (cmdResult : Memory) (early : Bool) :
    (Bus.start cmdResult early).Orderly channel := by
  refine ⟨by simp [Bus.start], ?_, by simp [Bus.start], by simp [Bus.start], by simp [Bus.start], by simp [Bus.start]⟩
  intro n busy
  cases early <;> cases busy

/-- In every state that a run reaches, whatever the outcomes of its commands and however late the A53
    answers them, register values are sound exactly if every read succeeded on its own. -/
theorem sound_iff_reads_succeed (channel rounds : Nat) (amplitudes : Amplitudes) (garbage : Byte × Byte)
    (cmdResult : Memory) (early : Bool) (last : Margin Outcome) (final : Bus)
    (run : Runs busWorld (initThenForward channel rounds amplitudes garbage, Bus.start cmdResult early) (last, final)) :
    final.Sound channel ↔ final.ReadsSucceed := by
  have careful : Careful channel (initThenForward channel rounds amplitudes garbage) :=
    initThenForward_careful rounds amplitudes garbage
  have reached := (careful []).reachable ⟨Bus.start_orderly channel cmdResult early, by simp⟩ run
  apply Bus.Orderly.sound_iff
  cases last with
  | pure outcome => exact reached.1
  | call operation rest => exact reached

def Bus.filled (bus : Bus) (request : Request) (text : List Byte) : Bus := { bus.record request none .ok with
  cmdResult := store (fun _ => 0) 0 text
  owner := bus.answered none
  busy := none }

def Bus.timedOut (bus : Bus) (request : Request) : Bus := { bus.record request none .timeout with busy := none }

def play {α : Type} : List (Option (List Byte)) → Margin α → Bus → Margin α × Bus
  | _, .pure value, bus => (.pure value, bus)
  | outcomes, .call .getCmdResult rest, bus => play outcomes (rest bus.parse) bus.afterParse
  | outcomes, .call (.sendCmdToA53Sync request) rest, bus =>
    match outcomes with
    | [] => (.call (.sendCmdToA53Sync request) rest, bus)
    | some text :: outcomes => play outcomes (rest Exit.ok) (bus.filled request text)
    | none :: outcomes => play outcomes (rest Exit.timeout) (bus.timedOut request)

theorem play_runs {α : Type} (outcomes : List (Option (List Byte))) (program : Margin α) (bus : Bus) :
    Runs busWorld (program, bus) (play outcomes program bus) := by
  induction program generalizing outcomes bus with
  | pure value => exact .refl
  | call operation rest ih =>
    cases operation with
    | getCmdResult => exact .head (.act ⟨rfl, rfl⟩) (ih _ _ _)
    | sendCmdToA53Sync request =>
      rcases outcomes with _ | ⟨_ | text, outcomes⟩
      · exact .refl
      · have sends : bus.Sends request .timeout (bus.timedOut request) := .timeout none none (.inl rfl) (.inl rfl)
        exact .head (.act sends) (ih Exit.timeout outcomes _)
      · have sends : bus.Sends request .ok (bus.filled request text) := .ok none _ (.inl rfl)
        exact .head (.act sends) (ih Exit.ok outcomes _)

def firstReads : Margin Outcome × Bus :=
  play [some (ascii "0x04\n"), some [], some (ascii "0x00\n")] (initThenForward 1 0 ⟨0, 0⟩ (0, 0))
    (.start (fun _ => 0) false)

theorem firstReads_sound : firstReads.2.parsed.length = 2 ∧ (firstReads.2.Sound 1 ↔ firstReads.2.ReadsSucceed) := by
  have run : Runs busWorld (initThenForward 1 0 ⟨0, 0⟩ (0, 0), .start (fun _ => 0) false) firstReads := play_runs _ _ _
  exact ⟨by decide +kernel,
    sound_iff_reads_succeed 1 0 ⟨0, 0⟩ (0, 0) (fun _ => 0) false firstReads.1 firstReads.2 run⟩

def mixedUp : Margin Outcome × Bus :=
  play [some (ascii "0x04\n"), some [], some (ascii "0x00\n"), some [], some (ascii "0xff\n"), none, some [], some []]
    (initThenForward 1 0 ⟨0, 0⟩ (0, 0)) (.start (fun _ => 0) false)

theorem stale_value_written_back :
    Runs busWorld (initThenForward 1 0 ⟨0, 0⟩ (0, 0), .start (fun _ => 0) false) mixedUp ∧
      mixedUp.2.sent[7]? = some (.write 1 DE RLMSA4 0xc0 (some (⟨DE, RLMSA4, 5, some 4, 0xff⟩, .clear 0x3f)), .ok) ∧
      mixedUp.2.sent[4]? = some (.read 1 SE RLMSA4, .ok) ∧ ¬ mixedUp.2.Sound 1 := by
  have written : mixedUp.2.sent[7]? =
      some (.write 1 DE RLMSA4 0xc0 (some (⟨DE, RLMSA4, 5, some 4, 0xff⟩, .clear 0x3f)), .ok) := by decide +kernel
  have asked : mixedUp.2.sent[5]? = some (.read 1 DE RLMSA4, .timeout) := by decide +kernel
  refine ⟨play_runs _ _ _, written, by decide +kernel, ?_⟩
  intro sound
  obtain ⟨-, -, -, -, succeeded⟩ := sound.writes 7 1 DE RLMSA4 _ _ _ _ written
  rw [asked] at succeeded
  cases succeeded

end CigCard.LinkMargin
