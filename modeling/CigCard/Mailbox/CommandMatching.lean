import CigCard.Mailbox.CommandReply

namespace CigCard.Mailbox

open Interaction ByteMemory

/-- The state before the doorbell of a call: `calm` says that the A53 is known to be idle. -/
def Preparing (calm : Prop) (rings : List Ring) (card : Card CommandResponse) : Prop :=
  card.rings = rings ∧ (calm → card.Quiet)

variable {calm : Prop} {rings : List Ring}

theorem Preparing.keeps : Keeps commandWorld anything Access.Plain (Preparing calm rings) where
  stable := by
    intro before after preparing moved
    exact ⟨moved.rings_eq.trans preparing.1, fun known => absurd moved (preparing.2 known).stuck⟩
  guarded _ _ _ _ := trivial
  acts := by
    intro access s answer t plain preparing acted
    exact ⟨(acted.rings_eq plain).trans preparing.1, fun known => (preparing.2 known).act plain acted⟩

theorem rings_keeps : Keeps commandWorld anything Access.IsLoad (fun s => s.rings = rings) where
  stable _ _ same moved := moved.rings_eq.trans same
  guarded _ _ _ _ := trivial
  acts _ _ _ _ load same acted := (acted.rings_eq load.plain).trans same

/-- What one call leaves behind: one more doorbell, and, where the A53 was idle at that doorbell, its
    own result and an idle A53. -/
def CallEnds (calm : Prop) (rings : List Ring) (out : Exit × Memory) (card : Card CommandResponse) : Prop :=
  ∃ ring : Ring, card.rings = rings ++ [ring] ∧ (calm → ring.idle = true) ∧
    (ring.idle = true →
      (out.1 = .ok → ∃ job ∈ card.served, job.ring = rings.length + 1 ∧ Copied job.response.bytes out.2) ∧
      (out.1 ≠ .timeout → card.Quiet))

theorem afterClear_triple (rounds : Nat) (ring : Ring) (earlier : List (Job CommandResponse))
    (cmdResult : Memory) (rung : calm → ring.idle = true) :
    Triple commandWorld anything
      (Cleared CommandResponse.stores (ring.idle = true) (rings ++ [ring]) ring.memory earlier)
      (readResult rounds cmdResult) (CallEnds calm rings) := by
  intro state cleared
  obtain ⟨same, _, settled⟩ := cleared
  by_cases own : ring.idle = true
  · obtain ⟨idle, job, tag, -, memory, served⟩ := settled own
    have replied : Replied (rings ++ [ring]) job state := by
      refine ⟨same, ⟨idle, by simp [Card.door, memory]⟩, by simp [served], ?_⟩
      rw [memory]
      exact answered_stores job.response ring.memory
    apply (readResult_triple rounds cmdResult state replied).mono (fun _ _ h => h)
    intro out s read
    obtain ⟨still, late, copied⟩ := read
    refine ⟨ring, still.rings, rung, fun _ => ⟨fun done => ⟨job, still.served, ?_, copied done⟩, fun _ => still.quiet⟩⟩
    simpa using tag
  · have kept := Triple.keeps rings_keeps (readResult_isLoad rounds cmdResult) state same
    exact kept.mono (fun _ _ h => h) fun out s still => ⟨ring, still, rung, fun idle => absurd idle own⟩

theorem afterRing_triple (rounds : Nat) (ring : Ring) (earlier : List (Job CommandResponse))
    (cmdResult : Memory) (rang : load32 ring.memory interruptReg ≠ 0) (rung : calm → ring.idle = true) :
    Triple commandWorld anything
      (Waiting CommandResponse.stores (ring.idle = true) (rings ++ [ring]) ring.memory earlier)
      ((awaitClear 1000 0 0).bind fun out =>
        if out.1 = 1000 ∧ out.2 ≠ 0 then do
          xdmaRegWrite interruptReg 0x0
          pure (.timeout, cmdResult)
        else readResult rounds cmdResult) (CallEnds calm rings) := by
  refine Triple.bind _ (awaitClear_triple commandStores_spare rang (fun _ _ => trivial) 1000 0 0
    (.inr (by decide))) fun out => ?_
  by_cases zero : out.2 = 0
  · rw [if_neg (by simp [zero])]
    exact (afterClear_triple rounds ring earlier cmdResult rung).consequence
      (fun s ends => (ends.1 zero).2) (fun _ _ h => h)
  · by_cases late : out.1 = 1000
    · rw [if_pos ⟨late, zero⟩]
      have stable : Stable commandWorld (fun s => s.rings = rings ++ [ring]) :=
        fun _ _ same moved => moved.rings_eq.trans same
      refine (Triple.perform_bind (fun _ s => s.rings = rings ++ [ring]) stable (fun _ _ => trivial) ?_ ?_).consequence
        (fun s ends => (ends.2 zero).2.1) (fun _ _ h => h)
      · intro s answer t same acted
        obtain rfl := acted
        rw [hostStore32_clear]
        exact same
      · refine fun _ => .pure stable fun s same => ⟨ring, same, rung, fun _ => ⟨by simp, by simp⟩⟩
    · intro state ends
      exact absurd (by simpa using (ends.2 zero).1) late

theorem sendCmdToA53Sync_triple (rounds : Nat) (sendCmd : Command) (cmdResult : Memory) :
    Triple commandWorld anything (Preparing calm rings) (sendCmdToA53Sync rounds sendCmd cmdResult)
      (CallEnds calm rings) := by
  have fits := sendCmd.fits
  apply Triple.keeps_bind Preparing.keeps (xdmaRegWrite_plain _ _ (by decide))
  intro
  apply Triple.keeps_bind Preparing.keeps (writeWords_plain 8 0 sendCmd.bytes (by omega) (by decide))
  intro
  apply Triple.keeps_bind Preparing.keeps (xdmaRegWrite_plain _ _ (by decide))
  intro
  apply Triple.keeps_bind Preparing.keeps (xdmaRegWrite_plain _ _ (by decide))
  intro
  refine Triple.perform_bind (fun _ s => ∃ ring : Ring, ∃ earlier, (load32 ring.memory interruptReg ≠ 0 ∧
      (calm → ring.idle = true)) ∧
      Waiting CommandResponse.stores (ring.idle = true) (rings ++ [ring]) ring.memory earlier s)
    Preparing.keeps.stable (fun _ _ => trivial) ?_ fun _ => ?_
  · intro s answer t preparing acted
    obtain ⟨same, quiet⟩ := preparing
    obtain rfl := acted
    rw [hostStore32_ring]
    refine ⟨⟨store32 s.memory interruptReg 1, s.a53.isIdle⟩, s.served, ⟨by simp, fun known => ?_⟩, by simp [same], ?_⟩
    · simp [A53.isIdle, (quiet known).1]
    · intro own
      refine .rung ?_ rfl rfl
      cases busy : s.a53 <;> simp_all [A53.isIdle]
  · exact .exists_pre fun ring => .exists_pre fun earlier => .given fun known =>
      afterRing_triple rounds ring earlier cmdResult known.1 known.2

/-- The `k`-th call came back with a result although the A53 was idle at its doorbell only if that
    result is its own; and the A53 is idle there unless a call before it was given up on. -/
def Matched (returned : List (Exit × Memory)) (card : Card CommandResponse) : Prop :=
  ∀ k exit cmdResult, returned[k]? = some (exit, cmdResult) → ∃ ring, card.rings[k]? = some ring ∧
    ((∀ earlier ∈ returned.take k, earlier.1 ≠ .timeout) → ring.idle = true) ∧
    (ring.idle = true → exit = .ok →
      ∃ job ∈ card.served, job.ring = k + 1 ∧ Copied job.response.bytes cmdResult)

theorem Matched.mono {returned : List (Exit × Memory)} {before after : Card CommandResponse}
    (matched : Matched returned before) (rings : before.rings <+: after.rings)
    (served : before.served <+: after.served) : Matched returned after := by
  intro k exit cmdResult found
  obtain ⟨ring, rung, idle, own⟩ := matched k exit cmdResult found
  refine ⟨ring, ?_, idle, fun was done => ?_⟩
  · obtain ⟨more, more_eq⟩ := rings
    rw [← more_eq, List.getElem?_append_left (List.getElem?_eq_some_iff.mp rung).1, rung]
  · obtain ⟨job, member, rest⟩ := own was done
    exact ⟨job, served.subset member, rest⟩

theorem Matched.snoc {returned : List (Exit × Memory)} {out : Exit × Memory} {card : Card CommandResponse}
    (matched : Matched returned card) (length : rings.length = returned.length)
    (ends : CallEnds (∀ earlier ∈ returned, earlier.1 ≠ .timeout) rings out card) :
    Matched (returned ++ [out]) card := by
  obtain ⟨ring, same, calm, own⟩ := ends
  intro k exit cmdResult found
  rcases Nat.lt_trichotomy k returned.length with old | rfl | beyond
  · rw [List.getElem?_append_left old] at found
    rw [List.take_append_of_le_length (by omega)]
    exact matched k exit cmdResult found
  · rw [List.getElem?_concat_length, Option.some.injEq] at found
    subst found
    rw [List.take_left', ← length]
    · refine ⟨ring, by simp [same], calm, fun idle done => ?_⟩
      exact (own idle).1 done
    · rfl
  · rw [List.getElem?_eq_none (by simp; omega)] at found
    cases found

theorem sendCmds_triple (rounds : Nat) (cmds : List Command) (cmdResult : Memory)
    (returned : List (Exit × Memory)) :
    Triple commandWorld anything (fun s => s.rings.length = returned.length ∧ Matched returned s ∧
        ((∀ earlier ∈ returned, earlier.1 ≠ .timeout) → s.Quiet))
      (sendCmds rounds cmds cmdResult) (fun others s => Matched (returned ++ others) s) := by
  have moves : ∀ returned, Stable commandWorld (Matched returned) :=
    fun _ _ _ matched moved => matched.mono (moved.rings_eq ▸ List.prefix_refl _) moved.served_prefix
  have acts : ∀ returned (access : Access) (s : Card CommandResponse) answer t, Matched returned s →
      commandWorld.act access s answer t → Matched returned t :=
    fun _ _ _ _ _ matched acted => matched.mono acted.rings_prefix (acted.served_eq ▸ List.prefix_refl _)
  induction cmds generalizing cmdResult returned with
  | nil =>
    refine (Triple.pure (moves returned) ?_).consequence (fun s holds => holds.2.1) (fun _ _ h => h)
    intro s matched
    simpa using matched
  | cons sendCmd rest ih =>
    intro state both
    obtain ⟨length, matched, quiet⟩ := both
    have call := (@sendCmdToA53Sync_triple (∀ earlier ∈ returned, earlier.1 ≠ .timeout) state.rings rounds
      sendCmd cmdResult).frame (moves returned) (acts returned)
    refine Triple.bind _ call (fun out => ?_) state ⟨⟨rfl, quiet⟩, matched⟩
    by_cases running : out.1 = .copying
    · simp only [running, if_true]
      refine (Triple.pure (moves (returned ++ [out])) ?_).consequence (fun s holds => ?_) (fun _ _ h => h)
      · exact fun s kept => kept
      · exact holds.2.snoc length holds.1
    · simp only [running, if_false]
      intro after ended
      obtain ⟨ends, kept⟩ := ended
      have snoc := kept.snoc length ends
      obtain ⟨ring, same, calm, own⟩ := ends
      refine Triple.bind _ (ih out.2 (returned ++ [out])) (fun others => ?_) after ⟨?_, snoc, ?_⟩
      · refine .pure (moves _) fun s done => ?_
        simpa using done
      · rw [same, List.length_append, List.length_append, length]
        rfl
      · intro timely
        have before : ∀ earlier ∈ returned, earlier.1 ≠ .timeout :=
          fun earlier member => timely earlier (List.mem_append_left _ member)
        exact (own (calm before)).2 (timely out (by simp))

/-- Along every interleaving of a sequence of calls with the A53, a result belongs to the command it is
    returned for whenever the A53 was not busy with an abandoned command at that command's doorbell,
    which it can only be after an earlier call has timed out. -/
theorem command_matching (rounds : Nat) (cmds : List Command) (cmdResult : Memory)
    (start final : Card CommandResponse) (returned : List (Exit × Memory)) (rest : start.AtRest)
    (run : Runs commandWorld (sendCmds rounds cmds cmdResult, start) (.pure returned, final)) :
    Matched returned final := by
  have matched : Matched [] start := by
    intro k exit cmdResult found
    simp at found
  have whole := (sendCmds_triple rounds cmds cmdResult []).reachable
    ⟨by simp [rest.unrung], matched, fun _ => ⟨rest.idle, rest.clear⟩⟩ run
  exact whole

section
variable (text : Byte)

def oneByte : Command := ⟨[text], by simp [interruptReg]⟩

def letter : CommandResponse := ⟨0x5a5aa5a5, 0, [text], by simp [interruptReg]⟩

def restCard : Card CommandResponse := ⟨fun _ => 0, .idle, [], [], false⟩

theorem restCard_atRest : restCard.AtRest := ⟨rfl, rfl, rfl, rfl, rfl⟩

def Card.sent (card : Card CommandResponse) : Card CommandResponse :=
  ((((card.hostStore32 0 0x5a5aa5a5).hostStore32 8 (leNumber [text])).hostStore32 0x4 1).hostStore32 typeReg 0x3).hostStore32
    interruptReg 0x01

def afterWait (rounds : Nat) (cmdResult : Memory) (out : Nat × Nat) : Host (Exit × Memory) :=
  if out.1 = 1000 ∧ out.2 ≠ 0 then do
    xdmaRegWrite interruptReg 0x0
    pure (.timeout, cmdResult)
  else readResult rounds cmdResult

variable {α : Type} {card : Card CommandResponse} {cmdResult : Memory} {next : Exit × Memory → Host α}

theorem sent_door : (card.sent text).door ≠ 0 := by
  simp [Card.sent, Card.door]

theorem call_rings (rounds : Nat) : Runs commandWorld ((sendCmdToA53Sync rounds (oneByte text) cmdResult).bind next, card)
    (((awaitClear 1000 0 0).bind (afterWait rounds cmdResult)).bind next, card.sent text) := by
  have stores := fun (c : Card CommandResponse) addr value (rest : Unit → Host α) =>
    @xdmaRegWrite_runs CommandResponse CommandResponse.stores α c addr value rest
  refine (stores _ _ _ _).trans ((stores _ _ _ _).trans ((stores _ _ _ _).trans ?_))
  exact (stores _ _ _ _).trans ((stores _ _ _ _).trans .refl)

theorem call_times_out (rounds : Nat) (busy : card.door ≠ 0) :
    Runs commandWorld (((awaitClear 1000 0 0).bind (afterWait rounds cmdResult)).bind next, card)
      (next (.timeout, cmdResult), card.hostStore32 interruptReg 0) := by
  rw [Program.bind_assoc]
  apply (awaitClear_busy card busy 999 0 0 _).trans
  rw [afterWait, if_pos ⟨rfl, busy⟩]
  exact (xdmaRegWrite_runs card interruptReg 0x0 _).trans .refl

def Card.fetched (card : Card CommandResponse) : Card CommandResponse :=
  ((((card.hostLoad interruptReg).hostLoad resultReg).hostLoad 0x8000).hostLoad 0x8004).hostLoad 0x8008

def Card.result (card : Card CommandResponse) (cmdResult : Memory) : Memory :=
  store32 (store cmdResult 0 (List.replicate resultBufLength 0)) 0 (load32 card.memory 0x8008)

theorem call_reads (clear : card.door = 0) (answered : Answered (letter text) card.memory) :
    Runs commandWorld (((awaitClear 1000 0 0).bind (afterWait 2 cmdResult)).bind next, card)
      (next (.ok, card.result cmdResult), card.fetched) := by
  rw [Program.bind_assoc]
  refine ((awaitClear_clear card clear 999 0 0 _).trans ?_)
  apply (xdmaRegRead_runs (card.hostLoad interruptReg) resultReg 0 _ (by simpa [letter] using answered.status)).trans
  apply (xdmaRegRead_runs _ 0x8000 0x5a5aa5a5 _ (by simpa [letter] using answered.flag)).trans
  apply (xdmaRegRead_runs _ 0x8004 1 _ (by simpa [letter] using answered.length)).trans
  exact (xdmaRegRead_runs _ 0x8008 (load32 card.memory 0x8008) _ (by simp)).trans .refl

def Card.picked (card : Card CommandResponse) : Card CommandResponse :=
  { card with a53 := .working card.rings.length [] }

theorem env_picks {program : Host α} (idle : card.a53 = .idle) (rung : card.door ≠ 0) :
    Runs commandWorld (program, card) (program, card.picked) := .env (.pickUp card idle rung)

def Card.replied (card : Card CommandResponse) (ring : Nat) : Card CommandResponse := { card with
  memory := store32 (putAll card.memory (letter text).stores) interruptReg 0
  a53 := .idle
  served := card.served ++ [⟨ring, [], letter text⟩] }

theorem env_replies {program : Host α} (ring : Nat) (busy : card.a53 = .working ring []) :
    Runs commandWorld (program, card) (program, card.replied text ring) :=
  (Move.completes card ring [] (letter text) busy).lift (fun s => (program, s)) fun _ _ moved => .env moved

end

theorem restCard_answered :
    let answered := (restCard.sent 97).picked.replied 97 1
    Runs commandWorld (sendCmds 2 [oneByte 97] (fun _ => 0), restCard)
      (.pure [(.ok, answered.result (fun _ => 0))], answered.fetched) := by
  refine (call_rings 97 2).trans ((env_picks rfl (sent_door 97)).trans ((env_replies 97 1 rfl).trans ?_))
  exact (call_reads 97 (by simp [Card.replied, Card.door]) (answered_stores _ _)).trans .refl

theorem restCard_matching : ∃ exit cmdResult final, exit = .ok ∧ Matched [(exit, cmdResult)] final :=
  ⟨.ok, _, _, rfl, command_matching 2 _ _ _ _ _ restCard_atRest restCard_answered⟩

def AllMatched (returned : List (Exit × Memory)) (card : Card CommandResponse) : Prop :=
  ∀ k cmdResult, returned[k]? = some (.ok, cmdResult) →
    ∃ job ∈ card.served, job.ring = k + 1 ∧ Copied job.response.bytes cmdResult

/-- Two calls: the A53 is still busy with the first command when the host gives up on it, and finishes
    it after the second doorbell. The second call returns the result of the first. -/
theorem abandoned_result_returned : ∃ returned final,
    Runs commandWorld (sendCmds 2 [oneByte 97, oneByte 98] (fun _ => 0), restCard) (.pure returned, final) ∧
      returned.map Prod.fst = [.timeout, .ok] ∧ ¬ AllMatched returned final := by
  let late := (((restCard.sent 97).picked.hostStore32 interruptReg 0).sent 98).replied 97 1
  refine ⟨[(.timeout, fun _ => 0), (.ok, late.result (fun _ => 0))], late.fetched, ?_, rfl, ?_⟩
  · refine (call_rings 97 2).trans ((env_picks rfl (sent_door 97)).trans ?_)
    have busy : (restCard.sent 97).picked.door ≠ 0 := sent_door 97
    apply (call_times_out 2 busy).trans
    rw [if_neg (by simp), sendCmds, Program.bind_eq, Program.bind_eq, Program.bind_assoc]
    apply (call_rings 98 2).trans
    apply (env_replies 97 1 rfl).trans
    exact (call_reads 97 (by simp [Card.replied, Card.door]) (answered_stores _ _)).trans .refl
  · intro matched
    obtain ⟨job, member, own, -⟩ := matched 1 _ rfl
    have only : job = ⟨1, [], letter 97⟩ := by
      simpa [late, Card.replied, Card.sent, Card.fetched, Card.picked, restCard] using member
    simp [only] at own

end CigCard.Mailbox
