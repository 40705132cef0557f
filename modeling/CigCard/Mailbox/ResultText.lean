import CigCard.Mailbox.CommandEncoding
import CigCard.Mailbox.ResultCopy

namespace CigCard.Mailbox

open Interaction ByteMemory

/-- The result that the A53 left in the window, and the part of it that `cmd_result` is to hold: all of
    it, or the tail from the last multiple of the buffer length on. -/
def resultBytes (later : Memory) : List Byte := load later 0x8008 (load32 later 0x8004)

def resultTail (later : Memory) : List Byte := (resultBytes later).drop (copyStart (load32 later 0x8004))

/-- `cmd_result` is terminated and its text is the result's own bytes. -/
structure ResultExtracted (later cmdResult : Memory) : Prop where
  nonempty : resultTail later ≠ []
  terminated : ∃ i < resultBufLength, cmdResult i = 0
  text : cString cmdResult resultBufLength = resultTail later

def copyEnd (resultLength : Nat) : Nat := (resultLength % resultBufLength + 3) / 4 * 4

def CopiedWords (later : Memory) (resultLength : Nat) (cmdResult : Memory) : Prop :=
  ∀ i < resultBufLength, cmdResult i =
    if i < copyEnd resultLength then later (0x8008 + copyStart resultLength + i) else 0

section
variable {later cmdResult : Memory} {resultLength : Nat}

theorem resultTail_eq (later : Memory) : resultTail later =
    load later (0x8008 + copyStart (load32 later 0x8004)) (load32 later 0x8004 % resultBufLength) := by
  have below := Nat.mod_le (load32 later 0x8004) resultBufLength
  have split := load_add later 0x8008 (copyStart (load32 later 0x8004)) (load32 later 0x8004 % resultBufLength)
  rw [copyStart_eq, Nat.sub_add_cancel below, ← copyStart_eq] at split
  rw [resultTail, resultBytes, split, List.drop_left' (load_length _ _ _)]

theorem resultTail_length (later : Memory) : (resultTail later).length = load32 later 0x8004 % resultBufLength := by
  rw [resultTail_eq, load_length]

theorem resultTail_short (later : Memory) : (resultTail later).length < resultBufLength := by
  rw [resultTail_length]
  exact Nat.mod_lt _ (by decide)

theorem CopiedWords.text (copied : CopiedWords later (load32 later 0x8004) cmdResult) :
    load cmdResult 0 (resultTail later).length = resultTail later := by
  rw [resultTail_length, resultTail_eq]
  apply List.ext_getElem?
  intro i
  by_cases inside : i < load32 later 0x8004 % resultBufLength
  · have bound := Nat.mod_lt (load32 later 0x8004) (by decide : 0 < resultBufLength)
    rw [load_getElem? _ _ _ _ inside, load_getElem? _ _ _ _ inside, Nat.zero_add, copied i (by omega),
      if_pos (by rw [copyEnd]; omega)]
  · rw [List.getElem?_eq_none (by rw [load_length]; omega), List.getElem?_eq_none (by rw [load_length]; omega)]

/-- The byte after the text: a stale one, unless the text ends on a word boundary. -/
theorem CopiedWords.after (copied : CopiedWords later (load32 later 0x8004) cmdResult) :
    cmdResult (resultTail later).length = 0 ↔
      load32 later 0x8004 % 4 = 0 ∨ later (0x8008 + load32 later 0x8004) = 0 := by
  have start := copyStart_eq (load32 later 0x8004)
  have below := Nat.mod_le (load32 later 0x8004) resultBufLength
  rw [copied _ (resultTail_short later), resultTail_length]
  by_cases whole : load32 later 0x8004 % 4 = 0
  · rw [if_neg (by simp only [copyEnd, resultBufLength]; omega)]
    simp [whole]
  · rw [if_pos (by simp only [copyEnd, resultBufLength]; omega), Nat.add_assoc, start, Nat.sub_add_cancel below]
    simp [whole]

theorem CopiedWords.extracted_iff (copied : CopiedWords later (load32 later 0x8004) cmdResult) :
    ResultExtracted later cmdResult ↔ load32 later 0x8004 % resultBufLength ≠ 0 ∧
      (∀ byte ∈ resultTail later, byte ≠ 0) ∧
        (load32 later 0x8004 % 4 = 0 ∨ later (0x8008 + load32 later 0x8004) = 0) := by
  have held := takeWhile_load_iff cmdResult 0 resultBufLength (resultTail later) (resultTail_short later)
  have some_left : resultTail later ≠ [] ↔ load32 later 0x8004 % resultBufLength ≠ 0 := by
    rw [← resultTail_length, ne_eq, ne_eq, List.length_eq_zero_iff]
  rw [Nat.zero_add, copied.after] at held
  rw [← some_left]
  constructor
  · intro extracted
    obtain ⟨-, clean, ended⟩ := held.mp extracted.text
    exact ⟨extracted.nonempty, clean, ended⟩
  · intro fine
    obtain ⟨nonempty, clean, ended⟩ := fine
    constructor
    · exact nonempty
    · exact ⟨_, resultTail_short later, copied.after.mpr ended⟩
    · exact held.mpr ⟨copied.text, clean, ended⟩

theorem Paced.copyEnd_le {cursor bufCursor : Nat} (paced : Paced resultLength cursor bufCursor)
    (last : resultLength ≤ cursor) : copyEnd resultLength ≤ bufCursor := by
  obtain ⟨position, aligned, -⟩ := paced
  have start := copyStart_eq resultLength
  simp only [copyEnd, resultBufLength] at start ⊢
  omega

theorem Paced.le_copyEnd {cursor bufCursor : Nat} (paced : Paced resultLength cursor bufCursor)
    (more : cursor < resultLength) : bufCursor + 4 ≤ copyEnd resultLength := by
  obtain ⟨position, aligned, -⟩ := paced
  have start := copyStart_eq resultLength
  simp only [copyEnd, resultBufLength] at start ⊢
  omega

end

abbrev drivenWorld : World Access Access.Answer Memory := window Driven

theorem down_stable {later : Memory} (down : load32 later interruptReg = 0) :
    Stable drivenWorld (fun memory => memory = later) := by
  intro before after same moved
  rw [same] at moved
  exact absurd down moved

/-- A read of the window once the interrupt register is down. -/
theorem xdmaRegRead_down {α : Type} {later : Memory} {post : α → Memory → Prop}
    (down : load32 later interruptReg = 0) (addr : Nat) {next : Nat → Host α}
    (continues : Triple drivenWorld Unguarded (fun memory => memory = later) (next (load32 later addr)) post) :
    Triple drivenWorld Unguarded (fun memory => memory = later) ((xdmaRegRead addr).bind next) post := by
  apply Triple.perform_bind (fun word memory => word = load32 later addr ∧ memory = later) (down_stable down)
  · exact fun _ _ => trivial
  · intro memory word after same acted
    obtain ⟨rfl, rfl⟩ := acted
    rw [same]
    exact ⟨rfl, rfl⟩
  · intro word
    apply Triple.given
    intro fetched
    rw [fetched]
    exact continues

theorem copyResult_copies {later : Memory} (down : load32 later interruptReg = 0) {resultLength cursor bufCursor : Nat}
    (inMap : 0x8008 + resultLength ≤ mapSize) (paced : Paced resultLength cursor bufCursor) (rounds : Nat)
    (cmdResult : Memory) :
    Triple drivenWorld Unguarded (fun memory => memory = later) (copyResult resultLength rounds cursor bufCursor cmdResult)
      (fun out memory => memory = later ∧ (out.1 = .copying ∨ out.1 = .ok ∧ ∀ i, out.2 i =
        if bufCursor ≤ i ∧ i < copyEnd resultLength then later (0x8008 + copyStart resultLength + i)
          else cmdResult i)) := by
  induction rounds generalizing cursor bufCursor cmdResult with
  | zero => exact .pure (down_stable down) fun memory same => ⟨same, .inl rfl⟩
  | succ rounds ih =>
    by_cases more : cursor < resultLength
    · rw [paced.next_eq more]
      apply xdmaRegRead_down down
      apply (ih paced.next _).consequence (fun _ same => same)
      intro out memory ends
      apply And.intro ends.1
      apply ends.2.imp_right
      intro done
      apply And.intro done.1
      intro i
      have last := paced.le_copyEnd more
      have position := paced.position
      simp only [mapSize] at inMap
      rw [done.2 i, Nat.mod_eq_of_lt (by omega)]
      by_cases past : bufCursor + 4 ≤ i
      · have above : bufCursor ≤ i := by omega
        rw [store32_outside _ _ _ _ (.inr past)]
        simp only [past, above, true_and]
      · rw [if_neg (by omega)]
        by_cases here : bufCursor ≤ i
        · obtain ⟨k, rfl⟩ : ∃ k, i = bufCursor + k := ⟨i - bufCursor, by omega⟩
          rw [store32_load32 _ _ _ _ _ (by omega), if_pos (by omega)]
          congr 1
          omega
        · rw [store32_outside _ _ _ _ (.inl (by omega)), if_neg (by omega)]
    · have last := paced.copyEnd_le (Nat.not_lt.mp more)
      have kept : ∀ i, cmdResult i = if bufCursor ≤ i ∧ i < copyEnd resultLength
          then later (0x8008 + copyStart resultLength + i) else cmdResult i := by
        intro i
        rw [if_neg (by omega)]
      rw [copyResult_done (Nat.not_lt.mp more)]
      exact .pure (down_stable down) fun memory same => ⟨same, .inr ⟨rfl, kept⟩⟩

def Returned (out : Exit × Memory) (memory : Memory) : Prop :=
  out.1 = .ok → 0x8008 + load32 memory 0x8004 ≤ mapSize → CopiedWords memory (load32 memory 0x8004) out.2

theorem copyLoop_returns {later : Memory} (down : load32 later interruptReg = 0) (rounds : Nat) (cmdResult : Memory) :
    Triple drivenWorld Unguarded (fun memory => memory = later) (copyLoop (load32 later 0x8004) rounds
      (store cmdResult 0 (List.replicate resultBufLength 0))) (fun out memory => memory = later ∧ Returned out memory) := by
  by_cases inMap : 0x8008 + load32 later 0x8004 ≤ mapSize
  · have short : load32 later 0x8004 < 2 ^ 32 - 3 := by
      simp only [mapSize] at inMap
      omega
    apply (copyResult_copies down inMap (Paced.first short) rounds _).consequence (fun _ same => same)
    intro out memory ends
    obtain ⟨rfl, stopped⟩ := ends
    apply And.intro rfl
    intro ok _ i inside
    have cleared : store cmdResult 0 (List.replicate resultBufLength 0) (0 + i) = 0 := by
      rw [store_inside _ _ _ _ (by rw [List.length_replicate]; exact inside), List.getElem_replicate]
    rw [Nat.zero_add] at cleared
    rcases stopped with copying | ⟨-, copied⟩
    · rw [ok] at copying
      cases copying
    · rw [copied i, cleared]
      simp only [Nat.zero_le, true_and]
  · have keeps : Keeps drivenWorld Unguarded Access.IsLoad (fun memory => memory = later) := by
      constructor
      · exact down_stable down
      · exact fun _ _ _ _ => trivial
      · intro access memory answer after load same acted
        cases access with
        | load32 addr => exact acted.2.trans same
        | store32 addr value => cases load
        | store8 addr byte => cases load
    apply (Triple.keeps keeps (copyResult_isLoad _ _ _ _ _)).consequence (fun _ same => same)
    intro out memory same
    exact ⟨same, fun _ mapped => absurd (same ▸ mapped) inMap⟩

theorem readResult_returns {later : Memory} (down : load32 later interruptReg = 0) (rounds : Nat) (cmdResult : Memory) :
    Triple drivenWorld Unguarded (fun memory => memory = later) (readResult rounds cmdResult)
      (fun out memory => memory = later ∧ Returned out memory) := by
  have failed : ∀ exit, exit ≠ Exit.ok → Triple drivenWorld Unguarded (fun memory => memory = later)
      (.pure (exit, cmdResult)) (fun out memory => memory = later ∧ Returned out memory) :=
    fun exit bad => .pure (down_stable down) fun memory same => ⟨same, fun ok => absurd ok bad⟩
  apply xdmaRegRead_down down
  split
  · exact failed .resultError (by decide)
  · apply xdmaRegRead_down down
    split
    · exact failed .flagError (by decide)
    · apply xdmaRegRead_down down
      exact copyLoop_returns down rounds cmdResult

/-- The wait ends early only on a zero, and from then on the window stands still. -/
theorem awaitClear_driven (remaining loopCount result : Nat) (started : result ≠ 0 ∨ 0 < remaining) :
    Triple drivenWorld Unguarded (fun _ => True) (awaitClear remaining loopCount result) (fun out memory =>
      (out.2 = 0 → load32 memory interruptReg = 0) ∧ (out.2 ≠ 0 → out.1 = loopCount + remaining)) := by
  have anywhere : Stable drivenWorld (fun _ => True) := fun _ _ _ _ => trivial
  induction remaining generalizing loopCount result with
  | zero => exact .pure anywhere fun memory _ => ⟨fun zero => by omega, fun _ => rfl⟩
  | succ remaining ih =>
    apply Triple.perform_bind (fun word memory => word = 0 → load32 memory interruptReg = 0) anywhere
    · exact fun _ _ => trivial
    · intro memory word after _ acted zero
      obtain ⟨rfl, rfl⟩ := acted
      exact zero
    · intro word
      by_cases zero : word = 0
      · rw [if_pos zero]
        apply Triple.pure
        · intro before after down moved
          exact absurd (down zero) moved
        · exact fun memory down => ⟨fun _ => down zero, fun nonzero => absurd zero nonzero⟩
      · rw [if_neg zero]
        apply (ih (loopCount + 1) word (.inl zero)).consequence (fun _ _ => trivial)
        intro out memory ends
        exact ⟨ends.1, fun nonzero => by have := ends.2 nonzero; omega⟩

theorem sendCmd_returns (rounds : Nat) (sendCmd : Command) (cmdResult : Memory) :
    Triple drivenWorld Unguarded (fun _ => True) (sendCmdToA53Sync rounds sendCmd cmdResult) Returned := by
  apply Triple.bind _ (Triple.skip (xdmaRegWrite 0 0x5a5aa5a5))
  intro _
  apply Triple.bind _ (Triple.skip (writeWords 8 0 sendCmd.bytes))
  intro _
  apply Triple.bind _ (Triple.skip (xdmaRegWrite 0x4 sendCmd.bytes.length))
  intro _
  apply Triple.bind _ (Triple.skip (xdmaRegWrite typeReg 0x3))
  intro _
  apply Triple.bind _ (Triple.skip (xdmaRegWrite interruptReg 0x01))
  intro _
  apply Triple.bind _ (awaitClear_driven 1000 0 0 (.inr (by decide)))
  intro out
  obtain ⟨loopCount, result⟩ := out
  dsimp only
  by_cases zero : result = 0
  · rw [if_neg (fun late => late.2 zero)]
    intro memory ends
    have down := ends.1 zero
    exact ((readResult_returns down rounds cmdResult).consequence (fun _ same => same)
      (fun out after ends => ends.2)) memory rfl
  · intro memory ends
    rw [if_pos ⟨ends.2 zero, zero⟩]
    have stopped : Triple drivenWorld Unguarded (fun _ => True) (.pure (Exit.timeout, cmdResult)) Returned :=
      .pure (fun _ _ _ _ => trivial) fun _ _ ok => by cases ok
    exact Triple.bind _ (Triple.skip (xdmaRegWrite interruptReg 0x0)) (fun _ => stopped) memory trivial

/-- The result arrives as the text of `cmd_result` exactly when the copy is not empty, the copied part
    has no zero of its own, and the byte that follows the text is a zero. -/
theorem result_extracted_iff (rounds : Nat) (sendCmd : Command) (cmdResult before later after : Memory)
    (inMap : 0x8008 + load32 later 0x8004 ≤ mapSize)
    (run : Runs drivenWorld (sendCmdToA53Sync rounds sendCmd cmdResult, before) (.pure (.ok, after), later)) :
    ResultExtracted later after ↔ load32 later 0x8004 % resultBufLength ≠ 0 ∧
      (∀ byte ∈ resultTail later, byte ≠ 0) ∧
        (load32 later 0x8004 % 4 = 0 ∨ later (0x8008 + load32 later 0x8004) = 0) := by
  have returned := (sendCmd_returns rounds sendCmd cmdResult).reachable trivial run
  exact (returned rfl inMap).extracted_iff

structure AnswerStands (later : Memory) : Prop where
  down : load32 later interruptReg = 0
  status : load32 later resultReg = 0
  flag : load32 later 0x8000 = 0x5a5aa5a5
  inMap : 0x8008 + load32 later 0x8004 ≤ mapSize

theorem copyLoop_finishes {later : Memory} (stands : AnswerStands later) (cmdResult : Memory) :
    ∃ after, Runs drivenWorld (copyLoop (load32 later 0x8004) (load32 later 0x8004 + 1) cmdResult, later)
      (.pure (.ok, after), later) := by
  have inMap := stands.inMap
  have short : load32 later 0x8004 < 2 ^ 32 - 3 := by
    simp only [mapSize] at inMap
    omega
  have paced := Paced.first short
  obtain ⟨out, final, run⟩ := (window_total Driven).through
    (copyLoop (load32 later 0x8004) (load32 later 0x8004 + 1) cmdResult) .pure later
  rw [Program.bind_pure] at run
  obtain ⟨exit, after⟩ := out
  obtain ⟨rfl, stopped⟩ := (copyResult_copies stands.down inMap paced _ cmdResult).reachable rfl run
  rcases stopped with copying | ⟨ok, -⟩
  · have ended := (paced.ends (by omega)).runs run
    exact absurd copying ended
  · obtain rfl : exit = .ok := ok
    exact ⟨after, run⟩

theorem readResult_finishes {later : Memory} (stands : AnswerStands later) (cmdResult : Memory) :
    ∃ after, Runs drivenWorld (readResult (load32 later 0x8004 + 1) cmdResult, later) (.pure (.ok, after), later) := by
  obtain ⟨after, copied⟩ := copyLoop_finishes stands (store cmdResult 0 (List.replicate resultBufLength 0))
  apply Exists.intro after
  apply (xdmaRegRead_passes Driven later resultReg _).trans
  rw [if_neg (fun bad => bad stands.status)]
  apply (xdmaRegRead_passes Driven later 0x8000 _).trans
  rw [if_neg (fun bad => bad stands.flag)]
  exact (xdmaRegRead_passes Driven later 0x8004 _).trans copied

theorem sendCmd_answered {later : Memory} (stands : AnswerStands later) (sendCmd : Command) (cmdResult before : Memory) :
    ∃ rounds after, Runs drivenWorld (sendCmdToA53Sync rounds sendCmd cmdResult, before) (.pure (.ok, after), later) := by
  apply Exists.intro (load32 later 0x8004 + 1)
  obtain ⟨memory, toDoorbell⟩ := sendCmd_rings Driven (load32 later 0x8004 + 1) sendCmd cmdResult before
  obtain ⟨after, finished⟩ := readResult_finishes stands cmdResult
  have acted : drivenWorld.act doorbell memory () (store32 memory interruptReg 1) := rfl
  have rang : Runs drivenWorld (.call doorbell fun _ => afterDoorbell (load32 later 0x8004 + 1) cmdResult, memory)
      (afterDoorbell (load32 later 0x8004 + 1) cmdResult, store32 memory interruptReg 1) := Runs.act acted
  have driven : Driven (store32 memory interruptReg 1) later := by
    rw [Driven, load32_store32]
    decide
  have waited : Runs drivenWorld (afterDoorbell (load32 later 0x8004 + 1) cmdResult, later)
      (readResult (load32 later 0x8004 + 1) cmdResult, later) := by
    rw [afterDoorbell, awaitClear, Program.bind_eq, Program.bind_eq, Program.bind_assoc]
    have passed := xdmaRegRead_passes Driven later interruptReg fun result =>
      (if result = 0 then (Program.pure (0, result) : Host (Nat × Nat)) else awaitClear 999 1 result).bind fun out =>
        if out.1 = 1000 ∧ out.2 ≠ 0 then do
          xdmaRegWrite interruptReg 0x0
          pure (.timeout, cmdResult)
        else readResult (load32 later 0x8004 + 1) cmdResult
    rw [stands.down] at passed
    exact passed
  exact ⟨after, toDoorbell.trans (rang.trans ((Runs.env driven).trans (waited.trans finished)))⟩

theorem noText_fits : 8 + ([] : List Byte).length ≤ interruptReg := by decide

def noCommand : Command := ⟨[], noText_fits⟩

def letterAnswer (stale : Byte) : Memory :=
  store (store32 (store32 (fun _ => 0) 0x8000 0x5a5aa5a5) 0x8004 1) 0x8008 [65, stale]

theorem letterAnswer_length (stale : Byte) : load32 (letterAnswer stale) 0x8004 = 1 := by
  rw [letterAnswer, load32_store_disjoint _ _ _ _ (.inl (by decide)), load32_store32]
  decide

theorem letterAnswer_stands (stale : Byte) : AnswerStands (letterAnswer stale) := by
  constructor
  · rw [letterAnswer, load32_store_disjoint _ _ _ _ (.inr (by simp [interruptReg])),
      load32_store32_disjoint _ _ _ _ (.inr (by decide)), load32_store32_disjoint _ _ _ _ (.inr (by decide))]
    decide
  · rw [letterAnswer, load32_store_disjoint _ _ _ _ (.inr (by simp [resultReg])),
      load32_store32_disjoint _ _ _ _ (.inr (by decide)), load32_store32_disjoint _ _ _ _ (.inr (by decide))]
    decide
  · rw [letterAnswer, load32_store_disjoint _ _ _ _ (.inl (by decide)),
      load32_store32_disjoint _ _ _ _ (.inl (by decide)), load32_store32]
    decide
  · rw [letterAnswer_length]
    decide

theorem letterAnswer_extracted : ∃ rounds after,
    Runs drivenWorld (sendCmdToA53Sync rounds noCommand (fun _ => 0), fun _ => 0) (.pure (.ok, after), letterAnswer 0) ∧
      ResultExtracted (letterAnswer 0) after := by
  obtain ⟨rounds, after, run⟩ := sendCmd_answered (letterAnswer_stands 0) noCommand (fun _ => 0) (fun _ => 0)
  have exact_ := result_extracted_iff rounds noCommand _ _ _ after (letterAnswer_stands 0).inMap run
  rw [resultTail_eq, letterAnswer_length] at exact_
  exact ⟨rounds, after, run, exact_.mpr (by decide)⟩

/-- The stale letter after the result is taken for part of it. -/
theorem stale_letter_extracted : ∃ rounds after,
    Runs drivenWorld (sendCmdToA53Sync rounds noCommand (fun _ => 0), fun _ => 0) (.pure (.ok, after), letterAnswer 66) ∧
      ¬ ResultExtracted (letterAnswer 66) after := by
  obtain ⟨rounds, after, run⟩ := sendCmd_answered (letterAnswer_stands 66) noCommand (fun _ => 0) (fun _ => 0)
  have returned := (sendCmd_returns rounds noCommand _).reachable trivial run
  have exact_ := (returned rfl (letterAnswer_stands 66).inMap).extracted_iff
  rw [resultTail_eq, letterAnswer_length] at exact_
  apply Exists.intro rounds
  apply Exists.intro after
  apply And.intro run
  rw [exact_]
  decide

end CigCard.Mailbox
