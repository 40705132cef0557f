import CigCard.Tools.DmaRounds

namespace CigCard.Tools

open Video

structure ToDeviceArgs extends DmaArgs where
  infname : Bool

/-- `stackWord` is the content of `rc`, which is not initialised. -/
structure ToDeviceSystem extends DmaSystem where
  inOpens : Bool
  input : Nat → Answer
  stackWord : Int

structure ToDeviceEnd where
  rc : Int
  input : Option (Int × List Move)
  rounds : List Round

def returned (rc : Int) (underflow : Bool) : Int := if rc < 0 then rc else if underflow then -5 else 0

def writeRounds (sys : ToDeviceSystem) (args : ToDeviceArgs) : Int × List Round :=
  dmaRounds .write (returned 0) returned sys.toDmaSystem args.toDmaArgs args.count.toNat 0 0 0 0 false

def testDmaTo (sys : ToDeviceSystem) (args : ToDeviceArgs) : ToDeviceEnd :=
  if !sys.opens then ⟨-22, none, []⟩
  else if args.infname && !sys.inOpens then ⟨returned (-22) false, none, []⟩
  else if args.ofname && !sys.outOpens then ⟨returned (-22) false, none, []⟩
  else if !sys.memory then ⟨returned (-12) false, none, []⟩
  else if args.infname then
    let input := transfer .read true sys.input args.size 0 0
    if input.1 < 0 ∨ input.1.toNat < args.size.toNat then ⟨returned input.1 false, some input, []⟩
    else ⟨(writeRounds sys args).1, some input, (writeRounds sys args).2⟩
  else if args.count = 0 then ⟨returned sys.stackWord false, none, []⟩
  else ⟨(writeRounds sys args).1, none, (writeRounds sys args).2⟩

def ToDeviceSystem.Ready (sys : ToDeviceSystem) (args : ToDeviceArgs) : Prop :=
  sys.toDmaSystem.Ready args.toDmaArgs ∧ (args.infname = true → sys.inOpens = true) ∧
    (args.infname = false → args.count = 0 → 0 ≤ sys.stackWord ∨ exitCode sys.stackWord = 0)

def ToDeviceEnd.InputShort (args : ToDeviceArgs) (ended : ToDeviceEnd) : Prop :=
  ∃ input ∈ ended.input, 0 ≤ input.1 ∧ input.1 < args.size.toNat

def ToDeviceEnd.OutputShort (ended : ToDeviceEnd) : Prop :=
  ∃ round ∈ ended.rounds, ∃ put ∈ round.put, 0 ≤ put.1 ∧ put.1 < round.done

structure ToDeviceEnd.Complete (args : ToDeviceArgs) (ended : ToDeviceEnd) : Prop where
  rounds : ended.rounds.length = args.count.toNat
  puts : ∀ round ∈ ended.rounds, ∀ put ∈ round.put, put.1 = round.done

section ToDevice

variable {sys : ToDeviceSystem} {args : ToDeviceArgs}

theorem returned_zero_iff {rc : Int} (error : -5 ≤ rc) (underflow : Bool) :
    exitCode (returned rc underflow) = 0 ↔ 0 ≤ rc ∧ underflow = false := by
  unfold returned exitCode
  split
  · omega
  · cases underflow with
    | false => simp; omega
    | true => simp

theorem returned_word_zero_iff (word : Int) : exitCode (returned word false) = 0 ↔ 0 ≤ word ∨ exitCode word = 0 := by
  unfold returned
  split
  · next negative => rw [or_iff_right (Int.not_le.mpr negative)]
  · next nonneg => exact iff_of_true rfl (.inl (Int.not_lt.mp nonneg))

theorem writeRounds_told (small : args.size.toNat < 2 ^ 63) :
    exitCode (writeRounds sys args).1 = 0 ↔ (∀ round ∈ (writeRounds sys args).2, args.size.toNat ≤ round.done) ∧
      ((writeRounds sys args).2.length = args.count.toNat ∧
        (∀ round ∈ (writeRounds sys args).2, ∀ put ∈ round.put, put.1 = round.done) ∨
      ∃ round ∈ (writeRounds sys args).2, ∃ put ∈ round.put, 0 ≤ put.1 ∧ put.1 < round.done) := by
  have start : FileAt 0 0 := ⟨by decide, fun _ => rfl⟩
  have told := @dmaRounds_told .write (returned 0) returned sys.toDmaSystem args.toDmaArgs small args.count.toNat
    0 0 0 0 false start
  have cut : (∃ round ∈ (writeRounds sys args).2, ∃ put ∈ round.put, put.1 < round.done ∧
      exitCode (returned put.1 (anyShort args.toDmaArgs (writeRounds sys args).2)) = 0) ↔
      (∃ round ∈ (writeRounds sys args).2, ∃ put ∈ round.put, 0 ≤ put.1 ∧ put.1 < round.done) ∧
        anyShort args.toDmaArgs (writeRounds sys args).2 = false := by
    constructor
    · intro code
      rcases code with ⟨round, member, put, taken, less, zero⟩
      obtain ⟨nonneg, full⟩ := (returned_zero_iff (told.puts round member put taken).2.2 _).mp zero
      exact ⟨⟨round, member, put, taken, nonneg, less⟩, full⟩
    · intro both
      rcases both with ⟨⟨round, member, put, taken, nonneg, less⟩, full⟩
      exact ⟨round, member, put, taken, less, (returned_zero_iff (by omega) _).mpr ⟨nonneg, full⟩⟩
  have status := told.status
  rw [← writeRounds, Bool.false_or, cut, returned_zero_iff (by decide)] at status
  rw [status, ← anyShort_false_iff]
  simp only [Int.le_refl, true_and]
  cases anyShort args.toDmaArgs (writeRounds sys args).2 with
  | false => simp
  | true => simp

theorem testDmaTo_unready (unready : ¬ sys.Ready args) :
    exitCode (testDmaTo sys args).rc ≠ 0 ∧ (testDmaTo sys args).input = none ∧ (testDmaTo sys args).rounds = [] := by
  unfold testDmaTo
  split
  · exact ⟨by decide, rfl, rfl⟩
  · next opens =>
    split
    · exact ⟨by decide, rfl, rfl⟩
    · next inOpens =>
      split
      · exact ⟨by decide, rfl, rfl⟩
      · next outOpens =>
        split
        · exact ⟨by decide, rfl, rfl⟩
        · next memory =>
          have ready : sys.toDmaSystem.Ready args.toDmaArgs := by
            refine ⟨by simpa using opens, ?_, by simpa using memory⟩
            intro named
            simpa [named] using outOpens
          have stack : args.infname = false ∧ args.count = 0 ∧ ¬ (0 ≤ sys.stackWord ∨ exitCode sys.stackWord = 0) := by
            by_contra fine
            apply unready
            refine ⟨ready, ?_, ?_⟩
            · intro named
              simpa [named] using inOpens
            · intro unnamed none
              by_contra told
              exact fine ⟨unnamed, none, told⟩
          obtain ⟨unnamed, none, told⟩ := stack
          rw [unnamed, if_neg Bool.false_ne_true, if_pos none]
          exact ⟨mt (returned_word_zero_iff _).mp told, rfl, rfl⟩

/-- Where nothing has been read and no round is made, the uninitialised word is returned. -/
theorem testDmaTo_ready (ready : sys.Ready args) :
    testDmaTo sys args =
      if args.infname = true then
        let input := transfer .read true sys.input args.size 0 0
        if input.1 < 0 ∨ input.1.toNat < args.size.toNat then ⟨returned input.1 false, some input, []⟩
        else ⟨(writeRounds sys args).1, some input, (writeRounds sys args).2⟩
      else ⟨if args.count = 0 then returned sys.stackWord false else (writeRounds sys args).1, none,
        (writeRounds sys args).2⟩ := by
  obtain ⟨⟨opens, outOpens, memory⟩, inOpens, -⟩ := ready
  have inFound : ¬ (args.infname && !sys.inOpens) = true := by
    rw [Bool.and_eq_true, Bool.not_eq_true']
    intro both
    rcases both with ⟨named, missing⟩
    rw [inOpens named] at missing
    cases missing
  have outFound : ¬ (args.ofname && !sys.outOpens) = true := by
    rw [Bool.and_eq_true, Bool.not_eq_true']
    intro both
    rcases both with ⟨named, missing⟩
    rw [outOpens named] at missing
    cases missing
  unfold testDmaTo
  rw [opens, memory, if_neg inFound, if_neg outFound]
  simp only [Bool.not_true, Bool.false_eq_true, if_false]
  by_cases named : args.infname = true
  · rw [if_pos named, if_pos named]
  · rw [if_neg named, if_neg named]
    split
    · next none =>
      have rounds : (writeRounds sys args).2 = [] := by
        rw [writeRounds, none]
        rfl
      rw [rounds]
    · rfl

theorem told_rounds (small : args.size.toNat < 2 ^ 63) {rc : Int} (input : Option (Int × List Move))
    (whole : ∀ other ∈ input, other.1 = args.size.toNat) (code : exitCode rc = exitCode (writeRounds sys args).1) :
    let ended : ToDeviceEnd := ⟨rc, input, (writeRounds sys args).2⟩
    exitCode ended.rc = 0 ↔ ended.InputShort args ∧ ended.rounds = [] ∨
      (∀ other ∈ ended.input, other.1 = args.size.toNat) ∧ (∀ round ∈ ended.rounds, args.size.toNat ≤ round.done) ∧
        (ended.Complete args ∨ ended.OutputShort) := by
  intro ended
  have long : ¬ ended.InputShort args := by
    intro short
    rcases short with ⟨other, taken, -, less⟩
    rw [whole other taken] at less
    exact Int.lt_irrefl _ less
  have complete : ended.Complete args ↔ (writeRounds sys args).2.length = args.count.toNat ∧
      ∀ round ∈ (writeRounds sys args).2, ∀ put ∈ round.put, put.1 = round.done :=
    ⟨fun holds => ⟨holds.rounds, holds.puts⟩, fun both => ⟨both.1, both.2⟩⟩
  rw [or_iff_right fun both => long both.1, and_iff_right whole, complete, code]
  exact writeRounds_told small

/-- The exit status is 0 exactly if nothing was sent because the input file is too short, or all that was sent in each
    round was sent whole and the rounds ended, with the last or with an output file that has taken a part. -/
theorem testDmaTo_told (small : args.size.toNat < 2 ^ 63) (sys : ToDeviceSystem) :
    exitCode (testDmaTo sys args).rc = 0 ↔ sys.Ready args ∧
      ((testDmaTo sys args).InputShort args ∧ (testDmaTo sys args).rounds = [] ∨
        (∀ input ∈ (testDmaTo sys args).input, input.1 = args.size.toNat) ∧
          (∀ round ∈ (testDmaTo sys args).rounds, args.size.toNat ≤ round.done) ∧
          ((testDmaTo sys args).Complete args ∨ (testDmaTo sys args).OutputShort)) := by
  by_cases ready : sys.Ready args
  · rw [and_iff_right ready, testDmaTo_ready ready]
    have range := @transfer_range .read true sys.input args.size 0 small 0
    split
    · dsimp only
      generalize transfer .read true sys.input args.size 0 0 = input at range
      split
      · next short =>
        dsimp only
        rw [returned_zero_iff (by omega)]
        constructor
        · intro both
          have nonneg := both.1
          exact .inl ⟨⟨input, rfl, nonneg, by omega⟩, rfl⟩
        · intro held
          rcases held with ⟨⟨other, taken, nonneg, -⟩, -⟩ | ⟨whole, -⟩
          · cases Option.mem_some.mp taken
            exact ⟨nonneg, rfl⟩
          · have same := whole input rfl
            omega
      · next whole =>
        have all : input.1 = args.size.toNat := by omega
        apply told_rounds small (some input) ?_ rfl
        intro other taken
        cases Option.mem_some.mp taken
        exact all
    · next unnamed =>
      have read : ∀ other ∈ (none : Option (Int × List Move)), other.1 = args.size.toNat := by
        intro other taken
        cases taken
      apply told_rounds small _ read
      split
      · next none =>
        have said := ready.2.2 (Bool.eq_false_of_not_eq_true unnamed) none
        have rounds : (writeRounds sys args).1 = 0 := by
          rw [writeRounds, none]
          rfl
        rw [(returned_word_zero_iff _).mpr said, rounds]
        rfl
      · rfl
  · have failed := (testDmaTo_unready ready).1
    exact iff_of_false failed fun both => ready both.1

theorem testDmaTo_faithful (small : args.size.toNat < 2 ^ 63) (steady : Steady args.toDmaArgs args.count.toNat 0)
    (sys : ToDeviceSystem) : Faithful .write args.toDmaArgs 0 (testDmaTo sys args).rounds ∧
      ∀ input ∈ (testDmaTo sys args).input, Placed .read 0 input := by
  by_cases ready : sys.Ready args
  · have rounds : Faithful .write args.toDmaArgs 0 (writeRounds sys args).2 :=
      dmaRounds_faithful small args.count.toNat 0 0 0 0 false steady ⟨by decide, fun _ => rfl⟩
    have placed := @transfer_placed .read true sys.input args.size 0 0 (by decide) fun _ => rfl
    rw [testDmaTo_ready ready]
    split
    · dsimp only
      split
      · refine ⟨trivial, ?_⟩
        intro input taken
        cases Option.mem_some.mp taken
        exact placed
      · refine ⟨rounds, ?_⟩
        intro input taken
        cases Option.mem_some.mp taken
        exact placed
    · refine ⟨rounds, ?_⟩
      intro input taken
      cases taken
  · obtain ⟨-, none, empty⟩ := testDmaTo_unready ready
    rw [none, empty]
    refine ⟨trivial, ?_⟩
    intro input taken
    cases taken

def sendingSystem (device : Nat → Nat → Answer) : ToDeviceSystem where
  toDmaSystem := workingSystem device
  inOpens := true
  input := obliging 0
  stackWord := 0

theorem steady_of_sent (small : args.size.toNat < 2 ^ 63)
    (faithful : ∀ sys, Faithful .write args.toDmaArgs 0 (testDmaTo sys args).rounds) :
    Steady args.toDmaArgs args.count.toNat 0 := by
  apply steady_of_faithful small
  intro device
  have ready : (sendingSystem device).Ready args := ⟨⟨rfl, fun _ => rfl, rfl⟩, fun _ => rfl, fun _ _ => .inl (Int.le_refl 0)⟩
  have rounds := faithful (sendingSystem device)
  rw [testDmaTo_ready ready] at rounds
  split at rounds
  · have all := (@seekingTransfer_obliging .read true args.size small 0).1
    rw [seekingTransfer_moves] at all
    have whole : ¬ ((transfer .read true (sendingSystem device).input args.size 0 0).1 < 0 ∨
        (transfer .read true (sendingSystem device).input args.size 0 0).1.toNat < args.size.toNat) := by
      show ¬ ((transfer .read true (obliging 0) args.size 0 0).1 < 0 ∨
        (transfer .read true (obliging 0) args.size 0 0).1.toNat < args.size.toNat)
      rw [all]
      omega
    dsimp only at rounds
    rw [if_neg whole] at rounds
    exact rounds
  · exact rounds

/-- The tool says 0 also when it has sent nothing, because its input file is too short, and when its output file is cut
    off. Whatever the system answers, every round sends the bytes of the input file, in order and from the address on,
    exactly if the address can be sought, or is 0 and need not be. -/
theorem send_exact (small : args.size.toNat < 2 ^ 63) :
    (∀ sys, exitCode (testDmaTo sys args).rc = 0 ↔ sys.Ready args ∧
      ((testDmaTo sys args).InputShort args ∧ (testDmaTo sys args).rounds = [] ∨
        (∀ input ∈ (testDmaTo sys args).input, input.1 = args.size.toNat) ∧
          (∀ round ∈ (testDmaTo sys args).rounds, args.size.toNat ≤ round.done) ∧
          ((testDmaTo sys args).Complete args ∨ (testDmaTo sys args).OutputShort))) ∧
    ((∀ sys, Faithful .write args.toDmaArgs 0 (testDmaTo sys args).rounds ∧
        ∀ input ∈ (testDmaTo sys args).input, Placed .read 0 input) ↔
      Steady args.toDmaArgs args.count.toNat 0) := by
  apply And.intro (testDmaTo_told small)
  constructor
  · intro faithful
    exact steady_of_sent small fun sys => (faithful sys).1
  · exact testDmaTo_faithful small

def onePageSent : ToDeviceArgs where
  addr := 0
  aperture := 0
  size := 4096
  count := 1
  ofname := false
  infname := true

theorem unsought_valid : (-1 : Int) ≤ -1 := by decide

def shortInput : ToDeviceSystem :=
  { sendingSystem fun _ => obliging 0 with input := fun _ => ⟨-1, 10, unsought_valid⟩ }

theorem shortInput_succeeds : exitCode (testDmaTo shortInput onePageSent).rc = 0 ∧
    (testDmaTo shortInput onePageSent).rounds = [] := by
  have small : onePageSent.size.toNat < 2 ^ 63 := by decide
  have ready : shortInput.Ready onePageSent :=
    ⟨⟨rfl, fun _ => rfl, rfl⟩, fun _ => rfl, fun _ _ => .inl (Int.le_refl 0)⟩
  have ten : (transfer .read true shortInput.input onePageSent.size 0 0).1 = 10 := by
    unfold transfer
    rw [transferLoop]
    rfl
  have ended : (testDmaTo shortInput onePageSent).InputShort onePageSent ∧
      (testDmaTo shortInput onePageSent).rounds = [] := by
    have named : onePageSent.infname = true := rfl
    rw [testDmaTo_ready ready, if_pos named]
    dsimp only
    rw [ten, if_pos (by decide)]
    exact ⟨⟨_, rfl, by rw [ten]; decide, by rw [ten]; decide⟩, rfl⟩
  exact ⟨((send_exact small).1 shortInput).mpr ⟨ready, .inl ended⟩, ended.2⟩

end ToDevice

end CigCard.Tools
