import CigCard.Tools.DmaRounds

namespace CigCard.Tools

open Video

structure FromDeviceArgs extends DmaArgs where
  eopFlush : Bool

def readRounds (sys : DmaSystem) (args : FromDeviceArgs) : Int × List Round :=
  dmaRounds .read (fun underflow => if !underflow then 0 else if args.eopFlush then 0 else -5) (fun rc _ => rc) sys
    args.toDmaArgs args.count.toNat 0 0 0 0 false

def testDmaFrom (sys : DmaSystem) (args : FromDeviceArgs) : Int × List Round :=
  if !sys.opens then (-22, [])
  else if args.ofname && !sys.outOpens then (-22, [])
  else if !sys.memory then (-12, [])
  else readRounds sys args

def Round.Whole (args : FromDeviceArgs) (round : Round) : Prop :=
  (args.eopFlush = true ∨ args.size.toNat ≤ round.done) ∧ ∀ put ∈ round.put, put.1 = round.done

def Captured (args : FromDeviceArgs) (rounds : List Round) : Prop :=
  rounds.length = args.count.toNat ∧ ∀ round ∈ rounds, round.Whole args

/-- The output file has taken only a part of a round, in a number of bytes of which the exit status keeps nothing. -/
def CutUnseen (rounds : List Round) : Prop :=
  ∃ round ∈ rounds, ∃ put ∈ round.put, 0 < put.1 ∧ put.1 < round.done ∧ exitCode put.1 = 0

section FromDevice

variable {sys : DmaSystem} {args : FromDeviceArgs}

theorem testDmaFrom_ready (ready : sys.Ready args.toDmaArgs) : testDmaFrom sys args = readRounds sys args := by
  obtain ⟨opens, outOpens, memory⟩ := ready
  unfold testDmaFrom
  rw [opens, memory]
  cases named : args.ofname with
  | false => rfl
  | true =>
    rw [outOpens named]
    rfl

theorem testDmaFrom_unready (unready : ¬ sys.Ready args.toDmaArgs) :
    exitCode (testDmaFrom sys args).1 ≠ 0 ∧ (testDmaFrom sys args).2 = [] := by
  unfold testDmaFrom
  split
  · exact ⟨by decide, rfl⟩
  · next opens =>
    split
    · exact ⟨by decide, rfl⟩
    · next outOpens =>
      split
      · exact ⟨by decide, rfl⟩
      · next memory =>
        refine absurd ⟨by simpa using opens, ?_, by simpa using memory⟩ unready
        intro named
        simpa [named] using outOpens

theorem readRounds_told (small : args.size.toNat < 2 ^ 63) :
    exitCode (readRounds sys args).1 = 0 ↔
      Captured args (readRounds sys args).2 ∨ CutUnseen (readRounds sys args).2 := by
  have start : FileAt 0 0 := ⟨by decide, fun _ => rfl⟩
  have told := @dmaRounds_told .read (fun underflow => if !underflow then 0 else if args.eopFlush then 0 else -5)
    (fun rc _ => rc) sys args.toDmaArgs small args.count.toNat 0 0 0 0 false start
  have last : exitCode (if !(false || anyShort args.toDmaArgs (readRounds sys args).2) then (0 : Int)
      else if args.eopFlush then 0 else -5) = 0 ↔
      args.eopFlush = true ∨ ∀ round ∈ (readRounds sys args).2, args.size.toNat ≤ round.done := by
    rw [← anyShort_false_iff, Bool.false_or]
    cases anyShort args.toDmaArgs (readRounds sys args).2 with
    | false => simp [exitCode]
    | true => cases args.eopFlush <;> simp [exitCode]
  have status := told.status
  rw [← readRounds, last] at status
  rw [status]
  apply or_congr
  · constructor
    · intro held
      rcases held with ⟨count, full, taken⟩
      exact ⟨count, fun round member => ⟨full.imp_right fun all => all round member, taken round member⟩⟩
    · intro captured
      rcases captured with ⟨count, whole⟩
      refine ⟨count, ?_, fun round member => (whole round member).2⟩
      by_cases flush : args.eopFlush = true
      · exact .inl flush
      · exact .inr fun round member => (whole round member).1.resolve_left flush
  · constructor
    · intro cut
      rcases cut with ⟨round, member, put, taken, less, code⟩
      obtain ⟨-, some, error⟩ := told.puts round member put taken
      have positive : 0 < put.1 := by
        unfold exitCode at code
        omega
      exact ⟨round, member, put, taken, positive, less, code⟩
    · intro unseen
      rcases unseen with ⟨round, member, put, taken, -, less, code⟩
      exact ⟨round, member, put, taken, less, code⟩

theorem testDmaFrom_told (small : args.size.toNat < 2 ^ 63) (sys : DmaSystem) :
    exitCode (testDmaFrom sys args).1 = 0 ↔ sys.Ready args.toDmaArgs ∧
      (Captured args (testDmaFrom sys args).2 ∨ CutUnseen (testDmaFrom sys args).2) := by
  by_cases ready : sys.Ready args.toDmaArgs
  · rw [testDmaFrom_ready ready, and_iff_right ready]
    exact readRounds_told small
  · have failed := (testDmaFrom_unready ready).1
    exact iff_of_false failed fun both => ready both.1

theorem testDmaFrom_faithful_iff (small : args.size.toNat < 2 ^ 63) :
    (∀ sys, Faithful .read args.toDmaArgs 0 (testDmaFrom sys args).2) ↔
      Steady args.toDmaArgs args.count.toNat 0 := by
  constructor
  · intro faithful
    apply steady_of_faithful small
    intro device
    have ready : (workingSystem device).Ready args.toDmaArgs := ⟨rfl, fun _ => rfl, rfl⟩
    have rounds := faithful (workingSystem device)
    rwa [testDmaFrom_ready ready] at rounds
  · intro steady sys
    by_cases ready : sys.Ready args.toDmaArgs
    · rw [testDmaFrom_ready ready]
      exact dmaRounds_faithful small args.count.toNat 0 0 0 0 false steady ⟨by decide, fun _ => rfl⟩
    · rw [(testDmaFrom_unready ready).2]
      trivial

/-- The exit status is 0 also where the output file has taken a multiple of 256 bytes instead of a whole round. Whatever
    the system answers, the rounds put the bytes from the address on into the file, one behind the other, exactly if the
    address can be sought, or is 0 and need not be. -/
theorem capture_exact (small : args.size.toNat < 2 ^ 63) :
    (∀ sys, exitCode (testDmaFrom sys args).1 = 0 ↔ sys.Ready args.toDmaArgs ∧
      (Captured args (testDmaFrom sys args).2 ∨ CutUnseen (testDmaFrom sys args).2)) ∧
    ((∀ sys, Faithful .read args.toDmaArgs 0 (testDmaFrom sys args).2) ↔
      Steady args.toDmaArgs args.count.toNat 0) :=
  ⟨testDmaFrom_told small, testDmaFrom_faithful_iff small⟩

def threePages : FromDeviceArgs where
  addr := 0x810000000
  aperture := 0
  size := 4096
  count := 3
  ofname := true
  eopFlush := false

theorem threePages_captured : threePages.size.toNat < 2 ^ 63 ∧
    ∀ sys, Faithful .read threePages.toDmaArgs 0 (testDmaFrom sys threePages).2 := by
  have small : threePages.size.toNat < 2 ^ 63 := by decide
  have steady : Steady threePages.toDmaArgs threePages.count.toNat 0 := by
    intro _ _ _
    decide
  exact ⟨small, (capture_exact small).2.mpr steady⟩

end FromDevice

end CigCard.Tools
