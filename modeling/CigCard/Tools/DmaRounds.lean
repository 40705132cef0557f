import CigCard.Tools.Descriptor

namespace CigCard.Tools

open ByteMemory Video

structure DmaArgs where
  addr : BitVec 64
  aperture : BitVec 64
  size : BitVec 64
  count : BitVec 64
  ofname : Bool

/-- How the system answers: `device` and `ioctl` in each round of `test_dma`, `out` for the output file. The driver
    returns the error that it sets, of which the C library makes -1, and `write` of some bytes does not return 0 on a
    file. -/
structure DmaSystem where
  opens : Bool
  outOpens : Bool
  memory : Bool
  device : Nat → Nat → Answer
  ioctl : Nat → Ioctl
  out : Nat → Nat → Answer
  refused : ∀ i, (ioctl i).rc < 0 ∨ (ioctl i).error ≠ 0 → (ioctl i).rc = -1
  takes : ∀ i loop, (out i loop).rc ≠ 0

def DmaSystem.Ready (sys : DmaSystem) (args : DmaArgs) : Prop :=
  sys.opens = true ∧ (args.ofname = true → sys.outOpens = true) ∧ sys.memory = true

structure Delivered where
  done : Nat
  moves : List Move
  position : Nat

/-- The transfer of one round: the ioctl moves no more than it is asked to. -/
def deviceRound (transport : Transport) (sys : DmaSystem) (args : DmaArgs) (i position : Nat) : Except Int Delivered :=
  if args.aperture ≠ 0 then
    let io := sys.ioctl i
    if io.rc < 0 ∨ io.error ≠ 0 then .error io.rc else .ok ⟨min io.done args.size.toNat, [], position⟩
  else
    let out := seekingTransfer transport false (sys.device i) args.size args.addr position
    if out.1.1 < 0 then .error out.1.1 else .ok ⟨out.1.1.toNat, out.1.2, out.2⟩

structure Round where
  moves : List Move
  done : Nat
  put : Option (Int × List Move)

/-- The loop of `test_dma` in both tools: `last` is what the tool ends with after its rounds, and `cut` where the output
    file has not taken all. -/
def dmaRounds (transport : Transport) (last : Bool → Int) (cut : Int → Bool → Int) (sys : DmaSystem) (args : DmaArgs) :
    Nat → Nat → Nat → Nat → Nat → Bool → Int × List Round
  | 0, _, _, _, _, underflow => (last underflow, [])
  | left + 1, i, position, outPosition, outOffset, underflow =>
    match deviceRound transport sys args i position with
    | .error rc => (rc, [])
    | .ok got =>
      let underflow := underflow || decide (got.done < args.size.toNat)
      if args.ofname then
        let put := seekingTransfer .write true (sys.out i) (BitVec.ofNat 64 got.done) (BitVec.ofNat 64 outOffset) outPosition
        let round := ⟨got.moves, got.done, some put.1⟩
        if put.1.1 < 0 ∨ put.1.1.toNat < got.done then (cut put.1.1 underflow, [round])
        else
          let rest := dmaRounds transport last cut sys args left (i + 1) got.position put.2 (outOffset + got.done) underflow
          (rest.1, round :: rest.2)
      else
        let rest := dmaRounds transport last cut sys args left (i + 1) got.position outPosition outOffset underflow
        (rest.1, ⟨got.moves, got.done, none⟩ :: rest.2)

/-- What the system keeps of the `int` that `main` returns. -/
def exitCode (rc : Int) : Int := rc % 256

/-- The rounds have moved the bytes from the address on, and put them into the file one behind the other. -/
def Faithful (transport : Transport) (args : DmaArgs) : Nat → List Round → Prop
  | _, [] => True
  | offset, round :: rounds =>
    (args.aperture = 0 →
      round.moves = (List.range round.done).map fun k => ⟨transport, k, args.addr.toNat + k⟩) ∧
      (∀ put ∈ round.put, Placed .write (BitVec.ofNat 64 offset) put) ∧
      Faithful transport args (if round.put.isSome then offset + round.done else offset) rounds

section Transfers

variable {transport : Transport} {advances : Bool} {answers : Nat → Answer} {size base : BitVec 64}

theorem transferLoop_range (small : size.toNat < 2 ^ 63) (loop buf count position : Nat) (offset : BitVec 64)
    (inside : count ≤ size.toNat) :
    (transferLoop transport advances answers size loop buf offset count position).1 = -5 ∨
      count ≤ (transferLoop transport advances answers size loop buf offset count position).1 ∧
        (transferLoop transport advances answers size loop buf offset count position).1 ≤ size.toNat := by
  induction left : size.toNat - count using Nat.strong_induction_on generalizing loop buf offset count position with
  | _ n ih =>
    rw [transferLoop]
    split
    · next more =>
      have progress : 0 < rwMaxSize := by decide
      dsimp only
      generalize (if offset ≠ 0 then (answers loop).sought else offset.toInt) = sought
      generalize (if offset ≠ 0 ∧ 0 ≤ sought then sought.toNat else position) = here
      split
      · exact .inl rfl
      · split
        · exact .inl rfl
        · next nonneg =>
          split
          · right
            dsimp only
            rw [ssize, if_pos (by omega)]
            omega
          · have rest := fun here => ih _ (by omega) (loop + 1) (buf + min (size.toNat - count) rwMaxSize)
              (count + min (size.toNat - count) rwMaxSize) here
              (offset + BitVec.ofNat 64 (min (size.toNat - count) rwMaxSize)) (by omega) rfl
            apply (rest _).imp_right
            intro between
            rcases between with ⟨atLeast, most⟩
            exact ⟨by omega, most⟩
    · right
      dsimp only
      rw [ssize, if_pos (by omega)]
      omega

theorem transfer_range (small : size.toNat < 2 ^ 63) (position : Nat) :
    (transfer transport advances answers size base position).1 = -5 ∨
      0 ≤ (transfer transport advances answers size base position).1 ∧
        (transfer transport advances answers size base position).1 ≤ size.toNat :=
  transferLoop_range small 0 0 0 position base (Nat.zero_le _)

/-- A transfer of some bytes that does not fail has sought where it begins, and has moved one of them at least. -/
theorem transfer_begun (small : size.toNat < 2 ^ 63) (some : 0 < size.toNat) (position : Nat)
    (returned : 0 ≤ (transfer transport advances answers size base position).1) :
    -1 ≤ base.toInt ∧ ((answers 0).rc ≠ 0 → 0 < (transfer transport advances answers size base position).1) := by
  have progress : 0 < rwMaxSize := by decide
  have valid := (answers 0).sought_valid
  unfold transfer at returned ⊢
  rw [transferLoop, if_pos some] at returned ⊢
  dsimp only at returned ⊢
  by_cases accepted : (if base ≠ 0 then (answers 0).sought else base.toInt) = base.toInt
  · have begins : -1 ≤ base.toInt := by
      by_cases zero : base = 0
      · rw [zero]
        decide
      · rw [if_pos zero] at accepted
        omega
    rw [accepted] at returned ⊢
    generalize (if base ≠ 0 ∧ 0 ≤ base.toInt then base.toInt.toNat else position) = here at returned ⊢
    rw [if_neg (fun away => away rfl)] at returned ⊢
    split at returned
    · exact absurd returned (by decide)
    · next nonneg =>
      rw [if_neg nonneg]
      refine ⟨begins, ?_⟩
      intro takes
      split
      · dsimp only
        rw [ssize, if_pos (by omega)]
        omega
      · next full =>
        rw [if_neg full] at returned
        have rest := fun here => @transferLoop_range transport advances answers size small 1
          (0 + min (size.toNat - 0) rwMaxSize) (0 + min (size.toNat - 0) rwMaxSize) here
          (base + BitVec.ofNat 64 (min (size.toNat - 0) rwMaxSize)) (by omega)
        rcases rest (if advances then here + min (size.toNat - 0) rwMaxSize else here) with failed | ⟨atLeast, -⟩
        · rw [failed] at returned
          exact absurd returned (by decide)
        · exact lt_of_lt_of_le (by omega) atLeast
  · rw [if_pos accepted] at returned
    exact absurd returned (by decide)

theorem seekingTransfer_nothing (position : Nat) :
    seekingTransfer transport advances answers 0 base position = ((0, []), position) := by
  unfold seekingTransfer
  rw [seekingLoop]
  rfl

end Transfers

structure FileAt (outOffset outPosition : Nat) : Prop where
  known : outOffset + 1 < 2 ^ 64
  start : outOffset = 0 → outPosition = 0

section Rounds

variable {transport : Transport} {last : Bool → Int} {cut : Int → Bool → Int} {sys : DmaSystem} {args : DmaArgs}

theorem FileAt.placed {outOffset outPosition : Nat} (file : FileAt outOffset outPosition) (answers : Nat → Answer)
    (size : BitVec 64) : Placed .write (BitVec.ofNat 64 outOffset)
      (seekingTransfer .write true answers size (BitVec.ofNat 64 outOffset) outPosition).1 := by
  have known := file.known
  have place : (BitVec.ofNat 64 outOffset).toNat = outOffset := by
    rw [BitVec.toNat_ofNat, Nat.mod_eq_of_lt (by omega)]
  rw [seekingTransfer_moves]
  apply transfer_placed
  · intro last
    rw [last] at place
    have top : (-1 : BitVec 64).toNat = 2 ^ 64 - 1 := rfl
    omega
  · intro zero
    rw [zero] at place
    exact file.start place.symm

theorem FileAt.next {outOffset outPosition done i : Nat} (file : FileAt outOffset outPosition) (short : done < 2 ^ 63)
    (put : 0 ≤ (seekingTransfer .write true (sys.out i) (BitVec.ofNat 64 done) (BitVec.ofNat 64 outOffset)
      outPosition).1.1) :
    (seekingTransfer .write true (sys.out i) (BitVec.ofNat 64 done) (BitVec.ofNat 64 outOffset) outPosition).1.1 ≤ done ∧
      (0 < done → 0 < (seekingTransfer .write true (sys.out i) (BitVec.ofNat 64 done) (BitVec.ofNat 64 outOffset)
        outPosition).1.1) ∧
      FileAt (outOffset + done)
        (seekingTransfer .write true (sys.out i) (BitVec.ofNat 64 done) (BitVec.ofNat 64 outOffset) outPosition).2 := by
  have known := file.known
  have size : (BitVec.ofNat 64 done).toNat = done := by
    rw [BitVec.toNat_ofNat, Nat.mod_eq_of_lt (by omega)]
  rcases Nat.eq_zero_or_pos done with rfl | some
  · rw [show BitVec.ofNat 64 0 = 0 from rfl, seekingTransfer_nothing]
    exact ⟨Int.le_refl _, fun none => absurd none (Nat.lt_irrefl 0), file⟩
  · rw [seekingTransfer_moves] at put ⊢
    have small : (BitVec.ofNat 64 done).toNat < 2 ^ 63 := by rwa [size]
    have range := @transfer_range .write true (sys.out i) (BitVec.ofNat 64 done) (BitVec.ofNat 64 outOffset) small outPosition
    have begun := transfer_begun small (by rwa [size]) outPosition put
    rw [size] at range
    have low : outOffset < 2 ^ 63 := by
      have begins := begun.1
      rw [BitVec.toInt_eq_toNat_cond, BitVec.toNat_ofNat, Nat.mod_eq_of_lt (by omega)] at begins
      split at begins
      · omega
      · omega
    refine ⟨?_, fun _ => begun.2 (sys.takes i 0), by omega, fun zero => by omega⟩
    omega

theorem deviceRound_le {i position : Nat} {got : Delivered} (small : args.size.toNat < 2 ^ 63)
    (delivered : deviceRound transport sys args i position = .ok got) : got.done ≤ args.size.toNat := by
  unfold deviceRound at delivered
  split at delivered
  · dsimp only at delivered
    split at delivered
    · cases delivered
    · cases delivered
      exact Nat.min_le_right _ _
  · dsimp only at delivered
    split at delivered
    · cases delivered
    · next nonneg =>
      cases delivered
      have range := @transfer_range transport false (sys.device i) args.size args.addr small position
      rw [seekingTransfer_moves] at nonneg ⊢
      dsimp only
      omega

/-- The descriptor of the device is where the transfers to come need it. -/
def Steady (args : DmaArgs) (left position : Nat) : Prop :=
  args.aperture = 0 → args.size ≠ 0 → left ≠ 0 →
    args.addr ≠ -1 ∧ (args.addr = 0 → position = 0 ∧ (args.size.toNat ≤ rwMaxSize ∨ left = 1))

theorem deviceRound_moves {i position left : Nat} {got : Delivered} (steady : Steady args (left + 1) position)
    (delivered : deviceRound transport sys args i position = .ok got) :
    (args.aperture = 0 → got.moves = (List.range got.done).map fun k => ⟨transport, k, args.addr.toNat + k⟩) ∧
      Steady args left got.position := by
  unfold deviceRound at delivered
  split at delivered
  · next windowed => exact ⟨fun flat => absurd flat windowed, fun flat => absurd flat windowed⟩
  · next flat =>
    dsimp only at delivered
    split at delivered
    · cases delivered
    · next nonneg =>
      cases delivered
      by_cases none : args.size = 0
      · rw [none, seekingTransfer_nothing]
        exact ⟨fun _ => rfl, fun _ some => absurd none some⟩
      · obtain ⟨known, start⟩ := steady (not_not.mp flat) none (Nat.succ_ne_zero left)
        have placed := @transfer_placed transport false (sys.device i) args.size args.addr position known
          fun zero => (start zero).1
        rw [← seekingTransfer_moves] at placed
        refine ⟨fun _ => placed (not_lt.mp nonneg), ?_⟩
        intro _ _ more
        refine ⟨known, ?_⟩
        intro zero
        obtain ⟨origin, short | last⟩ := start zero
        · rw [zero, seekingTransfer_stays short]
          exact ⟨origin, .inl short⟩
        · omega

theorem deviceRound_failed {i position : Nat} {rc : Int} (small : args.size.toNat < 2 ^ 63)
    (failed : deviceRound transport sys args i position = .error rc) : exitCode rc ≠ 0 := by
  unfold deviceRound at failed
  split at failed
  · dsimp only at failed
    split at failed
    · next refused =>
      cases failed
      rw [sys.refused i refused]
      decide
    · cases failed
  · dsimp only at failed
    split at failed
    · next negative =>
      cases failed
      have range := @transfer_range transport false (sys.device i) args.size args.addr small position
      rw [seekingTransfer_moves] at negative ⊢
      rw [range.resolve_right fun between => Int.not_lt.mpr between.1 negative]
      decide
    · cases failed

theorem dmaRounds_faithful (small : args.size.toNat < 2 ^ 63) (left i position outPosition outOffset : Nat)
    (underflow : Bool) (steady : Steady args left position) (file : FileAt outOffset outPosition) :
    Faithful transport args outOffset
      (dmaRounds transport last cut sys args left i position outPosition outOffset underflow).2 := by
  induction left generalizing i position outPosition outOffset underflow with
  | zero => trivial
  | succ left ih =>
    unfold dmaRounds
    cases ran : deviceRound transport sys args i position with
    | error rc => trivial
    | ok got =>
      obtain ⟨moves, next⟩ := deviceRound_moves steady ran
      have le := deviceRound_le small ran
      dsimp only
      split
      · have placed := file.placed (sys.out i) (BitVec.ofNat 64 got.done)
        split
        · exact ⟨moves, by simpa using placed, trivial⟩
        · next put =>
          rw [not_or] at put
          have later := (file.next (by omega) (not_lt.mp put.1)).2.2
          exact ⟨moves, by simpa using placed, ih (i + 1) got.position _ (outOffset + got.done) _ next later⟩
      · exact ⟨moves, by simp, ih (i + 1) got.position outPosition outOffset _ next file⟩

def anyShort (args : DmaArgs) (rounds : List Round) : Bool := rounds.any fun round => round.done < args.size.toNat

theorem anyShort_false_iff (args : DmaArgs) (rounds : List Round) :
    anyShort args rounds = false ↔ ∀ round ∈ rounds, args.size.toNat ≤ round.done := by
  simp [anyShort]

structure Told (last : Bool → Int) (cut : Int → Bool → Int) (args : DmaArgs) (left : Nat) (underflow : Bool)
    (out : Int × List Round) : Prop where
  puts : ∀ round ∈ out.2, ∀ put ∈ round.put, put.1 ≤ round.done ∧ (0 < round.done → put.1 ≠ 0) ∧ -5 ≤ put.1
  status : exitCode out.1 = 0 ↔
    out.2.length = left ∧ exitCode (last (underflow || anyShort args out.2)) = 0 ∧
        (∀ round ∈ out.2, ∀ put ∈ round.put, put.1 = round.done) ∨
      ∃ round ∈ out.2, ∃ put ∈ round.put, put.1 < round.done ∧
        exitCode (cut put.1 (underflow || anyShort args out.2)) = 0

theorem Told.next {underflow : Bool} {round : Round} {left : Nat} {rest : Int × List Round}
    (told : Told last cut args left (underflow || decide (round.done < args.size.toNat)) rest)
    (taken : ∀ put ∈ round.put, put.1 = round.done) :
    Told last cut args (left + 1) underflow (rest.1, round :: rest.2) where
  puts := by
    rw [List.forall_mem_cons]
    refine ⟨?_, told.puts⟩
    intro put member
    rw [taken put member]
    exact ⟨Int.le_refl _, fun some => by omega, by omega⟩
  status := by
    have flag : (underflow || anyShort args (round :: rest.2)) =
        (underflow || decide (round.done < args.size.toNat) || anyShort args rest.2) := by
      rw [anyShort, List.any_cons, ← Bool.or_assoc]
      rfl
    have here : ¬ ∃ put ∈ round.put, put.1 < round.done ∧
        exitCode (cut put.1 (underflow || decide (round.done < args.size.toNat) || anyShort args rest.2)) = 0 := by
      intro cutOff
      rcases cutOff with ⟨put, member, less, -⟩
      rw [taken put member] at less
      exact Int.lt_irrefl _ less
    dsimp only
    rw [told.status, flag, List.length_cons, List.forall_mem_cons, and_iff_right taken, Nat.add_right_cancel_iff]
    simp only [List.mem_cons, exists_eq_or_imp]
    rw [or_iff_right here]

theorem Told.ended {underflow : Bool} {moves : List Move} {done left : Nat} {put : Int × List Move}
    (less : put.1 < done) (some : 0 < done → put.1 ≠ 0) (error : -5 ≤ put.1) :
    Told last cut args (left + 1) underflow
      (cut put.1 (underflow || decide (done < args.size.toNat)), [⟨moves, done, Option.some put⟩]) where
  puts := by
    intro round member out taken
    cases List.mem_singleton.mp member
    cases Option.mem_some.mp taken
    exact ⟨Int.le_of_lt less, some, error⟩
  status := by
    have flag : anyShort args [⟨moves, done, Option.some put⟩] = decide (done < args.size.toNat) := by simp [anyShort]
    have partly : ¬ ∀ round ∈ [(⟨moves, done, Option.some put⟩ : Round)], ∀ out ∈ round.put, out.1 = round.done := by
      intro all
      exact Int.ne_of_lt less (all _ List.mem_cons_self put rfl)
    dsimp only
    rw [flag, or_iff_right fun both => partly both.2.2]
    simp only [List.mem_singleton, exists_eq_left, Option.mem_some, exists_eq_left', less, true_and]

theorem dmaRounds_told (small : args.size.toNat < 2 ^ 63)
    (left i position outPosition outOffset : Nat) (underflow : Bool) (file : FileAt outOffset outPosition) :
    Told last cut args left underflow
      (dmaRounds transport last cut sys args left i position outPosition outOffset underflow) := by
  induction left generalizing i position outPosition outOffset underflow with
  | zero =>
    unfold dmaRounds
    refine ⟨fun _ none => absurd none List.not_mem_nil, ?_⟩
    simp [anyShort]
  | succ left ih =>
    unfold dmaRounds
    cases ran : deviceRound transport sys args i position with
    | error rc =>
      refine ⟨fun _ none => absurd none List.not_mem_nil, ?_⟩
      simp [deviceRound_failed small ran]
    | ok got =>
      have le := deviceRound_le small ran
      have short : got.done < 2 ^ 63 := by omega
      dsimp only
      split
      · split
        · next cutOff =>
          have less : (seekingTransfer .write true (sys.out i) (BitVec.ofNat 64 got.done) (BitVec.ofNat 64 outOffset)
              outPosition).1.1 < got.done := by omega
          apply Told.ended less
          · intro some zero
            have begun := (file.next short (Int.le_of_eq zero.symm)).2.1 some
            rw [zero] at begun
            exact Int.lt_irrefl 0 begun
          · have size : (BitVec.ofNat 64 got.done).toNat < 2 ^ 63 := by
              rwa [BitVec.toNat_ofNat, Nat.mod_eq_of_lt (by omega)]
            have range := @transfer_range .write true (sys.out i) (BitVec.ofNat 64 got.done)
              (BitVec.ofNat 64 outOffset) size outPosition
            rw [seekingTransfer_moves]
            omega
        · next put =>
          rw [not_or] at put
          obtain ⟨most, -, later⟩ := file.next short (not_lt.mp put.1)
          have told := ih (i + 1) got.position _ (outOffset + got.done)
            (underflow || decide (got.done < args.size.toNat)) later
          apply @Told.next last cut args underflow ⟨got.moves, got.done, some _⟩ left _ told
          intro out taken
          cases Option.mem_some.mp taken
          dsimp only
          omega
      · have told := ih (i + 1) got.position outPosition outOffset
          (underflow || decide (got.done < args.size.toNat)) file
        apply @Told.next last cut args underflow ⟨got.moves, got.done, none⟩ left _ told
        intro out taken
        cases taken

theorem dmaRounds_head {left i position : Nat} {got : Delivered}
    (delivered : deviceRound transport sys args i position = .ok got) (outPosition outOffset : Nat) (underflow : Bool) :
    ∃ put rest, (dmaRounds transport last cut sys args (left + 1) i position outPosition outOffset underflow).2 =
      ⟨got.moves, got.done, put⟩ :: rest := by
  unfold dmaRounds
  rw [delivered]
  dsimp only
  split
  · split
    · exact ⟨_, _, rfl⟩
    · exact ⟨_, _, rfl⟩
  · exact ⟨_, _, rfl⟩

theorem dmaRounds_next {left i position outPosition outOffset : Nat} {underflow : Bool} {got : Delivered}
    (delivered : deviceRound transport sys args i position = .ok got)
    (taken : (seekingTransfer .write true (sys.out i) (BitVec.ofNat 64 got.done) (BitVec.ofNat 64 outOffset)
      outPosition).1.1 = got.done) :
    ∃ round outPosition' outOffset' underflow',
      (dmaRounds transport last cut sys args (left + 1) i position outPosition outOffset underflow).2 =
        round :: (dmaRounds transport last cut sys args left (i + 1) got.position outPosition' outOffset' underflow').2 := by
  have full : ¬ ((got.done : Int) < 0 ∨ (got.done : Int).toNat < got.done) := by omega
  conv in dmaRounds transport last cut sys args (left + 1) _ _ _ _ _ => unfold dmaRounds
  rw [delivered]
  dsimp only
  rw [taken, if_neg full]
  split
  · exact ⟨_, _, _, _, rfl⟩
  · exact ⟨_, _, _, _, rfl⟩

theorem deviceRound_oneByte (flat : args.aperture = 0) (some : args.size ≠ 0) (edge : args.addr = 0 ∨ args.addr = -1)
    {i : Nat} (answers : sys.device i = oneByte) (position : Nat) :
    ∃ after, deviceRound transport sys args i position = .ok ⟨1, [⟨transport, 0, position⟩], after⟩ := by
  have one := @transfer_oneByte transport args.size args.addr position some edge
  have moved := @seekingTransfer_moves transport false oneByte args.size args.addr position
  rw [one] at moved
  unfold deviceRound
  rw [if_neg (not_not_intro flat), answers]
  dsimp only
  rw [moved, if_neg (Int.not_lt.mpr Int.one_nonneg)]
  exact ⟨_, rfl⟩

theorem granted_kept : ¬ ((0 : Int) < 0 ∨ (0 : Int) ≠ 0) := by decide

theorem rwMaxSize_ne_zero : (rwMaxSize : Int) ≠ 0 := by decide

def workingSystem (device : Nat → Nat → Answer) : DmaSystem where
  opens := true
  outOpens := true
  memory := true
  device := device
  ioctl _ := ⟨0, 0, 0⟩
  out _ := obliging 0
  refused _ wrong := absurd wrong granted_kept
  takes _ _ := rwMaxSize_ne_zero

/-- The device is not always where a transfer is to begin if the address cannot be told from a failure to seek it, or is
    not sought because it is 0, although a transfer in more than one piece has gone before. -/
theorem steady_of_faithful (small : args.size.toNat < 2 ^ 63) {left : Nat}
    (faithful : ∀ device, Faithful transport args 0
      (dmaRounds transport last cut (workingSystem device) args left 0 0 0 0 false).2) : Steady args left 0 := by
  intro flat some nonempty
  obtain ⟨later, rfl⟩ := Nat.exists_eq_succ_of_ne_zero nonempty
  constructor
  · intro top
    have first := faithful fun _ => oneByte
    obtain ⟨after, delivered⟩ := @deviceRound_oneByte transport (workingSystem fun _ => oneByte) args flat some
      (.inr top) 0 rfl 0
    obtain ⟨put, rest, rounds⟩ := @dmaRounds_head transport last cut _ args later 0 0 _ delivered 0 0 false
    rw [Nat.succ_eq_add_one, rounds] at first
    have moved := first.1 flat
    rw [top] at moved
    simp at moved
  · intro zero
    refine ⟨rfl, ?_⟩
    by_contra fails
    rw [not_or, not_le] at fails
    obtain ⟨long, several⟩ := fails
    obtain ⟨more, rfl⟩ := Nat.exists_eq_succ_of_ne_zero (show later ≠ 0 by omega)
    let device : Nat → Nat → Answer := fun i => if i = 0 then obliging 0 else oneByte
    let sys := workingSystem device
    obtain ⟨all, away⟩ := @seekingTransfer_obliging transport false args.size small 0
    have whole : BitVec.ofNat 64 args.size.toNat = args.size := by simp
    have taken : (seekingTransfer .write true (sys.out 0) (BitVec.ofNat 64 args.size.toNat) (BitVec.ofNat 64 0) 0).1.1 =
        args.size.toNat := by
      rw [whole]
      exact (@seekingTransfer_obliging .write true args.size small 0).1
    have firstRound : deviceRound transport sys args 0 0 = .ok ⟨args.size.toNat,
        (seekingTransfer transport false (obliging 0) args.size 0 0).1.2,
        (seekingTransfer transport false (obliging 0) args.size 0 0).2⟩ := by
      have nonneg : ¬ ((args.size.toNat : Int) < 0) := Int.not_lt.mpr (Int.natCast_nonneg _)
      have answers : sys.device 0 = obliging 0 := rfl
      unfold deviceRound
      rw [if_neg (not_not_intro flat), zero, answers]
      dsimp only
      rw [all, if_neg nonneg, Int.toNat_natCast]
    obtain ⟨round, outPosition, outOffset, underflow, next⟩ :=
      @dmaRounds_next transport last cut sys args (more + 1) 0 0 0 0 false _ firstRound taken
    obtain ⟨after, secondRound⟩ := @deviceRound_oneByte transport sys args flat some (.inl zero) 1 rfl
      (seekingTransfer transport false (obliging 0) args.size 0 0).2
    obtain ⟨put, rest, second⟩ := @dmaRounds_head transport last cut sys args more 1 _ _ secondRound outPosition
      outOffset underflow
    have rounds := faithful device
    rw [Nat.succ_eq_add_one, next, second] at rounds
    have moved := rounds.2.2.1 flat
    rw [zero] at moved
    simp at moved
    exact away long moved

end Rounds

end CigCard.Tools
