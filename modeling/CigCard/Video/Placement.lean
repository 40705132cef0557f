import Mathlib.Data.BitVec
import CigCard.Video.SendFrame

namespace CigCard.Video

open Interaction ByteMemory

inductive Transport where
  | read
  | write
deriving DecidableEq

structure Move where
  transport : Transport
  buffer : Nat
  address : Nat
deriving DecidableEq

/-- What the system answers in a round of the loop: `lseek` returns the position it has set, or -1 and sets none;
    `read` or `write` moves `rc` bytes, or as many as it was asked to if these are fewer, and fails if `rc` is
    negative. -/
structure Answer where
  sought : Int
  rc : Int
  sought_valid : -1 ≤ sought

/-- The loop of `read_to_buffer` and `write_from_buffer`. `offset` is an `off_t`. The position of a character device
    does not advance by itself (`advances`), that of a regular file does. -/
def transferLoop (transport : Transport) (advances : Bool) (answers : Nat → Answer) (size : BitVec 64)
    (loop buf : Nat) (offset : BitVec 64) (count position : Nat) : Int × List Move :=
  if count < size.toNat then
    let bytes := min (size.toNat - count) rwMaxSize
    let sought := if offset ≠ 0 then (answers loop).sought else offset.toInt
    let position := if offset ≠ 0 ∧ 0 ≤ sought then sought.toNat else position
    if sought ≠ offset.toInt then (-5, [])
    else
      let rc := min (answers loop).rc bytes
      if rc < 0 then (-5, [])
      else
        let moved := (List.range rc.toNat).map fun k => ⟨transport, buf + k, position + k⟩
        if rc ≠ bytes then (ssize (count + rc.toNat), moved)
        else
          let rest := transferLoop transport advances answers size (loop + 1) (buf + bytes)
            (offset + BitVec.ofNat 64 bytes) (count + bytes) (if advances then position + bytes else position)
          (rest.1, moved ++ rest.2)
  else (ssize count, [])
termination_by size.toNat - count
decreasing_by
  simp only [rwMaxSize]
  omega

def transfer (transport : Transport) (advances : Bool) (answers : Nat → Answer) (size base : BitVec 64)
    (position : Nat) : Int × List Move :=
  transferLoop transport advances answers size 0 0 base 0 position

/-- The first bytes of the buffer, in order, at the addresses from `base` on, as many as are returned. -/
def Placed (transport : Transport) (base : BitVec 64) (out : Int × List Move) : Prop :=
  0 ≤ out.1 → out.2 = (List.range out.1.toNat).map fun k => ⟨transport, k, base.toNat + k⟩

section Loop

variable {transport : Transport} {advances : Bool} {answers : Nat → Answer} {size base : BitVec 64}

theorem range_split (first second : Nat) (place : Nat → Move) :
    (List.range (first + second)).map place =
      (List.range first).map place ++ (List.range second).map fun k => place (first + k) := by
  rw [List.range_add, List.map_append, List.map_map]
  rfl

theorem ssize_eq {count : Nat} (short : count < 2 ^ 64) (returned : 0 ≤ ssize count) : ssize count = count := by
  unfold ssize at returned ⊢
  split at returned
  · next small => exact if_pos small
  · omega

/-- A seek that the loop accepts has gone to `offset`, which is not negative. -/
theorem seek_aimed {offset : BitVec 64} {sought : Int} {position : Nat} (valid : -1 ≤ sought) (known : offset ≠ -1)
    (start : offset = 0 → position = 0) (accepted : (if offset ≠ 0 then sought else offset.toInt) = offset.toInt) :
    offset.toNat < 2 ^ 63 ∧
      (if offset ≠ 0 ∧ 0 ≤ (if offset ≠ 0 then sought else offset.toInt) then
        (if offset ≠ 0 then sought else offset.toInt).toNat else position) = offset.toNat := by
  have bound := offset.isLt
  by_cases zero : offset = 0
  · simp [zero, start zero]
  · have other : offset.toNat ≠ 2 ^ 64 - 1 := by
      intro same
      exact known (BitVec.eq_of_toNat_eq same)
    simp only [ne_eq, zero, not_false_eq_true, if_true, true_and] at accepted ⊢
    rw [accepted]
    rw [BitVec.toInt_eq_toNat_cond] at accepted ⊢
    split at accepted
    · next small =>
      have nonneg : (0 : Int) ≤ offset.toNat := Int.natCast_nonneg _
      rw [if_pos small, if_pos nonneg, Int.toNat_natCast]
      exact ⟨by omega, rfl⟩
    · omega

/-- From a round on that seeks, or that begins at the start of the file or device when it does not: what is moved is
    what comes next. -/
theorem transferLoop_placed (loop count position : Nat) (inside : count ≤ size.toNat)
    (known : base + BitVec.ofNat 64 count ≠ -1) (start : base + BitVec.ofNat 64 count = 0 → position = 0)
    (low : base.toNat + count < 2 ^ 64) :
    0 ≤ (transferLoop transport advances answers size loop count (base + BitVec.ofNat 64 count) count position).1 →
      ∃ more : Nat,
        transferLoop transport advances answers size loop count (base + BitVec.ofNat 64 count) count position =
          (((count + more : Nat) : Int),
            (List.range more).map fun k => ⟨transport, count + k, base.toNat + count + k⟩) := by
  have bound := size.isLt
  have place : (base + BitVec.ofNat 64 count).toNat = base.toNat + count := by
    rw [BitVec.toNat_add, BitVec.toNat_ofNat, Nat.add_mod_mod, Nat.mod_eq_of_lt low]
  induction left : size.toNat - count using Nat.strong_induction_on generalizing loop count position with
  | _ n ih =>
    rw [transferLoop]
    split
    · next more =>
      have progress : 0 < rwMaxSize := by decide
      have chunk_le : min (size.toNat - count) rwMaxSize ≤ 0x7ffff000 := Nat.min_le_right _ _
      generalize chunk : min (size.toNat - count) rwMaxSize = bytes at chunk_le
      dsimp only
      by_cases accepted : (if base + BitVec.ofNat 64 count ≠ 0 then (answers loop).sought
          else (base + BitVec.ofNat 64 count).toInt) = (base + BitVec.ofNat 64 count).toInt
      · obtain ⟨small, aimed⟩ := seek_aimed (answers loop).sought_valid known start accepted
        rw [aimed, place, if_neg (not_not_intro accepted)]
        split
        · intro returned
          exact absurd returned (by decide)
        · next positive =>
          split
          · intro returned
            refine ⟨(min (answers loop).rc bytes).toNat, ?_⟩
            rw [ssize_eq (by omega) returned]
          · next full =>
            have all : (min (answers loop).rc (bytes : Int)).toNat = bytes := by omega
            have offset : base + BitVec.ofNat 64 count + BitVec.ofNat 64 bytes = base + BitVec.ofNat 64 (count + bytes) := by
              rw [BitVec.add_assoc, ← BitVec.ofNat_add]
            have next : (base + BitVec.ofNat 64 (count + bytes)).toNat = base.toNat + (count + bytes) := by
              rw [BitVec.toNat_add, BitVec.toNat_ofNat, Nat.add_mod_mod, Nat.mod_eq_of_lt (by omega)]
            rw [all, offset]
            intro returned
            have rest := fun position => ih (size.toNat - (count + bytes)) (by omega) (loop + 1) (count + bytes) position
              (by omega) (fun same => by rw [same] at next; simp at next; omega)
              (fun same => by rw [same] at next; simp at next; omega) (by omega) next rfl
            obtain ⟨others, rest⟩ := rest _ returned
            refine ⟨bytes + others, ?_⟩
            rw [rest, range_split bytes others fun k => ⟨transport, count + k, base.toNat + count + k⟩]
            simp only [Nat.add_assoc]
      · rw [if_pos accepted]
        intro returned
        exact absurd returned (by decide)
    · next done =>
      intro returned
      refine ⟨0, ?_⟩
      rw [ssize_eq (by omega) returned]
      rfl

theorem transfer_placed (position : Nat) (known : base ≠ -1) (start : base = 0 → position = 0) :
    Placed transport base (transfer transport advances answers size base position) := by
  intro returned
  have zero : base + BitVec.ofNat 64 0 = base := BitVec.add_zero base
  have placed := @transferLoop_placed transport advances answers size base 0 0 position (Nat.zero_le _)
    (by rwa [zero]) (by rwa [zero]) base.isLt
  rw [zero] at placed
  obtain ⟨more, out⟩ := placed returned
  unfold transfer
  rw [out]
  simp only [Nat.zero_add, Nat.add_zero, Int.toNat_natCast]

def oneByte : Nat → Answer := fun _ => ⟨-1, 1, by decide⟩

theorem transfer_oneByte {position : Nat} (nonempty : size ≠ 0) (zero_or_last : base = 0 ∨ base = -1) :
    transfer transport false oneByte size base position = (1, [⟨transport, 0, position⟩]) := by
  have some_left : 0 < size.toNat := by
    apply Nat.pos_of_ne_zero
    intro zero
    exact nonempty (BitVec.eq_of_toNat_eq zero)
  have accepted : (if base ≠ 0 then (-1 : Int) else base.toInt) = base.toInt := by
    rcases zero_or_last with rfl | rfl <;> decide
  have unmoved : (if base ≠ 0 ∧ 0 ≤ (if base ≠ 0 then (-1 : Int) else base.toInt) then
      (if base ≠ 0 then (-1 : Int) else base.toInt).toNat else position) = position := by
    apply if_neg
    rcases zero_or_last with rfl | rfl <;> decide
  have progress : 0 < rwMaxSize := by decide
  have one : min (1 : Int) (min size.toNat rwMaxSize : Nat) = 1 := by omega
  rw [transfer, transferLoop, if_pos some_left]
  dsimp only [oneByte]
  rw [Nat.sub_zero, unmoved, if_neg (not_not_intro accepted), one, if_neg (by decide)]
  split
  · rfl
  · next full =>
    have last : ¬ (0 + min size.toNat rwMaxSize < size.toNat) := by
      have wide : rwMaxSize = 0x7ffff000 := rfl
      omega
    have count : min size.toNat rwMaxSize = 1 := by omega
    rw [transferLoop, if_neg last, count]
    rfl

end Loop

section Program

/-- A descriptor in use: the round of the loop it is in, its position, and the bytes written so far with their
    addresses. -/
structure OpenFile where
  round : Nat
  position : Nat
  written : List (Byte × Nat)

inductive OpenFile.Acts (advances : Bool) (answers : Nat → Answer) :
    (call : Call) → OpenFile → call.Answer → OpenFile → Prop where
  | lseek (offset : Nat) (file : OpenFile) :
      Acts advances answers (.lseek offset) file (answers file.round).sought
        { file with
          position := if 0 ≤ (answers file.round).sought then (answers file.round).sought.toNat else file.position }
  | write (bytes : List Byte) (file : OpenFile) :
      Acts advances answers (.write bytes) file (min (answers file.round).rc bytes.length)
        ⟨file.round + 1,
          if advances then file.position + (min (answers file.round).rc bytes.length).toNat else file.position,
          file.written ++ (bytes.take (min (answers file.round).rc bytes.length).toNat).mapIdx fun k byte =>
            (byte, file.position + k)⟩

def fileWorld (advances : Bool) (answers : Nat → Answer) : World Call Call.Answer OpenFile where
  act := OpenFile.Acts advances answers
  env _ _ := False

def Move.carried (buffer : Memory) (move : Move) : Byte × Nat := (buffer move.buffer, move.address)

variable {advances : Bool} {answers : Nat → Answer} {buffer : Memory}

theorem written_carried (first position moved bytes : Nat) (le : moved ≤ bytes) :
    (((load buffer first bytes).take moved).mapIdx fun k byte => (byte, position + k)) =
      ((List.range moved).map fun k => ⟨.write, first + k, position + k⟩).map (Move.carried buffer) := by
  apply List.ext_getElem?
  intro k
  rw [load_take _ _ _ _ le, List.getElem?_mapIdx, List.map_map, List.getElem?_map]
  by_cases inside : k < moved
  · rw [load_getElem? _ _ _ _ inside, List.getElem?_range inside]
    rfl
  · rw [List.getElem?_eq_none (by simpa using Nat.le_of_not_lt inside),
      List.getElem?_eq_none (by simpa using Nat.le_of_not_lt inside)]
    rfl

theorem seek_runs (advances : Bool) (offset round position : Nat) (written : List (Byte × Nat)) (next : Int → Transfer Int) :
    ∀ sought, sought = (if offset ≠ 0 then (answers round).sought else (offset : Int)) →
      Runs (fileWorld advances answers)
        ((if offset ≠ 0 then Program.perform (Call.lseek offset) else Program.pure (offset : Int)).bind next,
          ⟨round, position, written⟩)
        (next sought, ⟨round, if offset ≠ 0 ∧ 0 ≤ sought then sought.toNat else position, written⟩) := by
  rintro sought rfl
  by_cases zero : offset = 0
  · subst zero
    exact .refl
  · simp only [ne_eq, zero, not_false_eq_true, if_true, true_and]
    exact Runs.act (.lseek offset ⟨round, position, written⟩)

theorem ends_after {before middle : Transfer Int × OpenFile} {result : Int} {property : OpenFile → Prop}
    (run : Runs (fileWorld advances answers) before middle)
    (later : ∃ file, Runs (fileWorld advances answers) middle (.pure result, file) ∧ property file) :
    ∃ file, Runs (fileWorld advances answers) before (.pure result, file) ∧ property file := by
  obtain ⟨file, rest, holds⟩ := later
  exact ⟨file, run.trans rest, holds⟩

/-- Where no address is negative as an `off_t`, the program that asks the system does what the loop here does. -/
theorem writeLoop_transfers (size offset count round position : Nat) (written : List (Byte × Nat))
    (low : offset + (size - count) < 2 ^ 63) (bound : size < 2 ^ 64) :
    ∃ file, Runs (fileWorld advances answers) (writeLoop buffer size count offset count, ⟨round, position, written⟩)
      (.pure (transferLoop .write advances answers (BitVec.ofNat 64 size) round count (BitVec.ofNat 64 offset) count
        position).1, file) ∧
      file.written = written ++ (transferLoop .write advances answers (BitVec.ofNat 64 size) round count
        (BitVec.ofNat 64 offset) count position).2.map (Move.carried buffer) := by
  induction left : size - count using Nat.strong_induction_on generalizing offset count round position written with
  | _ n ih =>
    have same_size : (BitVec.ofNat 64 size).toNat = size := by
      rw [BitVec.toNat_ofNat, Nat.mod_eq_of_lt bound]
    have same_offset : (BitVec.ofNat 64 offset).toInt = offset := by
      rw [BitVec.toInt_eq_toNat_of_lt (by rw [BitVec.toNat_ofNat]; omega), BitVec.toNat_ofNat,
        Nat.mod_eq_of_lt (by omega)]
    have zero_iff : BitVec.ofNat 64 offset = 0 ↔ offset = 0 := by
      rw [← BitVec.toNat_inj, BitVec.toNat_ofNat, Nat.mod_eq_of_lt (by omega)]
      rfl
    rw [writeLoop, transferLoop, same_size]
    split
    · next more =>
      have progress : 0 < rwMaxSize := by decide
      have part : min (size - count) rwMaxSize ≤ size - count := Nat.min_le_left _ _
      have progressed : 0 < min (size - count) rwMaxSize := Nat.lt_min.mpr ⟨by omega, progress⟩
      generalize min (size - count) rwMaxSize = bytes at part progressed
      dsimp only
      simp only [same_offset, ne_eq, zero_iff]
      generalize aimed : (if ¬ offset = 0 then (answers round).sought else (offset : Int)) = sought
      have sought_runs := fun next =>
        seek_runs advances offset round position written next sought aimed.symm
      simp only [ne_eq] at sought_runs
      generalize (if ¬ offset = 0 ∧ 0 ≤ sought then sought.toNat else position) = there at sought_runs
      refine ends_after (sought_runs _) ?_
      split
      · exact ⟨_, .refl, (List.append_nil _).symm⟩
      · have write_runs := @OpenFile.Acts.write advances answers (load buffer count bytes) ⟨round, there, written⟩
        have upto : (min (answers round).rc (bytes : Int)).toNat ≤ bytes := by omega
        rw [load_length, written_carried count there _ _ upto] at write_runs
        generalize min (answers round).rc (bytes : Int) = rc at write_runs upto
        refine ends_after (Runs.act write_runs) ?_
        rw [Program.pure_bind]
        by_cases failed : rc < 0
        · rw [if_pos failed, if_pos failed, Int.toNat_of_nonpos failed.le]
          exact ⟨_, .refl, rfl⟩
        · rw [if_neg failed, if_neg failed]
          by_cases full : rc = bytes
          · have all : rc.toNat = bytes := by omega
            rw [if_neg (not_not_intro full), if_neg (not_not_intro full), ← BitVec.ofNat_add, all]
            obtain ⟨file, run, log⟩ := ih (size - (count + bytes)) (by omega) (offset + bytes) (count + bytes) (round + 1)
              (if advances then there + bytes else there) _ (by omega) rfl
            refine ⟨file, run, ?_⟩
            rw [log, List.append_assoc, List.map_append]
          · rw [if_pos full, if_pos full]
            exact ⟨_, .refl, rfl⟩
    · exact ⟨_, .refl, (List.append_nil _).symm⟩

end Program

/-- Whatever the system answers, the bytes are placed right exactly when there are none, or the first round seeks
    and its `lseek` cannot return `base` by failing, or the descriptor is at the start already. -/
theorem always_placed_iff (transport : Transport) (size base : BitVec 64) (position : Nat) (valid : position < 2 ^ 63) :
    (∀ advances answers, Placed transport base (transfer transport advances answers size base position)) ↔
      size = 0 ∨ base ≠ 0 ∧ base ≠ -1 ∨ base = 0 ∧ position = 0 := by
  constructor
  · intro placed
    by_contra fails
    simp only [not_or, not_and_or, not_not] at fails
    obtain ⟨nonempty, zero_or_last, apart⟩ := fails
    have one := placed false oneByte
    rw [transfer_oneByte nonempty zero_or_last] at one
    have moved := one Int.one_nonneg
    simp only [Int.toNat_one, List.range_one, List.map_cons, List.map_nil, Nat.add_zero, List.cons.injEq, Move.mk.injEq,
      true_and, and_true] at moved
    rcases zero_or_last with rfl | rfl
    · simp at moved apart
      exact apart moved
    · simp at moved
      omega
  · rintro (rfl | known | zero) advances answers
    · intro _
      simp [transfer, transferLoop, ssize]
    · exact transfer_placed position known.2 (fun zero => absurd zero known.1)
    · exact transfer_placed position (by rw [zero.1]; decide) (fun _ => zero.2)

theorem based_placed : 7 < 2 ^ 63 ∧ ∀ advances answers,
    Placed .write 0x810000000 (transfer .write advances answers 4147200 0x810000000 7) := by
  have valid : 7 < 2 ^ 63 := by decide
  exact ⟨valid, (always_placed_iff .write 4147200 0x810000000 7 valid).mpr (.inr (.inl (by decide)))⟩

/-- At address 0 the loop does not seek: a descriptor that is at 5 is written to there. -/
theorem unsought_misplaced : ∃ advances answers, ¬ Placed .write 0 (transfer .write advances answers 1 0 5) := by
  refine ⟨false, oneByte, ?_⟩
  rw [transfer_oneByte (by decide) (.inl rfl)]
  intro placed
  have moved := placed (by decide)
  revert moved
  decide

end CigCard.Video
