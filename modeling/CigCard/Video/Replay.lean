import CigCard.ByteMemory.LittleEndian
import CigCard.Video.Buffers

namespace CigCard.Video

open ByteMemory

/-- `file_count = lSize / g_size`, a 64-bit quotient kept in an `int`. -/
def fileCount (globals : Globals) (length : Nat) : Int := (BitVec.ofNat 32 (length / globals.size)).toInt

/-- `fseek` and `fread` of one frame into the cleared buffer; `fseek` refuses an offset that is negative
    as a `long`, and the buffer stays cleared then. -/
def readFrame (globals : Globals) (content : List Byte) (offset : Nat) : List Byte :=
  if offset < 2 ^ 63 then
    let bytes := (content.drop offset).take globals.size
    bytes ++ List.replicate (globals.size - bytes.length) 0
  else List.replicate globals.size 0

structure Replay where
  frames : List (List Byte)
  trapped : Bool

def replayFrom (globals : Globals) (content : List Byte) (count : Int) : Nat → Nat → Replay
  | 0, _ => ⟨[], false⟩
  | remaining + 1, i =>
    if count = 0 then ⟨[], true⟩
    else
      let offset := globals.size * ((i : Int).tmod count).toNat % 2 ^ 64
      let rest := replayFrom globals content count remaining (i + 1)
      ⟨readFrame globals content offset :: rest.frames, rest.trapped⟩

def replay (globals : Globals) (content : List Byte) : Replay :=
  if globals.size = 0 then ⟨[], true⟩
  else replayFrom globals content (fileCount globals content.length) globals.count 0

def fileFrame (globals : Globals) (content : List Byte) (k : Nat) : List Byte :=
  (content.drop (globals.size * k)).take globals.size

def ReplaysFrames (globals : Globals) (length : Nat) : Prop :=
  ∀ content : List Byte, content.length = length →
    (replay globals content).trapped = false ∧ (replay globals content).frames.length = globals.count ∧
      ∀ i < globals.count, (fileFrame globals content (i % (length / globals.size))).length = globals.size ∧
        (replay globals content).frames[i]? = some (fileFrame globals content (i % (length / globals.size)))

section
variable {globals : Globals} {content : List Byte} {count : Int}

theorem replayFrom_zero (remaining i : Nat) :
    (replayFrom globals content 0 (remaining + 1) i).trapped = true := by
  rw [replayFrom, if_pos rfl]

theorem replayFrom_trapped (nonzero : count ≠ 0) (remaining i : Nat) :
    (replayFrom globals content count remaining i).trapped = false := by
  induction remaining generalizing i with
  | zero => rfl
  | succ remaining ih =>
    rw [replayFrom, if_neg nonzero]
    exact ih (i + 1)

theorem replayFrom_length (nonzero : count ≠ 0) (remaining i : Nat) :
    (replayFrom globals content count remaining i).frames.length = remaining := by
  induction remaining generalizing i with
  | zero => rfl
  | succ remaining ih =>
    rw [replayFrom, if_neg nonzero]
    simp only [List.length_cons, ih (i + 1)]

theorem tmod_natAbs (i : Nat) (count : Int) : ((i : Int).tmod count).toNat = i % count.natAbs := by
  have positive := Int.tmod_nonneg count (Int.natCast_nonneg i)
  have absolute := Int.natAbs_tmod i count
  rw [Int.natAbs_natCast] at absolute
  omega

theorem replayFrom_frame (nonzero : count ≠ 0) (remaining i k : Nat) (within : k < remaining) :
    (replayFrom globals content count remaining i).frames[k]? =
      some (readFrame globals content (globals.size * ((i + k) % count.natAbs) % 2 ^ 64)) := by
  induction remaining generalizing i k with
  | zero => omega
  | succ remaining ih =>
    rw [replayFrom, if_neg nonzero]
    cases k with
    | zero =>
      rw [List.getElem?_cons_zero, tmod_natAbs, Nat.add_zero]
    | succ k =>
      rw [List.getElem?_cons_succ, ih (i + 1) k (by omega), Nat.add_right_comm, Nat.add_assoc]

theorem readFrame_inside {k : Nat} (small : content.length < 2 ^ 63) (inside : globals.size * (k + 1) ≤ content.length) :
    readFrame globals content (globals.size * k % 2 ^ 64) = fileFrame globals content k ∧
      (fileFrame globals content k).length = globals.size := by
  rw [Nat.mul_succ] at inside
  have whole : (fileFrame globals content k).length = globals.size := by
    rw [fileFrame, List.length_take, List.length_drop]
    omega
  apply And.intro _ whole
  rw [Nat.mod_eq_of_lt (by omega), readFrame, if_pos (by omega)]
  change fileFrame globals content k ++ List.replicate (globals.size - (fileFrame globals content k).length) 0 = _
  rw [whole, Nat.sub_self, List.replicate_zero, List.append_nil]

theorem fileFrame_first (nonempty : 0 < globals.size) (k : Nat) :
    (fileFrame globals content k)[0]? = content[globals.size * k]? := by
  rw [fileFrame, List.getElem?_take_of_lt nonempty, List.getElem?_drop, Nat.add_zero]

theorem fileCount_small {length : Nat} (small : length / globals.size < 2 ^ 31) :
    fileCount globals length = (length / globals.size : Nat) := by
  have exact_ : (BitVec.ofNat 32 (length / globals.size)).toNat = length / globals.size := by
    rw [BitVec.toNat_ofNat, Nat.mod_eq_of_lt (by omega)]
  rw [fileCount, BitVec.toInt_eq_toNat_of_lt (by omega), exact_]

/-- The frame number that the code computes is the right one, and lies in the file. -/
theorem replay_frames (nonempty : 0 < globals.size) (small : content.length < 2 ^ 63)
    (counted : fileCount globals content.length ≠ 0)
    (right : ∀ i < globals.count, i % (fileCount globals content.length).natAbs = i % (content.length / globals.size))
    (positive : 0 < content.length / globals.size) :
    (replay globals content).trapped = false ∧ (replay globals content).frames.length = globals.count ∧
      ∀ i < globals.count,
        (fileFrame globals content (i % (content.length / globals.size))).length = globals.size ∧
          (replay globals content).frames[i]? =
            some (fileFrame globals content (i % (content.length / globals.size))) := by
  rw [replay, if_neg (by omega)]
  apply And.intro (replayFrom_trapped counted _ _)
  apply And.intro (replayFrom_length counted _ _)
  intro i within
  have below : i % (content.length / globals.size) + 1 ≤ content.length / globals.size := Nat.mod_lt _ positive
  have inside := Nat.le_trans (Nat.mul_le_mul_left globals.size below) (Nat.mul_div_le _ _)
  obtain ⟨same, whole⟩ := readFrame_inside small inside
  apply And.intro whole
  rw [replayFrom_frame counted _ _ _ within, Nat.zero_add, right i within, same]

end

def ReplayFits (globals : Globals) (length : Nat) : Prop :=
  globals.count = 0 ∨ (0 < length / globals.size ∧ length / globals.size < 2 ^ 31) ∨
    (2 ^ 31 ≤ length / globals.size ∧ globals.count ≤ (fileCount globals length).natAbs)

section
variable {globals : Globals} {length : Nat}

theorem ReplayFits.replays (fits : ReplayFits globals length) (nonempty : 0 < globals.size)
    (counts : globals.count < 2 ^ 31) (small : length < 2 ^ 63) : ReplaysFrames globals length := by
  intro content same
  subst same
  by_cases none_asked : globals.count = 0
  · rw [replay, if_neg (by omega), none_asked]
    exact ⟨rfl, rfl, fun i within => by omega⟩
  · rcases fits with zero | ⟨positive, short⟩ | ⟨long, enough⟩
    · exact absurd zero none_asked
    · have exact_ := fileCount_small short
      apply replay_frames nonempty small (by omega) _ positive
      intro i _
      rw [exact_, Int.natAbs_natCast]
    · apply replay_frames nonempty small (by omega) _ (by omega)
      intro i within
      rw [Nat.mod_eq_of_lt (by omega), Nat.mod_eq_of_lt (by omega)]

def markedFile (length mark : Nat) : List Byte := (List.range length).map fun p => if p = mark then 1 else 0

theorem markedFile_length (length mark : Nat) : (markedFile length mark).length = length := by
  simp [markedFile]

theorem markedFile_getElem? {length mark p : Nat} (inside : p < length) :
    (markedFile length mark)[p]? = some (if p = mark then 1 else 0) := by
  simp [markedFile, inside]

/-- Past the truncated count the loop starts over, and a file with a mark there tells. -/
theorem markedFile_distinguishes (replays : ReplaysFrames globals length) (nonempty : 0 < globals.size)
    (counted : fileCount globals length ≠ 0) (below : (fileCount globals length).natAbs < 2 ^ 31)
    (within : (fileCount globals length).natAbs < globals.count) (long : 2 ^ 31 ≤ length / globals.size)
    (small : length < 2 ^ 63) : False := by
  have positive : 0 < (fileCount globals length).natAbs := by omega
  have place := Nat.mul_lt_mul_of_pos_left (Nat.lt_of_lt_of_le below long) nonempty
  have inside : globals.size * (fileCount globals length).natAbs < length :=
    Nat.lt_of_lt_of_le place (Nat.mul_div_le _ _)
  have marked : 0 < globals.size * (fileCount globals length).natAbs := Nat.mul_pos nonempty positive
  generalize content_eq : markedFile length (globals.size * (fileCount globals length).natAbs) = content
  have same_length : content.length = length := by rw [← content_eq, markedFile_length]
  have one_fits : globals.size * (0 + 1) ≤ content.length := by
    have one : globals.size * 1 ≤ globals.size * (length / globals.size) := Nat.mul_le_mul_left _ (by omega)
    have whole := Nat.mul_div_le length globals.size
    omega
  have frame := ((replays content same_length).2.2 _ within).2
  rw [replay, if_neg (by omega), same_length, replayFrom_frame counted _ _ _ within, Nat.zero_add, Nat.mod_self,
    Nat.mod_eq_of_lt (Nat.lt_of_lt_of_le below long), (readFrame_inside (by omega) one_fits).1, Option.some.injEq] at frame
  have first := congrArg (fun frame => frame[0]?) frame
  simp only [fileFrame_first nonempty] at first
  rw [← content_eq, markedFile_getElem? (by omega), markedFile_getElem? inside, if_neg (by omega), if_pos rfl] at first
  exact absurd first (by decide)

theorem ReplaysFrames.fits (replays : ReplaysFrames globals length) (nonempty : 0 < globals.size)
    (counts : globals.count < 2 ^ 31) (small : length < 2 ^ 63) : ReplayFits globals length := by
  by_cases none_asked : globals.count = 0
  · exact .inl none_asked
  · apply Or.inr
    obtain ⟨more, some_asked⟩ : ∃ more, globals.count = more + 1 := ⟨globals.count - 1, by omega⟩
    have counted : fileCount globals length ≠ 0 := by
      intro zero
      have trapped := (replays (markedFile length 0) (markedFile_length length 0)).1
      rw [replay, if_neg (by omega), markedFile_length, zero, some_asked, replayFrom_zero] at trapped
      cases trapped
    by_cases short : length / globals.size < 2 ^ 31
    · have exact_ := fileCount_small short
      have positive : length / globals.size ≠ 0 := by
        intro zero
        rw [exact_, zero] at counted
        exact counted rfl
      exact .inl ⟨Nat.pos_of_ne_zero positive, short⟩
    · apply Or.inr
      apply And.intro (Nat.not_lt.mp short)
      by_contra beyond
      have within : (fileCount globals length).natAbs < globals.count := Nat.not_le.mp beyond
      exact markedFile_distinguishes replays nonempty counted (by omega) within (Nat.not_lt.mp short) small

end

/-- The replay is safe and right in exactly these cases. -/
theorem replays_frames_iff (globals : Globals) (length : Nat) (nonempty : 0 < globals.size)
    (counts : globals.count < 2 ^ 31) (small : length < 2 ^ 63) :
    ReplaysFrames globals length ↔ globals.count = 0 ∨ (0 < length / globals.size ∧ length / globals.size < 2 ^ 31) ∨
      (2 ^ 31 ≤ length / globals.size ∧ globals.count ≤ (fileCount globals length).natAbs) :=
  ⟨fun replays => replays.fits nonempty counts small,
    fun fits => ReplayFits.replays fits nonempty counts small⟩

def smallGlobals : Globals := ⟨0, 0, 32, 0, 1, 0, 0, 0⟩

theorem smallGlobals_replays : ReplaysFrames smallGlobals 64 :=
  (replays_frames_iff smallGlobals 64 (by decide) (by decide) (by decide)).mpr (.inr (.inl (by decide)))

theorem short_file_traps : ¬ ReplaysFrames smallGlobals 10 := by
  intro replays
  have fits := replays.fits (by decide) (by decide) (by decide)
  revert fits
  rw [ReplayFits]
  decide

end CigCard.Video
