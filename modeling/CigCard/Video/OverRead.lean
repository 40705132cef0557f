import CigCard.Interaction.RelyGuarantee
import CigCard.Video.TripleBuffer

namespace CigCard.Video

open Interaction ByteMemory

structure YuyvFrame where
  width : Nat
  height : Nat
  buffer : Memory

/-- What `send_one_frame` has read of the buffer it was last given, which has `size` bytes; `waiting` are the sizes of
    the buffers that come after it. -/
structure Reads where
  waiting : List Nat
  size : Nat
  read : Nat

def Reads.after (reads : Reads) : Call → Reads
  | .sendOneFrame _ =>
    match reads.waiting with
    | [] => reads
    | size :: waiting => ⟨waiting, size, 0⟩
  | .write bytes => { reads with read := reads.read + bytes.length }
  | .apertureWrite bytes _ _ => { reads with read := reads.read + bytes.length }
  | _ => reads

def readWorld : World Call Call.Answer Reads where
  act operation before _ after := after = before.after operation
  env _ _ := False

/-- `dst_size`, which `av_image_get_buffer_size` returns for the packed format: `imageSize` is that function. -/
def YuyvFrame.dstSize (imageSize : Nat → Nat → Nat) (frame : YuyvFrame) : Nat := imageSize frame.width frame.height

def NeverOverReads (imageSize : Nat → Nat → Nat) (globals : Globals) (frames : List YuyvFrame) : Prop :=
  ∀ rounds sendCount last final,
    Runs readWorld (sendFrames globals rounds (frames.map YuyvFrame.buffer) sendCount,
      ⟨frames.map (YuyvFrame.dstSize imageSize), 0, 0⟩) (last, final) → final.read ≤ final.size

def Inside (reads : Reads) : Prop := reads.read ≤ reads.size

structure Reading (globals : Globals) (waiting : List Nat) (count : Nat) (reads : Reads) : Prop where
  waiting : reads.waiting = waiting
  read : reads.read ≤ count
  count : count ≤ globals.size
  room : globals.size ≤ reads.size

abbrev inside : Call → Reads → Prop := fun _ => Inside

section
variable {globals : Globals} {waiting : List Nat} {count : Nat} {buffer : Memory}

theorem readWorld_stable (assertion : Reads → Prop) : Stable readWorld assertion :=
  fun _ _ _ moved => moved.elim

theorem Reading.inside {reads : Reads} (reading : Reading globals waiting count reads) : Inside reads :=
  reading.read.trans (reading.count.trans reading.room)

def Idle (operation : Call) : Prop := ∀ reads : Reads, reads.after operation = reads

theorem reading_keeps : Keeps readWorld inside Idle (Reading globals waiting count) where
  stable := readWorld_stable _
  guarded _ _ _ reading := reading.inside
  acts operation reads _ after idle reading acted := by
    have same : after = reads := acted.trans (idle reads)
    rw [same]
    exact reading

theorem reading_performs {α : Type} {operation : Call} {next : operation.Answer → Transfer α}
    {post : α → Reads → Prop} (idle : Idle operation)
    (continues : ∀ answer, Triple readWorld inside (Reading globals waiting count) (next answer) post) :
    Triple readWorld inside (Reading globals waiting count) ((Program.perform operation).bind next) post :=
  Triple.keeps_bind reading_keeps (.perform idle) continues

theorem Reading.more {bytes : Nat} {reads : Reads} (reading : Reading globals waiting count reads)
    (fits : count + bytes ≤ globals.size) :
    Reading globals waiting (count + bytes) { reads with read := reads.read + bytes } :=
  ⟨reading.waiting, Nat.add_le_add_right reading.read bytes, fits, reading.room⟩

theorem Reading.whole {reads : Reads} (reading : Reading globals waiting count reads) :
    Reading globals waiting globals.size reads :=
  ⟨reading.waiting, reading.read.trans reading.count, Nat.le_refl _, reading.room⟩

theorem reading_ends {α : Type} (value : α) :
    Triple readWorld inside (Reading globals waiting count) (.pure value) fun _ => Reading globals waiting globals.size :=
  .pure (readWorld_stable _) fun _ reading => reading.whole

/-- The loop reads no more than the frame, as it asks for what is left of it. -/
theorem writeLoop_reads (offset : Nat) :
    Triple readWorld inside (Reading globals waiting count) (writeLoop buffer globals.size count offset count)
      fun _ => Reading globals waiting globals.size := by
  induction left : globals.size - count using Nat.strong_induction_on generalizing count offset with
  | _ left ih =>
    rw [writeLoop]
    split
    · next more =>
      have progress : 0 < rwMaxSize := by decide
      have writes : ∀ sought : Int, Triple readWorld inside (Reading globals waiting count)
          (if sought ≠ offset then .pure (-5)
            else (Program.perform (Call.write (load buffer count (min (globals.size - count) rwMaxSize)))).bind fun rc =>
              if rc < 0 then .pure (-5)
              else if rc ≠ (min (globals.size - count) rwMaxSize : Nat) then .pure (ssize (count + rc.toNat))
              else writeLoop buffer globals.size (count + min (globals.size - count) rwMaxSize)
                (offset + min (globals.size - count) rwMaxSize) (count + min (globals.size - count) rwMaxSize))
          fun _ => Reading globals waiting globals.size := by
        intro sought
        split
        · exact reading_ends _
        · apply Triple.perform_bind
            (fun _ => Reading globals waiting (count + min (globals.size - count) rwMaxSize)) (readWorld_stable _)
          · exact fun reads reading => reading.inside
          · intro reads rc after reading acted
            have read : after = { reads with read := reads.read + min (globals.size - count) rwMaxSize } := by
              rw [acted, Reads.after, load_length]
            rw [read]
            exact reading.more (by omega)
          · intro (rc : Int)
            split
            · exact reading_ends _
            · split
              · exact reading_ends _
              · exact ih _ (by omega) _ rfl
      by_cases seeks : offset ≠ 0
      · rw [if_pos seeks]
        exact reading_performs (fun _ => rfl) writes
      · rw [if_neg seeks]
        exact writes offset
    · exact reading_ends _

theorem writeFrame_reads (sendCount : Nat) :
    Triple readWorld inside (Reading globals waiting 0) (writeFrame globals buffer sendCount)
      fun _ => Reading globals waiting globals.size := by
  unfold writeFrame
  split
  · apply Triple.perform_bind (fun _ => Reading globals waiting globals.size) (readWorld_stable _)
    · exact fun reads reading => reading.inside
    · intro reads io after reading acted
      have read : after = { reads with read := reads.read + globals.size } := by rw [acted, Reads.after, load_length]
      have more : Reading globals waiting (0 + globals.size) { reads with read := reads.read + globals.size } :=
        reading.more (by omega)
      rw [Nat.zero_add] at more
      rwa [read]
    · intro io
      split
      · exact reading_ends _
      · exact reading_ends _
  · apply Triple.bind _ (writeLoop_reads _)
    intro (rc : Int)
    split
    · exact reading_ends _
    · exact reading_ends _

theorem pollReady_idle (waitAddr rounds : Nat) (word : Int) : (pollReady waitAddr word rounds).Only Idle := by
  induction rounds with
  | zero => trivial
  | succ rounds ih =>
    apply Program.Only.bind (.perform fun _ => rfl)
    intro value
    apply Program.Only.bind (.perform fun _ => rfl)
    intro second
    by_cases full : value = 3
    · rw [if_pos full]
      exact ih
    · rw [if_neg full]
      by_cases stuck : word = 3
      · rw [if_pos stuck]
        exact ih
      · rw [if_neg stuck]
        exact trivial

theorem testDma_reads (rounds sendCount : Nat) :
    Triple readWorld inside (Reading globals waiting 0) (testDma globals rounds buffer sendCount)
      fun _ => Reading globals waiting globals.size := by
  apply reading_performs fun _ => rfl
  intro opened
  cases opened with
  | false => exact reading_ends _
  | true =>
    apply reading_performs fun _ => rfl
    intro printed
    apply reading_performs fun _ => rfl
    intro word
    apply Triple.keeps_bind reading_keeps (pollReady_idle globals.waitAddr rounds word)
    intro ready
    cases ready with
    | false => exact reading_ends _
    | true =>
      apply Triple.bind _ (writeFrame_reads sendCount)
      intro out
      cases out with
      | error rc => exact reading_ends _
      | ok bytesDone =>
        apply reading_performs fun _ => rfl
        exact fun answer => reading_ends _

theorem sendFrames_reads {imageSize : Nat → Nat → Nat} (rounds sendCount : Nat) (frames : List YuyvFrame)
    (room : ∀ frame ∈ frames, globals.size ≤ frame.dstSize imageSize) :
    Triple readWorld inside
      (fun reads => reads.waiting = frames.map (YuyvFrame.dstSize imageSize) ∧ Inside reads)
      (sendFrames globals rounds (frames.map YuyvFrame.buffer) sendCount) fun _ => Inside := by
  induction frames generalizing sendCount with
  | nil => exact .pure (readWorld_stable _) fun reads holds => holds.2
  | cons frame frames ih =>
    have enough := room frame List.mem_cons_self
    apply Triple.perform_bind
      (fun _ => Reading globals (frames.map (YuyvFrame.dstSize imageSize)) 0) (readWorld_stable _)
    · exact fun reads holds => holds.2
    · intro reads answer after holds acted
      have given : after = ⟨frames.map (YuyvFrame.dstSize imageSize), frame.dstSize imageSize, 0⟩ := by
        rw [acted, Reads.after, holds.1]
        rfl
      rw [given]
      exact ⟨rfl, Nat.le_refl _, Nat.zero_le _, enough⟩
    · intro answer
      apply Triple.bind _ (testDma_reads rounds sendCount)
      intro out
      cases out with
      | none => exact .pure (readWorld_stable _) fun reads reading => reading.inside
      | some result =>
        apply (ih result.2 fun frame member => room frame (List.mem_cons_of_mem _ member)).consequence
        · exact fun reads reading => ⟨reading.waiting, reading.inside⟩
        · exact fun _ _ holds => holds

end

section
variable {globals : Globals} {buffer : Memory}

/-- The system may give any answer to a call, and the reads are counted all the same. -/
theorem reads_act (operation : Call) (reads : Reads) (answer : operation.Answer) :
    readWorld.act operation reads answer (reads.after operation) := rfl

theorem sendFrames_skips (rounds sendCount size : Nat) (buffers : List Memory) (waiting : List Nat) (reads : Reads)
    (next : reads.waiting = size :: waiting) :
    Runs readWorld (sendFrames globals rounds (buffer :: buffers) sendCount, reads)
      (sendFrames globals rounds buffers sendCount, ⟨waiting, size, 0⟩) := by
  have given : reads.after (.sendOneFrame buffer) = ⟨waiting, size, 0⟩ := by
    rw [Reads.after, next]
  have sent := reads_act (.sendOneFrame buffer) reads ()
  rw [given] at sent
  exact .head (.act sent) (.head (.act (reads_act .openDevice _ false)) .refl)

/-- Where every seek and write does what it is asked to, the loop reads all that is left of the frame. -/
theorem writeLoop_runs (size count offset : Nat) (inside : count ≤ size) (reads : Reads) :
    ∃ rc, Runs readWorld (writeLoop buffer size count offset count, reads)
      (.pure rc, { reads with read := reads.read + (size - count) }) := by
  induction left : size - count using Nat.strong_induction_on generalizing count offset reads with
  | _ n ih =>
    rw [writeLoop]
    split
    · next more =>
      have progress : 0 < rwMaxSize := by decide
      generalize chunk : min (size - count) rwMaxSize = bytes
      have some_bytes : 0 < bytes ∧ count + bytes ≤ size := by omega
      obtain ⟨rc, rest⟩ := ih (size - (count + bytes)) (by omega) (count + bytes) (offset + bytes) some_bytes.2
        { reads with read := reads.read + bytes } rfl
      have total : reads.read + bytes + (size - (count + bytes)) = reads.read + n := by omega
      rw [total] at rest
      have wrote := reads_act (.write (load buffer count bytes)) reads (bytes : Int)
      rw [Reads.after, load_length] at wrote
      have positive : ¬ ((bytes : Int) < 0) := by omega
      have writes : Runs readWorld ((Program.perform (Call.write (load buffer count bytes))).bind fun rc =>
          if rc < 0 then .pure (-5)
          else if rc ≠ (bytes : Nat) then .pure (ssize (count + rc.toNat))
          else writeLoop buffer size (count + bytes) (offset + bytes) (count + bytes), reads)
          (.pure rc, { reads with read := reads.read + n }) := by
        refine .head (.act wrote) ?_
        rw [Program.pure_bind, if_neg positive, if_neg (not_not_intro rfl)]
        exact rest
      refine ⟨rc, ?_⟩
      by_cases seeks : offset ≠ 0
      · rw [if_pos seeks]
        refine .head (.act (reads_act (.lseek offset) reads (offset : Int))) ?_
        rw [Program.pure_bind, if_neg (not_not_intro rfl)]
        exact writes
      · rw [if_neg seeks, Program.pure_bind, if_neg (not_not_intro rfl)]
        exact writes
    · next done =>
      have none_left : n = 0 := by omega
      rw [none_left]
      exact ⟨_, .refl⟩

theorem writeFrame_runs_through (sendCount : Nat) (reads : Reads) :
    ∃ out, Runs readWorld (writeFrame globals buffer sendCount, reads)
      (.pure out, { reads with read := reads.read + globals.size }) := by
  unfold writeFrame
  split
  · have wrote := reads_act (.apertureWrite (load buffer 0 globals.size) (bufferAddr globals.addr sendCount)
      (globals.aperture % 2 ^ 32)) reads ⟨0, 0, 0⟩
    rw [Reads.after, load_length] at wrote
    exact ⟨.ok 0, .head (.act wrote) .refl⟩
  · obtain ⟨rc, run⟩ := @writeLoop_runs buffer globals.size 0 (bufferAddr globals.addr sendCount) (Nat.zero_le _) reads
    refine ⟨if rc < 0 then .error rc else .ok rc.toNat, ?_⟩
    have leaves := run.bind fun rc =>
      if rc < 0 then Program.pure (.error rc) else Program.pure (.ok rc.toNat : Except Int Nat)
    rw [Program.pure_bind, ← apply_ite] at leaves
    exact leaves

theorem sendFrames_reaches (sendCount size : Nat) (buffers : List Memory) (waiting : List Nat) (reads : Reads)
    (next : reads.waiting = size :: waiting) :
    ∃ last, Runs readWorld (sendFrames globals 1 (buffer :: buffers) sendCount, reads)
      (last, ⟨waiting, size, globals.size⟩) := by
  have given : reads.after (.sendOneFrame buffer) = ⟨waiting, size, 0⟩ := by
    rw [Reads.after, next]
  have sent := reads_act (.sendOneFrame buffer) reads ()
  rw [given] at sent
  obtain ⟨out, run⟩ := @writeFrame_runs_through globals buffer sendCount ⟨waiting, size, 0⟩
  have whole : 0 + globals.size = globals.size := Nat.zero_add _
  rw [whole] at run
  have starts : Runs readWorld (sendFrames globals 1 (buffer :: buffers) sendCount, reads)
      ((writeFrame globals buffer sendCount).bind (afterWrite globals 1 buffers sendCount), ⟨waiting, size, 0⟩) := by
    refine .head (.act sent) (.head (.act (reads_act .openDevice _ true))
      (.head (.act (reads_act (.printSeq sendCount) _ ())) (.head (.act (reads_act .stackWord _ (0 : Int)))
        (.head (.act (reads_act (.regRw globals.waitAddr 0 0) _ (0 : Int)))
          (.head (.act (reads_act (.regRw 0x100c4 0 0) _ (0 : Int))) ?_)))))
    change Relation.ReflTransGen _ (((writeFrame globals buffer sendCount).bind _).bind _, _) _
    rw [Program.bind_assoc]
    exact .refl
  exact ⟨_, starts.trans (run.bind _)⟩

theorem sendFrames_passes {imageSize : Nat → Nat → Nat} (sendCount : Nat) (earlier later : List YuyvFrame)
    (reads : Reads) (next : reads.waiting = (earlier ++ later).map (YuyvFrame.dstSize imageSize)) :
    ∃ after, Runs readWorld (sendFrames globals 1 ((earlier ++ later).map YuyvFrame.buffer) sendCount, reads)
      (sendFrames globals 1 (later.map YuyvFrame.buffer) sendCount, after) ∧
        after.waiting = later.map (YuyvFrame.dstSize imageSize) := by
  induction earlier generalizing reads with
  | nil => exact ⟨reads, .refl, next⟩
  | cons frame earlier ih =>
    have skips := @sendFrames_skips globals frame.buffer 1 sendCount _
      ((earlier ++ later).map YuyvFrame.buffer) _ reads next
    obtain ⟨after, rest, waiting⟩ := ih ⟨_, _, 0⟩ rfl
    exact ⟨after, skips.trans rest, waiting⟩

end

/-- No run reads past the end of a buffer exactly when the size given with `-s` is no more than that of any frame. -/
theorem never_overReads_iff (imageSize : Nat → Nat → Nat) (globals : Globals) (frames : List YuyvFrame) :
    NeverOverReads imageSize globals frames ↔
      ∀ frame ∈ frames, globals.size ≤ imageSize frame.width frame.height := by
  constructor
  · intro never frame member
    obtain ⟨earlier, later, rfl⟩ := List.append_of_mem member
    let start : Reads := ⟨(earlier ++ frame :: later).map (YuyvFrame.dstSize imageSize), 0, 0⟩
    obtain ⟨reads, passes, waiting⟩ := @sendFrames_passes globals imageSize 0 earlier (frame :: later) start rfl
    obtain ⟨last, reaches⟩ := @sendFrames_reaches globals frame.buffer 0 _
      (later.map YuyvFrame.buffer) _ reads waiting
    exact never 1 0 last _ (passes.trans reaches)
  · intro room rounds sendCount last final run
    have start : Inside ⟨frames.map (YuyvFrame.dstSize imageSize), 0, 0⟩ := Nat.le_refl 0
    have reached := (sendFrames_reads rounds sendCount frames room).reachable ⟨rfl, start⟩ run
    cases last with
    | pure count => exact reached
    | call call rest => exact reached

def packedSize (width height : Nat) : Nat := (width + 1) / 2 * 4 * height

/-- A small frame in a stream, with the size of a large one given with `-s`. -/
theorem small_frame_overRead : ¬ NeverOverReads packedSize (sized 4147200) [⟨1920, 1080, dark⟩, ⟨640, 480, dark⟩] := by
  intro never
  let frames : List YuyvFrame := [⟨1920, 1080, dark⟩, ⟨640, 480, dark⟩]
  let start : Reads := ⟨frames.map (YuyvFrame.dstSize packedSize), 0, 0⟩
  obtain ⟨reads, passes, waiting⟩ :=
    @sendFrames_passes (sized 4147200) packedSize 0 [⟨1920, 1080, dark⟩] [⟨640, 480, dark⟩] start rfl
  obtain ⟨last, reaches⟩ := @sendFrames_reaches (sized 4147200) dark 0 _ [] _ reads waiting
  have fits : 4147200 ≤ YuyvFrame.dstSize packedSize ⟨640, 480, dark⟩ := never 1 0 last _ (passes.trans reaches)
  exact absurd fits (by decide)

end CigCard.Video
