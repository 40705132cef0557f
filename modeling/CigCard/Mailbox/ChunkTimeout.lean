import CigCard.Mailbox.FileEncoding

namespace CigCard.Mailbox

open Interaction ByteMemory

/-- Non-zero reads of the interrupt register after each doorbell, the latest doorbell first. -/
abbrev Polls := List Nat

/-- The A53 takes `busy k` polls over the `k`-th doorbell. -/
def Polled (busy : Nat → Nat) : Polls → Nat → Polls → Prop
  | [], _, after => after = []
  | reads :: earlier, value, after =>
    if reads < busy earlier.length then value ≠ 0 ∧ after = (reads + 1) :: earlier
    else value = 0 ∧ after = reads :: earlier

/-- Nothing is known of the other registers but the values that the execution result may take. -/
def TimedAct (busy : Nat → Nat) (status : Nat → Prop) : (access : Access) → Polls → access.Answer → Polls → Prop
  | .load32 addr, before, value, after =>
    if addr = interruptReg then Polled busy before value after else after = before ∧ (addr = resultReg → status value)
  | .store32 addr value, before, _, after =>
    after = if addr = interruptReg ∧ value % 2 ^ 32 ≠ 0 then 0 :: before else before
  | .store8 _ _, before, _, after => after = before

def timed (busy : Nat → Nat) (status : Nat → Prop) : World Access Access.Answer Polls where
  act := TimedAct busy status
  env := fun _ _ => False

def TimesOutPerChunk (file : HostFile) (busy : Nat → Nat) : Prop :=
  ∀ buffer final, Runs (timed busy fun _ => True) (sendFileToA53Sync (some file) buffer, [])
    (.pure (.error .timeout), final) → ∃ reads ∈ final, 100000 ≤ reads

def polls (busy : Nat → Nat) (count : Nat) : Nat := ((List.range count).map busy).sum

def acked (busy : Nat → Nat) (count : Nat) : Polls := ((List.range count).map busy).reverse

section
variable {busy : Nat → Nat} {status : Nat → Prop}

theorem polls_succ (busy : Nat → Nat) (count : Nat) : polls busy (count + 1) = polls busy count + busy count := by
  simp [polls, List.range_succ]

theorem polls_mono (busy : Nat → Nat) {few many : Nat} (le : few ≤ many) : polls busy few ≤ polls busy many := by
  induction le with
  | refl => exact Nat.le_refl _
  | step _ ih =>
    rw [polls_succ]
    omega

theorem busy_le_polls (busy : Nat → Nat) {k count : Nat} (before : k < count) : busy k ≤ polls busy count := by
  have step := polls_succ busy k
  have rest := polls_mono busy before
  rw [Nat.succ_eq_add_one] at rest
  omega

theorem acked_succ (busy : Nat → Nat) (count : Nat) : acked busy (count + 1) = busy count :: acked busy count := by
  simp [acked, List.range_succ]

theorem acked_length (busy : Nat → Nat) (count : Nat) : (acked busy count).length = count := by
  simp [acked]

theorem mem_acked {reads count : Nat} : reads ∈ acked busy count ↔ ∃ k < count, busy k = reads := by
  simp [acked]

theorem timed_stable (assertion : Polls → Prop) : Stable (timed busy status) assertion :=
  fun _ _ _ moved => absurd moved id

theorem timed_total (busy : Nat → Nat) (possible : ∃ value, status value) : (timed busy status).Total := by
  obtain ⟨fine, possible⟩ := possible
  intro access before
  cases access with
  | load32 addr =>
    by_cases door : addr = interruptReg
    · cases before with
      | nil => exact ⟨(0 : Nat), [], by simp [timed, TimedAct, door, Polled]⟩
      | cons reads earlier =>
        by_cases more : reads < busy earlier.length
        · exact ⟨(1 : Nat), (reads + 1) :: earlier, by simp [timed, TimedAct, door, Polled, more]⟩
        · exact ⟨(0 : Nat), reads :: earlier, by simp [timed, TimedAct, door, Polled, more]⟩
    · exact ⟨fine, before, by simp [timed, TimedAct, door, possible]⟩
  | store32 addr value => exact ⟨(), _, rfl⟩
  | store8 addr byte => exact ⟨(), before, rfl⟩

def Access.Silent : Access → Prop
  | .load32 addr | .store32 addr _ => addr ≠ interruptReg
  | .store8 _ _ => True

theorem timed_keeps (busy : Nat → Nat) (status : Nat → Prop) (fixed : Polls) :
    Keeps (timed busy status) Unguarded Access.Silent (fun now => now = fixed) := by
  constructor
  · exact timed_stable _
  · exact fun _ _ _ _ => trivial
  · intro access before answer after silent same acted
    cases access with
    | load32 addr =>
      have other : addr ≠ interruptReg := silent
      simp only [timed, TimedAct, if_neg other] at acted
      exact acted.1.trans same
    | store32 addr value =>
      have other : addr ≠ interruptReg := silent
      simp only [timed, TimedAct, other, false_and, if_false] at acted
      exact acted.trans same
    | store8 addr byte => exact Eq.trans acted same

theorem xdmaRegRead_silent {addr : Nat} (other : addr ≠ interruptReg) : (xdmaRegRead addr).Only Access.Silent :=
  .perform other

theorem xdmaRegWrite_silent {addr : Nat} (value : Nat) (other : addr ≠ interruptReg) :
    (xdmaRegWrite addr value).Only Access.Silent := .perform other

theorem writeWords_silent (base cursor : Nat) (bytes : List Byte) (below : cursor + base + bytes.length ≤ interruptReg) :
    (writeWords base cursor bytes).Only Access.Silent := by
  induction cursor, bytes using writeWords.induct with
  | case1 cursor => exact .pure _ ()
  | case2 cursor b0 b1 b2 b3 rest ih =>
    simp only [List.length_cons] at below
    have other : cursor + base ≠ interruptReg := by omega
    exact .bind (xdmaRegWrite_silent _ other) fun _ => ih (by omega)
  | case3 cursor rest nonempty short =>
    have some_left : 0 < rest.length := List.length_pos_iff.mpr nonempty
    have other : cursor + base ≠ interruptReg := by omega
    rw [writeWords.eq_3 base cursor rest nonempty short]
    exact xdmaRegWrite_silent _ other

theorem xdmaMemcpyWrite_silent (addr : Nat) (bytes : List Byte) : (xdmaMemcpyWrite addr bytes).Only Access.Silent := by
  induction bytes generalizing addr with
  | nil => exact .pure _ ()
  | cons byte bytes ih => exact .bind (.perform trivial) fun _ => ih (addr + 1)

/-- The wait after a doorbell: it ends with the A53's answer, or with the last of the polls. -/
theorem awaitClear_timed (busy : Nat → Nat) (status : Nat → Prop) (remaining loopCount result reads : Nat) (earlier : Polls)
    (within : reads ≤ busy earlier.length) (started : result ≠ 0 ∨ 0 < remaining) :
    Triple (timed busy status) Unguarded (fun now => now = reads :: earlier) (awaitClear remaining loopCount result)
      (fun out now => (out.2 = 0 ∧ now = busy earlier.length :: earlier ∧ busy earlier.length < reads + remaining ∧
          out.1 = loopCount + (busy earlier.length - reads)) ∨
        (out.2 ≠ 0 ∧ now = (reads + remaining) :: earlier ∧ reads + remaining ≤ busy earlier.length ∧
          out.1 = loopCount + remaining)) := by
  induction remaining generalizing loopCount result reads with
  | zero =>
    have busyStill : result ≠ 0 := by omega
    exact .pure (timed_stable _) fun now same => .inr ⟨busyStill, same, within, rfl⟩
  | succ remaining ih =>
    apply Triple.perform_bind (fun value now => Polled busy (reads :: earlier) value now) (timed_stable _)
    · exact fun _ _ => trivial
    · intro now value after same acted
      rw [same] at acted
      simpa [timed, TimedAct] using acted
    · intro value
      by_cases more : reads < busy earlier.length
      · simp only [Polled, if_pos more]
        apply Triple.given
        intro nonzero
        rw [if_neg nonzero]
        apply (ih (loopCount + 1) value (reads + 1) more (.inl nonzero)).consequence (fun _ same => same)
        intro out now ends
        rw [Nat.add_right_comm reads 1 remaining, Nat.add_assoc reads] at ends
        apply ends.imp
        · intro answered
          obtain ⟨zero, same, early, count⟩ := answered
          exact ⟨zero, same, early, by omega⟩
        · intro late
          obtain ⟨nonzero, same, beyond, count⟩ := late
          exact ⟨nonzero, same, beyond, by omega⟩
      · simp only [Polled, if_neg more]
        apply Triple.given
        intro zero
        rw [if_pos zero]
        have all : busy earlier.length = reads := by omega
        rw [all, Nat.sub_self]
        exact .pure (timed_stable _) fun now same => .inl ⟨zero, same, by omega, rfl⟩

structure TimedOut (busy : Nat → Nat) (k : Nat) (now : Polls) : Prop where
  before : polls busy k < 100000
  reached : 100000 ≤ polls busy (k + 1)
  reads : now = (100000 - polls busy k) :: acked busy k

structure Acked (busy : Nat → Nat) (count : Nat) (download : Download) (now : Polls) : Prop where
  within : polls busy count < 100000
  loopCount : download.loopCount = polls busy count
  reads : now = acked busy count

def ChunkEnds (busy : Nat → Nat) (status : Nat → Prop) (k : Nat) : Except Failure Download → Polls → Prop
  | .ok download, now => Acked busy (k + 1) download now
  | .error .timeout, now => TimedOut busy k now
  | .error .resultError, _ => ∃ value, status value ∧ value ≠ 0
  | .error _, _ => False

theorem awaitResult_timed {k : Nat} (download : Download) (loopCount : download.loopCount = polls busy k)
    (within : polls busy k < 100000) :
    Triple (timed busy status) Unguarded (fun now => now = 0 :: acked busy k) (awaitResult download)
      (ChunkEnds busy status k) := by
  have next := polls_succ busy k
  have waits := awaitClear_timed busy status (100000 - download.loopCount) download.loopCount
    download.result 0 (acked busy k) (Nat.zero_le _) (.inr (by omega))
  rw [acked_length, Nat.zero_add, Nat.sub_zero] at waits
  apply Triple.bind _ waits
  intro out
  obtain ⟨count, result⟩ := out
  dsimp only
  by_cases zero : result = 0
  · rw [if_neg (fun late => late.2 zero)]
    apply Triple.perform_bind (fun value now => (busy k < 100000 - download.loopCount ∧ count = download.loopCount + busy k ∧
      now = busy k :: acked busy k) ∧ status value) (timed_stable _)
    · exact fun _ _ => trivial
    · intro now value after ends acted
      simp only [timed, TimedAct, resultReg, interruptReg, Nat.reduceEqDiff, if_false, true_implies] at acted
      obtain ⟨same, known⟩ := acted
      rcases ends with ⟨-, reads, early, total⟩ | ⟨nonzero, -⟩
      · exact ⟨⟨early, total, same.trans reads⟩, known⟩
      · exact absurd zero nonzero
    · intro value
      by_cases failed : value = 0
      · rw [if_neg (fun bad => bad failed)]
        apply Triple.pure
        · exact timed_stable _
        · intro now ends
          obtain ⟨⟨early, total, reads⟩, -⟩ := ends
          constructor
          · omega
          · exact total.trans (by omega)
          · rw [reads, acked_succ]
      · rw [if_pos failed]
        exact .pure (timed_stable _) fun now ends => ⟨value, ends.2, failed⟩
  · intro now ends
    rcases ends with ⟨answered, -⟩ | ⟨-, reads, beyond, total⟩
    · exact absurd answered zero
    · have late : count = 100000 := total.trans (by omega)
      rw [if_pos ⟨late, zero⟩]
      have timedOut : TimedOut busy k now := ⟨within, by omega, by rw [← loopCount]; exact reads⟩
      have stopped : Triple (timed busy status) Unguarded (fun now => TimedOut busy k now)
          (.pure (Except.error Failure.timeout)) (ChunkEnds busy status k) :=
        .pure (timed_stable _) fun _ timedOut => timedOut
      apply Triple.perform_bind (fun _ => TimedOut busy k) (timed_stable _) _ _ _ now timedOut
      · exact fun _ _ => trivial
      · intro now _ after timedOut acted
        have same : after = now := by simpa [timed, TimedAct] using acted
        rw [same]
        exact timedOut
      · exact fun _ => stopped

theorem writeChunk_timed {k : Nat} (i length sync : Nat) (download : Download)
    (loopCount : download.loopCount = polls busy k) (within : polls busy k < 100000) :
    Triple (timed busy status) Unguarded (fun now => now = acked busy k) (writeChunk i length sync download)
      (ChunkEnds busy status k) := by
  have keeps := timed_keeps busy status (acked busy k)
  apply Triple.keeps_bind keeps (xdmaRegWrite_silent _ (by decide : 104 ≠ interruptReg))
  intro _
  apply Triple.keeps_bind keeps (xdmaRegWrite_silent _ (by decide : 108 ≠ interruptReg))
  intro _
  apply Triple.keeps_bind keeps (xdmaRegRead_silent (by decide : 108 ≠ interruptReg))
  intro _
  apply Triple.keeps_bind keeps (xdmaRegWrite_silent _ (by decide : 110 ≠ interruptReg))
  intro _
  apply Triple.keeps_bind keeps (xdmaRegWrite_silent _ (by decide : 111 ≠ interruptReg))
  intro _
  apply Triple.keeps_bind keeps (xdmaRegRead_silent (by decide : 111 ≠ interruptReg))
  intro _
  apply Triple.keeps_bind keeps (xdmaMemcpyWrite_silent _ _)
  intro _
  apply Triple.keeps_bind keeps (xdmaRegWrite_silent _ (by decide : typeReg ≠ interruptReg))
  intro _
  apply Triple.perform_bind (fun _ now => now = 0 :: acked busy k) (timed_stable _)
  · exact fun _ _ => trivial
  · intro now _ after same acted
    rw [same] at acted
    simpa [timed, TimedAct] using acted
  · exact fun _ => awaitResult_timed download loopCount within

theorem HostFile.fread_complete (file : HostFile) {k : Nat} (within : k ≤ file.fullChunks) {slice : List Byte}
    (found : file.fread k (file.chunkLength k) = some slice) : slice.length = file.chunkLength k := by
  have fits := file.offset_le within
  have cut : file.fileSize ≤ file.content.length := Nat.mod_le _ _
  have small : file.fileSize < 2 ^ 32 := Nat.mod_lt _ (by decide)
  simp only [HostFile.fread, Nat.mod_eq_of_lt (show k * uDataLen < 2 ^ 32 by omega)] at found
  split at found
  · cases found
  · rw [← Option.some.inj found, List.length_take, List.length_drop]
    omega

theorem sendChunk_timed {file : HostFile} {k : Nat} (inFile : k ≤ file.fullChunks) (sync : Nat) (download : Download)
    (loopCount : download.loopCount = polls busy k) (within : polls busy k < 100000) :
    Triple (timed busy status) Unguarded (fun now => now = acked busy k)
      (sendChunk file k (file.chunkLength k) sync download) (ChunkEnds busy status k) := by
  rw [sendChunk]
  cases found : file.fread k (file.chunkLength k) with
  | none => exact writeChunk_timed _ _ _ _ loopCount within
  | some slice =>
    simp only
    rw [if_neg (fun short => short (file.fread_complete inFile found))]
    exact writeChunk_timed _ _ _ _ loopCount within

def Ends {α : Type} (busy : Nat → Nat) (status : Nat → Prop) (last : Nat) (good : α → Polls → Prop) :
    Except Failure α → Polls → Prop
  | .ok value, now => good value now
  | .error .timeout, now => ∃ k ≤ last, TimedOut busy k now
  | .error .resultError, _ => ∃ value, status value ∧ value ≠ 0
  | .error _, _ => False

theorem Ends.failure {α β : Type} {last : Nat} {good : α → Polls → Prop} {other : β → Polls → Prop} {failure : Failure}
    {now : Polls} (ends : Ends busy status last good (.error failure) now) :
    Ends busy status last other (.error failure) now := by
  cases failure with
  | openError => exact ends
  | readError => exact ends
  | timeout => exact ends
  | resultError => exact ends

theorem ChunkEnds.ends {α : Type} {k last : Nat} {good : α → Polls → Prop} {failure : Failure} {now : Polls}
    (ends : ChunkEnds busy status k (.error failure) now) (within : k ≤ last) :
    Ends busy status last good (.error failure) now := by
  cases failure with
  | openError => exact ends
  | readError => exact ends
  | timeout => exact ⟨k, within, ends⟩
  | resultError => exact ends

theorem failure_timed {α : Type} {k last : Nat} {good : α → Polls → Prop} (failure : Failure) (within : k ≤ last) :
    Triple (timed busy status) Unguarded (ChunkEnds busy status k (.error failure)) (.pure (.error failure))
      (Ends busy status last good) :=
  .pure (timed_stable _) fun _ ends => ends.ends within

theorem sendFullChunks_timed (busy : Nat → Nat) (status : Nat → Prop) (file : HostFile) (remaining i : Nat)
    (position : i + remaining = file.fullChunks) (download : Download) :
    Triple (timed busy status) Unguarded (Acked busy i download) (sendFullChunks file remaining i download)
      (Ends busy status file.fullChunks (Acked busy file.fullChunks)) := by
  induction remaining generalizing i download with
  | zero =>
    rw [← position, Nat.add_zero]
    exact .pure (timed_stable _) fun now acked => acked
  | succ remaining ih =>
    have full := file.chunkLength_full (show i < file.fullChunks by omega)
    intro now acked
    have chunk : Triple (timed busy status) Unguarded (fun now => now = _) (sendChunk file i (file.chunkLength i) 0 download)
      (ChunkEnds busy status i) := sendChunk_timed (by omega) 0 download acked.loopCount acked.within
    rw [full] at chunk
    apply Triple.bind _ chunk _ now acked.reads
    intro out
    cases out with
    | error failure => exact failure_timed failure (by omega)
    | ok next => exact ih (i + 1) (by omega) next

theorem sendOpenFile_timed (file : HostFile) (buffer : Memory) :
    Triple (timed busy status) Unguarded (fun now => now = []) (sendFileToA53Sync (some file) buffer)
      (Ends busy status file.fullChunks fun _ _ => polls busy (file.fullChunks + 1) < 100000) := by
  have keeps := timed_keeps busy status []
  have path : 0 + 4 + file.psPath.length ≤ interruptReg := by
    have named := file.named
    simp only [HostFile.psPath, List.length_append, List.length_cons, List.length_nil, interruptReg]
    omega
  have start : ∀ now, now = [] → Acked busy 0 ⟨buffer, 0, 0, 0⟩ now := by
    intro now same
    rw [same]
    exact ⟨by simp [polls], by simp [polls], by simp [acked]⟩
  apply Triple.keeps_bind keeps (xdmaRegWrite_silent _ (by decide : 0 ≠ interruptReg))
  intro _
  apply Triple.keeps_bind keeps (writeWords_silent 4 0 _ path)
  intro _
  apply Triple.keeps_bind keeps (xdmaRegWrite_silent _ (by decide : 100 ≠ interruptReg))
  intro _
  apply Triple.keeps_bind keeps (xdmaRegRead_silent (by decide : 100 ≠ interruptReg))
  intro _
  have chunks := sendFullChunks_timed busy status file file.fullChunks 0 (Nat.zero_add _)
    ⟨buffer, 0, 0, 0⟩
  apply Triple.bind _ (chunks.consequence start fun _ _ ends => ends)
  intro out
  cases out with
  | error failure => exact .pure (timed_stable _) fun _ ends => ends.failure
  | ok download =>
    intro now acked
    have chunk : Triple (timed busy status) Unguarded (fun now => now = _)
      (sendChunk file file.fullChunks (file.chunkLength file.fullChunks) 1 download)
      (ChunkEnds busy status file.fullChunks) := sendChunk_timed (Nat.le_refl _) 1 download acked.loopCount acked.within
    rw [file.chunkLength_last] at chunk
    apply Triple.bind _ chunk _ now acked.reads
    intro out
    cases out with
    | error failure => exact failure_timed failure (Nat.le_refl _)
    | ok sent => exact .pure (timed_stable _) fun now acked => acked.within

theorem polls_idle {k : Nat} (idle : ∀ j < k, busy j = 0) : polls busy k = 0 := by
  induction k with
  | zero => simp [polls]
  | succ k ih => rw [polls_succ, idle k (Nat.lt_succ_self k), ih fun j before => idle j (Nat.lt_succ_of_lt before)]

/-- Only a chunk that found the counter untouched is given all of its polls. -/
theorem TimedOut.alone_iff {k : Nat} {now : Polls} (timedOut : TimedOut busy k now) :
    (∃ reads ∈ now, 100000 ≤ reads) ↔ 100000 ≤ busy k ∧ ∀ j < k, busy j = 0 := by
  obtain ⟨before, reached, rfl⟩ := timedOut
  have next := polls_succ busy k
  constructor
  · intro found
    obtain ⟨reads, member, enough⟩ := found
    rcases List.mem_cons.mp member with rfl | member
    · have none_before : polls busy k = 0 := by omega
      apply And.intro (by omega)
      intro j earlier
      have least := busy_le_polls busy earlier
      omega
    · obtain ⟨j, earlier, rfl⟩ := mem_acked.mp member
      have least := busy_le_polls busy earlier
      omega
  · intro alone
    have none_before := polls_idle alone.2
    exact ⟨100000 - polls busy k, List.mem_cons_self .., by omega⟩

end

variable {file : HostFile} {busy : Nat → Nat}

/-- All chunks together stay within the limit, or the first chunk that is polled at all exceeds it alone. -/
def CounterSuffices (file : HostFile) (busy : Nat → Nat) : Prop :=
  polls busy (file.fullChunks + 1) < 100000 ∨
    ∃ k ≤ file.fullChunks, 100000 ≤ busy k ∧ ∀ j < k, busy j = 0

theorem CounterSuffices.perChunk (enough : CounterSuffices file busy) : TimesOutPerChunk file busy := by
  intro buffer final run
  obtain ⟨k, within, timedOut⟩ := (sendOpenFile_timed file buffer).reachable rfl run
  have before := timedOut.before
  have reached := timedOut.reached
  rcases enough with few | ⟨slow, -, alone⟩
  · have all := polls_mono busy (Nat.succ_le_succ within)
    rw [Nat.succ_eq_add_one, Nat.succ_eq_add_one] at all
    omega
  · have same : k = slow := by
      rcases Nat.lt_trichotomy k slow with earlier | same | later
      · have none_yet := polls_idle fun j before => alone.2 j (Nat.lt_of_lt_of_le before earlier)
        rw [Nat.succ_eq_add_one] at none_yet
        omega
      · exact same
      · have least := busy_le_polls busy later
        omega
    rw [same] at timedOut
    exact timedOut.alone_iff.mpr alone

theorem TimesOutPerChunk.counterSuffices (perChunk : TimesOutPerChunk file busy) : CounterSuffices file busy := by
  have possible : ∃ value, value = 0 := ⟨0, rfl⟩
  obtain ⟨out, final, run⟩ := (timed_total busy possible).through
    (sendFileToA53Sync (some file) fun _ => 0) .pure []
  rw [Program.bind_pure] at run
  have ends := (sendOpenFile_timed file _).reachable rfl run
  cases out with
  | ok done => exact .inl ends
  | error failure =>
    cases failure with
    | openError => exact ends.elim
    | readError => exact ends.elim
    | timeout =>
      obtain ⟨k, within, timedOut⟩ := ends
      have anyStatus : Runs (timed busy fun _ => True) (sendFileToA53Sync (some file) fun _ => 0, [])
          (.pure (.error .timeout), final) := by
        apply run.mono
        · intro access before answer after acted
          cases access with
          | load32 addr =>
            by_cases door : addr = interruptReg
            · simp only [timed, TimedAct, door, if_true] at acted ⊢
              exact acted
            · simp only [timed, TimedAct, door, if_false] at acted ⊢
              exact ⟨acted.1, fun _ => trivial⟩
          | store32 addr value => exact acted
          | store8 addr byte => exact acted
        · exact fun _ _ moved => moved
      exact .inr ⟨k, within, timedOut.alone_iff.mp (perChunk _ _ anyStatus)⟩
    | resultError =>
      obtain ⟨value, zero, nonzero⟩ := ends
      exact absurd zero nonzero

/-- The chunks share one counter: the timeout is one of a single chunk only in these cases. -/
theorem times_out_per_chunk_iff (file : HostFile) (busy : Nat → Nat) :
    TimesOutPerChunk file busy ↔ polls busy (file.fullChunks + 1) < 100000 ∨
      ∃ k ≤ file.fullChunks, 100000 ≤ busy k ∧ ∀ j < k, busy j = 0 :=
  ⟨TimesOutPerChunk.counterSuffices, CounterSuffices.perChunk⟩

def twoChunkFile : HostFile where
  name := [98]
  content := List.replicate uDataLen 0
  named := by decide
  text := by decide

theorem twoChunkFile_fullChunks : twoChunkFile.fullChunks = 1 := by
  have length : twoChunkFile.content.length = uDataLen := List.length_replicate
  rw [HostFile.fullChunks, HostFile.fileSize, length]
  decide

theorem two_slow_chunks_time_out : ¬ TimesOutPerChunk twoChunkFile (fun _ => 60000) := by
  intro perChunk
  have enough := perChunk.counterSuffices
  rw [CounterSuffices, twoChunkFile_fullChunks] at enough
  simp [polls] at enough

end CigCard.Mailbox
