import CigCard.ByteMemory.LittleEndian
import CigCard.Xdma.Chain

namespace CigCard.Xdma

open ByteMemory

def XdmaDesc.words (d : XdmaDesc) : List (BitVec 32) :=
  [d.control, d.bytes, d.srcAddrLo, d.srcAddrHi, d.dstAddrLo, d.dstAddrHi, d.nextLo, d.nextHi]

def wordBytes (word : BitVec 32) : List Byte := leBytes 4 word.toNat

def XdmaDesc.image (d : XdmaDesc) : List Byte := d.words.flatMap wordBytes

/-- A buffer of user space, and how many bytes a copy at an offset of it leaves uncopied. -/
structure UserBuf where
  mem : Memory
  uncopied : Nat → Nat

structure CopyOut where
  bufOffset : Nat
  mem : Memory

def copyDescData (bufSize : Nat) (uncopied : Nat → Nat) : List XdmaDesc → Int → CopyOut → Int × CopyOut
  | [], rc, out => (rc, out)
  | d :: rest, rc, out =>
    if out.bufOffset + 32 ≤ bufSize then
      let left := uncopied out.bufOffset
      let mem := store out.mem out.bufOffset (d.image.take (32 - left))
      if left ≠ 0 then copyDescData bufSize uncopied rest (-22) ⟨bufSize, mem⟩
      else copyDescData bufSize uncopied rest rc ⟨out.bufOffset + 32, mem⟩
    else copyDescData bufSize uncopied rest (-12) out

def copyTransfers (bufSize : Nat) (uncopied : Nat → Nat) : List (List XdmaDesc) → Int → CopyOut → Int × CopyOut
  | [], rc, out => (rc, out)
  | descs :: rest, _, out =>
    let (rc, out) := copyDescData bufSize uncopied descs 0 out
    copyTransfers bufSize uncopied rest rc out

/-- A bypass device: whether `xcdev_check` accepts it, where its BAR is mapped, and the descriptors of each transfer on
    the list of its engine. -/
structure BypassCdev where
  checks : Bool
  bypassBar : Option Nat
  bypassOffset : Nat
  transferList : List (List XdmaDesc)

def charBypassRead (xcdev : BypassCdev) (buf : Option UserBuf) (count : Nat) : Int × Option Memory :=
  if !xcdev.checks then (-22, buf.map UserBuf.mem)
  else if count &&& 3 ≠ 0 then (-22, buf.map UserBuf.mem)
  else
    match buf with
    | none => (-22, none)
    | some buf =>
      match xcdev.bypassBar with
      | none => (-19, some buf.mem)
      | some _ =>
        let (rc, out) := copyTransfers count buf.uncopied xcdev.transferList 0 ⟨0, buf.mem⟩
        (if rc < 0 then rc else out.bufOffset, some out.mem)

def bypassWords (buf : UserBuf) (bypassAddr : Nat) : Nat → Nat → Int → List (Nat × BitVec 32) →
    Int × List (Nat × BitVec 32)
  | 0, _, rc, writes => (rc, writes)
  | left + 1, bufOffset, _, writes =>
    if buf.uncopied bufOffset ≠ 0 then (-22, writes)
    else
      let descData := BitVec.ofNat 32 (load32 buf.mem bufOffset)
      bypassWords buf bypassAddr left (bufOffset + 4) ((bufOffset + 4 : Nat) : Int) (writes ++ [(bypassAddr, descData)])

def BypassCdev.bypassAddr (xcdev : BypassCdev) (bar : Nat) : Nat := bar + 4 * xcdev.bypassOffset

def charBypassWrite (xcdev : BypassCdev) (buf : Option UserBuf) (count : Nat) : Int × List (Nat × BitVec 32) :=
  if !xcdev.checks then (-22, [])
  else if count &&& 3 ≠ 0 then (-22, [])
  else
    match buf with
    | none => (-22, [])
    | some buf =>
      match xcdev.bypassBar with
      | none => (-19, [])
      | some bar => bypassWords buf (xcdev.bypassAddr bar) (count / 4) 0 0 []

section Images

theorem flatMap_wordBytes_length (words : List (BitVec 32)) : (words.flatMap wordBytes).length = 4 * words.length := by
  induction words with
  | nil => rfl
  | cons word words ih =>
    rw [List.flatMap_cons, List.length_append, ih, wordBytes, leBytes_length, List.length_cons]
    omega

theorem XdmaDesc.image_length (d : XdmaDesc) : d.image.length = 32 := flatMap_wordBytes_length d.words

theorem images_length (descs : List XdmaDesc) : (descs.flatMap XdmaDesc.image).length = 32 * descs.length := by
  induction descs with
  | nil => rfl
  | cons d descs ih =>
    rw [List.flatMap_cons, List.length_append, ih, d.image_length, List.length_cons]
    omega

theorem images_words (descs : List XdmaDesc) :
    descs.flatMap XdmaDesc.image = (descs.flatMap XdmaDesc.words).flatMap wordBytes := by
  rw [List.flatMap_assoc]
  rfl

end Images

section Reading

variable {bufSize : Nat} {uncopied : Nat → Nat} {mem : Memory}

/-- So far everything was copied: the descriptors `copied` stand at the start of the buffer. -/
structure Copied (mem : Memory) (copied : List XdmaDesc) (out : CopyOut) : Prop where
  offset : out.bufOffset = 32 * copied.length
  stored : out.mem = store mem 0 (copied.flatMap XdmaDesc.image)

def Shut (bufSize : Nat) (out : CopyOut) : Prop := bufSize < out.bufOffset + 32

def Copyable (bufSize : Nat) (uncopied : Nat → Nat) (count more : Nat) : Prop :=
  32 * (count + more) ≤ bufSize ∧ ∀ i, count ≤ i → i < count + more → uncopied (32 * i) = 0

theorem Copyable.add {count first second : Nat} :
    Copyable bufSize uncopied count (first + second) ↔
      Copyable bufSize uncopied count first ∧ Copyable bufSize uncopied (count + first) second := by
  constructor
  · rintro ⟨room, granted⟩
    exact ⟨⟨by omega, fun i low high => granted i low (by omega)⟩, by omega,
      fun i low high => granted i (by omega) (by omega)⟩
  · rintro ⟨⟨-, before⟩, room, after⟩
    refine ⟨by omega, ?_⟩
    intro i low high
    by_cases early : i < count + first
    · exact before i low early
    · exact after i (by omega) (by omega)

theorem Copyable.cons {count more : Nat} :
    Copyable bufSize uncopied count (more + 1) ↔
      (32 * count + 32 ≤ bufSize ∧ uncopied (32 * count) = 0) ∧ Copyable bufSize uncopied (count + 1) more := by
  rw [Nat.add_comm more 1, Copyable.add]
  apply and_congr_left'
  constructor
  · rintro ⟨room, granted⟩
    exact ⟨by omega, granted count (Nat.le_refl _) (by omega)⟩
  · rintro ⟨room, granted⟩
    refine ⟨by omega, ?_⟩
    intro i low high
    rwa [show i = count by omega]

theorem Copied.snoc {copied : List XdmaDesc} {out : CopyOut} (so : Copied mem copied out) (d : XdmaDesc) :
    Copied mem (copied ++ [d]) ⟨out.bufOffset + 32, store out.mem out.bufOffset (d.image.take (32 - 0))⟩ := by
  refine ⟨?_, ?_⟩
  · show out.bufOffset + 32 = _
    rw [so.offset, List.length_append, List.length_singleton, Nat.mul_add]
  · show store out.mem out.bufOffset _ = _
    have whole : d.image.take (32 - 0) = d.image := List.take_of_length_le (Nat.le_of_eq d.image_length)
    have appended := store_append mem 0 (copied.flatMap XdmaDesc.image) d.image
    rw [Nat.zero_add, images_length] at appended
    rw [whole, so.stored, so.offset, appended, List.flatMap_append, List.flatMap_singleton]

theorem copyDescData_shut {out : CopyOut} (shut : Shut bufSize out) (descs : List XdmaDesc) (rc : Int) :
    copyDescData bufSize uncopied descs rc out = (if descs = [] then rc else -12, out) := by
  induction descs generalizing rc with
  | nil => rfl
  | cons d rest ih =>
    have full : ¬ out.bufOffset + 32 ≤ bufSize := Nat.not_le.mpr shut
    rw [copyDescData, if_neg full, ih]
    cases rest with
    | nil => rfl
    | cons _ _ => rfl

/-- Of one transfer either all descriptors are copied, or the copy fails and no later one is copied. -/
theorem copyDescData_copied {copied : List XdmaDesc} {out : CopyOut} (so : Copied mem copied out)
    (descs : List XdmaDesc) (rc : Int) (all : Copyable bufSize uncopied copied.length descs.length) :
    (copyDescData bufSize uncopied descs rc out).1 = rc ∧
      Copied mem (copied ++ descs) (copyDescData bufSize uncopied descs rc out).2 := by
  induction descs generalizing copied out with
  | nil =>
    rw [List.append_nil]
    exact ⟨rfl, so⟩
  | cons d rest ih =>
    rw [List.length_cons, Copyable.cons] at all
    obtain ⟨⟨room, granted⟩, later⟩ := all
    rw [copyDescData, so.offset, if_pos room]
    simp only [granted, ne_eq, not_true_eq_false, if_false]
    have next := so.snoc d
    rw [so.offset] at next
    have following := ih next (by rwa [List.length_append, List.length_singleton])
    rwa [List.append_assoc, List.singleton_append] at following

theorem copyDescData_stopped {copied : List XdmaDesc} {out : CopyOut} (so : Copied mem copied out)
    (descs : List XdmaDesc) (rc : Int) (stops : ¬ Copyable bufSize uncopied copied.length descs.length)
    (begun : 32 * copied.length ≤ bufSize) :
    (copyDescData bufSize uncopied descs rc out).1 < 0 ∧
      Shut bufSize (copyDescData bufSize uncopied descs rc out).2 := by
  induction descs generalizing copied out with
  | nil =>
    refine absurd ⟨begun, ?_⟩ stops
    intro i low high
    exact absurd high (Nat.not_lt.mpr low)
  | cons d rest ih =>
    rw [List.length_cons, Copyable.cons] at stops
    by_cases room : 32 * copied.length + 32 ≤ bufSize
    · by_cases granted : uncopied (32 * copied.length) = 0
      · have later : ¬ Copyable bufSize uncopied (copied.length + 1) rest.length :=
          fun more => stops ⟨⟨room, granted⟩, more⟩
        rw [copyDescData, so.offset, if_pos room]
        simp only [granted, ne_eq, not_true_eq_false, if_false]
        have next := so.snoc d
        rw [so.offset] at next
        have count : (copied ++ [d]).length = copied.length + 1 := List.length_append
        exact ih next (by rwa [count]) (by omega)
      · have shut : Shut bufSize ⟨bufSize, store out.mem (32 * copied.length)
            (d.image.take (32 - uncopied (32 * copied.length)))⟩ := by
          show bufSize < bufSize + 32
          omega
        rw [copyDescData, so.offset, if_pos room]
        simp only [ne_eq, granted, not_false_eq_true, if_true]
        rw [copyDescData_shut shut]
        refine ⟨?_, shut⟩
        show (if rest = [] then (-22 : Int) else -12) < 0
        split
        · decide
        · decide
    · have shut : Shut bufSize out := by
        show bufSize < out.bufOffset + 32
        rw [so.offset]
        omega
      rw [copyDescData_shut shut, if_neg (List.cons_ne_nil d rest)]
      exact ⟨Int.negSucc_lt_zero 11, shut⟩

theorem copyTransfers_cons (descs : List XdmaDesc) (rest : List (List XdmaDesc)) (rc : Int) (out : CopyOut) :
    copyTransfers bufSize uncopied (descs :: rest) rc out =
      copyTransfers bufSize uncopied rest (copyDescData bufSize uncopied descs 0 out).1
        (copyDescData bufSize uncopied descs 0 out).2 := rfl

theorem copyTransfers_shut {out : CopyOut} (shut : Shut bufSize out) (transfers : List (List XdmaDesc))
    (queued : ∀ descs ∈ transfers, descs ≠ []) {rc : Int} (negative : rc < 0) :
    (copyTransfers bufSize uncopied transfers rc out).1 < 0 := by
  induction transfers generalizing rc with
  | nil => exact negative
  | cons descs rest ih =>
    rw [List.forall_mem_cons] at queued
    rw [copyTransfers_cons, copyDescData_shut shut, if_neg queued.1]
    exact ih queued.2 (Int.negSucc_lt_zero 11)

theorem copyTransfers_copied {copied : List XdmaDesc} {out : CopyOut} (so : Copied mem copied out)
    (transfers : List (List XdmaDesc)) (all : Copyable bufSize uncopied copied.length transfers.flatten.length) :
    (copyTransfers bufSize uncopied transfers 0 out).1 = 0 ∧
      Copied mem (copied ++ transfers.flatten) (copyTransfers bufSize uncopied transfers 0 out).2 := by
  induction transfers generalizing copied out with
  | nil =>
    rw [List.flatten_nil, List.append_nil]
    exact ⟨rfl, so⟩
  | cons descs rest ih =>
    rw [List.flatten_cons, List.length_append, Copyable.add, ← List.length_append] at all
    obtain ⟨zero, next⟩ := copyDescData_copied so descs 0 all.1
    have following := ih next all.2
    rw [List.append_assoc, ← List.flatten_cons] at following
    rw [copyTransfers_cons, zero]
    exact following

/-- The last transfer decides what the read returns, and it fails if an earlier one has. -/
theorem copyTransfers_stopped {copied : List XdmaDesc} {out : CopyOut} (so : Copied mem copied out)
    (transfers : List (List XdmaDesc)) (queued : ∀ descs ∈ transfers, descs ≠ [])
    (begun : 32 * copied.length ≤ bufSize)
    (stops : ¬ Copyable bufSize uncopied copied.length transfers.flatten.length) :
    (copyTransfers bufSize uncopied transfers 0 out).1 < 0 := by
  induction transfers generalizing copied out with
  | nil =>
    refine absurd ⟨begun, ?_⟩ stops
    intro i low high
    exact absurd high (Nat.not_lt.mpr low)
  | cons descs rest ih =>
    rw [List.forall_mem_cons] at queued
    rw [copyTransfers_cons]
    by_cases all : Copyable bufSize uncopied copied.length descs.length
    · obtain ⟨zero, next⟩ := copyDescData_copied so descs 0 all
      rw [List.flatten_cons, List.length_append, Copyable.add, ← List.length_append] at stops
      rw [zero]
      refine ih next queued.2 ?_ fun more => stops ⟨all, more⟩
      rw [List.length_append]
      exact all.1
    · obtain ⟨negative, shut⟩ := copyDescData_stopped so descs 0 all begun
      exact copyTransfers_shut shut rest queued.2 negative

end Reading

section Writing

theorem load32_words (mem : Memory) (words : List (BitVec 32)) {i : Nat} (inside : i < words.length) :
    BitVec.ofNat 32 (load32 (store mem 0 (words.flatMap wordBytes)) (4 * i)) = words[i] := by
  have split : words.flatMap wordBytes =
      (words.take i).flatMap wordBytes ++ wordBytes words[i] ++ (words.drop (i + 1)).flatMap wordBytes := by
    rw [List.append_assoc, ← List.flatMap_cons, List.getElem_cons_drop, ← List.flatMap_append, List.take_append_drop]
  have place : ((words.take i).flatMap wordBytes).length = 4 * i := by
    rw [flatMap_wordBytes_length, List.length_take_of_le (Nat.le_of_lt inside)]
  have through : ((words.take i).flatMap wordBytes ++ wordBytes words[i]).length = 4 * i + 4 := by
    rw [List.length_append, place, wordBytes, leBytes_length]
  have front := store_append mem 0 ((words.take i).flatMap wordBytes) (wordBytes words[i])
  have whole := store_append mem 0 ((words.take i).flatMap wordBytes ++ wordBytes words[i])
    ((words.drop (i + 1)).flatMap wordBytes)
  rw [Nat.zero_add] at front whole
  rw [place] at front
  rw [through] at whole
  rw [split, ← whole, load32_store_disjoint _ _ _ _ (.inl (Nat.le_refl _)), ← front]
  have read := load32_store32 (store mem 0 ((words.take i).flatMap wordBytes)) (4 * i) words[i].toNat
  rw [store32, ← wordBytes] at read
  rw [read]
  apply BitVec.eq_of_toNat_eq
  rw [BitVec.toNat_ofNat, Nat.mod_mod, Nat.mod_eq_of_lt words[i].isLt]

/-- Without a fault the words of the buffer go out in order, all to one address. -/
theorem bypassWords_sent (buf : UserBuf) (bypassAddr : Nat) (left bufOffset : Nat) (rc : Int)
    (writes : List (Nat × BitVec 32)) (granted : ∀ i < left, buf.uncopied (bufOffset + 4 * i) = 0)
    (begun : rc = bufOffset) :
    bypassWords buf bypassAddr left bufOffset rc writes =
      (((bufOffset + 4 * left : Nat) : Int), writes ++ (List.range left).map fun i =>
        (bypassAddr, BitVec.ofNat 32 (load32 buf.mem (bufOffset + 4 * i)))) := by
  induction left generalizing bufOffset rc writes with
  | zero =>
    rw [begun, bypassWords, List.range_zero, List.map_nil, List.append_nil, Nat.mul_zero, Nat.add_zero]
  | succ left ih =>
    have following : ∀ i, bufOffset + 4 + 4 * i = bufOffset + 4 * (i + 1) := by
      intro i
      omega
    have here : buf.uncopied bufOffset = 0 := granted 0 (Nat.succ_pos left)
    have later : ∀ i < left, buf.uncopied (bufOffset + 4 + 4 * i) = 0 := by
      intro i below
      rw [following]
      exact granted (i + 1) (Nat.succ_lt_succ below)
    have sent := ih (bufOffset + 4) ((bufOffset + 4 : Nat) : Int)
      (writes ++ [(bypassAddr, BitVec.ofNat 32 (load32 buf.mem bufOffset))]) later rfl
    simp only [following] at sent
    rw [bypassWords, if_neg (not_not.mpr here)]
    refine sent.trans ?_
    rw [List.range_succ_eq_map, List.map_cons, List.map_map, List.append_assoc, List.singleton_append]
    rfl

theorem bypassWords_words (mem : Memory) (uncopied : Nat → Nat) (bypassAddr : Nat) (words : List (BitVec 32))
    (granted : ∀ i < words.length, uncopied (4 * i) = 0) :
    bypassWords ⟨store mem 0 (words.flatMap wordBytes), uncopied⟩ bypassAddr words.length 0 0 [] =
      (((4 * words.length : Nat) : Int), words.map fun word => (bypassAddr, word)) := by
  have sent := bypassWords_sent ⟨store mem 0 (words.flatMap wordBytes), uncopied⟩ bypassAddr words.length 0 0 []
    (fun i below => by simpa only [Nat.zero_add] using granted i below) rfl
  refine sent.trans (Prod.ext (by rw [Nat.zero_add]) ?_)
  apply List.ext_getElem
  · simp only [List.nil_append, List.length_map, List.length_range]
  · intro i first second
    have inside : i < words.length := by rwa [List.length_map] at second
    simp only [List.nil_append, List.getElem_map, List.getElem_range, Nat.zero_add, load32_words mem words inside]

theorem descWords_length (descs : List XdmaDesc) : (descs.flatMap XdmaDesc.words).length = 8 * descs.length := by
  induction descs with
  | nil => rfl
  | cons d descs ih =>
    rw [List.flatMap_cons, List.length_append, ih, List.length_cons]
    show 8 + 8 * descs.length = _
    omega

end Writing

section RoundTrip

variable {xcdev : BypassCdev} {bar : Nat}

theorem charBypassRead_ready (checks : xcdev.checks = true) (present : xcdev.bypassBar = some bar) {count : Nat}
    (whole : count &&& 3 = 0) (buf : UserBuf) :
    charBypassRead xcdev (some buf) count =
      (if (copyTransfers count buf.uncopied xcdev.transferList 0 ⟨0, buf.mem⟩).1 < 0 then
          (copyTransfers count buf.uncopied xcdev.transferList 0 ⟨0, buf.mem⟩).1
        else (copyTransfers count buf.uncopied xcdev.transferList 0 ⟨0, buf.mem⟩).2.bufOffset,
        some (copyTransfers count buf.uncopied xcdev.transferList 0 ⟨0, buf.mem⟩).2.mem) := by
  unfold charBypassRead
  rw [checks, present]
  simp only [whole, Bool.not_true, Bool.false_eq_true, if_false, ne_eq, not_true_eq_false]

/-- A read of the queue succeeds exactly if every descriptor fits and can be copied, whichever transfer it is of; what
    it has read, written back, sends the descriptors of the queue to the engine word by word, in the order of the
    queue. -/
theorem bypass_round_trip (checks : xcdev.checks = true) (present : xcdev.bypassBar = some bar)
    (queued : ∀ descs ∈ xcdev.transferList, descs ≠ []) {count : Nat} (whole : count &&& 3 = 0) (buf : UserBuf) :
    let descs := xcdev.transferList.flatten
    let read := charBypassRead xcdev (some buf) count
    (0 ≤ read.1 ↔ 32 * descs.length ≤ count ∧ ∀ i < descs.length, buf.uncopied (32 * i) = 0) ∧
      (0 ≤ read.1 → read.1 = 32 * descs.length ∧ ∃ mem, read.2 = some mem ∧
        ∀ uncopied, (∀ i < 8 * descs.length, uncopied (4 * i) = 0) →
          charBypassWrite xcdev (some ⟨mem, uncopied⟩) read.1.toNat =
            (read.1, (descs.flatMap XdmaDesc.words).map fun word => (xcdev.bypassAddr bar, word))) := by
  intro descs read
  have reads : read = _ := charBypassRead_ready checks present whole buf
  have start : Copied buf.mem [] ⟨0, buf.mem⟩ := ⟨rfl, (store_nil buf.mem 0).symm⟩
  have copyable : Copyable count buf.uncopied 0 descs.length ↔
      32 * descs.length ≤ count ∧ ∀ i < descs.length, buf.uncopied (32 * i) = 0 := by
    simp only [Copyable, Nat.zero_add, Nat.zero_le, true_implies]
  rw [← copyable]
  by_cases all : Copyable count buf.uncopied 0 descs.length
  · obtain ⟨zero, copied⟩ := copyTransfers_copied start xcdev.transferList all
    rw [zero, if_neg (Int.lt_irrefl 0)] at reads
    have size : read.1 = 32 * descs.length := by
      rw [reads]
      show ((CopyOut.bufOffset _ : Nat) : Int) = _
      rw [copied.offset]
      rfl
    have back : read.1.toNat = 32 * descs.length := by
      rw [size]
      omega
    refine ⟨iff_of_true (by omega) all, fun _ => ⟨size, _, congrArg Prod.snd reads, ?_⟩⟩
    intro uncopied granted
    have words := bypassWords_words buf.mem uncopied (xcdev.bypassAddr bar) (descs.flatMap XdmaDesc.words)
      (by rwa [descWords_length])
    rw [← images_words, descWords_length] at words
    have aligned : 32 * descs.length &&& 3 = 0 := by
      rw [Nat.and_two_pow_sub_one_eq_mod _ 2]
      omega
    have pieces : 32 * descs.length / 4 = 8 * descs.length := by omega
    unfold charBypassWrite
    rw [checks, present, back, copied.stored, pieces, List.nil_append]
    simp only [aligned, Bool.not_true, Bool.false_eq_true, if_false, ne_eq, not_true_eq_false]
    refine words.trans (Prod.ext ?_ rfl)
    rw [size]
    show ((4 * (8 * descs.length) : Nat) : Int) = _
    omega
  · have stopped := copyTransfers_stopped start xcdev.transferList queued (Nat.zero_le _) all
    rw [if_pos stopped] at reads
    have negative : ¬ 0 ≤ read.1 := by
      rw [reads]
      exact Int.not_le.mpr stopped
    exact ⟨iff_of_false negative all, fun positive => absurd positive negative⟩

/-- Two transfers come back as three descriptors. -/
theorem two_transfers_round_trip :
    let xcdev : BypassCdev := ⟨true, some 0x1000, 0x100, [[⟨1, 2, 3, 4, 5, 6, 7, 8⟩], [⟨9, 9, 9, 9, 9, 9, 9, 9⟩,
      ⟨0, 0, 0, 0, 0, 0, 0, 0xFFFFFFFF⟩]]⟩
    (charBypassRead xcdev (some ⟨fun _ => 0, fun _ => 0⟩) 100).1 = 96 ∧
      (charBypassRead xcdev (some ⟨fun _ => 0, fun _ => 0⟩) 92).1 < 0 := by
  intro xcdev
  have queued : ∀ descs ∈ xcdev.transferList, descs ≠ [] := by decide
  obtain ⟨reads, sends⟩ := @bypass_round_trip xcdev 0x1000 rfl rfl queued 100 rfl ⟨fun _ => 0, fun _ => 0⟩
  obtain ⟨short, -⟩ := @bypass_round_trip xcdev 0x1000 rfl rfl queued 92 rfl ⟨fun _ => 0, fun _ => 0⟩
  constructor
  · exact (sends (reads.mpr ⟨by decide, fun _ _ => rfl⟩)).1
  · rw [← Int.not_le, short]
    exact fun fits => absurd fits.1 (by decide)

end RoundTrip

end CigCard.Xdma
