import CigCard.Xdma.ByteExact
import CigCard.Xdma.Cdev

namespace CigCard.Xdma

/-- The descriptors of a queued transfer as the card fetches them: at once, or, where `late` says so, only when the
    call has queued everything and the ring is as `ring`. -/
def QueuedTransfer.fetched (late : Ptr → Nat → Bool) (ring : Nat → Descriptor) (q : QueuedTransfer) :
    List Descriptor :=
  q.descs.mapIdx fun j desc => if late q.ptr j then ring (q.descIndex + j) else desc

def deviceAddrs (descs : List Descriptor) : List Nat := descs.flatMap fun desc => byteRun desc.epAddr desc.bytes

def Queued.deviceAddrs (late : Ptr → Nat → Bool) (r : Queued) : List Nat :=
  Xdma.deviceAddrs (r.transfers.flatMap fun q => q.fetched late r.engine.ring)

/-- The bytes that go out, in order, each with its device address; `memory` is what the card reads at a bus address. -/
def placed (memory : Nat → BitVec 8) (descs : List Descriptor) : List (BitVec 8 × Nat) :=
  (descs.flatMap Descriptor.moves).map fun move => (memory move.1, move.2)

def Queued.placed (memory : Nat → BitVec 8) (late : Ptr → Nat → Bool) (r : Queued) : List (BitVec 8 × Nat) :=
  Xdma.placed memory (r.transfers.flatMap fun q => q.fetched late r.engine.ring)

/-- A vectored write puts its bytes, in order, where a plain write does whose transfers all complete. -/
def WritesAgree (memory : Nat → BitVec 8) (vectored : Except Fault Queued) (plain : Except Fault Submitted) : Prop :=
  ∃ r s, vectored = .ok r ∧ plain = .ok s ∧ ∀ late, r.placed memory late = placed memory s.completed

/-- The DMA layer maps the pages of a buffer as they are, and there is a request for the list. -/
def Mapped (b : Build) (dev : CharDevice) (buf : Iovec) : Prop :=
  ∀ pages, charSgdmaMapUserBufToSgl buf.iovBase buf.iovLen = .ok pages →
    ∃ sgt, dev.pciMapSg buf.iovBase pages = some sgt ∧ sgt.totalLen = (pages.map SgPage.length).sum ∧ TableFits b sgt

/-- What a buffer holds is what the card reads at the bus addresses that the buffer is mapped to. -/
structure Holds (dev : CharDevice) (memory : Nat → BitVec 8) (buf : Iovec) (bytes : List (BitVec 8)) : Prop where
  length : bytes.length = buf.iovLen
  read : ∀ pages sgt, charSgdmaMapUserBufToSgl buf.iovBase buf.iovLen = .ok pages →
    dev.pciMapSg buf.iovBase pages = some sgt → sgt.bytes.map memory = bytes

def OneSegment (segs : List Iovec) : Prop :=
  segs.Pairwise fun seg later => seg.iovLen ≠ 0 ∨ seg.iovBase % pageSize = 0 → later.iovLen = 0

def FitsRing (b : Build) (dev : CharDevice) (seg : Iovec) : Prop :=
  ∀ pages sgt, charSgdmaMapUserBufToSgl seg.iovBase seg.iovLen = .ok pages →
    dev.pciMapSg seg.iovBase pages = some sgt → sgt.pieceCount b ≤ dev.cfg.descMax

section Addresses

variable {b : Build} {cfg : EngineConfig}

theorem transferBuild_epAddr (moving : cfg.nonIncrAddr = false) (pieces : List SwDesc) (epAddr : Nat)
    (valid : epAddr < 2 ^ 64) :
    (transferBuild cfg pieces epAddr).2 = (epAddr + (pieces.map SwDesc.len).sum) % 2 ^ 64 := by
  induction pieces generalizing epAddr with
  | nil =>
    show epAddr = (epAddr + 0) % 2 ^ 64
    rw [Nat.add_zero, Nat.mod_eq_of_lt valid]
  | cons piece pieces ih =>
    have wrapped : (epAddr + piece.len) % 2 ^ 64 < 2 ^ 64 := Nat.mod_lt _ (by decide)
    simp only [transferBuild, moving, Bool.false_eq_true, if_false, List.map_cons, List.sum_cons]
    rw [ih _ wrapped]
    omega

theorem deviceAddrs_descriptors (moving : cfg.nonIncrAddr = false) (pieces : List SwDesc) (epAddr : Nat) :
    deviceAddrs (descriptors cfg pieces epAddr) = byteRun epAddr (pieces.map SwDesc.len).sum := by
  unfold deviceAddrs descriptors
  induction pieces generalizing epAddr with
  | nil => rfl
  | cons piece pieces ih =>
    simp only [transferBuild, moving, Bool.false_eq_true, if_false, List.flatMap_cons, List.map_cons, List.sum_cons,
      ih, byteRun_append]

theorem pairUp_map {α β : Type} (f : α → β) (bytes : List α) (epAddr : Nat) :
    (pairUp bytes epAddr).map (fun move => (f move.1, move.2)) = pairUp (bytes.map f) epAddr := by
  apply List.ext_getElem
  · simp [pairUp]
  · intro k _ _
    simp [pairUp]

theorem pairUp_addrs {α : Type} (bytes : List α) (epAddr : Nat) :
    (pairUp bytes epAddr).map Prod.snd = byteRun epAddr bytes.length := by
  apply List.ext_getElem
  · simp [pairUp, byteRun]
  · intro k _ _
    simp [pairUp, byteRun]

theorem placed_descriptors (moving : cfg.nonIncrAddr = false) (memory : Nat → BitVec 8) (pieces : List SwDesc)
    (epAddr : Nat) :
    placed memory (descriptors cfg pieces epAddr) = pairUp ((pieces.flatMap SwDesc.bytes).map memory) epAddr := by
  rw [placed, descriptors, transferBuild_incremental moving, pairUp_map]

theorem placed_addrs (memory : Nat → BitVec 8) (descs : List Descriptor) :
    (placed memory descs).map Prod.snd = deviceAddrs descs := by
  have each : ∀ desc : Descriptor, desc.moves.map Prod.snd = byteRun desc.epAddr desc.bytes := by
    intro desc
    rw [Descriptor.moves, List.map_map]
    rfl
  rw [placed, List.map_map, List.map_flatMap]
  exact List.flatMap_congr fun desc _ => each desc

theorem MappedSg.pieces_sum (sgt : MappedSg) : ((sgt.pieces b).map SwDesc.len).sum = sgt.totalLen := by
  rw [← sgt.bytes_length, ← sgt.pieces_bytes (b := b), List.length_flatMap]
  simp [SwDesc.bytes]

/-- Descriptor `k` of a request starts where the pieces before it end. -/
theorem descriptors_getElem (moving : cfg.nonIncrAddr = false) (pieces : List SwDesc) (epAddr k : Nat)
    (valid : epAddr < 2 ^ 64) (inside : k < pieces.length) :
    ∃ desc, (descriptors cfg pieces epAddr)[k]? = some desc ∧ desc.bytes = pieces[k].len ∧
      desc.epAddr = (epAddr + ((pieces.take k).map SwDesc.len).sum) % 2 ^ 64 := by
  have split := transferBuild_append cfg (pieces.take k) (pieces.drop k) epAddr
  have front : (transferBuild cfg (pieces.take k) epAddr).1.length = k := by
    rw [transferBuild_length, List.length_take]
    exact Nat.min_eq_left inside.le
  rw [List.take_append_drop] at split
  rw [descriptors, split, List.getElem?_append_right (by omega), front, Nat.sub_self,
    List.drop_eq_getElem_cons inside]
  refine ⟨_, rfl, rfl, ?_⟩
  exact transferBuild_epAddr moving _ _ valid

theorem byteRun_head {addr len : Nat} (some : 0 < len) : (byteRun addr len).head? = .some (addr % 2 ^ 64) := by
  obtain ⟨n, rfl⟩ := Nat.exists_eq_succ_of_ne_zero some.ne'
  simp [byteRun, List.range_succ_eq_map]

end Addresses

section Nowait

variable {cfg : EngineConfig} {block left tferIdx : Nat} {e : Engine} {req : Request}

theorem slots_length (ring : Nat → Descriptor) (t : Transfer) : (slots ring t).length = t.descNum := by
  simp [slots]

theorem nowaitLoop_nil (done : req.remaining = []) :
    nowaitLoop cfg block left tferIdx e req = .ok ⟨e, [], -eiocbqueued⟩ := by
  cases left <;> simp [nowaitLoop, done]

theorem except_bind_ok {α β : Type} {first : Except Fault α} {rest : α → Except Fault β} {result : β}
    (runs : (first >>= rest) = .ok result) : ∃ value, first = .ok value ∧ rest value = .ok result := by
  cases first with
  | error fault => cases runs
  | ok value => exact ⟨value, rfl, runs⟩

theorem nowaitLoop_cons_iff {r : Queued} (more : req.remaining ≠ []) :
    nowaitLoop cfg block (left + 1) tferIdx e req = .ok r ↔
      ∃ rest, nowaitLoop cfg block left (tferIdx + 1) (transferInit cfg ⟨block, tferIdx⟩ true e req).1
          (transferInit cfg ⟨block, tferIdx⟩ true e req).2 = .ok rest ∧
        r = { rest with
          transfers := queuedTransfer ⟨block, tferIdx⟩ (transferInit cfg ⟨block, tferIdx⟩ true e req).1 ::
            rest.transfers } := by
  rw [nowaitLoop, if_neg more]
  constructor
  · intro runs
    obtain ⟨rest, loop, result⟩ := except_bind_ok runs
    cases result
    exact ⟨rest, loop, rfl⟩
  · intro built
    obtain ⟨rest, loop, rfl⟩ := built
    simp only [loop]
    rfl

theorem nowaitLoop_built {r : Queued} (cursor : e.descIdx < cfg.descMax)
    (runs : nowaitLoop cfg block left tferIdx e req = .ok r) :
    r.transfers.flatMap QueuedTransfer.descs = descriptors cfg req.remaining req.epAddr ∧
      r.engine.descIdx < cfg.descMax := by
  induction left generalizing tferIdx e req r with
  | zero =>
    by_cases done : req.remaining = []
    · rw [nowaitLoop_nil done] at runs
      cases runs
      rw [done]
      exact ⟨rfl, cursor⟩
    · simp [nowaitLoop, done] at runs
  | succ left ih =>
    by_cases done : req.remaining = []
    · rw [nowaitLoop_nil done] at runs
      cases runs
      rw [done]
      exact ⟨rfl, cursor⟩
    · have round := transferInit_round ⟨block, tferIdx⟩ true e req cursor done
      obtain ⟨rest, loop, rfl⟩ := (nowaitLoop_cons_iff done).mp runs
      obtain ⟨built, below⟩ := ih round.cursor loop
      refine ⟨?_, below⟩
      rw [List.flatMap_cons, built, round.plan]
      rfl

theorem slots_getElem {ring : Nat → Descriptor} {t : Transfer} {j : Nat} (inside : j < t.descNum) :
    (slots ring t)[j]? = some (ring (t.descIndex + j)) := by
  simp [slots, inside]

/-- Descriptors that are still in the ring are fetched as they were built. -/
theorem fetched_kept {late : Ptr → Nat → Bool} {p : Ptr} {last : Nat → Descriptor}
    (kept : ∀ s, (e.tfer p).descIndex ≤ s → s < (e.tfer p).descIndex + (e.tfer p).descNum → last s = e.ring s) :
    (queuedTransfer p e).fetched late last = (queuedTransfer p e).descs := by
  apply List.ext_getElem
  · simp [QueuedTransfer.fetched]
  · intro j _ inside
    have slot : j < (e.tfer p).descNum := by rwa [queuedTransfer, slots_length] at inside
    simp only [QueuedTransfer.fetched, List.getElem_mapIdx]
    by_cases waits : late (queuedTransfer p e).ptr j
    · rw [if_pos waits]
      show last ((e.tfer p).descIndex + j) = (slots e.ring (e.tfer p)).get ⟨j, inside⟩
      rw [kept _ (by omega) (by omega)]
      simp [slots]
    · rw [if_neg waits]

/-- The first transfer of a call takes what there is, or all slots up to the end of the ring. -/
theorem nextDescNum_cases (e : Engine) (req : Request) (cursor : e.descIdx < cfg.descMax) :
    (req.remaining.length ≤ cfg.descMax - e.descIdx ∧ nextDescNum cfg e req = req.remaining.length) ∨
      (cfg.descMax - e.descIdx < req.remaining.length ∧ nextDescNum cfg e req = cfg.descMax - e.descIdx) := by
  unfold nextDescNum
  simp only
  split <;> omega

/-- A request of no more descriptors than the ring has is queued in one or two transfers, and all its descriptors are
    in the ring afterwards. -/
theorem nowaitLoop_kept (cursor : e.descIdx < cfg.descMax) (room : req.remaining.length ≤ cfg.descMax) :
    ∃ r, nowaitLoop cfg block 2 0 e req = .ok r ∧
      ∀ late, ∀ q ∈ r.transfers, q.fetched late r.engine.ring = q.descs := by
  by_cases none : req.remaining = []
  · exact ⟨_, nowaitLoop_nil none, by simp⟩
  let next := transferInit cfg ⟨block, 0⟩ true e req
  have init := transferInit_spec cfg ⟨block, 0⟩ true e req
  have left : next.2.remaining.length = req.remaining.length - nextDescNum cfg e req := by
    rw [init.remaining, List.length_drop]
  by_cases done : next.2.remaining = []
  · refine ⟨⟨next.1, [queuedTransfer ⟨block, 0⟩ next.1], -eiocbqueued⟩, ?_, ?_⟩
    · exact (nowaitLoop_cons_iff none).mpr ⟨_, nowaitLoop_nil done, rfl⟩
    · intro late q member
      rw [List.mem_singleton.mp member]
      exact fetched_kept fun _ _ _ => rfl
  · -- The first transfer ends at the end of the ring; the second one has room before its first slot.
    have some := List.length_pos_of_ne_nil done
    rcases nextDescNum_cases e req cursor with ⟨-, whole⟩ | ⟨more, upTo⟩
    · omega
    have wrapped : next.1.descIdx = 0 := by rw [init.descIdx, upTo, Nat.add_sub_cancel' cursor.le, Nat.mod_self]
    let last := transferInit cfg ⟨block, 1⟩ true next.1 next.2
    have second := transferInit_spec cfg ⟨block, 1⟩ true next.1 next.2
    have rest : nextDescNum cfg next.1 next.2 = next.2.remaining.length := by
      rcases @nextDescNum_cases cfg next.1 next.2 (by omega) with ⟨-, whole⟩ | ⟨more, -⟩
      · exact whole
      · omega
    have finished : last.2.remaining = [] := by
      rw [second.remaining, rest]
      exact List.drop_length
    refine ⟨⟨last.1, [queuedTransfer ⟨block, 0⟩ next.1, queuedTransfer ⟨block, 1⟩ last.1], -eiocbqueued⟩, ?_, ?_⟩
    · exact (nowaitLoop_cons_iff none).mpr ⟨_, (nowaitLoop_cons_iff done).mpr ⟨_, nowaitLoop_nil finished, rfl⟩, rfl⟩
    · intro late q member
      rcases List.mem_cons.mp member with rfl | member
      · apply fetched_kept
        intro s lower upper
        rw [init.descIndex] at lower
        show last.1.ring s = next.1.ring s
        rw [second.ring]
        apply writeRing_outside
        rw [transferBuild_length, List.length_take, wrapped, rest]
        omega
      · rw [List.mem_singleton.mp member]
        exact fetched_kept fun _ _ _ => rfl

/-- A longer request either does not fit its two transfers, or the second overwrites the first descriptor of the
    first. -/
theorem nowaitLoop_overwritten {r : Queued} (cursor : e.descIdx < cfg.descMax)
    (long : cfg.descMax < req.remaining.length) (runs : nowaitLoop cfg block 2 0 e req = .ok r) :
    ∃ q later, r.transfers = q :: later ∧ 0 < q.descs.length ∧
      (descriptors cfg req.remaining req.epAddr)[cfg.descMax]? = some (r.engine.ring q.descIndex) := by
  have nonempty : req.remaining ≠ [] := List.ne_nil_of_length_pos (by omega)
  let next := transferInit cfg ⟨block, 0⟩ true e req
  have init := transferInit_spec cfg ⟨block, 0⟩ true e req
  rcases nextDescNum_cases e req cursor with ⟨short, -⟩ | ⟨-, upTo⟩
  · omega
  have left : next.2.remaining.length = req.remaining.length - nextDescNum cfg e req := by
    rw [init.remaining, List.length_drop]
  have more : next.2.remaining ≠ [] := List.ne_nil_of_length_pos (by omega)
  have wrapped : next.1.descIdx = 0 := by rw [init.descIdx, upTo, Nat.add_sub_cancel' cursor.le, Nat.mod_self]
  let last := transferInit cfg ⟨block, 1⟩ true next.1 next.2
  have second := transferInit_spec cfg ⟨block, 1⟩ true next.1 next.2
  have beyond : e.descIdx < nextDescNum cfg next.1 next.2 := by
    rcases @nextDescNum_cases cfg next.1 next.2 (by omega) with ⟨-, whole⟩ | ⟨-, full⟩
    · omega
    · omega
  obtain ⟨_, loop, rfl⟩ := (nowaitLoop_cons_iff nonempty).mp runs
  obtain ⟨_, tail, rfl⟩ := (nowaitLoop_cons_iff more).mp loop
  by_cases finished : last.2.remaining = []
  · rw [nowaitLoop_nil finished] at tail
    cases tail
    have firstRound := transferInit_round ⟨block, 0⟩ true e req cursor nonempty
    have secondRound := transferInit_round ⟨block, 1⟩ true next.1 next.2 firstRound.cursor more
    refine ⟨_, _, rfl, ?_, ?_⟩
    · show 0 < (slots next.1.ring (next.1.tfer ⟨block, 0⟩)).length
      rw [slots_length, init.descNum, upTo]
      omega
    · have front : (slots next.1.ring (next.1.tfer ⟨block, 0⟩)).length = cfg.descMax - e.descIdx := by
        rw [slots_length, init.descNum, upTo]
      have inside : e.descIdx < (last.1.tfer ⟨block, 1⟩).descNum := by
        rw [second.descNum]
        exact beyond
      have place : (last.1.tfer ⟨block, 1⟩).descIndex = 0 := by rw [second.descIndex, wrapped]
      have offset : cfg.descMax - (cfg.descMax - e.descIdx) = e.descIdx := by omega
      rw [firstRound.plan, secondRound.plan, List.getElem?_append_right (front.trans_le (Nat.sub_le _ _)), front, offset,
        List.getElem?_append_left (by rw [slots_length]; exact inside), slots_getElem inside, place, Nat.zero_add]
      show _ = some (last.1.ring (next.1.tfer ⟨block, 0⟩).descIndex)
      rw [init.descIndex]
  · rw [nowaitLoop, if_neg finished] at tail
    cases tail

end Nowait

section Segments

variable {b : Build} {dev : CharDevice} {pos : BitVec 64}

theorem MappedSg.pieces_nil {sgt : MappedSg} (empty : sgt.totalLen = 0) : sgt.pieces b = [] := by
  have sum := @MappedSg.pieces_sum b sgt
  cases pieces : sgt.pieces b with
  | nil => rfl
  | cons piece rest =>
    have long := sgt.pieces_len piece (pieces ▸ List.mem_cons_self)
    rw [pieces, List.map_cons, List.sum_cons, empty] at sum
    omega

theorem submitNowait_mapped {i buf : Nat} {e : Engine} {pages : List SgPage} {sgt : MappedSg}
    (mapped : dev.pciMapSg buf pages = some sgt) (fits : TableFits b sgt) :
    xdmaXferSubmitNowait b dev i e buf pages pos = nowaitLoop dev.cfg i 2 0 e ⟨sgt.pieces b, 0, pos.toNat⟩ := by
  simp only [xdmaXferSubmitNowait, mapped, xdmaInitRequest_fits fits]
  rfl

def Reached (dev : CharDevice) (pos : BitVec 64) (seg : Iovec) : Prop :=
  checkTransferAlign dev seg.iovBase seg.iovLen pos true = 0 ∧ (seg.iovLen ≠ 0 ∨ seg.iovBase % pageSize ≠ 0)

instance : DecidablePred (Reached dev pos) := fun _ => inferInstanceAs (Decidable (_ ∧ _))

/-- A segment stops the call, or its mapped list is submitted and the call goes on. -/
theorem aioSegments_cons {seg : Iovec} (rest : List Iovec) (short : seg.iovLen < 2 ^ 31)
    (maps : Mapped b dev seg) :
    (¬ Reached dev pos seg ∧ ∃ ret, ∀ i e, aioSegments b dev pos i e (seg :: rest) = .ok ⟨e, [], ret⟩) ∨
      (Reached dev pos seg ∧ ∃ pages sgt, charSgdmaMapUserBufToSgl seg.iovBase seg.iovLen = .ok pages ∧
        dev.pciMapSg seg.iovBase pages = some sgt ∧ sgt.totalLen = seg.iovLen ∧
        ∀ i e, aioSegments b dev pos i e (seg :: rest) = do
          let first ← nowaitLoop dev.cfg i 2 0 e ⟨sgt.pieces b, 0, pos.toNat⟩
          let others ← aioSegments b dev pos (i + 1) first.engine rest
          return { others with transfers := first.transfers ++ others.transfers }) := by
  by_cases aligned : checkTransferAlign dev seg.iovBase seg.iovLen pos true = 0
  · rcases mapUserBuf_cases seg short with ⟨empty, start, refused⟩ | ⟨touches, pages, filled, total⟩
    · left
      refine ⟨fun reached => reached.2.elim (fun some => some empty) (fun inside => inside start), -einval, ?_⟩
      intro i e
      simp [aioSegments, aligned, refused]
    · right
      obtain ⟨sgt, mapped, whole, fits⟩ := maps pages filled
      refine ⟨⟨aligned, touches⟩, pages, sgt, filled, mapped, whole.trans total, ?_⟩
      intro i e
      simp only [aioSegments, aligned, filled, submitNowait_mapped mapped fits]
      rfl
  · left
    refine ⟨fun reached => aligned reached.1, checkTransferAlign dev seg.iovBase seg.iovLen pos true, ?_⟩
    intro i e
    simp [aioSegments, aligned]

/-- An empty segment stops the call or is passed over. -/
theorem aioSegments_cons_none {seg : Iovec} (rest : List Iovec) (maps : Mapped b dev seg) (none : seg.iovLen = 0) :
    (¬ Reached dev pos seg ∧ ∃ ret, ∀ i e, aioSegments b dev pos i e (seg :: rest) = .ok ⟨e, [], ret⟩) ∨
      ∀ i e, aioSegments b dev pos i e (seg :: rest) = aioSegments b dev pos (i + 1) e rest := by
  rcases @aioSegments_cons b dev pos seg rest (by omega) maps with stops | ⟨-, pages, sgt, -, -, total, goes⟩
  · exact .inl stops
  · right
    intro i e
    have nothing : sgt.pieces b = [] := MappedSg.pieces_nil (total.trans none)
    rw [goes, nothing, nowaitLoop_nil rfl]
    show (do let r ← aioSegments b dev pos (i + 1) e rest; return { r with transfers := [] ++ r.transfers }) = _
    cases aioSegments b dev pos (i + 1) e rest <;> rfl

theorem aioSegments_empty {segs : List Iovec} (maps : ∀ seg ∈ segs, Mapped b dev seg)
    (empty : ∀ seg ∈ segs, seg.iovLen = 0) :
    ∃ ret, ∀ i e, aioSegments b dev pos i e segs = .ok ⟨e, [], ret⟩ := by
  induction segs with
  | nil => exact ⟨-eiocbqueued, fun _ _ => rfl⟩
  | cons seg rest ih =>
    obtain ⟨ret, others⟩ := ih (fun seg member => maps seg (List.mem_cons_of_mem _ member))
      fun seg member => empty seg (List.mem_cons_of_mem _ member)
    rcases aioSegments_cons_none rest (maps seg List.mem_cons_self) (empty seg List.mem_cons_self) with
      ⟨-, ret, stops⟩ | skips
    · exact ⟨ret, stops⟩
    · exact ⟨ret, fun i e => (skips i e).trans (others (i + 1) e)⟩

theorem flatMap_content_empty {segs : List Iovec} {content : Iovec → List (BitVec 8)}
    (lengths : ∀ seg ∈ segs, (content seg).length = seg.iovLen) (empty : ∀ seg ∈ segs, seg.iovLen = 0) :
    segs.flatMap content = [] := by
  rw [List.flatMap_eq_nil_iff]
  intro seg member
  exact List.eq_nil_of_length_eq_zero ((lengths seg member).trans (empty seg member))

theorem sum_len_eq_zero {segs : List Iovec} : (segs.map Iovec.iovLen).sum = 0 ↔ ∀ seg ∈ segs, seg.iovLen = 0 := by
  rw [List.sum_eq_zero_iff_forall_eq_nat]
  exact List.forall_mem_map

/-- With one segment to write, the call does what `xdma_xfer_submit_nowait` does with that segment. -/
theorem aioSegments_one {segs : List Iovec} (one : OneSegment segs) (maps : ∀ seg ∈ segs, Mapped b dev seg)
    (short : ∀ seg ∈ segs, seg.iovLen < 2 ^ 31)
    (aligned : ∀ seg ∈ segs, checkTransferAlign dev seg.iovBase seg.iovLen pos true = 0) :
    (∀ seg ∈ segs, seg.iovLen = 0) ∨
      ∃ seg ∈ segs, seg.iovLen ≠ 0 ∧ (∀ other ∈ segs, other.iovLen ≠ 0 → other = seg) ∧
        (∀ content : Iovec → List (BitVec 8), (∀ other ∈ segs, (content other).length = other.iovLen) →
          segs.flatMap content = content seg) ∧
        ∃ pages sgt ret, charSgdmaMapUserBufToSgl seg.iovBase seg.iovLen = .ok pages ∧
          dev.pciMapSg seg.iovBase pages = some sgt ∧ sgt.totalLen = seg.iovLen ∧
          ∀ i e, ∃ k, aioSegments b dev pos i e segs =
            (nowaitLoop dev.cfg k 2 0 e ⟨sgt.pieces b, 0, pos.toNat⟩).map fun r => { r with ret } := by
  induction segs with
  | nil => exact .inl (by simp)
  | cons seg rest ih =>
    obtain ⟨alone, one⟩ := List.pairwise_cons.mp one
    have restMaps : ∀ seg ∈ rest, Mapped b dev seg := fun seg member => maps seg (List.mem_cons_of_mem _ member)
    have later := ih one restMaps (fun seg member => short seg (List.mem_cons_of_mem _ member))
      fun seg member => aligned seg (List.mem_cons_of_mem _ member)
    have here := aligned seg List.mem_cons_self
    by_cases none : seg.iovLen = 0
    · rcases @aioSegments_cons_none b dev pos seg rest (maps seg List.mem_cons_self) none with ⟨stopped, -⟩ | skips
      · -- A segment on a page boundary ends the call; there is nothing after it.
        have start : seg.iovBase % pageSize = 0 := by
          by_contra inside
          exact stopped ⟨here, .inr inside⟩
        left
        intro other member
        rcases List.mem_cons.mp member with rfl | member
        · exact none
        · exact alone other member (.inr start)
      · rcases later with empty | ⟨found, member, some, only, bytes, pages, sgt, ret, filled, mapped, total, submits⟩
        · left
          intro other member
          rcases List.mem_cons.mp member with rfl | member
          · exact none
          · exact empty other member
        · right
          refine ⟨found, List.mem_cons_of_mem _ member, some, ?_, ?_, pages, sgt, ret, filled, mapped, total, ?_⟩
          · intro other member bytes
            rcases List.mem_cons.mp member with rfl | member
            · exact absurd none bytes
            · exact only other member bytes
          · intro content lengths
            have nothing := List.eq_nil_of_length_eq_zero ((lengths seg List.mem_cons_self).trans none)
            rw [List.flatMap_cons, nothing, List.nil_append]
            exact bytes content fun other member => lengths other (List.mem_cons_of_mem _ member)
          · intro i e
            obtain ⟨k, same⟩ := submits (i + 1) e
            exact ⟨k, (skips i e).trans same⟩
    · rcases @aioSegments_cons b dev pos seg rest (short seg List.mem_cons_self) (maps seg List.mem_cons_self) with
        ⟨stopped, -⟩ | ⟨-, pages, sgt, filled, mapped, total, goes⟩
      · exact absurd ⟨here, .inl none⟩ stopped
      · have empty : ∀ other ∈ rest, other.iovLen = 0 := fun other member => alone other member (.inl none)
        obtain ⟨ret, others⟩ := @aioSegments_empty b dev pos rest restMaps empty
        right
        refine ⟨seg, List.mem_cons_self, none, ?_, ?_, pages, sgt, ret, filled, mapped, total, ?_⟩
        · intro other member bytes
          rcases List.mem_cons.mp member with rfl | member
          · rfl
          · exact absurd (empty other member) bytes
        · intro content lengths
          have nothing := flatMap_content_empty (fun other member => lengths other (List.mem_cons_of_mem _ member)) empty
          rw [List.flatMap_cons, nothing, List.append_nil]
        · intro i e
          refine ⟨i, ?_⟩
          rw [goes]
          cases first : nowaitLoop dev.cfg i 2 0 e ⟨sgt.pieces b, 0, pos.toNat⟩ with
          | error fault => rfl
          | ok r =>
            show (do
              let others ← aioSegments b dev pos (i + 1) r.engine rest
              return { others with transfers := r.transfers ++ others.transfers }) = _
            rw [others]
            show Except.ok _ = Except.ok _
            rw [List.append_nil]

/-- What a vectored write builds: every segment goes to the same device address. -/
theorem aioSegments_built {segs : List Iovec} {i : Nat} {e : Engine} {r : Queued}
    (moving : dev.cfg.nonIncrAddr = false) (cursor : e.descIdx < dev.cfg.descMax)
    (maps : ∀ seg ∈ segs, Mapped b dev seg) (short : ∀ seg ∈ segs, seg.iovLen < 2 ^ 31)
    (runs : aioSegments b dev pos i e segs = .ok r) :
    deviceAddrs (r.transfers.flatMap QueuedTransfer.descs) =
      (segs.takeWhile (Reached dev pos)).flatMap fun seg => byteRun pos.toNat seg.iovLen := by
  induction segs generalizing i e r with
  | nil =>
    cases runs
    rfl
  | cons seg rest ih =>
    rcases @aioSegments_cons b dev pos seg rest (short seg List.mem_cons_self) (maps seg List.mem_cons_self) with
      ⟨stopped, ret, stops⟩ | ⟨reached, pages, sgt, -, -, total, goes⟩
    · rw [stops] at runs
      cases runs
      rw [List.takeWhile_cons_of_neg (by simpa using stopped)]
      rfl
    · rw [goes] at runs
      obtain ⟨first, submitted, runs⟩ := except_bind_ok runs
      obtain ⟨others, later, result⟩ := except_bind_ok runs
      cases result
      obtain ⟨built, below⟩ := nowaitLoop_built cursor submitted
      have rest := ih below (fun seg member => maps seg (List.mem_cons_of_mem _ member))
        (fun seg member => short seg (List.mem_cons_of_mem _ member)) later
      rw [List.takeWhile_cons_of_pos (by simpa using reached), List.flatMap_cons, ← rest, List.flatMap_append, built]
      show deviceAddrs (descriptors dev.cfg (sgt.pieces b) pos.toNat ++ _) = _
      rw [deviceAddrs, List.flatMap_append]
      congr 1
      exact (deviceAddrs_descriptors moving _ _).trans (by rw [sgt.pieces_sum, total])

/-- Segments that all go to the device address `addr` cover nothing, or `addr` first. -/
theorem runs_head (addr : Nat) (segs : List Iovec) :
    segs.flatMap (fun seg => byteRun addr seg.iovLen) = [] ∨
      (segs.flatMap fun seg => byteRun addr seg.iovLen).head? = some (addr % 2 ^ 64) := by
  induction segs with
  | nil => exact .inl rfl
  | cons seg rest ih =>
    rw [List.flatMap_cons]
    by_cases none : seg.iovLen = 0
    · rw [none]
      exact ih
    · right
      rw [List.head?_append, byteRun_head (Nat.pos_of_ne_zero none)]
      rfl

theorem OneSegment.of_empty {seg : Iovec} {rest : List Iovec} (empty : ∀ other ∈ rest, other.iovLen = 0) :
    OneSegment (seg :: rest) := by
  refine List.pairwise_cons.mpr ⟨fun other member _ => empty other member, ?_⟩
  exact List.pairwise_of_forall_mem_list fun _ _ other member _ => empty other member

/-- Segments that all go to one address cover the addresses from there on only if one of them does. -/
theorem oneSegment_of_runs {segs : List Iovec} {addr : Nat} (small : (segs.map Iovec.iovLen).sum < 2 ^ 31)
    (aligned : ∀ seg ∈ segs, checkTransferAlign dev seg.iovBase seg.iovLen pos true = 0)
    (covers : ((segs.takeWhile (Reached dev pos)).flatMap fun seg => byteRun addr seg.iovLen) =
      byteRun addr (segs.map Iovec.iovLen).sum) : OneSegment segs := by
  induction segs with
  | nil => exact List.Pairwise.nil
  | cons seg rest ih =>
    have here := aligned seg List.mem_cons_self
    have restAligned : ∀ seg ∈ rest, checkTransferAlign dev seg.iovBase seg.iovLen pos true = 0 :=
      fun seg member => aligned seg (List.mem_cons_of_mem _ member)
    have restSmall : (rest.map Iovec.iovLen).sum < 2 ^ 31 := by
      rw [List.map_cons, List.sum_cons] at small
      omega
    have emptyRest : (rest.map Iovec.iovLen).sum = 0 → OneSegment (seg :: rest) :=
      fun zero => OneSegment.of_empty (sum_len_eq_zero.mp zero)
    by_cases reached : Reached dev pos seg
    · rw [List.takeWhile_cons_of_pos (by simpa using reached), List.flatMap_cons, List.map_cons, List.sum_cons,
        ← byteRun_append] at covers
      have tail := List.append_cancel_left covers
      by_cases none : seg.iovLen = 0
      · -- An empty segment is passed over.
        rw [none, Nat.add_zero] at tail
        refine List.pairwise_cons.mpr ⟨?_, ih restSmall restAligned ?_⟩
        · intro other _ either
          rcases reached.2 with bytes | inside
          · exact absurd none bytes
          · exact absurd (either.resolve_left (not_not.mpr none)) inside
        · have same : byteRun (addr % 2 ^ 64) (rest.map Iovec.iovLen).sum = byteRun addr (rest.map Iovec.iovLen).sum := by
            unfold byteRun
            apply List.map_congr_left
            intro k _
            omega
          rw [← same]
          exact tail
      · -- After a segment with bytes, the others would have to start behind it.
        apply emptyRest
        by_contra more
        have first := @byteRun_head ((addr + seg.iovLen) % 2 ^ 64) _ (Nat.pos_of_ne_zero more)
        rcases runs_head addr (rest.takeWhile (Reached dev pos)) with nothing | head
        · rw [nothing] at tail
          rw [← tail] at first
          cases first
        · rw [tail, first] at head
          have wraps := Option.some.inj head
          rw [List.map_cons, List.sum_cons] at small
          omega
    · rw [List.takeWhile_cons_of_neg (by simpa using reached)] at covers
      have none := congrArg List.length covers
      rw [byteRun_length, List.map_cons, List.sum_cons] at none
      simp only [List.flatMap_nil, List.length_nil] at none
      exact emptyRest (by omega)

end Segments

section Agreement

variable {b : Build} {dev : CharDevice} {pos : BitVec 64} {e : Engine} {segs : List Iovec}

theorem deviceAddrs_atOnce (r : Queued) :
    r.deviceAddrs (fun _ _ => false) = deviceAddrs (r.transfers.flatMap QueuedTransfer.descs) := by
  have same : ∀ q : QueuedTransfer, q.fetched (fun _ _ => false) r.engine.ring = q.descs := by
    intro q
    apply List.ext_getElem
    · simp [QueuedTransfer.fetched]
    · intro j _ _
      simp [QueuedTransfer.fetched]
  simp only [Queued.deviceAddrs, same]

theorem Queued.placed_addrs (r : Queued) (memory : Nat → BitVec 8) (late : Ptr → Nat → Bool) :
    (r.placed memory late).map Prod.snd = r.deviceAddrs late := Xdma.placed_addrs memory _

variable {memory : Nat → BitVec 8} {content : Iovec → List (BitVec 8)}

theorem WritesAgree.addrs {r : Queued} {s : Submitted} (late : Ptr → Nat → Bool)
    (agree : r.placed memory late = placed memory s.completed) : r.deviceAddrs late = deviceAddrs s.completed := by
  rw [← r.placed_addrs memory, agree, placed_addrs]

theorem Holds.sum (holds : ∀ seg ∈ segs, Holds dev memory seg (content seg)) :
    (segs.flatMap content).length = (segs.map Iovec.iovLen).sum := by
  rw [List.length_flatMap]
  congr 1
  exact List.map_congr_left fun seg member => (holds seg member).length

theorem aioSegments_whole (moving : dev.cfg.nonIncrAddr = false) (cursor : e.descIdx < dev.cfg.descMax)
    (holds : ∀ seg ∈ segs, Holds dev memory seg (content seg)) (one : OneSegment segs) (maps : ∀ seg ∈ segs, Mapped b dev seg) (short : ∀ seg ∈ segs, seg.iovLen < 2 ^ 31)
    (aligned : ∀ seg ∈ segs, checkTransferAlign dev seg.iovBase seg.iovLen pos true = 0)
    (fits : ∀ seg ∈ segs, FitsRing b dev seg) :
    ∃ r, aioSegments b dev pos 0 e segs = .ok r ∧
      ∀ late, r.placed memory late = pairUp (segs.flatMap content) pos.toNat := by
  have lengths : ∀ seg ∈ segs, (content seg).length = seg.iovLen := fun seg member => (holds seg member).length
  rcases aioSegments_one one maps short aligned with
    empty | ⟨seg, member, -, -, bytes, pages, sgt, ret, filled, mapped, total, submits⟩
  · obtain ⟨ret, nothing⟩ := @aioSegments_empty b dev pos segs maps empty
    refine ⟨_, nothing 0 e, ?_⟩
    intro late
    rw [flatMap_content_empty lengths empty]
    rfl
  · obtain ⟨k, same⟩ := submits 0 e
    have room : (sgt.pieces b).length ≤ dev.cfg.descMax := by
      rw [sgt.pieces_length]
      exact fits seg member pages sgt filled mapped
    obtain ⟨r, runs, kept⟩ := @nowaitLoop_kept dev.cfg k e ⟨sgt.pieces b, 0, pos.toNat⟩ cursor room
    refine ⟨{ r with ret }, ?_, ?_⟩
    · rw [same, runs]
      rfl
    · intro late
      have built := (nowaitLoop_built cursor runs).1
      have fetched : r.transfers.flatMap (fun q => q.fetched late r.engine.ring) =
          r.transfers.flatMap QueuedTransfer.descs := List.flatMap_congr (kept late)
      show placed memory (r.transfers.flatMap fun q => q.fetched late r.engine.ring) = _
      rw [fetched, built, placed_descriptors moving]
      show pairUp (((sgt.pieces b).flatMap SwDesc.bytes).map memory) pos.toNat = _
      rw [sgt.pieces_bytes, (holds seg member).read pages sgt filled mapped, bytes content lengths]

/-- The first address of a transfer that is fetched late is that of the descriptor now in its first slot. -/
theorem deviceAddrs_late {r : Queued} {q : QueuedTransfer} {later : List QueuedTransfer}
    (transfers : r.transfers = q :: later) (nonempty : 0 < q.descs.length)
    (bytes : 0 < (r.engine.ring q.descIndex).bytes) :
    (r.deviceAddrs fun _ _ => true).head? = some ((r.engine.ring q.descIndex).epAddr % 2 ^ 64) := by
  cases descs : q.descs with
  | nil => simp [descs] at nonempty
  | cons desc rest =>
    have first : q.fetched (fun _ _ => true) r.engine.ring =
        r.engine.ring q.descIndex :: rest.mapIdx fun j _ => r.engine.ring (q.descIndex + (j + 1)) := by
      rw [QueuedTransfer.fetched, descs, List.mapIdx_cons]
      rfl
    rw [Queued.deviceAddrs, transfers, List.flatMap_cons, first, Xdma.deviceAddrs, List.cons_append,
      List.flatMap_cons, List.head?_append, byteRun_head bytes]
    rfl

theorem Mapped.total {seg : Iovec} {pages : List SgPage} {sgt : MappedSg} (maps : Mapped b dev seg)
    (short : seg.iovLen < 2 ^ 31) (filled : charSgdmaMapUserBufToSgl seg.iovBase seg.iovLen = .ok pages)
    (mapped : dev.pciMapSg seg.iovBase pages = some sgt) : sgt.totalLen = seg.iovLen := by
  obtain ⟨other, same, total, -⟩ := maps pages filled
  rw [mapped] at same
  cases same
  rcases mapUserBuf_cases seg short with ⟨-, -, refused⟩ | ⟨-, others, filled', sum⟩
  · rw [filled] at refused
    cases refused
  · rw [filled] at filled'
    cases filled'
    exact total.trans sum

theorem iovLen_le_sum {seg : Iovec} (member : seg ∈ segs) : seg.iovLen ≤ (segs.map Iovec.iovLen).sum := by
  obtain ⟨front, back, rfl⟩ := List.append_of_mem member
  rw [List.map_append, List.map_cons, List.sum_append, List.sum_cons]
  omega

theorem MappedSg.take_pieces_pos (sgt : MappedSg) {n : Nat} (positive : 0 < n) (long : n < (sgt.pieces b).length) :
    0 < (((sgt.pieces b).take n).map SwDesc.len).sum := by
  cases pieces : sgt.pieces b with
  | nil => simp [pieces] at long
  | cons piece rest =>
    obtain ⟨m, rfl⟩ := Nat.exists_eq_succ_of_ne_zero positive.ne'
    have some := (sgt.pieces_len piece (pieces ▸ List.mem_cons_self)).1
    rw [List.take_succ_cons, List.map_cons, List.sum_cons]
    omega

theorem MappedSg.take_pieces_le (sgt : MappedSg) (n : Nat) :
    (((sgt.pieces b).take n).map SwDesc.len).sum ≤ sgt.totalLen := by
  have whole := congrArg (fun pieces => (pieces.map SwDesc.len).sum) (List.take_append_drop n (sgt.pieces b))
  simp only [List.map_append, List.sum_append, sgt.pieces_sum] at whole
  omega

/-- A segment of more descriptors than the ring has may have its first one overwritten before it is fetched. -/
theorem aioSegments_overwritten {r : Queued} (moving : dev.cfg.nonIncrAddr = false)
    (cursor : e.descIdx < dev.cfg.descMax) (one : OneSegment segs) (maps : ∀ seg ∈ segs, Mapped b dev seg)
    (short : ∀ seg ∈ segs, seg.iovLen < 2 ^ 31)
    (aligned : ∀ seg ∈ segs, checkTransferAlign dev seg.iovBase seg.iovLen pos true = 0)
    (runs : aioSegments b dev pos 0 e segs = .ok r)
    (covers : r.deviceAddrs (fun _ _ => true) = byteRun pos.toNat (segs.map Iovec.iovLen).sum) :
    ∀ seg ∈ segs, FitsRing b dev seg := by
  intro seg member pages sgt filled mapped
  have total := (maps seg member).total (short seg member) filled mapped
  rw [← sgt.pieces_length]
  by_contra long
  have bytes : seg.iovLen ≠ 0 := by
    intro none
    simp [MappedSg.pieces_nil (total.trans none)] at long
  rcases aioSegments_one one maps short aligned with
    empty | ⟨found, -, -, only, -, pages', sgt', ret, filled', mapped', -, submits⟩
  · exact bytes (empty seg member)
  cases only seg member bytes
  rw [filled] at filled'
  cases filled'
  rw [mapped] at mapped'
  cases mapped'
  obtain ⟨k, same⟩ := submits 0 e
  rw [same] at runs
  cases first : nowaitLoop dev.cfg k 2 0 e ⟨sgt.pieces b, 0, pos.toNat⟩ with
  | error fault =>
    rw [first] at runs
    cases runs
  | ok queued =>
    rw [first] at runs
    cases runs
    obtain ⟨q, later, transfers, nonempty, overwritten⟩ :=
      @nowaitLoop_overwritten dev.cfg k e ⟨sgt.pieces b, 0, pos.toNat⟩ queued cursor (not_le.mp long) first
    obtain ⟨desc, place, len, epAddr⟩ :=
      descriptors_getElem moving (sgt.pieces b) pos.toNat dev.cfg.descMax pos.isLt (not_le.mp long)
    have slot : queued.engine.ring q.descIndex = desc := Option.some.inj (overwritten.symm.trans place)
    have some : 0 < desc.bytes := by
      rw [len]
      exact (sgt.pieces_len _ (List.getElem_mem _)).1
    have head := @deviceAddrs_late { queued with ret } q later transfers nonempty (by rw [slot]; exact some)
    have some_bytes := iovLen_le_sum member
    rw [covers, byteRun_head (by omega)] at head
    have wraps := Option.some.inj head
    -- The pieces before this descriptor have some bytes, but less than the address space.
    have before := sgt.take_pieces_pos dev.cfg.descMax_pos (not_le.mp long)
    have most := @MappedSg.take_pieces_le b sgt dev.cfg.descMax
    have small := short seg member
    have wide := pos.isLt
    have slotAddr : (queued.engine.ring q.descIndex).epAddr = _ := (congrArg Descriptor.epAddr slot).trans epAddr
    simp only [slotAddr] at wraps
    omega

theorem charSgdmaWrite_placed (moving : dev.cfg.nonIncrAddr = false) (h2c : dev.cfg.dir = .toDevice)
    (cursor : e.descIdx < dev.cfg.descMax) {whole : Iovec} (maps : Mapped b dev whole)
    (holds : Holds dev memory whole (content whole)) (short : whole.iovLen < 2 ^ 31)
    (aligned : checkTransferAlign dev whole.iovBase whole.iovLen pos true = 0) :
    ∃ s, charSgdmaWrite b dev (fun _ => .completed) e whole pos = .ok s ∧
      placed memory s.completed = pairUp (content whole) pos.toNat := by
  have dir : ¬ dev.cfg.dir ≠ transferDir true := by simp [h2c, transferDir]
  rcases mapUserBuf_cases whole short with ⟨empty, -, refused⟩ | ⟨-, pages, filled, total⟩
  · refine ⟨⟨[], -einval⟩, ?_, ?_⟩
    · simp [charSgdmaWrite, charSgdmaReadWrite, dir, aligned, refused]
    · rw [List.eq_nil_of_length_eq_zero (holds.length.trans empty)]
      rfl
  · obtain ⟨sgt, mapped, len, fits⟩ := maps pages filled
    obtain ⟨s, runs, carried⟩ := @xdmaXferSubmit_carried b dev.cfg sgt pos e (fun _ => .completed) cursor fits
    refine ⟨s, ?_, ?_⟩
    · simp only [charSgdmaWrite, charSgdmaReadWrite, dir, aligned, filled, mapped, runs, if_false, ne_eq,
        not_true_eq_false]
    · have all : ∀ xfer ∈ s.transfers, xfer.outcome = .completed := by
        intro xfer member
        exact (carried.outcomes xfer member).choose_spec
      rw [(carried.whole all).1, placed_descriptors moving, sgt.pieces_bytes, holds.read pages sgt filled mapped]

theorem cdevAioWrite_agrees (moving : dev.cfg.nonIncrAddr = false) (h2c : dev.cfg.dir = .toDevice)
    (cursor : e.descIdx < dev.cfg.descMax) {whole : Iovec} (concat : content whole = segs.flatMap content)
    (holds : ∀ buf ∈ whole :: segs, Holds dev memory buf (content buf))
    (small : whole.iovLen < 2 ^ 31) (maps : ∀ buf ∈ whole :: segs, Mapped b dev buf)
    (aligned : ∀ buf ∈ whole :: segs, checkTransferAlign dev buf.iovBase buf.iovLen pos true = 0) :
    WritesAgree memory (cdevAioWrite b dev e segs pos) (charSgdmaWrite b dev (fun _ => .completed) e whole pos) ↔
      OneSegment segs ∧ ∀ seg ∈ segs, FitsRing b dev seg := by
  have segMaps : ∀ seg ∈ segs, Mapped b dev seg := fun seg member => maps seg (List.mem_cons_of_mem _ member)
  have segHolds : ∀ seg ∈ segs, Holds dev memory seg (content seg) :=
    fun seg member => holds seg (List.mem_cons_of_mem _ member)
  have segAligned : ∀ seg ∈ segs, checkTransferAlign dev seg.iovBase seg.iovLen pos true = 0 :=
    fun seg member => aligned seg (List.mem_cons_of_mem _ member)
  have wholeHolds := holds whole List.mem_cons_self
  have total : whole.iovLen = (segs.map Iovec.iovLen).sum := by rw [← wholeHolds.length, concat, Holds.sum segHolds]
  have short : ∀ seg ∈ segs, seg.iovLen < 2 ^ 31 := by
    intro seg member
    have le := iovLen_le_sum member
    omega
  have dir : cdevAioWrite b dev e segs pos = aioSegments b dev pos 0 e segs := by
    simp [cdevAioWrite, cdevAio, h2c, transferDir]
  obtain ⟨s, plain, put⟩ := charSgdmaWrite_placed moving h2c cursor (maps whole List.mem_cons_self) wholeHolds small
    (aligned whole List.mem_cons_self)
  rw [dir]
  constructor
  · intro agrees
    obtain ⟨r, s', runs, plain', agree⟩ := agrees
    rw [plain] at plain'
    cases plain'
    have addrs : ∀ late, r.deviceAddrs late = byteRun pos.toNat (segs.map Iovec.iovLen).sum := by
      intro late
      rw [WritesAgree.addrs late (agree late), ← placed_addrs memory, put, pairUp_addrs, wholeHolds.length, total]
    have atOnce := addrs fun _ _ => false
    rw [deviceAddrs_atOnce, aioSegments_built moving cursor segMaps short runs] at atOnce
    have one := oneSegment_of_runs (by omega) segAligned atOnce
    exact ⟨one, aioSegments_overwritten moving cursor one segMaps short segAligned runs (addrs fun _ _ => true)⟩
  · intro both
    obtain ⟨one, fits⟩ := both
    obtain ⟨r, runs, late⟩ := aioSegments_whole moving cursor segHolds one segMaps short segAligned fits
    refine ⟨r, s, runs, plain, ?_⟩
    intro fetch
    rw [late, put, concat]

theorem aioSegments_agrees_empty {entry : BitVec 64} {whole : Iovec} {s : Submitted}
    (segMaps : ∀ seg ∈ segs, Mapped b dev seg) (empty : ∀ seg ∈ segs, seg.iovLen = 0) (none : content whole = [])
    (plain : charSgdmaWrite b dev (fun _ => .completed) e whole pos = .ok s)
    (put : placed memory s.completed = pairUp (content whole) pos.toNat) :
    WritesAgree memory (aioSegments b dev entry 0 e segs)
      (charSgdmaWrite b dev (fun _ => .completed) e whole pos) := by
  obtain ⟨ret, nothing⟩ := @aioSegments_empty b dev entry segs segMaps empty
  refine ⟨⟨e, [], ret⟩, s, nothing 0 e, plain, ?_⟩
  intro late
  rw [put, none]
  rfl

/-- The first byte of a vectored write goes to the position it is called with. -/
theorem entry_of_agrees {entry : BitVec 64} {whole : Iovec} (moving : dev.cfg.nonIncrAddr = false)
    (cursor : e.descIdx < dev.cfg.descMax) (segMaps : ∀ seg ∈ segs, Mapped b dev seg)
    (short : ∀ seg ∈ segs, seg.iovLen < 2 ^ 31) (some : content whole ≠ []) {s : Submitted}
    (plain : charSgdmaWrite b dev (fun _ => .completed) e whole pos = .ok s)
    (put : placed memory s.completed = pairUp (content whole) pos.toNat)
    (agree : WritesAgree memory (aioSegments b dev entry 0 e segs)
      (charSgdmaWrite b dev (fun _ => .completed) e whole pos)) : pos = entry := by
  obtain ⟨r, s', runs, plain', late⟩ := agree
  rw [plain] at plain'
  cases plain'
  have atOnce := WritesAgree.addrs (fun _ _ => false) (late fun _ _ => false)
  rw [deviceAddrs_atOnce, aioSegments_built moving cursor segMaps short runs, ← placed_addrs memory, put,
    pairUp_addrs] at atOnce
  have head := @byteRun_head pos.toNat _ (List.length_pos_of_ne_nil some)
  rcases runs_head entry.toNat (segs.takeWhile (Reached dev entry)) with nothing | first
  · rw [nothing] at atOnce
    rw [← atOnce] at head
    cases head
  · rw [atOnce, head] at first
    have wraps := Option.some.inj first
    rw [Nat.mod_eq_of_lt pos.isLt, Nat.mod_eq_of_lt entry.isLt] at wraps
    exact BitVec.eq_of_toNat_eq wraps

theorem cdevWriteIter_agrees (moving : dev.cfg.nonIncrAddr = false) (h2c : dev.cfg.dir = .toDevice)
    (cursor : e.descIdx < dev.cfg.descMax) {whole : Iovec} (concat : content whole = segs.flatMap content)
    (holds : ∀ buf ∈ whole :: segs, Holds dev memory buf (content buf))
    (small : whole.iovLen < 2 ^ 31) (maps : ∀ buf ∈ whole :: segs, Mapped b dev buf)
    (aligned : ∀ buf ∈ whole :: segs, checkTransferAlign dev buf.iovBase buf.iovLen pos true = 0) :
    WritesAgree memory (cdevWriteIter b dev e pos (iovIterInit segs))
        (charSgdmaWrite b dev (fun _ => .completed) e whole pos) ↔
      (OneSegment segs ∧ ∀ seg ∈ segs, FitsRing b dev seg) ∧ (whole.iovLen ≠ 0 → pos = 0) := by
  have aio := cdevAioWrite_agrees moving h2c cursor concat holds small maps aligned
  have segMaps : ∀ seg ∈ segs, Mapped b dev seg := fun seg member => maps seg (List.mem_cons_of_mem _ member)
  have wholeHolds := holds whole List.mem_cons_self
  have total : whole.iovLen = (segs.map Iovec.iovLen).sum := by
    rw [← wholeHolds.length, concat, Holds.sum fun seg member => holds seg (List.mem_cons_of_mem _ member)]
  have direct : ∀ entry, cdevAioWrite b dev e segs entry = aioSegments b dev entry 0 e segs := by
    intro entry
    simp [cdevAioWrite, cdevAio, h2c, transferDir]
  have iter : cdevWriteIter b dev e pos (iovIterInit segs) = aioSegments b dev 0 0 e segs := direct 0
  obtain ⟨s, plain, put⟩ := charSgdmaWrite_placed moving h2c cursor (maps whole List.mem_cons_self) wholeHolds small
    (aligned whole List.mem_cons_self)
  rw [iter]
  rw [direct] at aio
  by_cases none : whole.iovLen = 0
  · have empty := sum_len_eq_zero.mp (total.symm.trans none)
    have nothing := List.eq_nil_of_length_eq_zero (wholeHolds.length.trans none)
    have one := aio.mp (aioSegments_agrees_empty segMaps empty nothing plain put)
    have agree := @aioSegments_agrees_empty b dev pos e segs memory content 0 whole s segMaps empty nothing plain put
    exact ⟨fun _ => ⟨one, fun bytes => absurd none bytes⟩, fun _ => agree⟩
  · have short : ∀ seg ∈ segs, seg.iovLen < 2 ^ 31 := by
      intro seg member
      have le := iovLen_le_sum member
      omega
    have some : content whole ≠ [] := by
      intro nothing
      exact none (by rw [← wholeHolds.length, nothing, List.length_nil])
    constructor
    · intro agree
      have start := entry_of_agrees moving cursor segMaps short some plain put agree
      subst start
      exact ⟨aio.mp agree, fun _ => rfl⟩
    · intro both
      obtain ⟨one, zero⟩ := both
      have start := zero none
      subst start
      exact aio.mpr one

/-- A vectored write agrees with a plain write of the same bytes exactly if it has one segment, of no more descriptors
    than the ring has; through `write_iter`, exactly if also the file position is 0. -/
theorem writes_agree_iff (moving : dev.cfg.nonIncrAddr = false) (h2c : dev.cfg.dir = .toDevice)
    (cursor : e.descIdx < dev.cfg.descMax) {whole : Iovec} (concat : content whole = segs.flatMap content)
    (holds : ∀ buf ∈ whole :: segs, Holds dev memory buf (content buf))
    (small : whole.iovLen < 2 ^ 31) (maps : ∀ buf ∈ whole :: segs, Mapped b dev buf)
    (aligned : ∀ buf ∈ whole :: segs, checkTransferAlign dev buf.iovBase buf.iovLen pos true = 0) :
    (WritesAgree memory (cdevAioWrite b dev e segs pos) (charSgdmaWrite b dev (fun _ => .completed) e whole pos) ↔
        OneSegment segs ∧ ∀ seg ∈ segs, FitsRing b dev seg) ∧
      (WritesAgree memory (cdevWriteIter b dev e pos (iovIterInit segs))
          (charSgdmaWrite b dev (fun _ => .completed) e whole pos) ↔
        (OneSegment segs ∧ ∀ seg ∈ segs, FitsRing b dev seg) ∧ (whole.iovLen ≠ 0 → pos = 0)) := by
  constructor
  · exact cdevAioWrite_agrees moving h2c cursor concat holds small maps aligned
  · exact cdevWriteIter_agrees moving h2c cursor concat holds small maps aligned

end Agreement

def mapEachPage (buf : Nat) (pages : List SgPage) : Option MappedSg :=
  if valid : pages ≠ [] ∧ pages.length < 2 ^ 31 then
    some
      { entries := pages.map fun pg =>
          ⟨BitVec.ofNat 64 (0x100000 + buf / pageSize * pageSize + pg.page * pageSize + pg.offset),
            BitVec.ofNat 32 pg.length⟩
        mapped := by simp [valid.1]
        nents_lt := by simpa using valid.2 }
  else none

def h2cChannel : CharDevice where
  cfg := mmEngine
  addrAlign := 64
  lenGranularity := 1
  pciMapSg := mapEachPage

def countingMemory (addr : Nat) : BitVec 8 := BitVec.ofNat 8 addr

def countingBytes (buf : Iovec) : List (BitVec 8) :=
  (List.range buf.iovLen).map fun k => BitVec.ofNat 8 (buf.iovBase + k)

def lineBuffer : Iovec := ⟨0x10000, 64, by decide⟩

def otherLineBuffer : Iovec := ⟨0x20000, 64, by decide⟩

def nextLineBuffer : Iovec := ⟨0x20040, 64, by decide⟩

def twoLineBuffer : Iovec := ⟨0x30000, 128, by decide⟩

theorem mapUserBuf_page {buf len : Nat} (some : 0 < len) (fits : buf % pageSize + len ≤ pageSize) :
    charSgdmaMapUserBufToSgl buf len = .ok [⟨0, buf % pageSize, len⟩] := by
  have size : pageSize = 4096 := rfl
  have one : pagesNr buf len = 1 := by
    rw [size] at fits
    simp only [pagesNr, size]
    omega
  have short : len % 2 ^ 32 = len := by omega
  have all : min (pageSize - buf % pageSize) len = len := by omega
  rw [charSgdmaMapUserBufToSgl, one]
  simp only [fillPages, short, all, Nat.sub_self]
  rfl

/-- A buffer within one page is mapped, and holds what its one entry covers. -/
theorem mapped_of_page {buf : Iovec} {sgt : MappedSg} (some : 0 < buf.iovLen)
    (page : buf.iovBase % pageSize + buf.iovLen ≤ pageSize)
    (maps : mapEachPage buf.iovBase [⟨0, buf.iovBase % pageSize, buf.iovLen⟩] = .some sgt)
    (total : sgt.totalLen = buf.iovLen) (fits : TableFits usualBuild sgt)
    (bytes : sgt.bytes.map countingMemory = countingBytes buf) :
    Mapped usualBuild h2cChannel buf ∧ Holds h2cChannel countingMemory buf (countingBytes buf) := by
  constructor
  · intro pages same
    rw [mapUserBuf_page some page] at same
    cases same
    exact ⟨sgt, maps, by simpa using total, fits⟩
  · refine ⟨by simp [countingBytes], ?_⟩
    intro pages other same mapped
    rw [mapUserBuf_page some page] at same
    cases same
    have found : h2cChannel.pciMapSg buf.iovBase [⟨0, buf.iovBase % pageSize, buf.iovLen⟩] = .some sgt := maps
    rw [found] at mapped
    cases mapped
    exact bytes

theorem lineBuffer_mapped :
    Mapped usualBuild h2cChannel lineBuffer ∧ Holds h2cChannel countingMemory lineBuffer (countingBytes lineBuffer) :=
  mapped_of_page (by decide) (by decide) rfl (by decide) ⟨by decide, by decide⟩ (by decide)

theorem otherLineBuffer_mapped : Mapped usualBuild h2cChannel otherLineBuffer ∧
    Holds h2cChannel countingMemory otherLineBuffer (countingBytes otherLineBuffer) :=
  mapped_of_page (by decide) (by decide) rfl (by decide) ⟨by decide, by decide⟩ (by decide)

theorem nextLineBuffer_mapped : Mapped usualBuild h2cChannel nextLineBuffer ∧
    Holds h2cChannel countingMemory nextLineBuffer (countingBytes nextLineBuffer) :=
  mapped_of_page (by decide) (by decide) rfl (by decide) ⟨by decide, by decide⟩ (by decide)

theorem twoLineBuffer_mapped : Mapped usualBuild h2cChannel twoLineBuffer ∧
    Holds h2cChannel countingMemory twoLineBuffer (countingBytes twoLineBuffer) :=
  mapped_of_page (by decide) (by decide) rfl (by decide) ⟨by decide, by decide⟩ (by decide)

theorem lineBuffer_agrees :
    lineBuffer.iovLen < 2 ^ 31 ∧
      WritesAgree countingMemory (cdevAioWrite usualBuild h2cChannel idleDriver.engine [lineBuffer] 0)
        (charSgdmaWrite usualBuild h2cChannel (fun _ => .completed) idleDriver.engine otherLineBuffer 0) ∧
      WritesAgree countingMemory (cdevWriteIter usualBuild h2cChannel idleDriver.engine 0 (iovIterInit [lineBuffer]))
        (charSgdmaWrite usualBuild h2cChannel (fun _ => .completed) idleDriver.engine otherLineBuffer 0) := by
  have cursor : idleDriver.engine.descIdx < h2cChannel.cfg.descMax := by decide
  have maps : ∀ buf ∈ [otherLineBuffer, lineBuffer], Mapped usualBuild h2cChannel buf := by
    simp [otherLineBuffer_mapped, lineBuffer_mapped]
  have holds : ∀ buf ∈ [otherLineBuffer, lineBuffer], Holds h2cChannel countingMemory buf (countingBytes buf) := by
    simp [otherLineBuffer_mapped, lineBuffer_mapped]
  have aligned : ∀ buf ∈ [otherLineBuffer, lineBuffer],
      checkTransferAlign h2cChannel buf.iovBase buf.iovLen 0 true = 0 := by decide
  have one : OneSegment [lineBuffer] := List.pairwise_singleton _ _
  have fits : ∀ seg ∈ [lineBuffer], FitsRing usualBuild h2cChannel seg := by
    intro seg member pages sgt filled mapped
    rw [List.mem_singleton.mp member, mapUserBuf_page (by decide) (by decide)] at filled
    cases filled
    rw [List.mem_singleton.mp member] at mapped
    cases mapped
    decide
  obtain ⟨aio, iter⟩ := @writes_agree_iff usualBuild h2cChannel 0 idleDriver.engine [lineBuffer] countingMemory
    countingBytes rfl rfl cursor otherLineBuffer (by decide) holds (by decide) maps aligned
  exact ⟨by decide, aio.mpr ⟨one, fits⟩, iter.mpr ⟨⟨one, fits⟩, fun _ => rfl⟩⟩

/-- Two segments at position 0: the second goes to address 0 as well. -/
theorem twoSegments_disagree :
    countingBytes twoLineBuffer = [lineBuffer, nextLineBuffer].flatMap countingBytes ∧
      (∀ buf ∈ [twoLineBuffer, lineBuffer, nextLineBuffer],
        checkTransferAlign h2cChannel buf.iovBase buf.iovLen 0 true = 0) ∧
      ¬ WritesAgree countingMemory (cdevAioWrite usualBuild h2cChannel idleDriver.engine [lineBuffer, nextLineBuffer] 0)
        (charSgdmaWrite usualBuild h2cChannel (fun _ => .completed) idleDriver.engine twoLineBuffer 0) ∧
      ¬ WritesAgree countingMemory
        (cdevWriteIter usualBuild h2cChannel idleDriver.engine 0 (iovIterInit [lineBuffer, nextLineBuffer]))
        (charSgdmaWrite usualBuild h2cChannel (fun _ => .completed) idleDriver.engine twoLineBuffer 0) := by
  have cursor : idleDriver.engine.descIdx < h2cChannel.cfg.descMax := by decide
  have concat : countingBytes twoLineBuffer = [lineBuffer, nextLineBuffer].flatMap countingBytes := by decide
  have maps : ∀ buf ∈ [twoLineBuffer, lineBuffer, nextLineBuffer], Mapped usualBuild h2cChannel buf := by
    simp [twoLineBuffer_mapped, lineBuffer_mapped, nextLineBuffer_mapped]
  have holds : ∀ buf ∈ [twoLineBuffer, lineBuffer, nextLineBuffer],
      Holds h2cChannel countingMemory buf (countingBytes buf) := by
    simp [twoLineBuffer_mapped, lineBuffer_mapped, nextLineBuffer_mapped]
  have aligned : ∀ buf ∈ [twoLineBuffer, lineBuffer, nextLineBuffer],
      checkTransferAlign h2cChannel buf.iovBase buf.iovLen 0 true = 0 := by decide
  have two : ¬ OneSegment [lineBuffer, nextLineBuffer] := by
    intro one
    have none := List.rel_of_pairwise_cons one List.mem_cons_self (.inl (by decide))
    exact absurd none (by decide)
  have disagree : ¬ WritesAgree countingMemory
      (cdevAioWrite usualBuild h2cChannel idleDriver.engine [lineBuffer, nextLineBuffer] 0)
      (charSgdmaWrite usualBuild h2cChannel (fun _ => .completed) idleDriver.engine twoLineBuffer 0) := by
    intro agree
    exact two ((cdevAioWrite_agrees rfl rfl cursor concat holds (by decide) maps aligned).mp agree).1
  exact ⟨concat, aligned, disagree, disagree⟩

end CigCard.Xdma
