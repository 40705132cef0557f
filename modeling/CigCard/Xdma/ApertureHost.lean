import CigCard.Xdma.Aperture
import CigCard.Xdma.ByteExact

namespace CigCard.Xdma

def Pass.Overshoots (w : Window) (pass : Pass) : Prop := CigCard.Xdma.Overshoots w pass.epAddr pass.tlen

instance (w : Window) (pass : Pass) : Decidable (pass.Overshoots w) :=
  inferInstanceAs (Decidable (CigCard.Xdma.Overshoots _ _ _))

def passBytes (passes : List Pass) : List Nat := passes.flatMap fun pass => pass.desc.hostBytes

section Entries

variable {w : Window}

/-- What the `while` loop has done to an entry, at the end of it or of the ring. -/
structure CutsOff (room : Nat) (c : Cursor) (addr tlen : Nat) (cut : Cut) : Prop where
  rest_le : cut.tlen ≤ tlen
  bytes : passBytes cut.passes ++ byteRun ((addr + (tlen - cut.tlen)) % 2 ^ 64) cut.tlen = byteRun addr tlen
  offset : cut.cursor.offset = c.offset + (tlen - cut.tlen)
  sgOffset : cut.cursor.sgOffset = c.sgOffset + (tlen - cut.tlen)
  room : cut.room + cut.passes.length = room
  ended : cut.tlen = 0 ∨ cut.room = 0

theorem CutsOff.nothing {room : Nat} {c : Cursor} {addr tlen : Nat} (low : addr < 2 ^ 64) (ended : tlen = 0 ∨ room = 0) :
    CutsOff room c addr tlen ⟨[], c, tlen, room⟩ := by
  refine ⟨Nat.le_refl _, ?_, ?_, ?_, rfl, ended⟩
  · simp only [Nat.sub_self, Nat.add_zero, Nat.mod_eq_of_lt low]
    rfl
  · simp
  · simp

theorem CutsOff.cons {room : Nat} {c next : Cursor} {addr tlen : Nat} {pass : Pass} {cut : Cut}
    (host : pass.desc.hostAddr = addr) (fits : pass.desc.bytes ≤ tlen) (offset : next.offset = c.offset + pass.desc.bytes)
    (sgOffset : next.sgOffset = c.sgOffset + pass.desc.bytes)
    (rest : CutsOff room next ((addr + pass.desc.bytes) % 2 ^ 64) (tlen - pass.desc.bytes) cut) :
    CutsOff (room + 1) c addr tlen { cut with passes := pass :: cut.passes } := by
  have less := rest.rest_le
  refine ⟨Nat.le_trans less (Nat.sub_le _ _), ?_, ?_, ?_, ?_, rest.ended⟩
  · have place : ((addr + pass.desc.bytes) % 2 ^ 64 + (tlen - pass.desc.bytes - cut.tlen)) % 2 ^ 64 =
        (addr + (tlen - cut.tlen)) % 2 ^ 64 := by omega
    have whole : pass.desc.bytes + (tlen - pass.desc.bytes) = tlen := by omega
    have bytes := rest.bytes
    rw [place] at bytes
    rw [passBytes, List.flatMap_cons, List.append_assoc]
    change _ ++ (passBytes cut.passes ++ _) = _
    rw [bytes, Descriptor.hostBytes, host, byteRun_append, whole]
  · have moved := rest.offset
    dsimp only
    omega
  · have moved := rest.sgOffset
    dsimp only
    omega
  · have used := rest.room
    dsimp only [List.length_cons]
    omega

theorem cutEntry_cutsOff (positive : 0 < w.aperture) (room : Nat) (c : Cursor) (addr tlen : Nat) (low : addr < 2 ^ 64)
    (offset : c.offset + tlen < 2 ^ 32) (sgOffset : c.sgOffset + tlen < 2 ^ 32)
    (fine : ∀ pass ∈ (cutEntry w room c addr tlen).passes, ¬ pass.Overshoots w) :
    CutsOff room c addr tlen (cutEntry w room c addr tlen) := by
  induction room generalizing c addr tlen with
  | zero => exact .nothing low (.inr rfl)
  | succ room ih =>
    unfold cutEntry at fine ⊢
    split
    · next done => exact .nothing low (.inl done)
    · next more =>
      rw [if_neg more] at fine
      obtain ⟨fine_here, fine⟩ := List.forall_mem_cons.mp fine
      have fits : (cutPiece w c.epAddr addr tlen).bytes ≤ tlen := by
        apply Nat.le_of_not_lt
        exact fun exceeds => fine_here ((cutPiece_overshoots positive).mp exceeds)
      generalize piece : cutPiece w c.epAddr addr tlen = desc at fine fits
      have host : desc.hostAddr = addr := by
        rw [← piece]
        rfl
      have left : (tlen + 2 ^ 32 - desc.bytes) % 2 ^ 32 = tlen - desc.bytes := by omega
      dsimp only at fine ⊢
      rw [left] at fine ⊢
      have offset_next : (c.offset + desc.bytes) % 2 ^ 32 = c.offset + desc.bytes := Nat.mod_eq_of_lt (by omega)
      have sgOffset_next : (c.sgOffset + desc.bytes) % 2 ^ 32 = c.sgOffset + desc.bytes := Nat.mod_eq_of_lt (by omega)
      have rest := ih _ _ _ (Nat.mod_lt _ (by decide)) (by dsimp only; omega) (by dsimp only; omega) fine
      exact CutsOff.cons host fits offset_next sgOffset_next rest

theorem CutsOff.length {room : Nat} {c : Cursor} {addr tlen : Nat} {cut : Cut} (cuts : CutsOff room c addr tlen cut) :
    (passBytes cut.passes).length = tlen - cut.tlen := by
  have lengths := congrArg List.length cuts.bytes
  rw [List.length_append, byteRun_length, byteRun_length] at lengths
  omega

def bytesFrom : List SgEntry → Nat → List Nat
  | [], _ => []
  | entry :: sg, offset =>
    byteRun ((entry.dmaAddress.toNat + offset) % 2 ^ 64) (entry.dmaLen.toNat - offset) ++ sg.flatMap SgEntry.bytes

theorem bytesFrom_zero (sg : List SgEntry) : bytesFrom sg 0 = sg.flatMap SgEntry.bytes := by
  cases sg with
  | nil => rfl
  | cons entry sg =>
    rw [bytesFrom, Nat.add_zero, Nat.mod_eq_of_lt entry.dmaAddress.isLt, List.flatMap_cons]
    rfl

def OffsetInside (sg : List SgEntry) (offset : Nat) : Prop :=
  offset = 0 ∨ ∃ entry ∈ sg.head?, offset < entry.dmaLen.toNat

theorem OffsetInside.le {entry : SgEntry} {sg : List SgEntry} {offset : Nat}
    (inside : OffsetInside (entry :: sg) offset) : offset ≤ entry.dmaLen.toNat := by
  rcases inside with zero | ⟨first, head, within⟩
  · omega
  · cases head
    omega

/-- What the `for` loop has done to the entries, at the end of these or of the ring. -/
structure Walked (sg : List SgEntry) (i room : Nat) (c : Cursor) (built : Built) : Prop where
  after : i ≤ built.sgIdx
  bytes : passBytes built.passes ++ bytesFrom (sg.drop (built.sgIdx - i)) built.cursor.sgOffset = bytesFrom sg c.sgOffset
  offset : built.cursor.offset = c.offset + (passBytes built.passes).length
  inside : OffsetInside (sg.drop (built.sgIdx - i)) built.cursor.sgOffset
  ended : bytesFrom (sg.drop (built.sgIdx - i)) built.cursor.sgOffset = [] ∨ built.passes.length = room

theorem Walked.nothing {sg : List SgEntry} {i room : Nat} {c : Cursor} (inside : OffsetInside sg c.sgOffset)
    (ended : sg = [] ∨ room = 0) : Walked sg i room c ⟨[], c, i⟩ := by
  have here : sg.drop (i - i) = sg := by rw [Nat.sub_self, List.drop_zero]
  refine ⟨Nat.le_refl i, ?_, rfl, ?_, ?_⟩
  · dsimp only
    rw [here]
    rfl
  · dsimp only
    rwa [here]
  · dsimp only
    rw [here]
    rcases ended with rfl | rfl
    · exact .inl rfl
    · exact .inr rfl

theorem Walked.cons {entry : SgEntry} {sg : List SgEntry} {i room : Nat} {c : Cursor} {cut : Cut} {built : Built}
    (cuts : CutsOff room c ((entry.dmaAddress.toNat + c.sgOffset) % 2 ^ 64) (entry.dmaLen.toNat - c.sgOffset) cut)
    (done : cut.tlen = 0) (rest : Walked sg (i + 1) cut.room { cut.cursor with sgOffset := 0 } built) :
    Walked (entry :: sg) i room c { built with passes := cut.passes ++ built.passes } := by
  have later := rest.after
  have next : (entry :: sg).drop (built.sgIdx - i) = sg.drop (built.sgIdx - (i + 1)) := by
    have succ : built.sgIdx - i = built.sgIdx - (i + 1) + 1 := by omega
    rw [succ, List.drop_succ_cons]
  have cut_bytes := cuts.bytes
  rw [done, byteRun, List.range_zero, List.map_nil, List.append_nil] at cut_bytes
  refine ⟨Nat.le_of_succ_le later, ?_, ?_, ?_, ?_⟩
  · dsimp only
    rw [next, passBytes, List.flatMap_append, List.append_assoc]
    change passBytes cut.passes ++ (passBytes built.passes ++ _) = _
    rw [rest.bytes, cut_bytes, bytesFrom_zero]
    rfl
  · have moved := cuts.offset
    have length := cuts.length
    have offset := rest.offset
    dsimp only at offset ⊢
    rw [passBytes, List.flatMap_append, List.length_append]
    change _ = c.offset + ((passBytes cut.passes).length + (passBytes built.passes).length)
    omega
  · dsimp only
    rw [next]
    exact rest.inside
  · dsimp only
    rw [next, List.length_append]
    have used := cuts.room
    rcases rest.ended with all | full
    · exact .inl all
    · exact .inr (by omega)

/-- The ring is full before the end of an entry. -/
theorem Walked.stop {entry : SgEntry} {sg : List SgEntry} {i room : Nat} {c : Cursor} {cut : Cut}
    (below : c.sgOffset ≤ entry.dmaLen.toNat)
    (cuts : CutsOff room c ((entry.dmaAddress.toNat + c.sgOffset) % 2 ^ 64) (entry.dmaLen.toNat - c.sgOffset) cut)
    (some_left : cut.tlen ≠ 0) : Walked (entry :: sg) i room c ⟨cut.passes, cut.cursor, i⟩ := by
  have here : (entry :: sg).drop (i - i) = entry :: sg := by rw [Nat.sub_self, List.drop_zero]
  have less := cuts.rest_le
  have moved := cuts.sgOffset
  have left : entry.dmaLen.toNat - cut.cursor.sgOffset = cut.tlen := by omega
  refine ⟨Nat.le_refl i, ?_, ?_, ?_, ?_⟩
  · have place : (entry.dmaAddress.toNat + cut.cursor.sgOffset) % 2 ^ 64 =
        ((entry.dmaAddress.toNat + c.sgOffset) % 2 ^ 64 + (entry.dmaLen.toNat - c.sgOffset - cut.tlen)) % 2 ^ 64 := by
      omega
    dsimp only
    rw [here, bytesFrom, bytesFrom, left, place, ← List.append_assoc, cuts.bytes]
  · rw [cuts.length]
    exact cuts.offset
  · dsimp only
    rw [here]
    exact .inr ⟨entry, rfl, by omega⟩
  · have used := cuts.room
    rcases cuts.ended with done | full
    · exact absurd done some_left
    · exact .inr (by dsimp only; omega)

theorem buildEntries_walked (positive : 0 < w.aperture) {sgMax : Nat} (sg : List SgEntry) (i room : Nat) (c : Cursor)
    (counted : i + sg.length = sgMax) (inside : OffsetInside sg c.sgOffset)
    (short : c.offset + (bytesFrom sg c.sgOffset).length < 2 ^ 32)
    (fine : ∀ pass ∈ (buildEntries w sgMax sg i room c).passes, ¬ pass.Overshoots w) :
    Walked sg i room c (buildEntries w sgMax sg i room c) := by
  induction sg generalizing i room c with
  | nil => exact .nothing inside (.inl rfl)
  | cons entry sg ih =>
    have more : i < sgMax := by
      rw [← counted, List.length_cons]
      omega
    unfold buildEntries at fine ⊢
    by_cases some_room : 0 < room
    · rw [if_pos ⟨more, some_room⟩] at fine ⊢
      have below := inside.le
      have bound := entry.dmaLen.isLt
      have left : (entry.dmaLen.toNat + 2 ^ 32 - c.sgOffset) % 2 ^ 32 = entry.dmaLen.toNat - c.sgOffset := by omega
      rw [left] at fine ⊢
      rw [bytesFrom, List.length_append, byteRun_length] at short
      have cuts := cutEntry_cutsOff positive room c ((entry.dmaAddress.toNat + c.sgOffset) % 2 ^ 64)
        (entry.dmaLen.toNat - c.sgOffset) (Nat.mod_lt _ (by decide)) (by omega) (by omega)
      dsimp only at fine ⊢
      generalize cutEntry w room c ((entry.dmaAddress.toNat + c.sgOffset) % 2 ^ 64)
        (entry.dmaLen.toNat - c.sgOffset) = cut at cuts fine ⊢
      split
      · next done =>
        rw [if_pos done] at fine
        replace cuts := cuts fun pass member => fine pass (List.mem_append_left _ member)
        have moved := cuts.offset
        have rest := ih (i + 1) cut.room { cut.cursor with sgOffset := 0 } (by rw [← counted, List.length_cons]; omega)
          (.inl rfl) (by rw [bytesFrom_zero]; dsimp only; omega)
          fun pass member => fine pass (List.mem_append_right _ member)
        exact rest.cons cuts done
      · next some_left =>
        rw [if_neg some_left] at fine
        exact .stop below (cuts fine) some_left
    · rw [if_neg (fun both => some_room both.2)]
      exact .nothing inside (.inr (Nat.eq_zero_of_not_pos some_room))

end Entries

section Rounds

variable {cfg : EngineConfig} {w : Window} {sg : List SgEntry} {req : ApertureRequest}

def restOf (sg : List SgEntry) (req : ApertureRequest) : List Nat := bytesFrom (sg.drop req.sgIdx) req.sgOffset

structure CursorsAgree (sg : List SgEntry) (req : ApertureRequest) : Prop where
  list : req.sg = sg
  offset : req.offset + (restOf sg req).length = req.totalLen
  total : req.totalLen = (sg.flatMap SgEntry.bytes).length
  short : req.totalLen < 2 ^ 32
  inside : OffsetInside (sg.drop req.sgIdx) req.sgOffset
  begun : req.sgIdx ≠ 0 → 0 < req.offset

theorem CursorsAgree.more_iff (agree : CursorsAgree sg req) : req.offset < req.totalLen ↔ restOf sg req ≠ [] := by
  rw [← List.length_pos_iff, ← agree.offset]
  omega

/-- What a pass of the loop over the transfers has built, where it finds the entry that it counts and cuts none of its
    pieces off the end of an entry. -/
structure Continues (sg : List SgEntry) (room : Nat) (req : ApertureRequest) (built : Built) : Prop where
  bytes : passBytes built.passes ++ restOf sg (req.advance built) = restOf sg req
  offset : built.cursor.offset = req.offset + (passBytes built.passes).length
  inside : OffsetInside (sg.drop built.sgIdx) built.cursor.sgOffset
  ended : restOf sg (req.advance built) = [] ∨ built.passes.length = room

theorem CursorsAgree.continues (positive : 0 < w.aperture) (agree : CursorsAgree sg req) (first : req.sgIdx = 0)
    (room : Nat) (fine : ∀ pass ∈ (buildTransfer w sg.length room req).passes, ¬ pass.Overshoots w) :
    Continues sg room req (buildTransfer w sg.length room req) := by
  have inside := agree.inside
  have total := agree.offset
  have short := agree.short
  unfold restOf at total
  unfold buildTransfer at fine ⊢
  rw [agree.list, first] at fine ⊢
  rw [first, List.drop_zero] at inside total
  have walked := buildEntries_walked positive sg 0 room
    ⟨req.offset, req.sgOffset, (w.epAddr + (req.offset &&& (w.aperture + 2 ^ 32 - 1) % 2 ^ 32)) % 2 ^ 64⟩
    (Nat.zero_add _) inside (by dsimp only; omega) fine
  refine ⟨?_, walked.offset, walked.inside, walked.ended⟩
  rw [restOf, restOf, first]
  exact walked.bytes

theorem passBytes_pos (positive : 0 < w.aperture) {passes : List Pass} (ofLoop : ∀ pass ∈ passes, pass.OfLoop w)
    (something : passes ≠ []) : 0 < (passBytes passes).length := by
  obtain ⟨pass, later, rfl⟩ := List.exists_cons_of_ne_nil something
  have some_bytes := (ofLoop pass (List.mem_cons_self ..)).pos positive
  rw [passBytes, List.flatMap_cons, List.length_append, Descriptor.hostBytes, byteRun_length]
  omega

theorem Continues.something {room : Nat} {built : Built} (continues : Continues sg room req built) (some_room : 0 < room)
    (left : restOf sg req ≠ []) : built.passes ≠ [] := by
  intro nothing
  have bytes := continues.bytes
  rw [nothing] at bytes
  rcases continues.ended with all | full
  · rw [all] at bytes
    exact left bytes.symm
  · rw [nothing] at full
    exact absurd full (Nat.ne_of_lt some_room)

theorem CursorsAgree.advance (agree : CursorsAgree sg req) {room : Nat} {built : Built}
    (continues : Continues sg room req built) (some_bytes : 0 < (passBytes built.passes).length) :
    CursorsAgree sg (req.advance built) := by
  refine ⟨agree.list, ?_, agree.total, agree.short, continues.inside, ?_⟩
  · have lengths := congrArg List.length continues.bytes
    have offset := continues.offset
    have total := agree.offset
    rw [List.length_append] at lengths
    change built.cursor.offset + _ = req.totalLen
    omega
  · intro _
    have offset := continues.offset
    change 0 < built.cursor.offset
    omega

/-- A pass of the loop over the transfers that moves the request on, and not past its end. -/
structure ApertureTransfer.Progresses (t : ApertureTransfer) : Prop where
  something : t.passes ≠ []
  positive : ∀ pass ∈ t.passes, 0 < pass.desc.bytes
  offset_lt : t.req.offset < t.next.offset
  offset_le : t.next.offset ≤ t.req.totalLen

def ApertureTransfer.InStep (w : Window) (t : ApertureTransfer) : Prop :=
  t.req.sgIdx = 0 ∧ ∀ pass ∈ t.passes, ¬ pass.Overshoots w

instance (w : Window) (t : ApertureTransfer) : Decidable (t.InStep w) := inferInstanceAs (Decidable (_ ∧ _))

def ApertureRun.descs (run : ApertureRun) : List Descriptor := run.transfers.flatMap fun t => t.xfer.descs

theorem nextTransfer_continues (positive : 0 < w.aperture) (agree : CursorsAgree sg req) {e : Engine}
    (cursor : e.descIdx < cfg.descMax) (more : req.offset < req.totalLen) (p : Ptr) (outcome : Outcome)
    (inStep : (nextTransfer cfg w sg.length outcome p e req).InStep w) :
    Continues sg (cfg.descMax - e.descIdx) req (buildTransfer w sg.length (cfg.descMax - e.descIdx) req) ∧
      CursorsAgree sg (req.advance (buildTransfer w sg.length (cfg.descMax - e.descIdx) req)) ∧
      (nextTransfer cfg w sg.length outcome p e req).Progresses := by
  have continues := agree.continues positive inStep.1 (cfg.descMax - e.descIdx) inStep.2
  have something := continues.something (Nat.sub_pos_of_lt cursor) (agree.more_iff.mp more)
  have ofLoop : ∀ pass ∈ (buildTransfer w sg.length (cfg.descMax - e.descIdx) req).passes, pass.OfLoop w :=
    buildEntries_ofLoop _ _ _ _
  have some_bytes := passBytes_pos positive ofLoop something
  have next := agree.advance continues some_bytes
  refine ⟨continues, next, something, fun pass member => (ofLoop pass member).pos positive, ?_, ?_⟩
  · have offset := continues.offset
    change req.offset < Cursor.offset _
    omega
  · have total := next.offset
    change Cursor.offset _ ≤ req.totalLen
    change Cursor.offset _ + _ = req.totalLen at total
    omega

theorem nextTransfer_hostBytes {sgMax : Nat} {e : Engine} (p : Ptr) (outcome : Outcome) :
    (nextTransfer cfg w sgMax outcome p e req).xfer.descs.flatMap Descriptor.hostBytes =
      passBytes (buildTransfer w sgMax (cfg.descMax - e.descIdx) req).passes := by
  unfold nextTransfer
  dsimp only
  rw [apertureInit_slots, Built.descs, List.flatMap_map]
  rfl

structure PassInStep (cfg : EngineConfig) (w : Window) (sg : List SgEntry) (p : Ptr) (fuel k : Nat) (e : Engine)
    (req : ApertureRequest) (run rest : ApertureRun) : Prop where
  run : run = { rest with transfers := nextTransfer cfg w sg.length .completed p e req :: rest.transfers }
  continues : Continues sg (cfg.descMax - e.descIdx) req (buildTransfer w sg.length (cfg.descMax - e.descIdx) req)
  agree : CursorsAgree sg (req.advance (buildTransfer w sg.length (cfg.descMax - e.descIdx) req))
  progresses : (nextTransfer cfg w sg.length .completed p e req).Progresses
  inStep : ∀ t ∈ rest.transfers, t.InStep w

theorem apertureLoop_inStep (positive : 0 < w.aperture) {p : Ptr} {fuel k done : Nat} {e : Engine}
    (agree : CursorsAgree sg req) (cursor : e.descIdx < cfg.descMax) (more : req.offset < req.totalLen)
    (inStep : ∀ t ∈ (apertureLoop cfg w sg.length (fun _ => .completed) p (fuel + 1) k done e req).transfers,
      t.InStep w) :
    ∃ (later : Nat) (idle : Engine), idle.descIdx < cfg.descMax ∧
      PassInStep cfg w sg p fuel k e req
        (apertureLoop cfg w sg.length (fun _ => .completed) p (fuel + 1) k done e req)
        (apertureLoop cfg w sg.length (fun _ => .completed) p fuel (k + 1) later idle
          (req.advance (buildTransfer w sg.length (cfg.descMax - e.descIdx) req))) := by
  by_cases something : (buildTransfer w sg.length (cfg.descMax - e.descIdx) req).passes = []
  · rw [apertureLoop_fault more something] at inStep
    have first := inStep _ (List.mem_singleton_self _)
    have inStep_next : (nextTransfer cfg w sg.length .completed p e req).InStep w := by
      refine ⟨first.1, ?_⟩
      change ∀ pass ∈ (buildTransfer w sg.length (cfg.descMax - e.descIdx) req).passes, _
      rw [something]
      exact List.forall_mem_nil _
    have progresses := (nextTransfer_continues positive agree cursor more p _ inStep_next).2.2
    exact absurd something progresses.something
  · obtain ⟨later, idle, idle_descIdx, step⟩ :=
      @apertureLoop_step cfg w sg.length (fun _ => .completed) p k done e req more something rfl
    rw [step] at inStep
    obtain ⟨first, rest⟩ := List.forall_mem_cons.mp inStep
    obtain ⟨continues, next, progresses⟩ := nextTransfer_continues positive agree cursor more p _ first
    refine ⟨later, idle, ?_, step fuel, continues, next, progresses, rest⟩
    rw [idle_descIdx]
    exact Nat.mod_lt _ cfg.descMax_pos

theorem apertureLoop_progresses (positive : 0 < w.aperture) (p : Ptr) (fuel k done : Nat) (e : Engine)
    (req : ApertureRequest) (agree : CursorsAgree sg req) (cursor : e.descIdx < cfg.descMax)
    (inStep : ∀ t ∈ (apertureLoop cfg w sg.length (fun _ => .completed) p fuel k done e req).transfers, t.InStep w) :
    ∀ t ∈ (apertureLoop cfg w sg.length (fun _ => .completed) p fuel k done e req).transfers, t.Progresses := by
  induction fuel generalizing k done e req with
  | zero => exact List.forall_mem_nil _
  | succ fuel ih =>
    by_cases more : req.offset < req.totalLen
    · obtain ⟨later, idle, idle_cursor, pass⟩ := apertureLoop_inStep positive agree cursor more inStep
      rw [pass.run]
      exact List.forall_mem_cons.mpr ⟨pass.progresses, ih _ _ _ _ pass.agree idle_cursor pass.inStep⟩
    · rw [apertureLoop_ended more]
      exact List.forall_mem_nil _

/-- With more passes than there are bytes left, the loop comes to its end and has moved these bytes. -/
theorem apertureLoop_whole (positive : 0 < w.aperture) (p : Ptr) (fuel k done : Nat) (e : Engine)
    (req : ApertureRequest) (agree : CursorsAgree sg req) (cursor : e.descIdx < cfg.descMax)
    (enough : (restOf sg req).length < fuel)
    (inStep : ∀ t ∈ (apertureLoop cfg w sg.length (fun _ => .completed) p fuel k done e req).transfers, t.InStep w) :
    (∃ ret, (apertureLoop cfg w sg.length (fun _ => .completed) p fuel k done e req).ended = .returned ret) ∧
      (apertureLoop cfg w sg.length (fun _ => .completed) p fuel k done e req).descs.flatMap Descriptor.hostBytes =
        restOf sg req ∧
      (apertureLoop cfg w sg.length (fun _ => .completed) p fuel k done e req).req.offset = req.totalLen := by
  induction fuel generalizing k done e req with
  | zero => exact absurd enough (Nat.not_lt_zero _)
  | succ fuel ih =>
    by_cases more : req.offset < req.totalLen
    · obtain ⟨later, idle, idle_cursor, pass⟩ := apertureLoop_inStep positive agree cursor more inStep
      have before := agree.offset
      have after := pass.agree.offset
      have forward := pass.progresses.offset_lt
      have total : (req.advance (buildTransfer w sg.length (cfg.descMax - e.descIdx) req)).totalLen = req.totalLen := rfl
      change req.offset < (req.advance (buildTransfer w sg.length (cfg.descMax - e.descIdx) req)).offset at forward
      obtain ⟨ended, bytes, offset⟩ := ih (k + 1) later idle _ pass.agree idle_cursor (by omega) pass.inStep
      rw [pass.run]
      refine ⟨ended, ?_, offset⟩
      rw [ApertureRun.descs, List.flatMap_cons, List.flatMap_append, nextTransfer_hostBytes]
      change _ ++ (ApertureRun.descs _).flatMap Descriptor.hostBytes = _
      rw [bytes]
      exact pass.continues.bytes
    · have total := agree.offset
      have none_left : restOf sg req = [] := by
        by_contra left
        exact more (agree.more_iff.mpr left)
      rw [none_left, List.length_nil] at total
      rw [apertureLoop_ended more, none_left]
      exact ⟨⟨_, rfl⟩, rfl, total⟩

end Rounds

end CigCard.Xdma
