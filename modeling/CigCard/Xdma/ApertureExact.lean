import CigCard.Xdma.ApertureProgress

namespace CigCard.Xdma

/-- The entries of a list, the first of which is number `j`, are so far from each other that an address tells the
    entry and the offset in it. -/
def SpacedFrom : Nat → List SgEntry → Prop
  | _, [] => True
  | j, entry :: sg => j < 2 ^ 31 ∧ entry.dmaAddress.toNat = j * 2 ^ 33 ∧ SpacedFrom (j + 1) sg

theorem SpacedFrom.drop {j : Nat} {sg : List SgEntry} (spaced : SpacedFrom j sg) (n : Nat) :
    SpacedFrom (j + n) (sg.drop n) := by
  induction n generalizing j sg with
  | zero => exact spaced
  | succ n ih =>
    cases sg with
    | nil => trivial
    | cons entry sg =>
      have place : j + (n + 1) = j + 1 + n := by omega
      rw [List.drop_succ_cons, place]
      exact ih spaced.2.2

section Heads

variable {w : Window} {sg : List SgEntry} {j offset : Nat}

theorem byteRun_succ (addr len : Nat) : byteRun addr (len + 1) = addr % 2 ^ 64 :: byteRun ((addr + 1) % 2 ^ 64) len := by
  rw [Nat.add_comm, ← byteRun_append]
  rfl

/-- The next byte of a list: it is in the entry that the offset is for, or at the start of a later one. -/
theorem bytesFrom_head (spaced : SpacedFrom j sg) (inside : OffsetInside sg offset) {x : Nat} {later : List Nat}
    (bytes : bytesFrom sg offset = x :: later) :
    ∃ n, j + n < 2 ^ 31 ∧ x = (j + n) * 2 ^ 33 + (if n = 0 then offset else 0) ∧ (n ≠ 0 → offset = 0) := by
  induction sg generalizing j offset with
  | nil => cases bytes
  | cons entry sg ih =>
    obtain ⟨small, place, spaced⟩ := spaced
    have bound := entry.dmaLen.isLt
    rw [bytesFrom] at bytes
    cases left : entry.dmaLen.toNat - offset with
    | zero =>
      have zero : offset = 0 := by
        rcases inside with zero | ⟨first, head, within⟩
        · exact zero
        · cases head
          omega
      rw [left, byteRun, List.range_zero, List.map_nil, List.nil_append, ← bytesFrom_zero] at bytes
      obtain ⟨n, few, here, -⟩ := ih spaced (.inl rfl) bytes
      refine ⟨n + 1, by omega, ?_, fun _ => zero⟩
      rw [here, ite_self, if_neg (Nat.succ_ne_zero n)]
      omega
    | succ more =>
      rw [left, byteRun_succ, List.cons_append] at bytes
      refine ⟨0, small, ?_, fun later => absurd rfl later⟩
      rw [← (List.cons.inj bytes).1, if_pos rfl, place]
      omega

theorem cutEntry_head {room : Nat} {c : Cursor} {addr tlen : Nat} (more : tlen ≠ 0) :
    ∃ passes, (cutEntry w (room + 1) c addr tlen).passes = ⟨c.epAddr, tlen, cutPiece w c.epAddr addr tlen⟩ :: passes := by
  rw [cutEntry, if_neg more]
  exact ⟨_, rfl⟩

/-- The passes on the first entry of a list, and then those on the others if the first has come to its end. -/
theorem buildEntries_passes {sgMax i room : Nat} {entry : SgEntry} {c : Cursor} (guard : i < sgMax ∧ 0 < room) :
    ∃ (cut : Cut) (more : List Pass), cutEntry w room c ((entry.dmaAddress.toNat + c.sgOffset) % 2 ^ 64)
        ((entry.dmaLen.toNat + 2 ^ 32 - c.sgOffset) % 2 ^ 32) = cut ∧
      (buildEntries w sgMax (entry :: sg) i room c).passes = cut.passes ++ more ∧
      (if cut.tlen = 0 then
        more = (buildEntries w sgMax sg (i + 1) cut.room { cut.cursor with sgOffset := 0 }).passes
      else more = []) := by
  rw [buildEntries, if_pos guard]
  obtain ⟨cut, same⟩ : ∃ cut, cutEntry w room c ((entry.dmaAddress.toNat + c.sgOffset) % 2 ^ 64)
    ((entry.dmaLen.toNat + 2 ^ 32 - c.sgOffset) % 2 ^ 32) = cut := ⟨_, rfl⟩
  rw [same]
  dsimp only
  by_cases done : cut.tlen = 0
  · rw [if_pos done]
    refine ⟨cut, _, rfl, rfl, ?_⟩
    rw [if_pos done]
  · rw [if_neg done]
    refine ⟨cut, [], rfl, (List.append_nil _).symm, ?_⟩
    rw [if_neg done]

/-- The first byte that the loop over the entries describes, wherever it starts. -/
theorem buildEntries_head {sgMax : Nat} (spaced : SpacedFrom j sg) {i room : Nat} {c : Cursor}
    (low : c.sgOffset < 2 ^ 32) {pass : Pass} {later : List Pass}
    (passes : (buildEntries w sgMax sg i room c).passes = pass :: later) :
    ∃ n, j + n < 2 ^ 31 ∧ pass.desc.hostAddr = (j + n) * 2 ^ 33 + (if n = 0 then c.sgOffset else 0) ∧
      (n ≠ 0 → ((sg.take n).flatMap SgEntry.bytes).length = c.sgOffset) := by
  induction sg generalizing j i room c with
  | nil => cases passes
  | cons entry sg ih =>
    obtain ⟨small, place, spaced⟩ := spaced
    have bound := entry.dmaLen.isLt
    by_cases guard : i < sgMax ∧ 0 < room
    · obtain ⟨cut, more, same, split, next⟩ := @buildEntries_passes w sg sgMax i room entry c guard
      obtain ⟨left, left_eq⟩ : ∃ left, (entry.dmaLen.toNat + 2 ^ 32 - c.sgOffset) % 2 ^ 32 = left := ⟨_, rfl⟩
      obtain ⟨addr, addr_eq⟩ : ∃ addr, (entry.dmaAddress.toNat + c.sgOffset) % 2 ^ 64 = addr := ⟨_, rfl⟩
      obtain ⟨room, rfl⟩ := Nat.exists_eq_succ_of_ne_zero (Nat.ne_of_gt guard.2)
      rw [left_eq, addr_eq, Nat.succ_eq_add_one] at same
      rw [split] at passes
      by_cases none : left = 0
      · have whole : entry.dmaLen.toNat = c.sgOffset := by omega
        rw [cutEntry, if_pos none] at same
        rw [← same, if_pos none] at next
        rw [← same, List.nil_append, next] at passes
        obtain ⟨n, few, here, before⟩ := ih spaced (Nat.two_pow_pos 32) passes
        change pass.desc.hostAddr = (j + 1 + n) * 2 ^ 33 + (if n = 0 then 0 else 0) at here
        refine ⟨n + 1, by omega, ?_, fun _ => ?_⟩
        · rw [here, ite_self, if_neg (Nat.succ_ne_zero n)]
          omega
        · rw [List.take_succ_cons, List.flatMap_cons, List.length_append, SgEntry.bytes, byteRun_length, whole]
          by_cases first : n = 0
          · rw [first]
            rfl
          · rw [before first]
            rfl
      · obtain ⟨rest, first⟩ := @cutEntry_head w room c addr left none
        rw [← same, first, List.cons_append] at passes
        refine ⟨0, small, ?_, fun later => absurd rfl later⟩
        rw [← (List.cons.inj passes).1, if_pos rfl]
        change addr = _
        rw [← addr_eq, place]
        omega
    · rw [buildEntries, if_neg guard] at passes
      cases passes

end Heads

section Fits

variable {w : Window}

theorem byteRun_fits {addr len tlen : Nat} {rest : List Nat} (apart : rest.head? ≠ some ((addr + tlen) % 2 ^ 64))
    (front : byteRun addr len <+: byteRun addr tlen ++ rest) : len ≤ tlen := by
  by_contra long
  obtain ⟨exceeds, rfl⟩ := Nat.exists_eq_add_of_lt (Nat.lt_of_not_le long)
  rw [Nat.add_assoc, ← byteRun_append, byteRun_succ, List.prefix_append_right_inj] at front
  obtain ⟨others, same⟩ := front
  apply apart
  rw [← same, List.cons_append, List.head?_cons, Nat.mod_mod]

theorem cutEntry_fits (positive : 0 < w.aperture) {rest : List Nat} (room : Nat) (c : Cursor) (addr tlen : Nat)
    (short : tlen < 2 ^ 32) (apart : rest.head? ≠ some ((addr + tlen) % 2 ^ 64))
    (front : passBytes (cutEntry w room c addr tlen).passes <+: byteRun addr tlen ++ rest) :
    ∀ pass ∈ (cutEntry w room c addr tlen).passes, ¬ pass.Overshoots w := by
  induction room generalizing c addr tlen with
  | zero => exact List.forall_mem_nil _
  | succ room ih =>
    unfold cutEntry at front ⊢
    split
    · exact List.forall_mem_nil _
    · next more =>
      rw [if_neg more] at front
      dsimp only at front ⊢
      have fits : (cutPiece w c.epAddr addr tlen).bytes ≤ tlen := by
        rw [passBytes, List.flatMap_cons] at front
        exact byteRun_fits apart ((List.prefix_append _ _).trans front)
      have within : ¬ Overshoots w c.epAddr tlen := by
        intro exceeds
        exact absurd ((cutPiece_overshoots positive).mpr exceeds) (Nat.not_lt_of_le fits)
      refine List.forall_mem_cons.mpr ⟨within, ?_⟩
      obtain ⟨desc, same⟩ : ∃ desc, cutPiece w c.epAddr addr tlen = desc := ⟨_, rfl⟩
      have host : desc.hostAddr = addr := by
        rw [← same]
        rfl
      rw [same] at fits front ⊢
      have left : (tlen + 2 ^ 32 - desc.bytes) % 2 ^ 32 = tlen - desc.bytes := by omega
      have whole : desc.bytes + (tlen - desc.bytes) = tlen := by omega
      have parts := byteRun_append addr desc.bytes (tlen - desc.bytes)
      rw [whole] at parts
      rw [left] at front ⊢
      rw [passBytes, List.flatMap_cons, Descriptor.hostBytes, host, ← parts, List.append_assoc,
        List.prefix_append_right_inj] at front
      apply ih _ _ _ (by omega) ?_ front
      have ends : ((addr + desc.bytes) % 2 ^ 64 + (tlen - desc.bytes)) % 2 ^ 64 = (addr + tlen) % 2 ^ 64 := by omega
      rwa [ends]

/-- Where the descriptors of a transfer move what comes next, none of its passes overshoots. -/
theorem buildEntries_fits (positive : 0 < w.aperture) {sgMax j : Nat} (sg : List SgEntry) (spaced : SpacedFrom j sg)
    (i room : Nat) (c : Cursor) (counted : i + sg.length = sgMax) (inside : OffsetInside sg c.sgOffset)
    (short : c.offset + (bytesFrom sg c.sgOffset).length < 2 ^ 32)
    (front : passBytes (buildEntries w sgMax sg i room c).passes <+: bytesFrom sg c.sgOffset) :
    ∀ pass ∈ (buildEntries w sgMax sg i room c).passes, ¬ pass.Overshoots w := by
  induction sg generalizing j i room c with
  | nil => exact List.forall_mem_nil _
  | cons entry sg ih =>
    obtain ⟨small, place, spaced⟩ := spaced
    have bound := entry.dmaLen.isLt
    by_cases guard : i < sgMax ∧ 0 < room
    · obtain ⟨cut, more, same, split, next⟩ := @buildEntries_passes w sg sgMax i room entry c guard
      rw [split] at front ⊢
      have below := inside.le
      have left : (entry.dmaLen.toNat + 2 ^ 32 - c.sgOffset) % 2 ^ 32 = entry.dmaLen.toNat - c.sgOffset := by omega
      rw [left] at same
      have apart : (sg.flatMap SgEntry.bytes).head? ≠
          some (((entry.dmaAddress.toNat + c.sgOffset) % 2 ^ 64 + (entry.dmaLen.toNat - c.sgOffset)) % 2 ^ 64) := by
        intro head
        obtain ⟨others, bytes⟩ := List.head?_eq_some_iff.mp head
        rw [← bytesFrom_zero] at bytes
        obtain ⟨n, few, here, -⟩ := bytesFrom_head spaced (.inl rfl) bytes
        rw [ite_self, place] at here
        omega
      rw [passBytes, List.flatMap_append] at front
      rw [bytesFrom] at front short
      rw [List.length_append, byteRun_length] at short
      have fine : ∀ pass ∈ cut.passes, ¬ pass.Overshoots w := by
        have front_cut := (List.prefix_append _ _).trans front
        rw [← same] at front_cut ⊢
        exact cutEntry_fits positive room c _ _ (by omega) apart front_cut
      by_cases done : cut.tlen = 0
      · rw [if_pos done] at next
        have cuts := cutEntry_cutsOff positive room c ((entry.dmaAddress.toNat + c.sgOffset) % 2 ^ 64)
          (entry.dmaLen.toNat - c.sgOffset) (Nat.mod_lt _ (by decide)) (by omega) (by omega)
        rw [same] at cuts
        replace cuts := cuts fine
        have whole := cuts.bytes
        have offset := cuts.offset
        rw [done, byteRun, List.range_zero, List.map_nil, List.append_nil] at whole
        change passBytes cut.passes ++ _ <+: _ at front
        rw [whole, List.prefix_append_right_inj, next, ← bytesFrom_zero] at front
        rw [← bytesFrom_zero] at short
        rw [next]
        have rest := ih spaced (i + 1) cut.room { cut.cursor with sgOffset := 0 } (by rw [← counted, List.length_cons]; omega)
          (.inl rfl) (by dsimp only; omega) front
        exact fun pass member => (List.mem_append.mp member).elim (fine pass) (rest pass)
      · rw [if_neg done] at next
        rw [next, List.append_nil]
        exact fine
    · rw [buildEntries, if_neg guard]
      exact List.forall_mem_nil _

end Fits

section Stale

variable {cfg : EngineConfig} {w : Window} {sg : List SgEntry} {req : ApertureRequest}

theorem OffsetInside.low {offset : Nat} (inside : OffsetInside sg offset) : offset < 2 ^ 32 := by
  rcases inside with rfl | ⟨entry, -, within⟩
  · exact Nat.two_pow_pos 32
  · exact Nat.lt_trans within entry.dmaLen.isLt

theorem flatMap_take_drop (n : Nat) : ((sg.take n).flatMap SgEntry.bytes).length +
    ((sg.drop n).flatMap SgEntry.bytes).length = (sg.flatMap SgEntry.bytes).length := by
  rw [← List.length_append, ← List.flatMap_append, List.take_append_drop]

/-- A transfer that is begun at the first entry, when this is not the one that the request counts, does not begin with
    the byte that comes next. -/
theorem stale_start (positive : 0 < w.aperture) (spaced : SpacedFrom 0 sg) (agree : CursorsAgree sg req) (room : Nat)
    (something : (buildTransfer w sg.length room req).passes ≠ [])
    (front : passBytes (buildTransfer w sg.length room req).passes <+: restOf sg req) : req.sgIdx = 0 := by
  by_contra stale
  obtain ⟨pass, later, passes⟩ := List.exists_cons_of_ne_nil something
  have member : pass ∈ (buildTransfer w sg.length room req).passes := by
    rw [passes]
    exact List.mem_cons_self ..
  have some_bytes : pass.desc.bytes ≠ 0 := Nat.ne_of_gt ((buildEntries_ofLoop _ _ _ _ pass member).pos positive)
  obtain ⟨more, length⟩ := Nat.exists_eq_succ_of_ne_zero some_bytes
  rw [passes, passBytes, List.flatMap_cons, Descriptor.hostBytes, length, Nat.succ_eq_add_one, byteRun_succ] at front
  obtain ⟨others, rest⟩ := front
  unfold buildTransfer at passes
  rw [agree.list] at passes
  obtain ⟨n, few, here, before⟩ := buildEntries_head spaced agree.inside.low passes
  obtain ⟨m, also_few, there, zero⟩ := bytesFrom_head (spaced.drop req.sgIdx) agree.inside rest.symm
  have low := agree.inside.low
  have first : (if n = 0 then req.sgOffset else 0) ≤ req.sgOffset := by
    split
    · exact Nat.le_refl _
    · exact Nat.zero_le _
  have second : (if m = 0 then req.sgOffset else 0) ≤ req.sgOffset := by
    split
    · exact Nat.le_refl _
    · exact Nat.zero_le _
  change pass.desc.hostAddr = (0 + n) * 2 ^ 33 + (if n = 0 then req.sgOffset else 0) at here
  rw [here] at there
  have entry : n = req.sgIdx + m := by omega
  have later_entry : n ≠ 0 := by omega
  have offset : req.sgOffset = 0 := by
    by_cases at_start : m = 0
    · rw [if_neg later_entry, if_pos at_start] at there
      omega
    · exact zero at_start
  have none_before := before later_entry
  change _ = req.sgOffset at none_before
  rw [offset, entry, List.take_add, List.flatMap_append, List.length_append] at none_before
  have total := agree.offset
  have parts := @flatMap_take_drop sg req.sgIdx
  rw [restOf, offset, bytesFrom_zero, agree.total] at total
  have begun := agree.begun stale
  omega

theorem apertureLoop_exact_inStep (positive : 0 < w.aperture) (spaced : SpacedFrom 0 sg) (p : Ptr)
    (fuel k done : Nat) (e : Engine) (req : ApertureRequest) (agree : CursorsAgree sg req)
    (cursor : e.descIdx < cfg.descMax) {ret : Int}
    (returned : (apertureLoop cfg w sg.length (fun _ => .completed) p fuel k done e req).ended = .returned ret)
    (bytes : (apertureLoop cfg w sg.length (fun _ => .completed) p fuel k done e req).descs.flatMap Descriptor.hostBytes =
      restOf sg req) :
    ∀ t ∈ (apertureLoop cfg w sg.length (fun _ => .completed) p fuel k done e req).transfers, t.InStep w := by
  induction fuel generalizing k done e req with
  | zero => exact List.forall_mem_nil _
  | succ fuel ih =>
    by_cases more : req.offset < req.totalLen
    · by_cases something : (buildTransfer w sg.length (cfg.descMax - e.descIdx) req).passes = []
      · rw [apertureLoop_fault more something] at returned
        cases returned
      · obtain ⟨later, idle, idle_descIdx, step⟩ :=
          @apertureLoop_step cfg w sg.length (fun _ => .completed) p k done e req more something rfl
        rw [step] at returned bytes ⊢
        rw [ApertureRun.descs, List.flatMap_cons, List.flatMap_append, nextTransfer_hostBytes] at bytes
        have front : passBytes (buildTransfer w sg.length (cfg.descMax - e.descIdx) req).passes <+: restOf sg req :=
          ⟨_, bytes⟩
        have first := stale_start positive spaced agree _ something front
        have inside := agree.inside
        have total := agree.offset
        have short := agree.short
        have fine : ∀ pass ∈ (buildTransfer w sg.length (cfg.descMax - e.descIdx) req).passes, ¬ pass.Overshoots w := by
          rw [restOf] at front total
          unfold buildTransfer at front ⊢
          rw [agree.list, first] at front ⊢
          rw [first, List.drop_zero] at inside total
          rw [List.drop_zero] at front
          exact buildEntries_fits positive sg spaced 0 _ _ (Nat.zero_add _) inside (by dsimp only; omega) front
        have inStep : (nextTransfer cfg w sg.length .completed p e req).InStep w := ⟨first, fine⟩
        obtain ⟨continues, next, -⟩ := nextTransfer_continues positive agree cursor more p _ inStep
        rw [← continues.bytes, List.append_cancel_left_eq] at bytes
        have idle_cursor : idle.descIdx < cfg.descMax := by
          rw [idle_descIdx]
          exact Nat.mod_lt _ cfg.descMax_pos
        exact List.forall_mem_cons.mpr ⟨inStep, ih _ _ _ _ next idle_cursor returned bytes⟩
    · rw [apertureLoop_ended more]
      exact List.forall_mem_nil _

end Stale

section Flow

variable {cfg : EngineConfig} {w : Window}

def Pass.state (pass : Pass) : Nat × Nat := (pass.epAddr, pass.tlen)

def ApertureTransfer.flow (t : ApertureTransfer) : Nat × List (Nat × Nat) := (t.req.sgIdx, t.passes.map Pass.state)

theorem inStep_of_flow {one other : ApertureTransfer} (same : one.flow = other.flow) (inStep : one.InStep w) :
    other.InStep w := by
  obtain ⟨index, states⟩ := Prod.mk.inj same
  refine ⟨index.symm.trans inStep.1, ?_⟩
  intro pass member
  have among : pass.state ∈ one.passes.map Pass.state := by
    rw [states]
    exact List.mem_map_of_mem member
  obtain ⟨twin, twin_member, twin_state⟩ := List.mem_map.mp among
  obtain ⟨epAddr, tlen⟩ := Prod.mk.inj twin_state
  have fine := inStep.2 twin twin_member
  unfold Pass.Overshoots at fine ⊢
  rwa [epAddr, tlen] at fine

structure SameCut (one other : Cut) : Prop where
  states : one.passes.map Pass.state = other.passes.map Pass.state
  cursor : one.cursor = other.cursor
  tlen : one.tlen = other.tlen
  room : one.room = other.room

theorem cutEntry_same (room : Nat) (c : Cursor) (addr addr' tlen : Nat) :
    SameCut (cutEntry w room c addr tlen) (cutEntry w room c addr' tlen) := by
  induction room generalizing c addr addr' tlen with
  | zero => exact ⟨rfl, rfl, rfl, rfl⟩
  | succ room ih =>
    unfold cutEntry
    split
    · exact ⟨rfl, rfl, rfl, rfl⟩
    · have bytes : (cutPiece w c.epAddr addr' tlen).bytes = (cutPiece w c.epAddr addr tlen).bytes := rfl
      have epAddr : (cutPiece w c.epAddr addr' tlen).epAddr = (cutPiece w c.epAddr addr tlen).epAddr := rfl
      dsimp only
      rw [bytes, epAddr]
      obtain ⟨states, cursor, left, room_left⟩ := ih
        ⟨(c.offset + (cutPiece w c.epAddr addr tlen).bytes) % 2 ^ 32,
          (c.sgOffset + (cutPiece w c.epAddr addr tlen).bytes) % 2 ^ 32,
          ((cutPiece w c.epAddr addr tlen).epAddr + (cutPiece w c.epAddr addr tlen).bytes) % 2 ^ 64⟩
        ((addr + (cutPiece w c.epAddr addr tlen).bytes) % 2 ^ 64)
        ((addr' + (cutPiece w c.epAddr addr tlen).bytes) % 2 ^ 64)
        ((tlen + 2 ^ 32 - (cutPiece w c.epAddr addr tlen).bytes) % 2 ^ 32)
      refine ⟨?_, cursor, left, room_left⟩
      rw [List.map_cons, List.map_cons, states]
      rfl

structure SameBuilt (one other : Built) : Prop where
  states : one.passes.map Pass.state = other.passes.map Pass.state
  cursor : one.cursor = other.cursor
  sgIdx : one.sgIdx = other.sgIdx

theorem buildEntries_same {sgMax : Nat} (sg sg' : List SgEntry) (lens : sg.map SgEntry.dmaLen = sg'.map SgEntry.dmaLen)
    (i room : Nat) (c : Cursor) :
    SameBuilt (buildEntries w sgMax sg i room c) (buildEntries w sgMax sg' i room c) := by
  induction sg generalizing sg' i room c with
  | nil =>
    rw [List.map_nil] at lens
    rw [List.map_eq_nil_iff.mp lens.symm]
    exact ⟨rfl, rfl, rfl⟩
  | cons entry sg ih =>
    obtain ⟨entry', rest', rfl, len, lens⟩ := List.map_eq_cons_iff.mp lens.symm
    by_cases guard : i < sgMax ∧ 0 < room
    · have cuts := @cutEntry_same w room c ((entry.dmaAddress.toNat + c.sgOffset) % 2 ^ 64)
        ((entry'.dmaAddress.toNat + c.sgOffset) % 2 ^ 64) ((entry.dmaLen.toNat + 2 ^ 32 - c.sgOffset) % 2 ^ 32)
      rw [buildEntries, if_pos guard, buildEntries, if_pos guard, len]
      obtain ⟨cut, cut_eq⟩ : ∃ cut, cutEntry w room c ((entry.dmaAddress.toNat + c.sgOffset) % 2 ^ 64)
        ((entry.dmaLen.toNat + 2 ^ 32 - c.sgOffset) % 2 ^ 32) = cut := ⟨_, rfl⟩
      obtain ⟨cut', cut'_eq⟩ : ∃ cut, cutEntry w room c ((entry'.dmaAddress.toNat + c.sgOffset) % 2 ^ 64)
        ((entry.dmaLen.toNat + 2 ^ 32 - c.sgOffset) % 2 ^ 32) = cut := ⟨_, rfl⟩
      rw [cut_eq, cut'_eq] at cuts ⊢
      dsimp only
      rw [cuts.tlen, cuts.cursor, cuts.room]
      split
      · obtain ⟨states, cursor, sgIdx⟩ := ih rest' lens.symm (i + 1) cut'.room { cut'.cursor with sgOffset := 0 }
        refine ⟨?_, cursor, sgIdx⟩
        rw [List.map_append, List.map_append, cuts.states, states]
      · exact ⟨cuts.states, rfl, rfl⟩
    · rw [buildEntries, if_neg guard, buildEntries, if_neg guard]
      exact ⟨rfl, rfl, rfl⟩

structure SameRequest (one other : ApertureRequest) : Prop where
  totalLen : one.totalLen = other.totalLen
  offset : one.offset = other.offset
  lens : one.sg.map SgEntry.dmaLen = other.sg.map SgEntry.dmaLen
  sgIdx : one.sgIdx = other.sgIdx
  sgOffset : one.sgOffset = other.sgOffset

theorem SameRequest.built {one other : ApertureRequest} (same : SameRequest one other) (sgMax room : Nat) :
    SameBuilt (buildTransfer w sgMax room one) (buildTransfer w sgMax room other) := by
  unfold buildTransfer
  rw [same.offset, same.sgIdx, same.sgOffset]
  exact buildEntries_same _ _ same.lens _ _ _

theorem apertureLoop_same {sgMax : Nat} (p : Ptr) (fuel k done done' : Nat) (e e' : Engine) (req req' : ApertureRequest)
    (same : SameRequest req req') (cursor : e.descIdx = e'.descIdx) :
    (apertureLoop cfg w sgMax (fun _ => .completed) p fuel k done e req).transfers.map ApertureTransfer.flow =
      (apertureLoop cfg w sgMax (fun _ => .completed) p fuel k done' e' req').transfers.map ApertureTransfer.flow := by
  induction fuel generalizing k done done' e e' req req' with
  | zero => rfl
  | succ fuel ih =>
    have built := @SameRequest.built w req req' same sgMax (cfg.descMax - e'.descIdx)
    have next : SameRequest (req.advance (buildTransfer w sgMax (cfg.descMax - e'.descIdx) req))
        (req'.advance (buildTransfer w sgMax (cfg.descMax - e'.descIdx) req')) :=
      ⟨same.totalLen, congrArg Cursor.offset built.cursor, same.lens, built.sgIdx, congrArg Cursor.sgOffset built.cursor⟩
    have length : (buildTransfer w sgMax (cfg.descMax - e'.descIdx) req).passes.length =
        (buildTransfer w sgMax (cfg.descMax - e'.descIdx) req').passes.length := by
      rw [← List.length_map Pass.state, built.states, List.length_map]
    by_cases more : req.offset < req.totalLen
    · have also_more : req'.offset < req'.totalLen := by
        rw [← same.offset, ← same.totalLen]
        exact more
      by_cases nothing : (buildTransfer w sgMax (cfg.descMax - e.descIdx) req).passes = []
      · have also_nothing : (buildTransfer w sgMax (cfg.descMax - e'.descIdx) req').passes = [] := by
          rw [cursor] at nothing
          rw [← List.length_eq_zero_iff, ← length, nothing]
          rfl
        rw [apertureLoop_fault more nothing, apertureLoop_fault also_more also_nothing]
        simp only [List.map_cons, List.map_nil, ApertureTransfer.flow, same.sgIdx]
      · have also_something : (buildTransfer w sgMax (cfg.descMax - e'.descIdx) req').passes ≠ [] := by
          rw [cursor] at nothing
          rw [← List.length_pos_iff, ← length, List.length_pos_iff]
          exact nothing
        obtain ⟨later, idle, descIdx, step⟩ :=
          @apertureLoop_step cfg w sgMax (fun _ => .completed) p k done e req more nothing rfl
        obtain ⟨later', idle', descIdx', step'⟩ :=
          @apertureLoop_step cfg w sgMax (fun _ => .completed) p k done' e' req' also_more also_something rfl
        rw [cursor] at step descIdx
        rw [step, step', List.map_cons, List.map_cons,
          ih (k + 1) later later' idle idle' _ _ next (by rw [descIdx, descIdx', length])]
        congr 1
        unfold ApertureTransfer.flow nextTransfer
        dsimp only
        rw [cursor, built.states, same.sgIdx]
    · have also_ended : ¬ req'.offset < req'.totalLen := by
        rw [← same.offset, ← same.totalLen]
        exact more
      rw [apertureLoop_ended more, apertureLoop_ended also_ended]

end Flow

section Placements

variable {b : Build} {cfg : EngineConfig} {e : Engine} {epAddr : BitVec 64} {aperture : BitVec 32}

def SameLens (one other : MappedSg) : Prop := one.entries.map SgEntry.dmaLen = other.entries.map SgEntry.dmaLen

theorem SameLens.length {one other : MappedSg} (same : SameLens one other) :
    one.entries.length = other.entries.length := by
  rw [← List.length_map SgEntry.dmaLen, same, List.length_map]

theorem SameLens.totalLen {one other : MappedSg} (same : SameLens one other) : one.totalLen = other.totalLen := by
  have lens : ∀ entries : List SgEntry,
      (entries.map fun entry => entry.dmaLen.toNat) = (entries.map SgEntry.dmaLen).map BitVec.toNat := by
    intro entries
    rw [List.map_map]
    rfl
  unfold MappedSg.totalLen
  rw [lens, lens, same]

theorem SameLens.inStep {one other : MappedSg} (same : SameLens one other)
    (inStep : ApertureInStep b cfg e epAddr aperture one) : ApertureInStep b cfg e epAddr aperture other := by
  intro fuel t member
  have flows := @apertureLoop_same cfg (apertureWindow b epAddr aperture) one.entries.length ⟨0, 0⟩ fuel 0 0 0 e e
    (apertureRequest one) (apertureRequest other) ⟨by simp only [apertureRequest, same.totalLen], rfl, same, rfl, rfl⟩ rfl
  have among : t.flow ∈ (completedAperture b cfg e epAddr aperture one fuel).transfers.map ApertureTransfer.flow := by
    rw [completedAperture_eq, flows, same.length]
    exact List.mem_map_of_mem member
  obtain ⟨twin, twin_member, flow⟩ := List.mem_map.mp among
  exact inStep_of_flow flow (inStep fuel twin twin_member)

/-- The host side: the call comes to its end with all transfers completing, and its descriptors have moved the bytes of
    the list, in order. -/
def HostExact (b : Build) (cfg : EngineConfig) (e : Engine) (epAddr : BitVec 64) (aperture : BitVec 32)
    (sgt : MappedSg) : Prop :=
  ∃ fuel ret, (completedAperture b cfg e epAddr aperture sgt fuel).ended = .returned ret ∧
    (completedAperture b cfg e epAddr aperture sgt fuel).descs.flatMap Descriptor.hostBytes = sgt.bytes

def spacedEntries (j : Nat) (entries : List SgEntry) : List SgEntry :=
  entries.mapIdx fun k entry => ⟨BitVec.ofNat 64 ((j + k) * 2 ^ 33), entry.dmaLen⟩

theorem spacedEntries_spaced (j : Nat) (entries : List SgEntry) (few : j + entries.length ≤ 2 ^ 31) :
    SpacedFrom j (spacedEntries j entries) := by
  induction entries generalizing j with
  | nil => trivial
  | cons entry entries ih =>
    rw [List.length_cons] at few
    rw [spacedEntries, List.mapIdx_cons]
    refine ⟨by omega, ?_, ?_⟩
    · rw [BitVec.toNat_ofNat, Nat.add_zero, Nat.mod_eq_of_lt (by omega)]
    · have rest := ih (j + 1) (by omega)
      unfold spacedEntries at rest
      simp only [Nat.add_right_comm j 1, ← Nat.add_assoc] at rest ⊢
      exact rest

def MappedSg.spaced (sgt : MappedSg) : MappedSg where
  entries := spacedEntries 0 sgt.entries
  mapped := by
    rw [spacedEntries, ne_eq, List.mapIdx_eq_nil_iff]
    exact sgt.mapped
  nents_lt := by
    rw [spacedEntries, List.length_mapIdx]
    exact sgt.nents_lt

theorem MappedSg.spaced_sameLens (sgt : MappedSg) : SameLens sgt sgt.spaced := by
  apply List.ext_getElem?
  intro k
  simp only [spaced, spacedEntries, List.getElem?_map, List.getElem?_mapIdx, Option.map_map]
  rfl

theorem restOf_start (sgt : MappedSg) : restOf sgt.entries (apertureRequest sgt) = sgt.bytes :=
  bytesFrom_zero sgt.entries

/-- However the entries are placed, the host side is exact if and only if every pass of the loop over the transfers is
    in step. -/
theorem aperture_hostExact_iff (b : Build) (cfg : EngineConfig) (e : Engine) (cursor : e.descIdx < cfg.descMax)
    (epAddr : BitVec 64) (aperture : BitVec 32) (positive : 1 ≤ aperture.toNat) (sgt : MappedSg)
    (short : sgt.totalLen < 2 ^ 32) :
    (∀ placed, SameLens sgt placed → HostExact b cfg e epAddr aperture placed) ↔
      ApertureInStep b cfg e epAddr aperture sgt := by
  have window : 0 < (apertureWindow b epAddr aperture).aperture := positive
  constructor
  · intro exact_host
    obtain ⟨fuel, ret, returned, bytes⟩ := exact_host sgt.spaced sgt.spaced_sameLens
    have few : 0 + sgt.entries.length ≤ 2 ^ 31 := by
      rw [Nat.zero_add]
      exact sgt.nents_lt.le
    have agree : CursorsAgree sgt.spaced.entries (apertureRequest sgt.spaced) :=
      apertureRequest_agrees (by rwa [← sgt.spaced_sameLens.totalLen])
    rw [← restOf_start] at bytes
    have inStep := apertureLoop_exact_inStep window (spacedEntries_spaced 0 sgt.entries few) _ _ _ _ _ _ agree cursor
      returned bytes
    apply SameLens.inStep sgt.spaced_sameLens.symm
    intro other t member
    exact inStep t ((apertureLoop_front returned other).subset member)
  · intro inStep placed same
    have agree : CursorsAgree placed.entries (apertureRequest placed) :=
      apertureRequest_agrees (by rwa [← same.totalLen])
    let fuel := (restOf placed.entries (apertureRequest placed)).length + 1
    obtain ⟨⟨ret, ended⟩, bytes, -⟩ :=
      apertureLoop_whole window ⟨0, 0⟩ fuel 0 0 e _ agree cursor (Nat.lt_succ_self _) (same.inStep inStep fuel)
    exact ⟨fuel, ret, ended, bytes.trans (restOf_start placed)⟩

theorem oneEntry_hostExact : oneEntry.totalLen < 2 ^ 32 ∧
    ∀ placed, SameLens oneEntry placed → HostExact usualBuild mmEngine idleDriver.engine 0x1000 4096 placed := by
  have short : oneEntry.totalLen < 2 ^ 32 := by decide
  exact ⟨short, (aperture_hostExact_iff usualBuild mmEngine idleDriver.engine (by decide) 0x1000 4096 (by decide) oneEntry
    short).mpr oneEntry_inStep⟩

def twoEntries : MappedSg := ⟨[⟨0x10000, 16⟩, ⟨0x20000, 16⟩], by decide, by decide⟩

/-- Where the ring ends after the first of two entries, that entry is moved twice and the other not at all. -/
theorem twoEntries_not_hostExact :
    ¬ HostExact usualBuild mmEngine { idleDriver.engine with descIdx := 2047 } 0x1000 4096 twoEntries := by
  rintro ⟨fuel, ret, returned, bytes⟩
  have third : (completedAperture usualBuild mmEngine { idleDriver.engine with descIdx := 2047 } 0x1000 4096 twoEntries
      3).ended = .returned 32 := by decide +kernel
  have wrong : (completedAperture usualBuild mmEngine { idleDriver.engine with descIdx := 2047 } 0x1000 4096 twoEntries
      3).descs.flatMap Descriptor.hostBytes ≠ twoEntries.bytes := by decide +kernel
  have less := apertureLoop_front third fuel
  have more := apertureLoop_front returned 3
  have same := less.eq_of_length_le more.length_le
  apply wrong
  rw [← bytes, ApertureRun.descs, ApertureRun.descs, completedAperture_eq, completedAperture_eq, same]

end Placements

end CigCard.Xdma
