import Mathlib.Data.List.Infix
import CigCard.Xdma.RingRanges
import CigCard.Xdma.ScatterGather
import CigCard.Xdma.WriterDescriptors

namespace CigCard.Xdma

def Descriptor.hostBytes (desc : Descriptor) : List Nat := byteRun desc.hostAddr desc.bytes

def Descriptor.moves (desc : Descriptor) : List (Nat × Nat) :=
  (List.range desc.bytes).map fun k => ((desc.hostAddr + k) % 2 ^ 64, (desc.epAddr + k) % 2 ^ 64)

def pairUp {α : Type} (bytes : List α) (epAddr : Nat) : List (α × Nat) :=
  bytes.mapIdx fun k byte => (byte, (epAddr + k) % 2 ^ 64)

def Submitted.descs (s : Submitted) : List Descriptor := s.transfers.flatMap BuiltTransfer.descs

def Submitted.completed (s : Submitted) : List Descriptor :=
  (s.transfers.filter fun xfer => xfer.outcome = .completed).flatMap BuiltTransfer.descs

/-- What a call has moved of a list, and what it says about that. -/
structure ByteExact (b : Build) (cfg : EngineConfig) (oom : Bool) (sgt : MappedSg) (epAddr : BitVec 64)
    (s : Submitted) : Prop where
  host : s.descs.flatMap Descriptor.hostBytes <+: sgt.bytes
  incremental : cfg.nonIncrAddr = false → s.descs.flatMap Descriptor.moves <+: pairUp sgt.bytes epAddr.toNat
  nonIncremental : cfg.nonIncrAddr = true → ∀ desc ∈ s.descs, desc.epAddr = epAddr.toNat
  lengths : ∀ desc ∈ s.descs, 1 ≤ desc.bytes ∧ desc.bytes ≤ b.descBlenMax
  inside : ∀ xfer ∈ s.transfers, xfer.descIndex + xfer.descs.length ≤ cfg.descMax
  counted : 0 < s.ret →
    s.ret ≤ sgt.totalLen ∧ s.completed.flatMap Descriptor.hostBytes = sgt.bytes.take s.ret.toNat
  whole : oom = false → (∀ xfer ∈ s.transfers, xfer.outcome = .completed) → s.ret = sgt.totalLen

/-- The table of pieces fits into the request, whose size is computed in 32 bits, and into the `int` that counts
    it. -/
def TableFits (b : Build) (sgt : MappedSg) : Prop :=
  b.sizeofRequest + sgt.pieceCount b * sizeofSwDesc ≤ (requestSize b (sgt.max b)).toNat ∧
    (sgt.pieceCount b : Int) ≤ (sgt.max b).toInt

section Building

variable {cfg : EngineConfig}

theorem transferBuild_hostBytes (pieces : List SwDesc) (epAddr : Nat) :
    (transferBuild cfg pieces epAddr).1.flatMap Descriptor.hostBytes = pieces.flatMap SwDesc.bytes := by
  induction pieces generalizing epAddr with
  | nil => rfl
  | cons piece pieces ih =>
    simp only [transferBuild, List.flatMap_cons, ih]
    rfl

theorem transferBuild_bytes (pieces : List SwDesc) (epAddr : Nat) :
    (transferBuild cfg pieces epAddr).1.map Descriptor.bytes = pieces.map SwDesc.len := by
  induction pieces generalizing epAddr with
  | nil => rfl
  | cons piece pieces ih => simp only [transferBuild, List.map_cons, ih]

theorem transferBuild_nonIncremental (fixed : cfg.nonIncrAddr = true) (pieces : List SwDesc) (epAddr : Nat) :
    ∀ desc ∈ (transferBuild cfg pieces epAddr).1, desc.epAddr = epAddr := by
  induction pieces with
  | nil => simp [transferBuild]
  | cons piece pieces ih =>
    intro desc member
    simp only [transferBuild, fixed, if_true] at member
    rcases List.mem_cons.mp member with rfl | later
    · rfl
    · exact ih desc later

theorem pairUp_append {α : Type} (front back : List α) (epAddr : Nat) :
    pairUp (front ++ back) epAddr = pairUp front epAddr ++ pairUp back ((epAddr + front.length) % 2 ^ 64) := by
  unfold pairUp
  rw [List.mapIdx_append]
  congr 1
  apply List.ext_getElem
  · simp
  · intro k _ _
    simp only [List.getElem_mapIdx, Prod.mk.injEq, true_and]
    omega

theorem moves_eq_pairUp (desc : Descriptor) : desc.moves = pairUp desc.hostBytes desc.epAddr := by
  apply List.ext_getElem
  · simp [Descriptor.moves, pairUp, Descriptor.hostBytes]
  · intro k _ _
    simp [Descriptor.moves, pairUp, Descriptor.hostBytes, byteRun]

theorem transferBuild_incremental (moving : cfg.nonIncrAddr = false) (pieces : List SwDesc) (epAddr : Nat) :
    (transferBuild cfg pieces epAddr).1.flatMap Descriptor.moves = pairUp (pieces.flatMap SwDesc.bytes) epAddr := by
  induction pieces generalizing epAddr with
  | nil => rfl
  | cons piece pieces ih =>
    simp only [transferBuild, moving, Bool.false_eq_true, if_false, List.flatMap_cons, ih]
    rw [pairUp_append, moves_eq_pairUp, SwDesc.bytes, byteRun_length]
    rfl

theorem sum_bytes (descs : List Descriptor) :
    (descs.map Descriptor.bytes).sum = (descs.flatMap Descriptor.hostBytes).length := by
  rw [List.length_flatMap]
  simp [Descriptor.hostBytes]

end Building

/-- What the loop has done of the descriptors `plan` when it ends, if it began with `done` bytes. -/
structure Carried (cfg : EngineConfig) (outcome : Nat → Outcome) (plan : List Descriptor) (done : Nat)
    (s : Submitted) : Prop where
  built : s.descs <+: plan
  completed : s.completed <+: plan
  inside : ∀ xfer ∈ s.transfers, xfer.descIndex + xfer.descs.length ≤ cfg.descMax
  outcomes : ∀ xfer ∈ s.transfers, ∃ k, xfer.outcome = outcome k
  counted : 0 < s.ret → s.ret = done + (s.completed.map Descriptor.bytes).sum
  whole : (∀ xfer ∈ s.transfers, xfer.outcome = .completed) →
    s.completed = plan ∧ s.ret = done + (plan.map Descriptor.bytes).sum

section Loop

variable {cfg : EngineConfig} {outcome : Nat → Outcome} {p : Ptr}

theorem nextDescNum_pos (e : Engine) (req : Request) (cursor : e.descIdx < cfg.descMax)
    (left : req.remaining ≠ []) : 0 < nextDescNum cfg e req := by
  have more := List.length_pos_of_ne_nil left
  unfold nextDescNum
  simp only
  split <;> omega

theorem carried_stopped {plan : List Descriptor} {done : Nat} {xfer : BuiltTransfer} {err : Nat}
    (front : xfer.descs <+: plan) (inside : xfer.descIndex + xfer.descs.length ≤ cfg.descMax)
    (own : ∃ k, xfer.outcome = outcome k) (stopped : xfer.outcome ≠ .completed) :
    Carried cfg outcome plan done ⟨[xfer], doneOr done (-err)⟩ where
  built := by
    simp only [Submitted.descs, List.flatMap_cons, List.flatMap_nil, List.append_nil]
    exact front
  completed := by simp [Submitted.completed, stopped]
  inside := by
    intro other member
    rw [List.mem_singleton.mp member]
    exact inside
  outcomes := by
    intro other member
    rw [List.mem_singleton.mp member]
    exact own
  counted := by
    intro positive
    simp only [Submitted.completed, stopped, decide_false, List.filter_cons, List.filter_nil, Bool.false_eq_true,
      if_false, List.flatMap_nil, List.map_nil, List.sum_nil]
    unfold doneOr at positive ⊢
    by_cases moved : done ≠ 0
    · rw [if_pos moved]
      omega
    · rw [if_neg moved] at positive
      have negative : (-err : Int) ≤ 0 := by omega
      exact absurd positive (not_lt.mpr negative)
  whole := by
    intro all
    exact absurd (all xfer List.mem_cons_self) stopped

/-- A transfer that completes moves the next descriptors, and the loop goes on with the others. -/
theorem carried_cons {front rest : List Descriptor} {done : Nat} {s : Submitted} {descIndex : Nat}
    (inside : descIndex + front.length ≤ cfg.descMax) (own : ∃ k, outcome k = .completed)
    (later : Carried cfg outcome rest (done + (front.map Descriptor.bytes).sum) s) :
    Carried cfg outcome (front ++ rest) done { s with transfers := ⟨descIndex, front, .completed⟩ :: s.transfers } where
  built := by
    show front ++ s.descs <+: _
    exact (List.prefix_append_right_inj front).mpr later.built
  completed := by
    show front ++ s.completed <+: _
    exact (List.prefix_append_right_inj front).mpr later.completed
  inside := by
    intro xfer member
    rcases List.mem_cons.mp member with rfl | old
    · exact inside
    · exact later.inside xfer old
  outcomes := by
    intro xfer member
    rcases List.mem_cons.mp member with rfl | old
    · obtain ⟨k, completed⟩ := own
      exact ⟨k, completed.symm⟩
    · exact later.outcomes xfer old
  counted := by
    intro positive
    show s.ret = done + (((front ++ s.completed).map Descriptor.bytes).sum : Nat)
    rw [later.counted positive, List.map_append, List.sum_append]
    omega
  whole := by
    intro all
    obtain ⟨completed, ret⟩ := later.whole fun xfer member => all xfer (List.mem_cons_of_mem _ member)
    constructor
    · show front ++ s.completed = _
      rw [completed]
    · show s.ret = _
      rw [ret, List.map_append, List.sum_append]
      omega

theorem carried_nil (done : Nat) : Carried cfg outcome [] done ⟨[], doneOr done 0⟩ where
  built := List.nil_prefix
  completed := List.nil_prefix
  inside := by simp
  outcomes := by simp
  counted := by
    intro positive
    unfold doneOr at positive ⊢
    split at positive <;> simp_all [Submitted.completed]
  whole := by
    intro _
    refine ⟨rfl, ?_⟩
    unfold doneOr
    split <;> simp_all

/-- What one round of a submitting loop builds: the next descriptors of the request, inside the ring, and no fewer
    than one. -/
structure Round (cfg : EngineConfig) (p : Ptr) (req : Request) (next : Engine × Request) : Prop where
  plan : descriptors cfg req.remaining req.epAddr =
    slots next.1.ring (next.1.tfer p) ++ descriptors cfg next.2.remaining next.2.epAddr
  inside : (next.1.tfer p).descIndex + (slots next.1.ring (next.1.tfer p)).length ≤ cfg.descMax
  len : (next.1.tfer p).len = ((slots next.1.ring (next.1.tfer p)).map Descriptor.bytes).sum
  cursor : next.1.descIdx < cfg.descMax
  fewer : next.2.remaining.length < req.remaining.length

theorem transferInit_round (p : Ptr) (cb : Bool) (e : Engine) (req : Request) (cursor : e.descIdx < cfg.descMax)
    (left : req.remaining ≠ []) : Round cfg p req (transferInit cfg p cb e req) := by
  have init := transferInit_spec cfg p cb e req
  have fits := nextDescNum_fits e req cursor
  have pos := nextDescNum_pos e req cursor left
  have size := nextDescNum_le cfg e req
  let n := nextDescNum cfg e req
  let next := transferInit cfg p cb e req
  let front := descriptors cfg (req.remaining.take n) req.epAddr
  have length : front.length = n := by
    show (transferBuild cfg _ _).1.length = n
    rw [transferBuild_length, List.length_take]
    exact Nat.min_eq_left size
  have written : slots next.1.ring (next.1.tfer p) = front := by
    have descNum : (next.1.tfer p).descNum = front.length := by rw [init.descNum, length]
    rw [init.ring, ← init.descIndex]
    exact slots_written _ _ descNum
  refine ⟨?_, ?_, ?_, ?_, ?_⟩
  · have split := transferBuild_append cfg (req.remaining.take n) (req.remaining.drop n) req.epAddr
    rw [List.take_append_drop] at split
    rw [written, descriptors, split, init.remaining, init.epAddr]
    rfl
  · rw [written, init.descIndex, length]
    exact fits
  · rw [written]
    show _ = ((transferBuild cfg _ _).1.map Descriptor.bytes).sum
    rw [transferBuild_bytes]
    simp [transferInit, Engine.setTransfer, n]
  · rw [init.descIdx]
    exact Nat.mod_lt _ cfg.descMax_pos
  · rw [init.remaining, List.length_drop]
    omega

/-- By induction on the fuel: each round takes at least one piece, and what is left is the plan of the next. -/
theorem submitLoop_carried (fuel k done : Nat) (e : Engine) (req : Request) (cursor : e.descIdx < cfg.descMax)
    (enough : req.remaining.length < fuel) :
    ∃ s, submitLoop cfg outcome p fuel k done e req = .ok s ∧
      Carried cfg outcome (descriptors cfg req.remaining req.epAddr) done s := by
  induction fuel generalizing k done e req with
  | zero => omega
  | succ fuel ih =>
    by_cases left : req.remaining = []
    · refine ⟨⟨[], doneOr done 0⟩, ?_, ?_⟩
      · simp [submitLoop, left]
      · rw [left]
        exact carried_nil done
    have round := transferInit_round p false e req cursor left
    let next := transferInit cfg p false e req
    have inside := round.inside
    have fewer : next.2.remaining.length < fuel := by
      have less := round.fewer
      show (transferInit cfg p false e req).2.remaining.length < fuel
      omega
    rw [submitLoop, if_neg left, round.plan]
    cases result : outcome k with
    | completed =>
      obtain ⟨s, runs, later⟩ := ih (k + 1) (done + (next.1.tfer p).len) (retireTransfer p next.1) next.2 round.cursor
        fewer
      rw [round.len] at later
      refine ⟨_, ?_, carried_cons inside ⟨k, result⟩ later⟩
      simp only [bind, Except.bind, pure, Except.pure]
      rw [runs]
    | failed => exact ⟨_, rfl, carried_stopped (List.prefix_append _ _) inside ⟨k, result.symm⟩ (by simp)⟩
    | timedOut => exact ⟨_, rfl, carried_stopped (List.prefix_append _ _) inside ⟨k, result.symm⟩ (by simp)⟩
    | notQueued => exact ⟨_, rfl, carried_stopped (List.prefix_append _ _) inside ⟨k, result.symm⟩ (by simp)⟩

end Loop

section Whole

variable {b : Build} {cfg : EngineConfig} {sgt : MappedSg} {epAddr : BitVec 64}

theorem descriptors_hostBytes :
    (descriptors cfg (sgt.pieces b) epAddr.toNat).flatMap Descriptor.hostBytes = sgt.bytes := by
  rw [descriptors, transferBuild_hostBytes, sgt.pieces_bytes]

theorem descriptors_bytes :
    ((descriptors cfg (sgt.pieces b) epAddr.toNat).map Descriptor.bytes).sum = sgt.totalLen := by
  rw [sum_bytes, descriptors_hostBytes, sgt.bytes_length]

theorem descriptors_lengths :
    ∀ desc ∈ descriptors cfg (sgt.pieces b) epAddr.toNat, 1 ≤ desc.bytes ∧ desc.bytes ≤ b.descBlenMax := by
  intro desc member
  have length : desc.bytes ∈ (transferBuild cfg (sgt.pieces b) epAddr.toNat).1.map Descriptor.bytes :=
    List.mem_map_of_mem member
  rw [transferBuild_bytes] at length
  obtain ⟨piece, piece_mem, same⟩ := List.mem_map.mp length
  rw [← same]
  exact sgt.pieces_len piece piece_mem

theorem Carried.byteExact {oom : Bool} {outcome : Nat → Outcome} {s : Submitted}
    (carried : Carried cfg outcome (descriptors cfg (sgt.pieces b) epAddr.toNat) 0 s) : ByteExact b cfg oom sgt epAddr s where
  host := by
    have front := carried.built.flatMap Descriptor.hostBytes
    rwa [descriptors_hostBytes] at front
  incremental := by
    intro moving
    have front := carried.built.flatMap Descriptor.moves
    rwa [descriptors, transferBuild_incremental moving, sgt.pieces_bytes] at front
  nonIncremental := by
    intro fixed desc member
    exact transferBuild_nonIncremental fixed _ _ desc (carried.built.subset member)
  lengths := by
    intro desc member
    exact descriptors_lengths desc (carried.built.subset member)
  inside := carried.inside
  counted := by
    intro positive
    have ret := carried.counted positive
    have front := carried.completed.flatMap Descriptor.hostBytes
    rw [descriptors_hostBytes] at front
    have length : (s.completed.flatMap Descriptor.hostBytes).length = s.ret.toNat := by
      rw [← sum_bytes]
      omega
    constructor
    · have short := front.length_le
      rw [length, sgt.bytes_length] at short
      omega
    · rw [← length]
      exact List.prefix_iff_eq_take.mp front
  whole := by
    intro _ all
    rw [(carried.whole all).2, descriptors_bytes]
    omega

theorem xdmaInitRequest_fits (fits : TableFits b sgt) :
    xdmaInitRequest b false sgt epAddr = .ok (some ⟨sgt.pieces b, 0, epAddr.toNat⟩) := by
  obtain ⟨table, count⟩ := fits
  simp only [xdmaInitRequest, Bool.false_eq_true, if_false, sgt.pieces_length]
  rw [if_neg (not_lt.mpr table), if_neg (not_lt.mpr count)]

theorem xdmaInitRequest_req {oom : Bool} {req : Request}
    (init : xdmaInitRequest b oom sgt epAddr = .ok (some req)) : req = ⟨sgt.pieces b, 0, epAddr.toNat⟩ := by
  unfold xdmaInitRequest at init
  split at init
  · cases init
  · dsimp only at init
    split at init
    · cases init
    · split at init
      · cases init
      · cases init
        rfl

theorem xdmaXferSubmit_carried {e : Engine} {outcome : Nat → Outcome} (cursor : e.descIdx < cfg.descMax)
    (fits : TableFits b sgt) :
    ∃ s, xdmaXferSubmit b cfg false outcome e sgt epAddr = .ok s ∧
      Carried cfg outcome (descriptors cfg (sgt.pieces b) epAddr.toNat) 0 s := by
  rw [xdmaXferSubmit, xdmaInitRequest_fits fits]
  exact submitLoop_carried _ 0 0 e ⟨sgt.pieces b, 0, epAddr.toNat⟩ cursor (Nat.lt_succ_self _)

theorem xdmaXferSubmit_byteExact {e : Engine} {oom : Bool} {outcome : Nat → Outcome}
    (cursor : e.descIdx < cfg.descMax) (fits : TableFits b sgt) :
    ∃ s, xdmaXferSubmit b cfg oom outcome e sgt epAddr = .ok s ∧ ByteExact b cfg oom sgt epAddr s := by
  cases oom with
  | true =>
    refine ⟨⟨[], -enomem⟩, rfl, ?_⟩
    constructor <;> simp [Submitted.descs, enomem]
  | false =>
    obtain ⟨s, runs, carried⟩ := @xdmaXferSubmit_carried b cfg sgt epAddr e outcome cursor fits
    exact ⟨s, runs, carried.byteExact⟩

theorem xdmaInitRequest_overrun
    (short : (requestSize b (sgt.max b)).toNat < b.sizeofRequest + sgt.pieceCount b * sizeofSwDesc) :
    xdmaInitRequest b false sgt epAddr = .error .overrun := by
  simp only [xdmaInitRequest, Bool.false_eq_true, if_false, sgt.pieces_length]
  exact if_pos short

/-- A table that does not fit is written past its end, or is refused. -/
theorem xdmaInitRequest_unfit (unfit : ¬ TableFits b sgt) :
    xdmaInitRequest b false sgt epAddr = .error .overrun ∨ xdmaInitRequest b false sgt epAddr = .ok none := by
  by_cases table : b.sizeofRequest + sgt.pieceCount b * sizeofSwDesc ≤ (requestSize b (sgt.max b)).toNat
  · have count : ¬ (sgt.pieceCount b : Int) ≤ (sgt.max b).toInt := fun fits => unfit ⟨table, fits⟩
    right
    simp only [xdmaInitRequest, Bool.false_eq_true, if_false, sgt.pieces_length]
    rw [if_neg (not_lt.mpr table), if_pos (not_le.mp count)]
  · exact .inl (xdmaInitRequest_overrun (not_le.mp table))

/-- A call moves its list byte by byte, whatever becomes of its transfers, exactly if the table of pieces fits into
    the request that is allocated for it. Below 2 ^ 31 bytes the counters of the source, naturals here, do not wrap. -/
theorem byteExact_iff_tableFits (e : Engine) (cursor : e.descIdx < cfg.descMax) (small : sgt.totalLen < 2 ^ 31) :
    (∀ oom outcome, ∃ s, xdmaXferSubmit b cfg oom outcome e sgt epAddr = .ok s ∧ ByteExact b cfg oom sgt epAddr s) ↔
      TableFits b sgt := by
  constructor
  · intro exact
    by_contra unfit
    obtain ⟨s, runs, whole⟩ := exact false fun _ => .completed
    rcases @xdmaInitRequest_unfit b sgt epAddr unfit with overrun | refused
    · rw [xdmaXferSubmit, overrun] at runs
      cases runs
    · rw [xdmaXferSubmit, refused] at runs
      cases runs
      have negative := whole.whole rfl (by simp)
      unfold enomem at negative
      simp only at negative
      omega
  · intro fits oom outcome
    exact xdmaXferSubmit_byteExact cursor fits

end Whole

def usualBuild : Build where
  descBlenMax := 2 ^ 28 - 1
  sizeofRequest := 336
  descBlenMax_pos := by decide
  descBlenMax_lt := by decide

def oneByteBuild : Build := { usualBuild with descBlenMax := 1, descBlenMax_pos := by decide, descBlenMax_lt := by decide }

def shortList : MappedSg where
  entries := [⟨0x1000, 0⟩, ⟨0x2000, 5000⟩]
  mapped := by decide
  nents_lt := by decide

def longList : MappedSg where
  entries := [⟨0x1000, 0x10000000⟩]
  mapped := by decide
  nents_lt := by decide

theorem byteExact_shortList :
    idleDriver.engine.descIdx < mmEngine.descMax ∧ shortList.totalLen < 2 ^ 31 ∧
      ∃ s, xdmaXferSubmit usualBuild mmEngine false (fun _ => .completed) idleDriver.engine shortList 0x40 = .ok s ∧
        ByteExact usualBuild mmEngine false shortList 0x40 s := by
  have cursor : idleDriver.engine.descIdx < mmEngine.descMax := by decide
  have small : shortList.totalLen < 2 ^ 31 := by decide
  have fits : TableFits usualBuild shortList := by
    constructor
    · decide
    · decide
  exact ⟨cursor, small, (byteExact_iff_tableFits idleDriver.engine cursor small).mpr fits false _⟩

/-- With descriptors of one byte, the table of 256 MiB has 2 ^ 28 pieces of 16 bytes, and its size wraps around. -/
theorem longList_overrun :
    idleDriver.engine.descIdx < mmEngine.descMax ∧ longList.totalLen < 2 ^ 31 ∧
      xdmaXferSubmit oneByteBuild mmEngine false (fun _ => .completed) idleDriver.engine longList 0 = .error .overrun ∧
      ¬ ∃ s, xdmaXferSubmit oneByteBuild mmEngine false (fun _ => .completed) idleDriver.engine longList 0 = .ok s ∧
        ByteExact oneByteBuild mmEngine false longList 0 s := by
  have overrun :
      xdmaXferSubmit oneByteBuild mmEngine false (fun _ => .completed) idleDriver.engine longList 0 =
        .error .overrun := by
    have short : (requestSize oneByteBuild (longList.max oneByteBuild)).toNat <
        oneByteBuild.sizeofRequest + longList.pieceCount oneByteBuild * sizeofSwDesc := by decide
    rw [xdmaXferSubmit, xdmaInitRequest_overrun short]
    rfl
  refine ⟨by decide, by decide, overrun, ?_⟩
  intro exact
  obtain ⟨s, runs, -⟩ := exact
  rw [overrun] at runs
  cases runs

end CigCard.Xdma
