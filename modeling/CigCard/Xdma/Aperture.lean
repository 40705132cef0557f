import CigCard.Xdma.ScatterGather
import CigCard.Xdma.WriterDescriptors

namespace CigCard.Xdma

structure Window where
  epAddr : Nat
  aperture : Nat
  maxlen : Nat
  epAddr_lt : epAddr < 2 ^ 64
  aperture_lt : aperture < 2 ^ 32
  maxlen_le : maxlen ≤ aperture
  maxlen_pos : 0 < aperture → 0 < maxlen

def Window.epAddrMax (w : Window) : Nat := (w.epAddr + w.aperture + 2 ^ 64 - 1) % 2 ^ 64

def apertureWindow (b : Build) (epAddr : BitVec 64) (aperture : BitVec 32) : Window where
  epAddr := epAddr.toNat
  aperture := aperture.toNat
  maxlen := min aperture.toNat b.descBlenMax
  epAddr_lt := epAddr.isLt
  aperture_lt := aperture.isLt
  maxlen_le := Nat.min_le_left _ _
  maxlen_pos := fun positive => Nat.lt_min.mpr ⟨positive, b.descBlenMax_pos⟩

/-- The fields of a `struct xdma_request_cb` that `xdma_xfer_aperture` uses. `sg` is the entry that the pointer of
    the same name points to, and the entries that `sg_next` gives after it. -/
structure ApertureRequest where
  totalLen : Nat
  offset : Nat
  sg : List SgEntry
  sgIdx : Nat
  sgOffset : Nat

structure Cursor where
  offset : Nat
  sgOffset : Nat
  epAddr : Nat

/-- History: a pass of the `while` loop, with the device address and the rest of the entry that it began with. -/
structure Pass where
  epAddr : Nat
  tlen : Nat
  desc : Descriptor
deriving DecidableEq

def Window.wrap (w : Window) (epAddr : Nat) : Nat := if epAddr > w.epAddrMax then w.epAddr else epAddr

def cutPiece (w : Window) (epAddr addr tlen : Nat) : Descriptor :=
  let len := min tlen w.maxlen
  let epAddr := w.wrap epAddr
  let len := if (epAddr + len) % 2 ^ 64 > w.epAddrMax then (w.epAddrMax + 2 ^ 64 - epAddr + 1) % 2 ^ 64 % 2 ^ 32 else len
  ⟨addr, epAddr, len⟩

structure Cut where
  passes : List Pass
  cursor : Cursor
  tlen : Nat
  room : Nat

def cutEntry (w : Window) : Nat → Cursor → Nat → Nat → Cut
  | 0, c, _, tlen => ⟨[], c, tlen, 0⟩
  | room + 1, c, addr, tlen =>
    if tlen = 0 then ⟨[], c, tlen, room + 1⟩
    else
      let desc := cutPiece w c.epAddr addr tlen
      let cut := cutEntry w room
        ⟨(c.offset + desc.bytes) % 2 ^ 32, (c.sgOffset + desc.bytes) % 2 ^ 32, (desc.epAddr + desc.bytes) % 2 ^ 64⟩
        ((addr + desc.bytes) % 2 ^ 64) ((tlen + 2 ^ 32 - desc.bytes) % 2 ^ 32)
      { cut with passes := ⟨c.epAddr, tlen, desc⟩ :: cut.passes }

structure Built where
  passes : List Pass
  cursor : Cursor
  sgIdx : Nat

def buildEntries (w : Window) (sgMax : Nat) : List SgEntry → Nat → Nat → Cursor → Built
  | [], i, _, c => ⟨[], c, i⟩
  | entry :: sg, i, room, c =>
    if i < sgMax ∧ 0 < room then
      let cut := cutEntry w room c ((entry.dmaAddress.toNat + c.sgOffset) % 2 ^ 64)
        ((entry.dmaLen.toNat + 2 ^ 32 - c.sgOffset) % 2 ^ 32)
      if cut.tlen = 0 then
        let built := buildEntries w sgMax sg (i + 1) cut.room { cut.cursor with sgOffset := 0 }
        { built with passes := cut.passes ++ built.passes }
      else ⟨cut.passes, cut.cursor, i⟩
    else ⟨[], c, i⟩

def buildTransfer (w : Window) (sgMax room : Nat) (req : ApertureRequest) : Built :=
  let epAddr := (w.epAddr + (req.offset &&& (w.aperture + 2 ^ 32 - 1) % 2 ^ 32)) % 2 ^ 64
  buildEntries w sgMax req.sg req.sgIdx room ⟨req.offset, req.sgOffset, epAddr⟩

/-- The request after a transfer. `req->sg` stays as it is. -/
def ApertureRequest.advance (req : ApertureRequest) (built : Built) : ApertureRequest :=
  { req with offset := built.cursor.offset, sgOffset := built.cursor.sgOffset, sgIdx := built.sgIdx }

def Built.descs (built : Built) : List Descriptor := built.passes.map Pass.desc

def apertureInit (cfg : EngineConfig) (p : Ptr) (e : Engine) (req : ApertureRequest) (built : Built) : Engine :=
  let descCnt := built.passes.length
  let transfer : Transfer :=
    { descIndex := e.descIdx
      descNum := descCnt
      descCmpl := 0
      state := .new
      eopRcvd := false
      cyclic := false
      lastInRequest := decide (built.cursor.offset = req.totalLen)
      len := (built.descs.map Descriptor.bytes).sum % 2 ^ 32
      cb := false }
  { e with
    ring := writeRing e.ring e.descIdx built.descs
    descIdx := (e.descIdx + descCnt) % cfg.descMax
    descUsed := e.descUsed + descCnt }.setTransfer p transfer

/-- History: a pass of the loop over the transfers, with the request before and after its descriptors were built. -/
structure ApertureTransfer where
  req : ApertureRequest
  next : ApertureRequest
  passes : List Pass
  xfer : BuiltTransfer

/-- How the call ends. A transfer of no descriptors is a fault: the loop that links its descriptors counts to
    `desc_cnt - 1`, which is not negative in 32 bits, and runs over the end of the ring. -/
inductive ApertureEnd where
  | returned (ret : Int)
  | fault (fault : Fault)
deriving DecidableEq

structure ApertureRun where
  transfers : List ApertureTransfer
  ended : ApertureEnd
  req : ApertureRequest

def apertureLoop (cfg : EngineConfig) (w : Window) (sgMax : Nat) (outcome : Nat → Outcome) (p : Ptr) :
    Nat → Nat → Nat → Engine → ApertureRequest → ApertureRun
  | 0, _, _, _, req => ⟨[], .fault .outOfFuel, req⟩
  | fuel + 1, k, done, e, req =>
    if req.offset < req.totalLen then
      let built := buildTransfer w sgMax (cfg.descMax - e.descIdx) req
      let after := req.advance built
      if built.passes = [] then ⟨[⟨req, after, [], ⟨e.descIdx, [], .notQueued⟩⟩], .fault .overrun, after⟩
      else
        let next := apertureInit cfg p e req built
        let t := next.tfer p
        let transfer : ApertureTransfer := ⟨req, after, built.passes, ⟨t.descIndex, slots next.ring t, outcome k⟩⟩
        match outcome k with
        | .completed =>
          let rest := apertureLoop cfg w sgMax outcome p fuel (k + 1) (done + t.len) (retireTransfer p next)
            after
          { rest with transfers := transfer :: rest.transfers }
        | .failed => ⟨[transfer], .returned (doneOr done (-eio)), after⟩
        | .timedOut => ⟨[transfer], .returned (doneOr done (-erestartsys)), after⟩
        | .notQueued => ⟨[transfer], .returned (doneOr done (-ebusy)), after⟩
    else ⟨[], .returned (doneOr done 0), req⟩

def apertureRequest (sgt : MappedSg) : ApertureRequest := ⟨sgt.totalLen % 2 ^ 32, 0, sgt.entries, 0, 0⟩

def xdmaXferAperture (b : Build) (cfg : EngineConfig) (oom : Bool) (outcome : Nat → Outcome) (fuel : Nat) (e : Engine)
    (epAddr : BitVec 64) (aperture : BitVec 32) (sgt : MappedSg) : ApertureRun :=
  if oom then ⟨[], .returned (-enomem), apertureRequest sgt⟩
  else apertureLoop cfg (apertureWindow b epAddr aperture) sgt.entries.length outcome ⟨0, 0⟩ fuel 0 0 e (apertureRequest sgt)

/-- A pass that cuts more off an entry than is left of it. This takes a window that runs over the end of the address
    space: what is left of it is then computed from its first byte, and is the whole aperture. -/
def Overshoots (w : Window) (epAddr tlen : Nat) : Prop :=
  w.epAddrMax < epAddr ∧ w.epAddrMax < w.epAddr ∧ w.epAddr + min tlen w.maxlen < 2 ^ 64 ∧ tlen < w.aperture

instance (w : Window) (epAddr tlen : Nat) : Decidable (Overshoots w epAddr tlen) :=
  inferInstanceAs (Decidable (_ ∧ _ ∧ _ ∧ _))

section Pieces

variable {w : Window} {epAddr addr tlen : Nat}

theorem cutPiece_within (inside : w.wrap epAddr ≤ w.epAddrMax) :
    (cutPiece w epAddr addr tlen).bytes ≤ min tlen w.maxlen := by
  have small := w.aperture_lt
  have short := w.maxlen_le
  have top : w.epAddrMax < 2 ^ 64 := Nat.mod_lt _ (by decide)
  unfold cutPiece
  dsimp only
  split
  · omega
  · exact Nat.le_refl _

theorem cutPiece_around (positive : 0 < w.aperture) (past : w.epAddrMax < epAddr) (around : w.epAddrMax < w.epAddr) :
    (cutPiece w epAddr addr tlen).bytes =
      if w.epAddr + min tlen w.maxlen < 2 ^ 64 then w.aperture else min tlen w.maxlen := by
  have small := w.aperture_lt
  have low := w.epAddr_lt
  have short := w.maxlen_le
  have restart : w.wrap epAddr = w.epAddr := if_pos past
  have top : w.epAddrMax + 2 ^ 64 = w.epAddr + w.aperture - 1 := by
    unfold Window.epAddrMax at *
    omega
  unfold cutPiece
  rw [restart]
  dsimp only
  split
  · split
    · omega
    · omega
  · split
    · omega
    · rfl

theorem Window.wrap_cases (w : Window) (epAddr : Nat) :
    w.wrap epAddr ≤ w.epAddrMax ∨ w.epAddrMax < epAddr ∧ w.epAddrMax < w.epAddr := by
  unfold Window.wrap
  split
  · next past =>
    by_cases around : w.epAddrMax < w.epAddr
    · exact .inr ⟨past, around⟩
    · exact .inl (Nat.le_of_not_lt around)
  · next before => exact .inl (Nat.le_of_not_lt before)

theorem cutPiece_overshoots (positive : 0 < w.aperture) :
    tlen < (cutPiece w epAddr addr tlen).bytes ↔ Overshoots w epAddr tlen := by
  rcases w.wrap_cases epAddr with inside | ⟨past, around⟩
  · have less := @cutPiece_within w epAddr addr tlen inside
    constructor
    · intro more
      omega
    · rintro ⟨past, around, -⟩
      rw [Window.wrap, if_pos past] at inside
      exact absurd inside (Nat.not_le_of_lt around)
  · rw [cutPiece_around positive past around]
    split
    · next fits => exact ⟨fun more => ⟨past, around, fits, more⟩, fun exceeds => exceeds.2.2.2⟩
    · next wraps =>
      constructor
      · intro more
        omega
      · intro exceeds
        exact absurd exceeds.2.2.1 wraps

theorem cutPiece_pos (positive : 0 < w.aperture) (some_left : 0 < tlen) :
    0 < (cutPiece w epAddr addr tlen).bytes := by
  have some_max := w.maxlen_pos positive
  rcases w.wrap_cases epAddr with inside | ⟨past, around⟩
  · have small := w.aperture_lt
    have short := w.maxlen_le
    unfold cutPiece
    dsimp only
    split
    · omega
    · omega
  · rw [cutPiece_around positive past around]
    split
    · exact positive
    · omega

theorem cutPiece_zero (zero : w.aperture = 0) : (cutPiece w epAddr addr tlen).bytes = 0 := by
  have short := w.maxlen_le
  have low := w.epAddr_lt
  have top : w.epAddrMax < 2 ^ 64 := Nat.mod_lt _ (by decide)
  have none : min tlen w.maxlen = 0 := by omega
  unfold cutPiece
  rw [none]
  rcases w.wrap_cases epAddr with inside | ⟨past, around⟩
  · dsimp only
    split
    · omega
    · rfl
  · have last : w.epAddrMax + 1 = w.epAddr := by
      unfold Window.epAddrMax at *
      omega
    have restart : w.wrap epAddr = w.epAddr := if_pos past
    rw [restart]
    dsimp only
    split
    · omega
    · rfl

end Pieces

section Passes

variable {w : Window}

def Pass.OfLoop (w : Window) (pass : Pass) : Prop :=
  pass.tlen ≠ 0 ∧ ∃ addr, pass.desc = cutPiece w pass.epAddr addr pass.tlen

theorem cutEntry_ofLoop (room : Nat) (c : Cursor) (addr tlen : Nat) :
    ∀ pass ∈ (cutEntry w room c addr tlen).passes, pass.OfLoop w := by
  induction room generalizing c addr tlen with
  | zero => exact List.forall_mem_nil _
  | succ room ih =>
    unfold cutEntry
    split
    · exact List.forall_mem_nil _
    · next more => exact List.forall_mem_cons.mpr ⟨⟨more, addr, rfl⟩, ih _ _ _⟩

theorem buildEntries_ofLoop {sgMax : Nat} (sg : List SgEntry) (i room : Nat) (c : Cursor) :
    ∀ pass ∈ (buildEntries w sgMax sg i room c).passes, pass.OfLoop w := by
  induction sg generalizing i room c with
  | nil => exact List.forall_mem_nil _
  | cons entry sg ih =>
    unfold buildEntries
    split
    · dsimp only
      split
      · intro pass member
        rcases List.mem_append.mp member with first | later
        · exact cutEntry_ofLoop _ _ _ _ pass first
        · exact ih _ _ _ pass later
      · exact cutEntry_ofLoop _ _ _ _
    · exact List.forall_mem_nil _

theorem Pass.OfLoop.pos {pass : Pass} (ofLoop : pass.OfLoop w) (positive : 0 < w.aperture) : 0 < pass.desc.bytes := by
  obtain ⟨more, addr, cut⟩ := ofLoop
  rw [cut]
  exact cutPiece_pos positive (Nat.pos_of_ne_zero more)

end Passes

section Loop

variable {cfg : EngineConfig} {w : Window} {sgMax : Nat} {outcome : Nat → Outcome} {p : Ptr} {fuel k done : Nat}
  {e : Engine} {req : ApertureRequest}

theorem apertureInit_slots (built : Built) :
    slots (apertureInit cfg p e req built).ring ((apertureInit cfg p e req built).tfer p) = built.descs := by
  have descNum : ((apertureInit cfg p e req built).tfer p).descNum = built.descs.length := by
    simp [apertureInit, Engine.setTransfer, Built.descs]
  have descIndex : ((apertureInit cfg p e req built).tfer p).descIndex = e.descIdx := by
    simp [apertureInit, Engine.setTransfer]
  have written := slots_written e.ring built.descs descNum
  rwa [descIndex] at written

def nextTransfer (cfg : EngineConfig) (w : Window) (sgMax : Nat) (outcome : Outcome) (p : Ptr) (e : Engine)
    (req : ApertureRequest) : ApertureTransfer :=
  let built := buildTransfer w sgMax (cfg.descMax - e.descIdx) req
  let t := (apertureInit cfg p e req built).tfer p
  ⟨req, req.advance built, built.passes, ⟨t.descIndex, slots (apertureInit cfg p e req built).ring t, outcome⟩⟩

theorem apertureLoop_ended (ended : ¬ req.offset < req.totalLen) :
    apertureLoop cfg w sgMax outcome p (fuel + 1) k done e req = ⟨[], .returned (doneOr done 0), req⟩ := by
  rw [apertureLoop, if_neg ended]

theorem apertureLoop_fault (more : req.offset < req.totalLen)
    (nothing : (buildTransfer w sgMax (cfg.descMax - e.descIdx) req).passes = []) :
    apertureLoop cfg w sgMax outcome p (fuel + 1) k done e req =
      ⟨[⟨req, req.advance (buildTransfer w sgMax (cfg.descMax - e.descIdx) req), [], ⟨e.descIdx, [], .notQueued⟩⟩],
        .fault .overrun, req.advance (buildTransfer w sgMax (cfg.descMax - e.descIdx) req)⟩ := by
  rw [apertureLoop, if_pos more]
  dsimp only
  rw [if_pos nothing]

theorem apertureLoop_stops (more : req.offset < req.totalLen)
    (something : (buildTransfer w sgMax (cfg.descMax - e.descIdx) req).passes ≠ []) (stops : outcome k ≠ .completed) :
    ∃ ret, apertureLoop cfg w sgMax outcome p (fuel + 1) k done e req =
      ⟨[nextTransfer cfg w sgMax (outcome k) p e req], .returned ret,
        req.advance (buildTransfer w sgMax (cfg.descMax - e.descIdx) req)⟩ := by
  rw [apertureLoop, if_pos more]
  dsimp only
  rw [if_neg something]
  cases result : outcome k with
  | completed => exact absurd result stops
  | failed => exact ⟨_, rfl⟩
  | timedOut => exact ⟨_, rfl⟩
  | notQueued => exact ⟨_, rfl⟩

theorem apertureLoop_step (more : req.offset < req.totalLen)
    (something : (buildTransfer w sgMax (cfg.descMax - e.descIdx) req).passes ≠ []) (completes : outcome k = .completed) :
    ∃ (later : Nat) (idle : Engine),
      idle.descIdx = (e.descIdx + (buildTransfer w sgMax (cfg.descMax - e.descIdx) req).passes.length) % cfg.descMax ∧
      ∀ fuel, apertureLoop cfg w sgMax outcome p (fuel + 1) k done e req =
        { apertureLoop cfg w sgMax outcome p fuel (k + 1) later idle
            (req.advance (buildTransfer w sgMax (cfg.descMax - e.descIdx) req)) with
          transfers := nextTransfer cfg w sgMax .completed p e req ::
            (apertureLoop cfg w sgMax outcome p fuel (k + 1) later idle
              (req.advance (buildTransfer w sgMax (cfg.descMax - e.descIdx) req))).transfers } := by
  let queued := apertureInit cfg p e req (buildTransfer w sgMax (cfg.descMax - e.descIdx) req)
  refine ⟨done + (queued.tfer p).len, retireTransfer p queued, rfl, ?_⟩
  intro fuel
  rw [apertureLoop, if_pos more]
  dsimp only
  rw [if_neg something, completes]
  rfl

/-- Once the loop has returned, following it for another number of passes shows no other transfers. -/
theorem apertureLoop_front {ret : Int}
    (returned : (apertureLoop cfg w sgMax outcome p fuel k done e req).ended = .returned ret) (other : Nat) :
    (apertureLoop cfg w sgMax outcome p other k done e req).transfers <+:
      (apertureLoop cfg w sgMax outcome p fuel k done e req).transfers := by
  induction other generalizing fuel k done e req with
  | zero => exact List.nil_prefix
  | succ other ih =>
    cases fuel with
    | zero => cases returned
    | succ fuel =>
      by_cases more : req.offset < req.totalLen
      · by_cases something : (buildTransfer w sgMax (cfg.descMax - e.descIdx) req).passes = []
        · rw [apertureLoop_fault more something] at returned
          cases returned
        · by_cases completes : outcome k = .completed
          · obtain ⟨later, idle, -, step⟩ :=
              @apertureLoop_step cfg w sgMax outcome p k done e req more something completes
            rw [step] at returned ⊢
            rw [step]
            exact List.cons_prefix_cons.mpr ⟨rfl, ih returned⟩
          · obtain ⟨first, stops⟩ :=
              @apertureLoop_stops cfg w sgMax outcome p fuel k done e req more something completes
            obtain ⟨second, also⟩ :=
              @apertureLoop_stops cfg w sgMax outcome p other k done e req more something completes
            rw [stops, also]
      · rw [@apertureLoop_ended cfg w sgMax outcome p other k done e req more]
        exact List.nil_prefix

end Loop

end CigCard.Xdma
