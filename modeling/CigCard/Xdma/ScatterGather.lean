import CigCard.Xdma.Driver

namespace CigCard.Xdma

structure SgEntry where
  dmaAddress : BitVec 64
  dmaLen : BitVec 32

structure MappedSg where
  entries : List SgEntry
  mapped : entries ≠ []
  nents_lt : entries.length < 2 ^ 31

/-- The module parameter `desc_blen_max`, and `sizeof(struct xdma_request_cb)` in this build. -/
structure Build where
  descBlenMax : Nat
  sizeofRequest : Nat
  descBlenMax_pos : 0 < descBlenMax
  descBlenMax_lt : descBlenMax < 2 ^ 32

def sizeofSwDesc : Nat := 16

def byteRun (addr len : Nat) : List Nat := (List.range len).map fun k => (addr + k) % 2 ^ 64

def SgEntry.bytes (entry : SgEntry) : List Nat := byteRun entry.dmaAddress.toNat entry.dmaLen.toNat

def MappedSg.bytes (sgt : MappedSg) : List Nat := sgt.entries.flatMap SgEntry.bytes

def MappedSg.totalLen (sgt : MappedSg) : Nat := (sgt.entries.map fun entry => entry.dmaLen.toNat).sum

def SwDesc.bytes (piece : SwDesc) : List Nat := byteRun piece.addr piece.len

def splitEntry (b : Build) (addr tlen : Nat) : List SwDesc :=
  if tlen = 0 then []
  else if tlen > b.descBlenMax then
    ⟨addr, b.descBlenMax⟩ :: splitEntry b ((addr + b.descBlenMax) % 2 ^ 64) (tlen - b.descBlenMax)
  else [⟨addr, tlen⟩]
termination_by tlen
decreasing_by
  have := b.descBlenMax_pos
  omega

def MappedSg.pieces (b : Build) (sgt : MappedSg) : List SwDesc :=
  sgt.entries.flatMap fun entry => splitEntry b entry.dmaAddress.toNat entry.dmaLen.toNat

def extraPieces (b : Build) (len : Nat) : Nat :=
  if len > b.descBlenMax then (len + b.descBlenMax - 1) % 2 ^ 32 / b.descBlenMax else 0

def MappedSg.max (b : Build) (sgt : MappedSg) : BitVec 32 :=
  BitVec.ofNat 32 (sgt.entries.length + (sgt.entries.map fun entry => extraPieces b entry.dmaLen.toNat).sum)

def requestSize (b : Build) (sdescNr : BitVec 32) : BitVec 32 :=
  BitVec.ofNat 32 (b.sizeofRequest + sdescNr.toNat * sizeofSwDesc)

inductive Fault where
  | overrun
  | outOfFuel
deriving DecidableEq

def xdmaInitRequest (b : Build) (oom : Bool) (sgt : MappedSg) (epAddr : BitVec 64) : Except Fault (Option Request) :=
  if oom then .ok none
  else
    let sdesc := sgt.pieces b
    if (requestSize b (sgt.max b)).toNat < b.sizeofRequest + sdesc.length * sizeofSwDesc then .error .overrun
    else if (sgt.max b).toInt < sdesc.length then .ok none
    else .ok (some ⟨sdesc, 0, epAddr.toNat⟩)

def eio : Int := 5
def enomem : Int := 12
def ebusy : Int := 16
def erestartsys : Int := 512

inductive Outcome where
  | completed
  | failed
  | timedOut
  | notQueued
deriving DecidableEq

/-- History: a transfer as `transfer_init` left it, and what became of it. -/
structure BuiltTransfer where
  descIndex : Nat
  descs : List Descriptor
  outcome : Outcome

structure Submitted where
  transfers : List BuiltTransfer
  ret : Int

def doneOr (done : Nat) (rv : Int) : Int := if done ≠ 0 then done else rv

def retireTransfer (p : Ptr) (e : Engine) : Engine :=
  { e with ring := xdmaDescDone (e.tfer p) e.ring, descUsed := e.descUsed - (e.tfer p).descNum }

/-- The loop of `xdma_xfer_submit` on a memory-mapped engine that no other call uses; transfer `k` has the outcome
    `outcome k`. -/
def submitLoop (cfg : EngineConfig) (outcome : Nat → Outcome) (p : Ptr) :
    Nat → Nat → Nat → Engine → Request → Except Fault Submitted
  | 0, _, _, _, _ => .error .outOfFuel
  | fuel + 1, k, done, e, req =>
    if req.remaining = [] then .ok ⟨[], doneOr done 0⟩
    else
      let next := transferInit cfg p false e req
      let t := next.1.tfer p
      let xfer : BuiltTransfer := ⟨t.descIndex, slots next.1.ring t, outcome k⟩
      match outcome k with
      | .completed => do
        let rest ← submitLoop cfg outcome p fuel (k + 1) (done + t.len) (retireTransfer p next.1) next.2
        return { rest with transfers := xfer :: rest.transfers }
      | .failed => .ok ⟨[xfer], doneOr done (-eio)⟩
      | .timedOut => .ok ⟨[xfer], doneOr done (-erestartsys)⟩
      | .notQueued => .ok ⟨[xfer], doneOr done (-ebusy)⟩

/-- A transfer takes at least one piece, so that one more round than there are pieces is enough. -/
def xdmaXferSubmit (b : Build) (cfg : EngineConfig) (oom : Bool) (outcome : Nat → Outcome) (e : Engine)
    (sgt : MappedSg) (epAddr : BitVec 64) : Except Fault Submitted := do
  match ← xdmaInitRequest b oom sgt epAddr with
  | none => return ⟨[], -enomem⟩
  | some req => submitLoop cfg outcome ⟨0, 0⟩ (req.sdesc.length + 1) 0 0 e req

def MappedSg.pieceCount (b : Build) (sgt : MappedSg) : Nat :=
  (sgt.entries.map fun entry => (entry.dmaLen.toNat + b.descBlenMax - 1) / b.descBlenMax).sum

section Splitting

variable {b : Build}

@[simp]
theorem byteRun_length (addr len : Nat) : (byteRun addr len).length = len := by
  simp [byteRun]

theorem byteRun_append (addr m n : Nat) :
    byteRun addr m ++ byteRun ((addr + m) % 2 ^ 64) n = byteRun addr (m + n) := by
  unfold byteRun
  rw [List.range_add, List.map_append, List.map_map]
  congr 1
  apply List.map_congr_left
  intro k _
  show ((addr + m) % 2 ^ 64 + k) % 2 ^ 64 = (addr + (m + k)) % 2 ^ 64
  omega

theorem splitEntry_bytes (addr tlen : Nat) : (splitEntry b addr tlen).flatMap SwDesc.bytes = byteRun addr tlen := by
  fun_induction splitEntry b addr tlen with
  | case1 addr => rfl
  | case2 addr tlen _ long ih =>
    have whole : b.descBlenMax + (tlen - b.descBlenMax) = tlen := by omega
    rw [List.flatMap_cons, ih]
    show byteRun addr b.descBlenMax ++ _ = _
    rw [byteRun_append, whole]
  | case3 addr tlen _ short => simp [SwDesc.bytes]

theorem splitEntry_length (addr tlen : Nat) :
    (splitEntry b addr tlen).length = (tlen + b.descBlenMax - 1) / b.descBlenMax := by
  have pos := b.descBlenMax_pos
  fun_induction splitEntry b addr tlen with
  | case1 addr =>
    rw [Nat.zero_add, Nat.div_eq_of_lt (by omega)]
    rfl
  | case2 addr tlen _ long ih =>
    rw [List.length_cons, ih, ← Nat.add_div_right _ pos]
    congr 1
    omega
  | case3 addr tlen nonempty short =>
    have one : tlen + b.descBlenMax - 1 = tlen - 1 + b.descBlenMax := by omega
    rw [one, Nat.add_div_right _ pos, Nat.div_eq_of_lt (by omega)]
    rfl

theorem splitEntry_len (addr tlen : Nat) :
    ∀ piece ∈ splitEntry b addr tlen, 1 ≤ piece.len ∧ piece.len ≤ b.descBlenMax := by
  have pos := b.descBlenMax_pos
  fun_induction splitEntry b addr tlen with
  | case1 addr => simp
  | case2 addr tlen _ long ih =>
    intro piece member
    rcases List.mem_cons.mp member with rfl | later
    · exact ⟨pos, Nat.le_refl _⟩
    · exact ih piece later
  | case3 addr tlen nonempty short =>
    intro piece member
    rw [List.mem_singleton.mp member]
    show 1 ≤ tlen ∧ tlen ≤ b.descBlenMax
    omega

theorem MappedSg.pieces_bytes (sgt : MappedSg) : (sgt.pieces b).flatMap SwDesc.bytes = sgt.bytes := by
  unfold MappedSg.pieces MappedSg.bytes
  rw [List.flatMap_assoc]
  congr 1
  funext entry
  exact splitEntry_bytes _ _

theorem MappedSg.pieces_len (sgt : MappedSg) :
    ∀ piece ∈ sgt.pieces b, 1 ≤ piece.len ∧ piece.len ≤ b.descBlenMax := by
  intro piece member
  obtain ⟨entry, -, split⟩ := List.mem_flatMap.mp member
  exact splitEntry_len _ _ piece split

theorem MappedSg.pieces_length (sgt : MappedSg) : (sgt.pieces b).length = sgt.pieceCount b := by
  unfold MappedSg.pieces MappedSg.pieceCount
  rw [List.length_flatMap]
  congr 1
  apply List.map_congr_left
  intro entry _
  exact splitEntry_length _ _

theorem MappedSg.bytes_length (sgt : MappedSg) : sgt.bytes.length = sgt.totalLen := by
  unfold MappedSg.bytes MappedSg.totalLen
  rw [List.length_flatMap]
  simp [SgEntry.bytes]

end Splitting

end CigCard.Xdma
