import CigCard.Xdma.Engine

namespace CigCard.Xdma

structure SwDesc where
  addr : Nat
  len : Nat
deriving DecidableEq

/-- A `struct xdma_request_cb`: its table of pieces, the next one to build, and the device address it goes to. -/
structure Request where
  sdesc : List SwDesc
  swDescIdx : Nat
  epAddr : Nat

def Request.remaining (req : Request) : List SwDesc := req.sdesc.drop req.swDescIdx

def transferBuild (cfg : EngineConfig) : List SwDesc → Nat → List Descriptor × Nat
  | [], epAddr => ([], epAddr)
  | piece :: pieces, epAddr =>
    let (descs, next) :=
      transferBuild cfg pieces (if cfg.nonIncrAddr then epAddr else (epAddr + piece.len) % 2 ^ 64)
    (⟨piece.addr, epAddr, piece.len⟩ :: descs, next)

def writeRing (ring : Nat → Descriptor) (start : Nat) (descs : List Descriptor) : Nat → Descriptor :=
  fun k => if start ≤ k then (descs[k - start]?).getD (ring k) else ring k

def nextDescNum (cfg : EngineConfig) (e : Engine) (req : Request) : Nat :=
  let descMax := min req.remaining.length cfg.descMax
  if e.descIdx + descMax ≥ cfg.descMax then cfg.descMax - e.descIdx else descMax

/-- `transfer_init` of a transfer at `p`, and what its callers then set: the callback and the mark of the last
    transfer. -/
def transferInit (cfg : EngineConfig) (p : Ptr) (cb : Bool) (e : Engine) (req : Request) : Engine × Request :=
  let descNum := nextDescNum cfg e req
  let pieces := req.remaining.take descNum
  let (descs, epAddr) := transferBuild cfg pieces req.epAddr
  let transfer : Transfer :=
    { descIndex := e.descIdx
      descNum
      descCmpl := 0
      state := .new
      eopRcvd := false
      cyclic := false
      lastInRequest := decide (req.remaining.length = descNum)
      len := (pieces.map SwDesc.len).sum
      cb }
  ({ e with
      ring := writeRing e.ring e.descIdx descs
      descIdx := (e.descIdx + descNum) % cfg.descMax
      descUsed := e.descUsed + descNum }.setTransfer p transfer,
    { req with swDescIdx := req.swDescIdx + descNum, epAddr })

def xdmaDescDone (t : Transfer) (ring : Nat → Descriptor) : Nat → Descriptor :=
  writeRing ring t.descIndex (List.replicate t.descNum ⟨0, 0, 0⟩)

def transferAbort (p : Ptr) (e : Engine) : Engine :=
  let e :=
    match e.transferList with
    | head :: rest => if head = p then { e with transferList := rest } else e
    | [] => e
  if (e.tfer p).state = .submitted then e.setTransfer p { e.tfer p with state := .aborted } else e

def transferQueue (hw : Hardware) (p : Ptr) (e : Engine) : Option Engine :=
  if e.shutdownRequest then none
  else
    let e := { e with transferList := e.transferList ++ [p] }.setTransfer p { e.tfer p with state := .submitted }
    if e.running = false then some ((engineStart hw e).getD e) else some e

end CigCard.Xdma
