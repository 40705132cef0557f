import Mathlib.Data.List.Basic
import Mathlib.Data.BitVec

namespace CigCard.Xdma

inductive Direction where
  | toDevice
  | fromDevice
deriving DecidableEq

def xdmaStatBusy : BitVec 32 := 1#32 <<< 0
def xdmaStatDescStopped : BitVec 32 := 1#32 <<< 1
def xdmaStatDescCompleted : BitVec 32 := 1#32 <<< 2
def xdmaStatAlignMismatch : BitVec 32 := 1#32 <<< 3
def xdmaStatMagicStopped : BitVec 32 := 1#32 <<< 4
def xdmaStatInvalidLen : BitVec 32 := 1#32 <<< 5

def xdmaStatCommonErrMask : BitVec 32 := xdmaStatAlignMismatch ||| xdmaStatMagicStopped ||| xdmaStatInvalidLen

def xdmaStatDescErrMask : BitVec 32 := 0x1F#32 <<< 19

def xdmaStatH2cRErrMask : BitVec 32 := 0x1F#32 <<< 9

def xdmaStatH2cWErrMask : BitVec 32 := 0x3#32 <<< 14

def xdmaStatC2hRErrMask : BitVec 32 := 0x3#32 <<< 9

def xdmaStatH2cErrMask : BitVec 32 :=
  xdmaStatCommonErrMask ||| xdmaStatDescErrMask ||| xdmaStatH2cRErrMask ||| xdmaStatH2cWErrMask

def xdmaStatC2hErrMask : BitVec 32 := xdmaStatCommonErrMask ||| xdmaStatDescErrMask ||| xdmaStatC2hRErrMask

def wbCountMask : BitVec 32 := 0x00ffffff
def wbErrMask : BitVec 32 := 1#32 <<< 31
def rxStatusEop : BitVec 32 := 1

inductive TransferState where
  | new
  | submitted
  | completed
  | failed
  | aborted
deriving DecidableEq

/-- Where a `struct xdma_transfer` lives: the memory block it is part of, and its place in `tfer` there. -/
structure Ptr where
  block : Nat
  tfer : Nat
deriving DecidableEq

/-- A `struct xdma_transfer`. `cb` says whether it has a completion callback, `eopRcvd` is the flag
    `XFER_FLAG_ST_C2H_EOP_RCVED`. -/
structure Transfer where
  descIndex : Nat
  descNum : Nat
  descCmpl : Nat
  state : TransferState
  eopRcvd : Bool
  cyclic : Bool
  lastInRequest : Bool
  len : Nat
  cb : Bool

structure Descriptor where
  hostAddr : Nat
  epAddr : Nat
  bytes : Nat
deriving DecidableEq

structure Result where
  status : BitVec 32
  length : Nat

structure PerfRun where
  iterations : Nat
  stopped : Bool

structure EngineConfig where
  dir : Direction
  eopFlush : Bool
  nonIncrAddr : Bool
  descMax : Nat
  descMax_pos : 0 < descMax

/-- A `struct xdma_engine` with the transfers and descriptors it reaches. The two bits of `shutdown` are apart;
    `starts` counts the writes of the RUN bit; `woken` and `ioDone` record which wait queues were woken and which
    callbacks were called, in order. -/
structure Engine where
  running : Bool
  shutdownRequest : Bool
  shutdownIdle : Bool
  status : BitVec 32
  descIdx : Nat
  descUsed : Int
  descDequeued : Nat
  transferList : List Ptr
  xdmaPerf : Option PerfRun
  tfer : Ptr → Transfer
  ring : Nat → Descriptor
  starts : Nat
  woken : List Ptr
  ioDone : List Ptr

/-- What the card answers: the status register, with and without clearing, the count of completed descriptors,
    and the results it has written back. -/
structure Hardware where
  statusRc : BitVec 32
  status : BitVec 32
  completedDescCount : BitVec 32
  result : Nat → Result

namespace Engine

def setTransfer (e : Engine) (p : Ptr) (t : Transfer) : Engine :=
  { e with tfer := fun q => if q = p then t else e.tfer q }

def busy (e : Engine) : Prop := e.status &&& xdmaStatBusy ≠ 0

instance (e : Engine) : Decidable e.busy := inferInstanceAs (Decidable (_ ≠ _))

def hasError (cfg : EngineConfig) (e : Engine) : Prop :=
  e.status &&& (match cfg.dir with | .fromDevice => xdmaStatC2hErrMask | .toDevice => xdmaStatH2cErrMask) ≠ 0

instance (cfg : EngineConfig) (e : Engine) : Decidable (e.hasError cfg) := inferInstanceAs (Decidable (_ ≠ _))

end Engine

/-- `none` is the NULL that `engine_start` returns when it does not start. -/
def engineStart (hw : Hardware) (e : Engine) : Option Engine :=
  if e.running then none
  else
    match e.transferList with
    | [] => none
    | _ :: _ =>
      some
        { e with
          shutdownRequest := false
          shutdownIdle := false
          descDequeued := 0
          status := hw.status
          running := true
          starts := e.starts + 1 }

def xdmaEngineStop (e : Engine) : Engine := { e with running := false }

def engineServiceShutdown (e : Engine) : Engine := xdmaEngineStop e

def engineTransferCompletion (p : Ptr) (e : Engine) : Engine :=
  { e with
    woken := e.woken ++ [p]
    ioDone := if (e.tfer p).cb && (e.tfer p).lastInRequest then e.ioDone ++ [p] else e.ioDone }

/-- The loop over the transfers that the count covers and exceeds. It returns what is left of the count; the head
    of the list is then the transfer it stopped at. -/
def serviceTransferList : List Ptr → Nat → Engine → Nat × Engine
  | [], descCompleted, e => (descCompleted, e)
  | p :: rest, descCompleted, e =>
    let t := e.tfer p
    if t.cyclic = false ∧ t.descNum < descCompleted then
      serviceTransferList rest (descCompleted - t.descNum)
        (engineTransferCompletion p
          ({ e with transferList := rest, descDequeued := e.descDequeued + t.descNum }.setTransfer p
            { t with state := .completed }))
    else (descCompleted, e)

def engineServiceTransferList (descCompleted : Nat) (e : Engine) : Nat × Engine :=
  serviceTransferList e.transferList descCompleted e

def engineServiceFinalTransfer (cfg : EngineConfig) (hw : Hardware) (descCompleted : Nat) (e : Engine) : Engine :=
  match e.transferList with
  | [] => e
  | p :: rest =>
    let t := e.tfer p
    if e.hasError cfg then
      engineTransferCompletion p
        ((xdmaEngineStop { e with transferList := rest }).setTransfer p { t with state := .failed })
    else if descCompleted < t.descNum then
      if cfg.eopFlush then
        let eop := t.eopRcvd ||
          (List.range descCompleted).any fun i => (hw.result (t.descIndex + i)).status &&& rxStatusEop ≠ 0
        let t := { t with eopRcvd := eop, descCmpl := t.descCmpl + descCompleted }
        if eop then
          engineTransferCompletion p
            ((engineServiceShutdown
              { e with transferList := rest, descDequeued := e.descDequeued + t.descCmpl }).setTransfer p
                { t with state := .completed })
        else e.setTransfer p t
      else
        engineTransferCompletion p
          ({ e with transferList := rest, descDequeued := e.descDequeued + t.descNum }.setTransfer p
            { t with state := .failed, descCmpl := descCompleted })
    else
      engineTransferCompletion p
        ({ e with transferList := rest, descDequeued := e.descDequeued + t.descNum }.setTransfer p
          { t with state := .completed, descCmpl := t.descNum })

def engineServicePerf (descCompleted : Nat) (e : Engine) : Engine :=
  match e.xdmaPerf with
  | none => e
  | some perf =>
    let perf := if e.status &&& xdmaStatDescCompleted ≠ 0 then { perf with iterations := descCompleted } else perf
    let perf := if e.status &&& xdmaStatDescStopped ≠ 0 then { perf with stopped := true } else perf
    { e with xdmaPerf := some perf }

def engineServiceResume (hw : Hardware) (e : Engine) : Engine :=
  if e.running = false then
    match e.transferList with
    | _ :: _ => (engineStart hw e).getD e
    | [] => if e.shutdownRequest then { e with shutdownIdle := true } else e
  else
    match e.transferList with
    | [] => engineServiceShutdown e
    | _ :: _ => e

def wbCount (descWriteback : BitVec 32) : Nat := (descWriteback &&& wbCountMask).toNat

def serviceStatus (hw : Hardware) (descWriteback : BitVec 32) (e : Engine) : Engine :=
  if wbCount descWriteback = 0 ∨ descWriteback &&& wbErrMask ≠ 0 then { e with status := hw.statusRc } else e

def serviceCount (hw : Hardware) (descWriteback : BitVec 32) : Nat :=
  if wbCount descWriteback = 0 then hw.completedDescCount.toNat else wbCount descWriteback

/-- `desc_count -= engine->desc_dequeued`, in 32 bits. -/
def notYetDequeued (descCount descDequeued : Nat) : Nat := (descCount + 2 ^ 32 - descDequeued % 2 ^ 32) % 2 ^ 32

def engineService (cfg : EngineConfig) (hw : Hardware) (descWriteback : BitVec 32) (e : Engine) : Engine :=
  if e.running = false then { e with status := hw.statusRc }
  else
    let e := serviceStatus hw descWriteback e
    let e :=
      if ¬ e.busy ∨ (cfg.eopFlush = false ∧ wbCount descWriteback ≠ 0) then engineServiceShutdown e else e
    let descCount := serviceCount hw descWriteback
    if descCount = 0 then e
    else
      let e := match e.transferList with | [] => e | _ :: _ => engineServicePerf descCount e
      let (descCount, e) := engineServiceTransferList (notYetDequeued descCount e.descDequeued) e
      let e := engineServiceFinalTransfer cfg hw descCount e
      if cfg.eopFlush then e else engineServiceResume hw e

end CigCard.Xdma
