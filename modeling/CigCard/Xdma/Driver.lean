import CigCard.Transition.Run
import CigCard.Xdma.Request

namespace CigCard.Xdma

inductive CallKind where
  | submit
  | nowait
  | perf
deriving DecidableEq

/-- Where a call is: before the mutex, before `transfer_init`, before the test of the offline flag in
    `transfer_queue`, before its critical section, in the wait, past the wait with or without success, and before
    its last unlock and free. -/
inductive Phase where
  | notCalled
  | locking
  | building
  | checking
  | queueing
  | waiting
  | retiring (ok : Bool)
  | leaving
  | returned
deriving DecidableEq

structure Thread where
  kind : CallKind
  phase : Phase
  req : Request
  tferIdx : Nat

/-- The transfer that the call works on. A call that waits uses `tfer[0]` again and again. -/
def Thread.ptr (i : Nat) (t : Thread) : Ptr :=
  match t.kind with
  | .submit | .perf => ⟨i, 0⟩
  | .nowait => ⟨i, t.tferIdx⟩

/-- One engine with all calls on it; call `i` allocates the memory block `i`. History: `built` counts all
    descriptors built so far, `begun` is that count when a transfer was begun, and `moved` has the descriptors of
    a call's completed transfers, as the ring held them. -/
structure Driver where
  engine : Engine
  offline : Bool
  descLock : Option Nat
  threads : Nat → Thread
  freed : Nat → Bool
  built : Nat
  begun : Ptr → Nat
  moved : Nat → List Descriptor

def Driver.setThread (d : Driver) (i : Nat) (t : Thread) : Driver :=
  { d with threads := fun j => if j = i then t else d.threads j }

def Driver.setPhase (d : Driver) (i : Nat) (phase : Phase) : Driver :=
  d.setThread i { d.threads i with phase }

def Driver.free (d : Driver) (block : Nat) : Driver :=
  { d with freed := fun b => if b = block then true else d.freed b }

inductive Action where
  | call (i : Nat) (kind : CallKind) (sdesc : List SwDesc) (epAddr : Nat)
  | lock (i : Nat)
  | init (i : Nat)
  | check (i : Nat)
  | queue (i : Nat) (hw : Hardware)
  | settle (i : Nat) (dumpOk : Bool) (hw : Hardware)
  | retire (i : Nat)
  | leave (i : Nat)
  | service (wb : BitVec 32) (hw : Hardware) (reached : Nat → Bool)
  | perfStop
  | setOffline
  | stopEngine
  | clearShutdown
  | clearOffline

def stepCall (i : Nat) (kind : CallKind) (sdesc : List SwDesc) (epAddr : Nat) (d : Driver) : Driver :=
  let start (phase : Phase) := d.setThread i ⟨kind, phase, ⟨sdesc, 0, epAddr⟩, 0⟩
  match kind with
  | .submit => start (if d.offline then .returned else .locking)
  | .nowait => start (if d.offline ∨ sdesc = [] then .returned else .building)
  | .perf =>
    match d.engine.xdmaPerf with
    | some _ => start .returned
    | none =>
      { start .building with engine := { d.engine with xdmaPerf := some ⟨0, false⟩ } }

def perfInit (p : Ptr) (req : Request) (e : Engine) : Engine :=
  { e with ring := writeRing e.ring 0 (req.sdesc.map fun (piece : SwDesc) => ⟨piece.addr, 0, piece.len⟩) }.setTransfer p
    { descIndex := 0
      descNum := req.sdesc.length
      descCmpl := 0
      state := .new
      eopRcvd := false
      cyclic := true
      lastInRequest := false
      len := 0
      cb := false }

def stepInit (cfg : EngineConfig) (i : Nat) (d : Driver) : Driver :=
  let t := d.threads i
  let p := t.ptr i
  match t.kind with
  | .perf => { d with engine := perfInit p t.req d.engine }.setPhase i .checking
  | .submit | .nowait =>
    let (engine, req) := transferInit cfg p (t.kind = .nowait) d.engine t.req
    { d with
      engine
      built := d.built + nextDescNum cfg d.engine t.req
      begun := fun q => if q = p then d.built else d.begun q }.setThread i { t with req, phase := .checking }

def stepQueue (i : Nat) (hw : Hardware) (d : Driver) : Driver :=
  let t := d.threads i
  match transferQueue hw (t.ptr i) d.engine with
  | none => d.setPhase i .leaving
  | some engine =>
    let d := { d with engine }
    match t.kind with
    | .submit => d.setPhase i .waiting
    | .perf => d.setPhase i .returned
    | .nowait =>
      d.setThread i
        { t with tferIdx := t.tferIdx + 1, phase := if t.req.remaining = [] then .returned else .building }

def stepSettle (i : Nat) (dumpOk : Bool) (hw : Hardware) (d : Driver) : Driver :=
  let p := (d.threads i).ptr i
  match (d.engine.tfer p).state with
  | .completed => d.setPhase i (.retiring true)
  | .failed => d.setPhase i (.retiring false)
  | _ =>
    if dumpOk then
      { d with engine := xdmaEngineStop (transferAbort p { d.engine with status := hw.status }) }.setPhase i
        (.retiring false)
    else d.setPhase i (.retiring false)

def stepRetire (cfg : EngineConfig) (i : Nat) (ok : Bool) (d : Driver) : Driver :=
  let t := d.threads i
  let transfer := d.engine.tfer (t.ptr i)
  { d with
    engine :=
      { d.engine with
        ring := xdmaDescDone transfer d.engine.ring
        descUsed := d.engine.descUsed - transfer.descNum } }.setPhase i
    (if ok ∧ t.req.remaining ≠ [] ∧ cfg.eopFlush = false then .building else .leaving)

def stepLeave (i : Nat) (d : Driver) : Driver :=
  let d := (d.setPhase i .returned).free i
  match (d.threads i).kind with
  | .submit => { d with descLock := none }
  | .nowait | .perf => d

def xferCompletion (block : Nat) : List Nat → Engine → Engine
  | [], e => e
  | k :: rest, e =>
    let t := e.tfer ⟨block, k⟩
    let e := { e with ring := xdmaDescDone t e.ring, descUsed := e.descUsed - t.descNum }
    if t.state = .completed then xferCompletion block rest e else e

def completeRequests (reached : Nat → Bool) : List Ptr → Driver → Driver
  | [], d => d
  | p :: rest, d =>
    let d :=
      if reached p.block then
        { d with
          engine := xferCompletion p.block (List.range (d.threads p.block).tferIdx) d.engine }.free p.block
      else d
    completeRequests reached rest d

def slots (ring : Nat → Descriptor) (t : Transfer) : List Descriptor :=
  (List.range t.descNum).map fun j => ring (t.descIndex + j)

def stepService (cfg : EngineConfig) (wb : BitVec 32) (hw : Hardware) (reached : Nat → Bool) (d : Driver) : Driver :=
  let engine := engineService cfg hw wb d.engine
  let done := engine.woken.drop d.engine.woken.length
  let moved (block : Nat) := (done.filter fun p => p.block = block ∧ (engine.tfer p).state = .completed).flatMap
    fun p => slots engine.ring (engine.tfer p)
  completeRequests reached (engine.ioDone.drop d.engine.ioDone.length)
    { d with engine, moved := fun block => d.moved block ++ moved block }

/-- `engine_cyclic_stop`, which is called without the lock, and the `kfree` of what it returns. -/
def stepPerfStop (d : Driver) : Driver :=
  match d.engine.transferList with
  | [] => d
  | head :: rest =>
    let e := xdmaEngineStop d.engine
    let e := if (e.tfer head).cyclic then { e with transferList := rest } else e
    { d with engine := { e with xdmaPerf := none } }.free head.block

def Driver.step (cfg : EngineConfig) (d : Driver) : Action → Option Driver
  | .call i kind sdesc epAddr =>
    if (d.threads i).phase = .notCalled then some (stepCall i kind sdesc epAddr d) else none
  | .lock i =>
    if (d.threads i).phase = .locking ∧ d.descLock = none then
      some ({ d with descLock := some i }.setPhase i
        (if (d.threads i).req.remaining = [] then .leaving else .building))
    else none
  | .init i => if (d.threads i).phase = .building then some (stepInit cfg i d) else none
  | .check i =>
    if (d.threads i).phase = .checking then some (d.setPhase i (if d.offline then .leaving else .queueing)) else none
  | .queue i hw => if (d.threads i).phase = .queueing then some (stepQueue i hw d) else none
  | .settle i dumpOk hw => if (d.threads i).phase = .waiting then some (stepSettle i dumpOk hw d) else none
  | .retire i =>
    match (d.threads i).phase with
    | .retiring ok => some (stepRetire cfg i ok d)
    | _ => none
  | .leave i => if (d.threads i).phase = .leaving then some (stepLeave i d) else none
  | .service wb hw reached => some (stepService cfg wb hw reached d)
  | .perfStop => if d.engine.xdmaPerf.isSome then some (stepPerfStop d) else none
  | .setOffline => some { d with offline := true }
  | .stopEngine =>
    some { d with engine := xdmaEngineStop { d.engine with shutdownRequest := true } }
  | .clearShutdown => some { d with engine := { d.engine with shutdownRequest := false } }
  | .clearOffline => some { d with offline := false }

def Driver.run (cfg : EngineConfig) : Driver → List Action → Option Driver := Transition.run (Driver.step cfg)

structure Driver.Initial (cfg : EngineConfig) (d : Driver) : Prop where
  idle : d.engine.running = false
  accepting : d.engine.shutdownRequest = false
  empty : d.engine.transferList = []
  cursor : d.engine.descIdx = d.built % cfg.descMax
  online : d.offline = false
  unlocked : d.descLock = none
  uncalled : ∀ i, (d.threads i).phase = .notCalled
  allocated : ∀ block, d.freed block = false
  unmoved : ∀ block, d.moved block = []

def mmEngine : EngineConfig where
  dir := .toDevice
  eopFlush := false
  nonIncrAddr := false
  descMax := 0x800
  descMax_pos := by decide

def idleDriver : Driver where
  engine :=
    { running := false
      shutdownRequest := false
      shutdownIdle := false
      status := 0
      descIdx := 0
      descUsed := 0
      descDequeued := 0
      transferList := []
      xdmaPerf := none
      tfer := fun _ => ⟨0, 0, 0, .new, false, false, false, 0, false⟩
      ring := fun _ => ⟨0, 0, 0⟩
      starts := 0
      woken := []
      ioDone := [] }
  offline := false
  descLock := none
  threads := fun _ => ⟨.submit, .notCalled, ⟨[], 0, 0⟩, 0⟩
  freed := fun _ => false
  built := 0
  begun := fun _ => 0
  moved := fun _ => []

theorem idleDriver_initial (cfg : EngineConfig) : idleDriver.Initial cfg where
  idle := rfl
  accepting := rfl
  empty := rfl
  cursor := (Nat.zero_mod _).symm
  online := rfl
  unlocked := rfl
  uncalled := fun _ => rfl
  allocated := fun _ => rfl
  unmoved := fun _ => rfl

def reads (status completedDescCount : BitVec 32) : Hardware :=
  ⟨status, status, completedDescCount, fun _ => ⟨0, 0⟩⟩

def submitOne (i : Nat) : List Action :=
  [.call i .submit [⟨0x1000, 64⟩] 0, .lock i, .init i, .check i, .queue i (reads xdmaStatBusy 0)]

end CigCard.Xdma
