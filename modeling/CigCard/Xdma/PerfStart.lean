import CigCard.Ledger.Heap
import CigCard.Xdma.Engine

namespace CigCard.Xdma

open Ledger

def xdmaPerfRun : BitVec 32 := 1#32 <<< 0
def xdmaPerfClear : BitVec 32 := 1#32 <<< 1
def xdmaPerfAuto : BitVec 32 := 1#32 <<< 2

def xdmaPerfNumDesc : Nat := 128
def maxConsistentSize : Nat := xdmaPerfNumDesc * 32 * 1024
def ioctlXdmaPerfV1 : BitVec 32 := 1

structure PerfIoctl where
  version : BitVec 32
  transferSize : BitVec 32

structure PerfTransfer where
  block : Nat
  descNum : Nat
deriving DecidableEq

/-- A `struct xdma_engine` and the memory that the driver holds. `xdev` is NULL, or says whether the device is offline. -/
structure PerfEngine where
  xdev : Option Bool
  shutdownRequest : Bool
  running : Bool
  xdmaPerf : Option (Nat × PerfIoctl)
  perfCtrl : List (BitVec 32)
  desc : Option Nat
  perfBufVirt : Option Nat
  transferList : List PerfTransfer
  ring : Nat → Descriptor
  heap : Heap

structure PerfAnswers where
  perf : Bool
  uncopied : Nat
  arg : PerfIoctl
  perfBuf : Bool
  perfBufBus : Nat
  transfer : Bool
  desc : Bool
  starts : Bool

/-- `oops` is the `list_del` of an entry that is on no list. -/
inductive StartEnd where
  | returned (rv : Int) (e : PerfEngine)
  | oops (e : PerfEngine)

def StartEnd.engine : StartEnd → PerfEngine
  | .returned _ e => e
  | .oops e => e

def StartEnd.value : StartEnd → Option Int
  | .returned rv _ => some rv
  | .oops _ => none

def enablePerf (e : PerfEngine) : PerfEngine :=
  { e with perfCtrl := e.perfCtrl ++ [xdmaPerfClear, xdmaPerfAuto ||| xdmaPerfRun] }

def perfTransferQueue (starts : Bool) (t : PerfTransfer) (e : PerfEngine) : Int × PerfEngine :=
  match e.xdev with
  | none => (-22, e)
  | some offline =>
    if t.descNum = 0 then (-22, e)
    else if offline then (-16, e)
    else if e.shutdownRequest then (-16, e)
    else (0, { e with transferList := e.transferList ++ [t], running := e.running || starts })

def errEngineTransfer (e : PerfEngine) : PerfEngine :=
  { e with heap := e.heap.free e.perfBufVirt, perfBufVirt := none }

def errDmaDesc (freeDesc : Bool) (e : PerfEngine) : StartEnd :=
  .oops { e with heap := if freeDesc then e.heap.free e.desc else e.heap, desc := none }

def numDescInALoop (sizeInDesc : Nat) : Nat :=
  if maxConsistentSize < sizeInDesc * xdmaPerfNumDesc then maxConsistentSize / sizeInDesc else xdmaPerfNumDesc

def queuePerfTransfer (answers : PerfAnswers) (transfer sizeInDesc : Nat) (freeDesc : Bool) (e : PerfEngine) : StartEnd :=
  let descNum := numDescInALoop sizeInDesc
  let ring := fun i => if i < descNum then ⟨answers.perfBufBus, 0, sizeInDesc⟩ else e.ring i
  match perfTransferQueue answers.starts ⟨transfer, descNum⟩ { e with ring } with
  | (rv, e) => if rv < 0 then errDmaDesc freeDesc e else .returned 0 e

def xdmaPerformanceSubmit (answers : PerfAnswers) (perf : PerfIoctl) (e : PerfEngine) : StartEnd :=
  let sizeInDesc := perf.transferSize.toNat
  if maxConsistentSize < sizeInDesc then .returned (-22) e
  else
    let (perfBufVirt, heap) := e.heap.alloc answers.perfBuf
    let e := { e with perfBufVirt, heap }
    if perfBufVirt = none then .returned (-12) e
    else
      let (transfer, heap) := e.heap.alloc answers.transfer
      let e := { e with heap }
      match transfer with
      | none => .returned (-12) (errEngineTransfer e)
      | some transfer =>
        match e.desc with
        | some _ => queuePerfTransfer answers transfer sizeInDesc false e
        | none =>
          let (desc, heap) := e.heap.alloc answers.desc
          let e := { e with desc, heap }
          if desc = none then .oops e else queuePerfTransfer answers transfer sizeInDesc true e

def ioctlDoPerfStart (answers : PerfAnswers) (e : PerfEngine) : StartEnd :=
  if e.xdev = none then .returned (-22) e
  else if e.xdmaPerf ≠ none then .returned (-16) e
  else
    let (perf, heap) := e.heap.alloc answers.perf
    match perf with
    | none => .returned (-12) { e with heap }
    | some perf =>
      let e := { e with xdmaPerf := some (perf, answers.arg), heap }
      let rv : Int := answers.uncopied
      if rv < 0 then .returned (-22) e
      else if answers.arg.version ≠ ioctlXdmaPerfV1 then .returned (-22) e
      else xdmaPerformanceSubmit answers answers.arg (enablePerf e)

structure Restored (e e' : PerfEngine) : Prop where
  xdmaPerf : e'.xdmaPerf = e.xdmaPerf
  desc : e'.desc = e.desc
  perfBufVirt : e'.perfBufVirt = e.perfBufVirt
  transferList : e'.transferList = e.transferList
  live : ∀ block, e'.heap.Live block ↔ e.heap.Live block

def StartEnd.Restores (e : PerfEngine) : StartEnd → Prop
  | .returned _ e' => Restored e e'
  | .oops _ => False

section Submit

variable {answers : PerfAnswers} {perf : PerfIoctl} {e e' : PerfEngine} {rv : Int}

theorem Restored.refl (e : PerfEngine) : Restored e e := ⟨rfl, rfl, rfl, rfl, fun _ => Iff.rfl⟩

theorem perfTransferQueue_kept (starts : Bool) (t : PerfTransfer) (e : PerfEngine) :
    (perfTransferQueue starts t e).2.xdmaPerf = e.xdmaPerf := by
  unfold perfTransferQueue
  split
  · rfl
  · split_ifs
    · rfl
    · rfl
    · rfl
    · rfl

theorem queuePerfTransfer_returned {transfer sizeInDesc : Nat} {freeDesc : Bool}
    (returns : queuePerfTransfer answers transfer sizeInDesc freeDesc e = .returned rv e') :
    rv = 0 ∧ e'.xdmaPerf = e.xdmaPerf := by
  unfold queuePerfTransfer at returns
  dsimp only at returns
  split at returns
  · cases returns
  · cases returns
    exact ⟨rfl, perfTransferQueue_kept _ _ _⟩

/-- Whatever the submit does, it leaves the structure of the measurement in place; where it returns an error it has
    given back what it took. -/
theorem xdmaPerformanceSubmit_returned (returns : xdmaPerformanceSubmit answers perf e = .returned rv e') :
    e'.xdmaPerf = e.xdmaPerf ∧ (rv < 0 → e'.desc = e.desc ∧ e'.transferList = e.transferList ∧
      ∀ block, e'.heap.Live block ↔ e.heap.Live block) := by
  unfold xdmaPerformanceSubmit at returns
  dsimp only at returns
  split at returns
  · cases returns
    exact ⟨rfl, fun _ => ⟨rfl, rfl, fun _ => Iff.rfl⟩⟩
  · split at returns
    · next refused =>
      cases returns
      refine ⟨rfl, fun _ => ⟨rfl, rfl, fun block => ?_⟩⟩
      rw [Heap.alloc_live_iff, refused]
      simp
    · split at returns
      · next refused =>
        cases returns
        refine ⟨rfl, fun _ => ⟨rfl, rfl, fun block => ?_⟩⟩
        rw [Heap.alloc_eq_none_iff] at refused
        rw [refused]
        exact Heap.free_alloc_live_iff _ _ _
      · split at returns
        · obtain ⟨rfl, kept⟩ := queuePerfTransfer_returned returns
          exact ⟨kept, fun negative => absurd negative (by decide)⟩
        · split at returns
          · cases returns
          · obtain ⟨rfl, kept⟩ := queuePerfTransfer_returned returns
            exact ⟨kept, fun negative => absurd negative (by decide)⟩

end Submit

section Start

variable {answers : PerfAnswers} {e e' : PerfEngine} {rv : Int}

theorem ioctlDoPerfStart_stored (device : e.xdev ≠ none) (idle : e.xdmaPerf = none) (granted : answers.perf = true)
    (returns : ioctlDoPerfStart answers e = .returned rv e') : e'.xdmaPerf = some (e.heap.next, answers.arg) := by
  unfold ioctlDoPerfStart at returns
  rw [if_neg device, if_neg (not_not.mpr idle)] at returns
  dsimp only at returns
  rw [granted] at returns
  dsimp only [Heap.alloc] at returns
  rw [if_pos rfl] at returns
  dsimp only at returns
  split at returns
  · cases returns
    rfl
  · split at returns
    · cases returns
      rfl
    · exact (xdmaPerformanceSubmit_returned returns).1

/-- A start leaves the engine as it was if and only if it does not come past the allocation of the structure of the
    measurement. The others have failed too, unless a measurement is now running. -/
theorem perfStart_restores_iff (answers : PerfAnswers) (e : PerfEngine) :
    (ioctlDoPerfStart answers e).Restores e ↔ e.xdev = none ∨ e.xdmaPerf ≠ none ∨ answers.perf = false := by
  by_cases device : e.xdev = none
  · unfold ioctlDoPerfStart
    rw [if_pos device]
    exact iff_of_true (.refl e) (.inl device)
  · by_cases idle : e.xdmaPerf = none
    · cases granted : answers.perf with
      | false =>
        unfold ioctlDoPerfStart
        rw [if_neg device, if_neg (not_not.mpr idle), granted]
        exact iff_of_true (.refl e) (.inr (.inr rfl))
      | true =>
        apply iff_of_false
        · cases ends : ioctlDoPerfStart answers e with
          | oops e' => exact not_false
          | returned rv e' =>
            intro restored
            have stored := ioctlDoPerfStart_stored device idle granted ends
            rw [restored.xdmaPerf, idle] at stored
            cases stored
        · simp [device, idle]
    · unfold ioctlDoPerfStart
      rw [if_neg device, if_pos idle]
      exact iff_of_true (.refl e) (.inr (.inl idle))

def readyEngine : PerfEngine where
  xdev := some false
  shutdownRequest := false
  running := false
  xdmaPerf := none
  perfCtrl := []
  desc := some 0
  perfBufVirt := none
  transferList := []
  ring _ := ⟨0, 0, 0⟩
  heap := (Heap.empty.alloc true).2

def perfAnswers (version transferSize : BitVec 32) : PerfAnswers :=
  ⟨true, 0, ⟨version, transferSize⟩, true, 0x100000, true, true, true⟩

/-- After a start with a version that is not supported the engine is busy for good; one that is refused for a shutdown
    does not return, and has taken the ring from the engine. -/
theorem badVersion_keeps :
    (ioctlDoPerfStart (perfAnswers 2 4096) readyEngine).value = some (-22) ∧
    ¬ (ioctlDoPerfStart (perfAnswers 2 4096) readyEngine).Restores readyEngine ∧
    (ioctlDoPerfStart (perfAnswers 1 4096) (ioctlDoPerfStart (perfAnswers 2 4096) readyEngine).engine).value = some (-16) ∧
    (ioctlDoPerfStart (perfAnswers 1 4096) { readyEngine with shutdownRequest := true }).value = none ∧
    (ioctlDoPerfStart (perfAnswers 1 4096) { readyEngine with shutdownRequest := true }).engine.desc = none := by
  refine ⟨rfl, ?_, rfl, rfl, rfl⟩
  intro restored
  have kept := restored.xdmaPerf
  cases kept

/-- A start that stores the structure and then returns an error leaves nothing else behind. -/
theorem perfStart_leaves (device : e.xdev ≠ none) (idle : e.xdmaPerf = none) (granted : answers.perf = true)
    (returns : ioctlDoPerfStart answers e = .returned rv e') (negative : rv < 0) :
    e'.desc = e.desc ∧ e'.transferList = e.transferList ∧
      ∀ block, e'.heap.Live block ↔ e.heap.Live block ∨ block = e.heap.next := by
  have stored : ∀ block, (e.heap.alloc answers.perf).2.Live block ↔ e.heap.Live block ∨ block = e.heap.next := by
    intro block
    rw [Heap.alloc_live_iff, granted]
    simp [Heap.alloc, eq_comm]
  unfold ioctlDoPerfStart at returns
  rw [if_neg device, if_neg (not_not.mpr idle)] at returns
  dsimp only at returns
  split at returns
  · next refused =>
    rw [Heap.alloc_eq_none_iff, granted] at refused
    cases refused
  · split at returns
    · cases returns
      exact ⟨rfl, rfl, stored⟩
    · split at returns
      · cases returns
        exact ⟨rfl, rfl, stored⟩
      · obtain ⟨desc, transferList, live⟩ := (xdmaPerformanceSubmit_returned returns).2 negative
        exact ⟨desc, transferList, fun block => (live block).trans (stored block)⟩

end Start

end CigCard.Xdma
