import Mathlib.Algebra.BigOperators.Group.Finset.Basic
import CigCard.Transition.Run
import CigCard.Xdma.Cdev

namespace CigCard.Xdma

/-- An error that a call returns: a negative number, and not the one for a queued request. -/
def IoError : Type := { rv : Int // rv < 0 ∧ rv ≠ -eiocbqueued }

/-- What becomes of a segment in the loop of `cdev_aio_write` or `cdev_aio_read`. Nothing is completed later where
    `xdma_xfer_submit_nowait` fails or finds no byte to move; `part` says that it has queued a first transfer all the
    same. -/
inductive SegmentOutcome where
  | misaligned
  | unmapped (rv : IoError)
  | notQueued (part : Bool)
  | queued

/-- Where a segment and its `async_io_handler` are: in it with the lock or without, and past the unlock but before the
    frees. -/
inductive SegmentPhase where
  | idle
  | notQueued (part : Bool)
  | queued
  | locked
  | lockFailed
  | releasing
  | handled
deriving DecidableEq

/-- The `struct cdev_async_io` of one call with its segments. History: `reported` has the bytes that each handler has
    added, `completed` the calls of `ki_complete`, `cbFrees` the element of `caio->cb` each `kfree` was called with,
    and `usedAfterFree` says whether something freed has been used. -/
structure AsyncIo where
  next : Nat
  ret : Option Int
  phase : Nat → SegmentPhase
  lock : Option Nat
  cancel : Bool
  cmplCnt : Nat
  res : Nat
  res2 : BitVec 64
  reported : Nat → Nat
  completed : List (Nat × BitVec 64)
  caioFrees : Nat
  cbFrees : List Nat
  usedAfterFree : Bool

inductive AioAction where
  | prepare (outcome : SegmentOutcome)
  | finish
  | enter (k : Nat)
  | handle (k : Nat) (err : Int) (bytes : Nat)
  | release (k : Nat)
  | skip (k : Nat)

namespace AsyncIo

def start : AsyncIo where
  next := 0
  ret := none
  phase := fun _ => .idle
  lock := none
  cancel := false
  cmplCnt := 0
  res := 0
  res2 := 0
  reported := fun _ => 0
  completed := []
  caioFrees := 0
  cbFrees := []
  usedAfterFree := false

def setPhase (s : AsyncIo) (k : Nat) (phase : SegmentPhase) : AsyncIo :=
  { s with phase := fun j => if j = k then phase else s.phase j }

def touch (s : AsyncIo) : AsyncIo :=
  { s with usedAfterFree := s.usedAfterFree || decide (0 < s.caioFrees) || decide (s.cbFrees ≠ []) }

def prepare (outcome : SegmentOutcome) (s : AsyncIo) : AsyncIo :=
  let s := s.touch
  match outcome with
  | .misaligned => { s with caioFrees := s.caioFrees + 1, ret := some (-einval) }
  | .unmapped rv => { s with ret := some rv.val }
  | .notQueued part => { s.setPhase s.next (.notQueued part) with next := s.next + 1 }
  | .queued => { s.setPhase s.next .queued with next := s.next + 1 }

def enter (k : Nat) (s : AsyncIo) : AsyncIo :=
  let s := s.touch
  match s.lock with
  | none => { s.setPhase k .locked with lock := some k }
  | some _ => s.setPhase k .lockFailed

def count (k : Nat) (err : Int) (numbytes : Nat) (s : AsyncIo) : AsyncIo :=
  { s with
    lock := none
    res2 := if err < 0 then s.res2 ||| BitVec.ofInt 64 err else s.res2
    cmplCnt := s.cmplCnt + 1
    res := s.res + numbytes
    reported := fun j => if j = k then numbytes else s.reported j }

/-- The handler under the lock: `n` is `caio->req_cnt`, `bytes` what `xdma_xfer_completion` returns. -/
def handle (n k : Nat) (err : Int) (bytes : Nat) (s : AsyncIo) : AsyncIo :=
  let s := s.touch
  if s.cancel then { s.setPhase k .releasing with lock := none }
  else
    let s := s.count k err (if err = 0 then bytes else 0)
    if s.cmplCnt = n then { s.setPhase k .releasing with completed := s.completed ++ [(s.res, s.res2)] }
    else s.setPhase k .handled

def release (k : Nat) (s : AsyncIo) : AsyncIo :=
  { s.setPhase k .handled with caioFrees := s.caioFrees + 1, cbFrees := s.cbFrees ++ [k] }

def skip (k : Nat) (s : AsyncIo) : AsyncIo :=
  let s := s.touch
  { s.setPhase k .handled with
    completed := s.completed ++ [(0, BitVec.ofInt 64 (-ebusy))]
    caioFrees := s.caioFrees + 1 }

def step (n : Nat) (s : AsyncIo) : AioAction → Option AsyncIo
  | .prepare outcome => if s.ret = none ∧ s.next < n then some (s.prepare outcome) else none
  | .finish => if s.ret = none ∧ s.next = n then some { s with ret := some (-eiocbqueued) } else none
  | .enter k => if s.phase k = .queued then some (s.enter k) else none
  | .handle k err bytes => if s.phase k = .locked then some (s.handle n k err bytes) else none
  | .release k => if s.phase k = .releasing then some (s.release k) else none
  | .skip k => if s.phase k = .lockFailed then some (s.skip k) else none

def Quiescent (s : AsyncIo) : Prop :=
  s.ret ≠ none ∧ ∀ k, s.phase k = .idle ∨ (∃ part, s.phase k = .notQueued part) ∨ s.phase k = .handled

def NoneQueued (s : AsyncIo) : Prop := ∀ k, s.phase k = .idle ∨ s.phase k = .notQueued false

/-- The call fails and has queued nothing, or the request is completed once, when the handlers of all `n` segments
    have come, with all their bytes, and the memory is freed once and not used after that. -/
structure CompletesOnce (n : Nat) (s : AsyncIo) : Prop where
  unused : s.usedAfterFree = false
  caio : s.caioFrees ≤ 1
  cb : s.cbFrees = [] ∨ s.cbFrees = [0]
  once : s.completed.length ≤ 1
  last : ∀ result ∈ s.completed, (∀ k < n, s.phase k = .releasing ∨ s.phase k = .handled) ∧
    result.1 = ∑ k ∈ Finset.range n, s.reported k
  refused : ∀ rv, s.ret = some rv → rv ≠ -eiocbqueued → s.NoneQueued
  whole : s.Quiescent → s.ret = some (-eiocbqueued) →
    s.completed.length = 1 ∧ s.caioFrees = 1 ∧ s.cbFrees = [0]

/-- A segment fails only while nothing is queued, and none is queued after one that was not; handlers do not overlap;
    the last of them is that of the first segment. -/
def OneAtATime (n : Nat) (s : AsyncIo) (action : AioAction) (_ : AsyncIo) : Prop :=
  match action with
  | .prepare .misaligned | .prepare (.unmapped _) => s.NoneQueued
  | .prepare (.notQueued part) => s.NoneQueued ∧ part = false
  | .prepare .queued => ∀ k part, s.phase k ≠ .notQueued part
  | .finish => 0 < n ∧ ∀ k part, s.phase k ≠ .notQueued part
  | .enter _ => s.lock = none
  | .handle k _ _ => s.cmplCnt + 1 = n → k = 0
  | .release _ | .skip _ => True

end AsyncIo

end CigCard.Xdma
