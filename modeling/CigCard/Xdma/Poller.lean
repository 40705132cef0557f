import CigCard.Xdma.Driver

namespace CigCard.Xdma

/-- Where a completion thread is: asking the engines on its list for work, one after the other, in the wait, about to
    process the first of the remaining engines, or polling for the write-back of one. -/
inductive KthreadPhase where
  | asking (remaining : List Nat)
  | rescheduled
  | processing (remaining : List Nat)
  | polling (engine : Nat) (expected : BitVec 32) (remaining : List Nat)
deriving DecidableEq

structure XdmaKthread where
  schedule : Bool
  phase : KthreadPhase

structure Assignment where
  engines : Nat → EngineConfig
  workList : Nat → List Nat
  nodup : ∀ i, (workList i).Nodup
  single : ∀ i j k, k ∈ workList i → k ∈ workList j → i = j

structure Poller where
  drivers : Nat → Driver
  threads : Nat → XdmaKthread

inductive PollAction where
  | driver (k : Nat) (action : Action)
  | wakeup (i : Nat)
  | ask (i : Nat)
  | resched (i : Nat)
  | proc (i : Nat) (garbage : BitVec 32)
  | poll (i : Nat) (words : List (BitVec 32)) (hw : Hardware) (reached : Nat → Bool)
  | loop (i : Nat)

/-- `desc_cmpl_th` of a transfer: zero in the cyclic one, which the kernel's `kzalloc` leaves so. -/
def descCmplTh (cfg : EngineConfig) (t : Transfer) : BitVec 32 :=
  if t.cyclic then 0 else if cfg.eopFlush then 1 else BitVec.ofNat 32 t.descNum

/-- The words are those read from the write-back location in turn, the last of them when the time is over. -/
def engineServiceWbMonitor (expectedWb : BitVec 32) : List (BitVec 32) → BitVec 32
  | [] => 0
  | descWb :: later =>
    if expectedWb = 0 then 0
    else if descWb &&& wbErrMask ≠ 0 ∨ expectedWb ≤ descWb then descWb
    else if later = [] then if expectedWb < descWb &&& wbCountMask then expectedWb ||| wbErrMask else descWb
    else engineServiceWbMonitor expectedWb later

def engineServicePoll (cfg : EngineConfig) (expectedDescCount : BitVec 32) (words : List (BitVec 32)) (hw : Hardware)
    (reached : Nat → Bool) (d : Driver) : Driver :=
  let descWb := engineServiceWbMonitor expectedDescCount words
  if descWb = 0 then d else stepService cfg descWb hw reached d

def xdmaThreadCmplStatusPend (d : Driver) : Bool := !d.engine.transferList.isEmpty

def firstDescCmplTh (cfg : EngineConfig) (garbage : BitVec 32) (e : Engine) : BitVec 32 :=
  match e.transferList with
  | p :: _ => descCmplTh cfg (e.tfer p)
  | [] => garbage

namespace Poller

def setDriver (s : Poller) (k : Nat) (d : Driver) : Poller :=
  { s with drivers := fun other => if other = k then d else s.drivers other }

def setThread (s : Poller) (i : Nat) (t : XdmaKthread) : Poller :=
  { s with threads := fun j => if j = i then t else s.threads j }

def setPhase (s : Poller) (i : Nat) (phase : KthreadPhase) : Poller :=
  s.setThread i { s.threads i with phase }

def stepDriver (a : Assignment) (k : Nat) (s : Poller) : Action → Option Poller
  | .service _ _ _ => none
  | action => (Driver.step (a.engines k) (s.drivers k) action).map (s.setDriver k)

def stepAsk (a : Assignment) (i : Nat) (s : Poller) : Option Poller :=
  match (s.threads i).phase with
  | .asking [] => some (s.setPhase i .rescheduled)
  | .asking (k :: rest) =>
    if xdmaThreadCmplStatusPend (s.drivers k) then some (s.setThread i ⟨false, .processing (a.workList i)⟩)
    else some (s.setPhase i (.asking rest))
  | _ => none

def stepResched (a : Assignment) (i : Nat) (s : Poller) : Option Poller :=
  if (s.threads i).phase = .rescheduled ∧ (s.threads i).schedule = true then
    some (s.setThread i ⟨false, .processing (a.workList i)⟩)
  else none

def stepProc (a : Assignment) (i : Nat) (garbage : BitVec 32) (s : Poller) : Option Poller :=
  match (s.threads i).phase with
  | .processing (k :: rest) =>
    some (s.setPhase i (.polling k (firstDescCmplTh (a.engines k) garbage (s.drivers k).engine) rest))
  | _ => none

def stepPoll (a : Assignment) (i : Nat) (words : List (BitVec 32)) (hw : Hardware) (reached : Nat → Bool)
    (s : Poller) : Option Poller :=
  match (s.threads i).phase with
  | .polling k expected rest =>
    some ((s.setDriver k (engineServicePoll (a.engines k) expected words hw reached (s.drivers k))).setPhase i
      (.processing rest))
  | _ => none

def stepLoop (a : Assignment) (i : Nat) (s : Poller) : Option Poller :=
  if (s.threads i).phase = .processing [] then some (s.setPhase i (.asking (a.workList i))) else none

/-- Threads and calls in any order. Of a thread, `ask` to `loop` are the pieces of an iteration of `xthread_main`, and
    `wakeup` is `xdma_kthread_wakeup`. -/
def step (a : Assignment) (s : Poller) : PollAction → Option Poller
  | .driver k action => s.stepDriver a k action
  | .wakeup i => some (s.setThread i { s.threads i with schedule := true })
  | .ask i => s.stepAsk a i
  | .resched i => s.stepResched a i
  | .proc i garbage => s.stepProc a i garbage
  | .poll i words hw reached => s.stepPoll a i words hw reached
  | .loop i => s.stepLoop a i

structure Initial (a : Assignment) (s : Poller) : Prop where
  drivers : ∀ k, (s.drivers k).Initial (a.engines k)
  threads : ∀ i, s.threads i = ⟨false, .asking (a.workList i)⟩

def Pending (s : Poller) (k : Nat) : Prop := (s.drivers k).engine.transferList ≠ []

instance (s : Poller) (k : Nat) : Decidable (s.Pending k) := inferInstanceAs (Decidable (_ ≠ []))

def Ready (a : Assignment) (s : Poller) (i : Nat) : Prop := ∀ k ∈ a.workList i, s.Pending k

end Poller

end CigCard.Xdma
