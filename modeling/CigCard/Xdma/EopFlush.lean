import CigCard.Xdma.EngineSpec

namespace CigCard.Xdma

structure ServiceCall where
  hw : Hardware
  wb : BitVec 32

def ServiceCall.count (call : ServiceCall) : Nat := serviceCount call.hw call.wb

def serviceRun (cfg : EngineConfig) : List ServiceCall → Engine → Engine
  | [], e => e
  | call :: calls, e => serviceRun cfg calls (engineService cfg call.hw call.wb e)

def resultLengths (result : Nat → Result) (t : Transfer) (count : Nat) : Nat :=
  ((List.range count).map fun i => (result (t.descIndex + i)).length).sum

/-- What `xdma_xfer_submit` returns for a transfer of a C2H streaming engine with `eop_flush`, which ends its request. -/
def flushReturn (result : Nat → Result) (t : Transfer) : Int :=
  match t.state with
  | .completed => resultLengths result t t.descCmpl
  | .failed => -5
  | _ => -512

/-- An engine that has been started on one transfer, of which it has accounted for some descriptors. -/
structure Flushing (p : Ptr) (t : Transfer) (accounted : Nat) (e : Engine) : Prop where
  running : e.running = true
  list : e.transferList = [p]
  dequeued : e.descDequeued = 0
  submitted : (e.tfer p).state = .submitted
  descNum : (e.tfer p).descNum = t.descNum
  descIndex : (e.tfer p).descIndex = t.descIndex
  descCmpl : (e.tfer p).descCmpl = accounted

section Service

variable {cfg : EngineConfig} {p : Ptr} {t : Transfer} {accounted : Nat} {e : Engine}

theorem Flushing.queue {next : Engine} (flushing : Flushing p t accounted e) (same : SameQueue e next)
    (dequeued : next.descDequeued = e.descDequeued) (running : next.running = true) : Flushing p t accounted next := by
  obtain ⟨list, -, -, tfer, -⟩ := same
  refine ⟨running, list.trans flushing.list, dequeued.trans flushing.dequeued, ?_, ?_, ?_, ?_⟩
  · rw [tfer]
    exact flushing.submitted
  · rw [tfer]
    exact flushing.descNum
  · rw [tfer]
    exact flushing.descIndex
  · rw [tfer]
    exact flushing.descCmpl

theorem count_lt (call : ServiceCall) : call.count < 2 ^ 32 := by
  unfold ServiceCall.count serviceCount wbCount
  split
  · exact BitVec.isLt _
  · exact BitVec.isLt _

theorem notYetDequeued_zero {count : Nat} (bound : count < 2 ^ 32) : notYetDequeued count 0 = count := by
  unfold notYetDequeued
  omega

/-- What a service leaves of the transfer: it is as it was, but for the count; or it is done with. -/
inductive FlushStep (p : Ptr) (t : Transfer) (accounted count : Nat) (next : Engine) : Prop where
  | waits (submitted : (next.tfer p).state = .submitted)
    (flushing : next.running = true → Flushing p t (accounted + count) next) : FlushStep p t accounted count next
  | settled (list : next.transferList = []) (done : (next.tfer p).state ≠ .submitted)
    (descIndex : (next.tfer p).descIndex = t.descIndex)
    (descCmpl : (next.tfer p).state = .completed → count ≤ t.descNum →
      (next.tfer p).descCmpl = if count < t.descNum then accounted + count else t.descNum) :
    FlushStep p t accounted count next

theorem FlushStep.finishes {base : Engine} {done : Transfer} {count : Nat} (list : base.transferList = [])
    (state : done.state ≠ .submitted) (descIndex : done.descIndex = t.descIndex)
    (descCmpl : done.state = .completed → count ≤ t.descNum →
      done.descCmpl = if count < t.descNum then accounted + count else t.descNum) :
    FlushStep p t accounted count (engineTransferCompletion p (base.setTransfer p done)) := by
  have self : (engineTransferCompletion p (base.setTransfer p done)).tfer p = done := by
    simp [engineTransferCompletion, Engine.setTransfer]
  refine .settled list ?_ ?_ ?_
  · rw [self]
    exact state
  · rw [self]
    exact descIndex
  · rw [self]
    exact descCmpl

theorem finalTransfer_flushes (flush : cfg.eopFlush = true) (hw : Hardware) (count : Nat)
    (list : e.transferList = [p]) (submitted : (e.tfer p).state = .submitted) (descNum : (e.tfer p).descNum = t.descNum)
    (descIndex : (e.tfer p).descIndex = t.descIndex) (descCmpl : (e.tfer p).descCmpl = accounted)
    (dequeued : e.descDequeued = 0) : FlushStep p t accounted count (engineServiceFinalTransfer cfg hw count e) := by
  unfold engineServiceFinalTransfer
  rw [list]
  dsimp only
  split_ifs with bad short eop
  · exact .finishes rfl (fun waits => by cases waits) descIndex fun completed => by cases completed
  · refine .finishes rfl (fun waits => by cases waits) descIndex ?_
    intro _ _
    rw [descNum] at short
    rw [if_pos short, ← descCmpl]
  · refine .waits ?_ ?_
    · simpa [Engine.setTransfer] using submitted
    · intro running
      refine ⟨running, list, dequeued, ?_, ?_, ?_, ?_⟩
      · simpa [Engine.setTransfer] using submitted
      · simpa [Engine.setTransfer] using descNum
      · simpa [Engine.setTransfer] using descIndex
      · rw [← descCmpl]
        simp [Engine.setTransfer]
  · refine .finishes rfl (fun waits => by cases waits) descIndex ?_
    intro _ _
    rw [descNum] at short
    rw [if_neg short, ← descNum]

theorem service_flushes (flush : cfg.eopFlush = true) (flushing : Flushing p t accounted e) (call : ServiceCall) :
    FlushStep p t accounted call.count (engineService cfg call.hw call.wb e) := by
  have stopped := @stopped_queue cfg call.hw e call.wb
  have prepared := @prepared_queue cfg call.hw e call.wb
  have count : serviceCount call.hw call.wb = call.count := rfl
  rw [engineService_running flushing.running, count]
  split
  · next nothing =>
    obtain ⟨list, -, -, tfer, -⟩ := id stopped
    refine .waits ?_ ?_
    · rw [tfer]
      exact flushing.submitted
    · intro running
      rw [nothing]
      exact flushing.queue stopped (stopped_dequeued _) running
  · obtain ⟨list, -, -, tfer, -⟩ := id prepared
    dsimp only
    rw [prepared_dequeued, flushing.dequeued, notYetDequeued_zero (count_lt call), engineServiceTransferList,
      list, flushing.list, serviceTransferList_cons, tfer]
    split
    · next covered =>
      refine .finishes rfl (fun waits => by cases waits) ?_ ?_
      · rw [← flushing.descIndex, ← tfer]
      · intro _ most
        have exceeds := covered.2
        rw [flushing.descNum] at exceeds
        omega
    · have same : SameQueue e { servicePrepared cfg call.hw call.wb e with running := true } := prepared
      have ready := flushing.queue same (prepared_dequeued call.wb) rfl
      exact finalTransfer_flushes flush _ _ ready.list ready.submitted ready.descNum ready.descIndex ready.descCmpl
        ready.dequeued

theorem service_settled (flush : cfg.eopFlush = true) (list : e.transferList = []) (call : ServiceCall) :
    (engineService cfg call.hw call.wb e).transferList = [] ∧ (engineService cfg call.hw call.wb e).tfer = e.tfer := by
  by_cases running : e.running = true
  · rw [engineService_running running]
    split
    · obtain ⟨same, -, -, tfer, -⟩ := @stopped_queue cfg call.hw e call.wb
      exact ⟨same.trans list, tfer⟩
    · obtain ⟨same, -, -, tfer, -⟩ := @prepared_queue cfg call.hw e call.wb
      have empty := same.trans list
      dsimp only
      rw [engineServiceTransferList, empty, serviceTransferList, engineServiceFinalTransfer, empty]
      exact ⟨empty, tfer⟩
  · unfold engineService
    rw [if_pos (Bool.not_eq_true _ ▸ running)]
    exact ⟨list, rfl⟩

theorem service_stopped (stopped : e.running = false) (call : ServiceCall) :
    (engineService cfg call.hw call.wb e).running = false ∧ (engineService cfg call.hw call.wb e).tfer = e.tfer := by
  unfold engineService
  rw [if_pos stopped]
  exact ⟨stopped, rfl⟩

end Service

section Run

variable {cfg : EngineConfig} {p : Ptr} {t : Transfer} {accounted : Nat} {e : Engine}

theorem serviceRun_append (cfg : EngineConfig) (calls : List ServiceCall) (call : ServiceCall) (e : Engine) :
    serviceRun cfg (calls ++ [call]) e = engineService cfg call.hw call.wb (serviceRun cfg calls e) := by
  induction calls generalizing e with
  | nil => rfl
  | cons first calls ih => exact ih _

theorem run_settled (flush : cfg.eopFlush = true) (list : e.transferList = []) (calls : List ServiceCall) :
    (serviceRun cfg calls e).tfer = e.tfer := by
  induction calls generalizing e with
  | nil => rfl
  | cons call calls ih =>
    obtain ⟨empty, tfer⟩ := service_settled flush list call
    exact (ih empty).trans tfer

theorem run_stopped (stopped : e.running = false) (calls : List ServiceCall) :
    (serviceRun cfg calls e).running = false := by
  induction calls generalizing e with
  | nil => exact stopped
  | cons call calls ih => exact ih (service_stopped stopped call).1

/-- As long as the transfer waits on a running engine, it accounts for the sum of all counts that were seen. -/
theorem run_flushes (flush : cfg.eopFlush = true) (flushing : Flushing p t accounted e) (calls : List ServiceCall)
    (waits : ((serviceRun cfg calls e).tfer p).state = .submitted) (running : (serviceRun cfg calls e).running = true) :
    Flushing p t (accounted + (calls.map ServiceCall.count).sum) (serviceRun cfg calls e) := by
  induction calls generalizing e accounted with
  | nil => exact flushing
  | cons call calls ih =>
    rw [List.map_cons, List.sum_cons, ← Nat.add_assoc]
    rcases service_flushes flush flushing call with ⟨-, still⟩ | ⟨list, done, -, -⟩
    · refine ih (still ?_) waits running
      by_contra stops
      have stopped := @run_stopped cfg _ ((Bool.not_eq_true _).mp stops) calls
      rw [serviceRun, stopped] at running
      cases running
    · rw [serviceRun, run_settled flush list] at waits
      exact absurd waits done

theorem Flushing.completed (flush : cfg.eopFlush = true) (flushing : Flushing p t 0 e) (before : List ServiceCall)
    (call : ServiceCall) (waits : ((serviceRun cfg before e).tfer p).state = .submitted)
    (marked : ((serviceRun cfg (before ++ [call]) e).tfer p).state = .completed) (most : call.count ≤ t.descNum) :
    ((serviceRun cfg (before ++ [call]) e).tfer p).descIndex = t.descIndex ∧
      ((serviceRun cfg (before ++ [call]) e).tfer p).descCmpl =
        if call.count < t.descNum then (before.map ServiceCall.count).sum + call.count else t.descNum := by
  rw [serviceRun_append] at marked ⊢
  by_cases running : (serviceRun cfg before e).running = true
  · have pending := run_flushes flush flushing before waits running
    rw [Nat.zero_add] at pending
    rcases service_flushes flush pending call with ⟨still, -⟩ | ⟨-, -, descIndex, descCmpl⟩
    · rw [marked] at still
      cases still
    · exact ⟨descIndex, descCmpl marked most⟩
  · rw [(service_stopped ((Bool.not_eq_true _).mp running) call).2, waits] at marked
    cases marked

/-- A transfer that is marked completed accounts for the descriptors that the hardware has completed, and its call
    returns their lengths, if and only if no earlier service had seen any of them, or this one sees them all. -/
theorem eopFlush_counts_iff (cfg : EngineConfig) (flush : cfg.eopFlush = true) (p : Ptr) (e : Engine)
    (started : Flushing p (e.tfer p) 0 e) (before : List ServiceCall) (call : ServiceCall)
    (waits : ((serviceRun cfg before e).tfer p).state = .submitted)
    (marked : ((serviceRun cfg (before ++ [call]) e).tfer p).state = .completed)
    (most : call.count ≤ (e.tfer p).descNum) :
    (((serviceRun cfg (before ++ [call]) e).tfer p).descCmpl = call.count ∧
      flushReturn call.hw.result ((serviceRun cfg (before ++ [call]) e).tfer p) =
        resultLengths call.hw.result (e.tfer p) call.count) ↔
    (∀ earlier ∈ before, earlier.count = 0) ∨ call.count = (e.tfer p).descNum := by
  obtain ⟨descIndex, descCmpl⟩ := started.completed flush before call waits marked most
  have returns : ((serviceRun cfg (before ++ [call]) e).tfer p).descCmpl = call.count →
      flushReturn call.hw.result ((serviceRun cfg (before ++ [call]) e).tfer p) =
        resultLengths call.hw.result (e.tfer p) call.count := by
    intro exactly
    unfold flushReturn resultLengths
    rw [marked, exactly, descIndex]
  rw [and_iff_left_of_imp returns, descCmpl]
  split
  · next short =>
    rw [or_iff_left short.ne, Nat.add_eq_right, List.sum_eq_zero_iff_forall_eq_nat]
    simp
  · next whole =>
    have all : call.count = (e.tfer p).descNum := Nat.le_antisymm most (not_lt.mp whole)
    exact iff_of_true all.symm (.inr all)

def streamEngine : EngineConfig where
  dir := .fromDevice
  eopFlush := true
  nonIncrAddr := false
  descMax := 16
  descMax_pos := by decide

def startedEngine : Engine where
  running := true
  shutdownRequest := false
  shutdownIdle := false
  status := xdmaStatBusy
  descIdx := 4
  descUsed := 4
  descDequeued := 0
  transferList := [⟨0, 0⟩]
  xdmaPerf := none
  tfer _ := ⟨0, 4, 0, .submitted, false, false, true, 16384, false⟩
  ring _ := ⟨0, 0, 0⟩
  starts := 1
  woken := []
  ioDone := []

/-- The interrupt for some completed descriptors of 100 bytes each, of which the third ends the packet. The results of
    the transfer were zeroed when it was built; those behind them are left over from the last round of the ring. -/
def descriptorsDone (completedDescCount : BitVec 32) : ServiceCall where
  hw := ⟨xdmaStatBusy, xdmaStatBusy, completedDescCount, fun i =>
    ⟨if i = 2 ∧ 2 < completedDescCount.toNat then rxStatusEop else 0,
      if i < completedDescCount.toNat ∨ 4 ≤ i then 100 else 0⟩⟩
  wb := 0

theorem startedEngine_flushing : Flushing ⟨0, 0⟩ (startedEngine.tfer ⟨0, 0⟩) 0 startedEngine :=
  ⟨rfl, rfl, rfl, rfl, rfl, rfl, rfl⟩

theorem startedEngine_counts :
    ((serviceRun streamEngine [descriptorsDone 3] startedEngine).tfer ⟨0, 0⟩).descCmpl = 3 ∧
      flushReturn (descriptorsDone 3).hw.result
        ((serviceRun streamEngine [descriptorsDone 3] startedEngine).tfer ⟨0, 0⟩) = 300 :=
  (eopFlush_counts_iff streamEngine rfl ⟨0, 0⟩ startedEngine startedEngine_flushing [] (descriptorsDone 3) rfl rfl
    (by decide)).mpr (.inl (by simp))

/-- One interrupt for each of three descriptors: six are accounted for, two of them not of this transfer. -/
theorem startedEngine_countsTwice :
    ((serviceRun streamEngine [descriptorsDone 1, descriptorsDone 2, descriptorsDone 3] startedEngine).tfer
      ⟨0, 0⟩).state = .completed ∧
    (descriptorsDone 3).count = 3 ∧
    resultLengths (descriptorsDone 3).hw.result (startedEngine.tfer ⟨0, 0⟩) 3 = 300 ∧
    ((serviceRun streamEngine [descriptorsDone 1, descriptorsDone 2, descriptorsDone 3] startedEngine).tfer
      ⟨0, 0⟩).descCmpl = 6 ∧
    flushReturn (descriptorsDone 3).hw.result
      ((serviceRun streamEngine [descriptorsDone 1, descriptorsDone 2, descriptorsDone 3] startedEngine).tfer
        ⟨0, 0⟩) = 500 :=
  ⟨rfl, rfl, rfl, rfl, rfl⟩

end Run

end CigCard.Xdma
