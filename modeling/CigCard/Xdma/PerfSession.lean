import CigCard.Xdma.PerfStart

namespace CigCard.Xdma

open Ledger

/-- The mask of the high word has seven digits. -/
def buildU64 (hi lo : BitVec 64) : BitVec 64 := ((hi &&& 0xFFFFFFF#64) <<< 32) ||| (lo &&& 0xFFFFFFFF#64)

structure PerfRegs where
  completedDescCount : BitVec 32
  perfCycHi : BitVec 32
  perfCycLo : BitVec 32
  perfDatHi : BitVec 32
  perfDatLo : BitVec 32
  perfPndHi : BitVec 32
  perfPndLo : BitVec 32

structure PerfReport where
  version : BitVec 32
  transferSize : BitVec 32
  iterations : BitVec 32
  clockCycleCount : BitVec 64
  dataCycleCount : BitVec 64
  pendingCount : BitVec 64

def getPerfStats (regs : PerfRegs) (perf : PerfIoctl) : PerfReport where
  version := perf.version
  transferSize := perf.transferSize
  iterations := (buildU64 0 (regs.completedDescCount.setWidth 64)).setWidth 32
  clockCycleCount := buildU64 (regs.perfCycHi.setWidth 64) (regs.perfCycLo.setWidth 64)
  dataCycleCount := buildU64 (regs.perfDatHi.setWidth 64) (regs.perfDatLo.setWidth 64)
  pendingCount := buildU64 (regs.perfPndHi.setWidth 64) (regs.perfPndLo.setWidth 64)

structure PerfReply where
  rv : Int
  report : Option PerfReport

def copyReport (uncopied : Nat) (report : PerfReport) : PerfReply :=
  ⟨uncopied, if uncopied = 0 then some report else none⟩

def perfCyclicStop (e : PerfEngine) : Option PerfTransfer × PerfEngine :=
  match e.transferList with
  | [] => (none, e)
  | transfer :: rest =>
    (some transfer,
      { e with
        running := false
        heap := e.heap.free e.perfBufVirt
        perfBufVirt := none
        transferList := rest })

def ioctlDoPerfStop (regs : PerfRegs) (uncopied : Nat) (e : PerfEngine) : PerfReply × PerfEngine :=
  match e.xdmaPerf with
  | none => (⟨-22, none⟩, e)
  | some (perf, arg) =>
    match perfCyclicStop e with
    | (none, e) => (⟨-22, none⟩, e)
    | (some transfer, e) =>
      let reply := copyReport uncopied (getPerfStats regs arg)
      if uncopied ≠ 0 then (reply, e)
      else (reply, { e with heap := (e.heap.free (some transfer.block)).free (some perf), xdmaPerf := none })

def ioctlDoPerfGet (regs : PerfRegs) (uncopied : Nat) (e : PerfEngine) : PerfReply :=
  match e.xdmaPerf with
  | some (_, arg) => copyReport uncopied (getPerfStats regs arg)
  | none => ⟨-71, none⟩

/-- What is done with the engine of a channel that only measures. Of `xdma_device_offline` and `xdma_device_online`, the
    part for one engine. -/
inductive PerfCall where
  | start (answers : PerfAnswers)
  | stop (regs : PerfRegs) (uncopied : Nat)
  | get (regs : PerfRegs) (uncopied : Nat)
  | offline
  | online

structure PerfChannel where
  engine : PerfEngine
  oopsed : Bool

def PerfChannel.call (channel : PerfChannel) : PerfCall → PerfReply × PerfChannel
  | .start answers =>
    match ioctlDoPerfStart answers channel.engine with
    | .returned rv e => (⟨rv, none⟩, { channel with engine := e })
    | .oops e => (⟨0, none⟩, ⟨e, true⟩)
  | .stop regs uncopied =>
    let (reply, e) := ioctlDoPerfStop regs uncopied channel.engine
    (reply, { channel with engine := e })
  | .get regs uncopied => (ioctlDoPerfGet regs uncopied channel.engine, channel)
  | .offline =>
    (⟨0, none⟩,
      { channel with engine := { channel.engine with xdev := some true, shutdownRequest := true, running := false } })
  | .online =>
    (⟨0, none⟩, { channel with engine := { channel.engine with xdev := some false, shutdownRequest := false } })

def PerfChannel.calls : List PerfCall → PerfChannel → List PerfReply × PerfChannel
  | [], channel => ([], channel)
  | call :: rest, channel =>
    let (reply, after) := channel.call call
    if after.oopsed then ([], after)
    else
      let (replies, final) := PerfChannel.calls rest after
      (reply :: replies, final)

def counter (hi lo : BitVec 32) : BitVec 64 := .ofNat 64 ((hi.toNat * 2 ^ 32 + lo.toNat) % 2 ^ 60)

def PerfRegs.report (regs : PerfRegs) (arg : PerfIoctl) : PerfReport where
  version := arg.version
  transferSize := arg.transferSize
  iterations := regs.completedDescCount
  clockCycleCount := counter regs.perfCycHi regs.perfCycLo
  dataCycleCount := counter regs.perfDatHi regs.perfDatLo
  pendingCount := counter regs.perfPndHi regs.perfPndLo

/-- Nothing to measure, a measurement that was started with `arg`, or an engine that no call will make measure again. -/
inductive MeasurePhase where
  | idle
  | measuring (arg : PerfIoctl) (going : Bool)
  | stuck (arg : PerfIoctl) (transferLost : Bool)

structure Measurement where
  phase : MeasurePhase
  down : Bool

def PerfAnswers.startError (answers : PerfAnswers) : Option Int :=
  if answers.arg.version ≠ ioctlXdmaPerfV1 then some (-22)
  else if maxConsistentSize < answers.arg.transferSize.toNat then some (-22)
  else if answers.perfBuf = false ∨ answers.transfer = false then some (-12)
  else none

namespace Measurement

def call (measurement : Measurement) : PerfCall → Option (PerfReply × Measurement)
  | .start answers =>
    match measurement.phase with
    | .idle =>
      if answers.perf = false then some (⟨-12, none⟩, measurement)
      else
        match answers.startError with
        | some rv => some (⟨rv, none⟩, { measurement with phase := .stuck answers.arg false })
        | none =>
          if measurement.down then none
          else some (⟨0, none⟩, { measurement with phase := .measuring answers.arg answers.starts })
    | .measuring _ _ | .stuck _ _ => some (⟨-16, none⟩, measurement)
  | .stop regs uncopied =>
    match measurement.phase with
    | .measuring arg _ =>
      some (copyReport uncopied (regs.report arg),
        { measurement with phase := if uncopied = 0 then .idle else .stuck arg true })
    | .idle | .stuck _ _ => some (⟨-22, none⟩, measurement)
  | .get regs uncopied =>
    match measurement.phase with
    | .measuring arg _ | .stuck arg _ => some (copyReport uncopied (regs.report arg), measurement)
    | .idle => some (⟨-71, none⟩, measurement)
  | .offline =>
    match measurement.phase with
    | .measuring arg _ => some (⟨0, none⟩, ⟨.measuring arg false, true⟩)
    | .idle | .stuck _ _ => some (⟨0, none⟩, { measurement with down := true })
  | .online => some (⟨0, none⟩, { measurement with down := false })

def calls : List PerfCall → Measurement → List PerfReply × Option Measurement
  | [], measurement => ([], some measurement)
  | call :: rest, measurement =>
    match measurement.call call with
    | none => ([], none)
    | some (reply, after) =>
      let (replies, final) := calls rest after
      (reply :: replies, final)

end Measurement

def MeasurePhase.Describes (base : List Nat) (e : PerfEngine) : MeasurePhase → Prop
  | .idle =>
    e.xdmaPerf = none ∧ e.perfBufVirt = none ∧ e.transferList = [] ∧ e.running = false ∧ e.heap.Owns base
  | .measuring arg going =>
    ∃ perf buf transfer, e.xdmaPerf = some (perf, arg) ∧ e.perfBufVirt = some buf ∧
      e.transferList = [⟨transfer, numDescInALoop arg.transferSize.toNat⟩] ∧ e.running = going ∧
        e.heap.Owns (buf :: transfer :: perf :: base)
  | .stuck arg transferLost =>
    ∃ perf lost, e.xdmaPerf = some (perf, arg) ∧ e.perfBufVirt = none ∧ e.transferList = [] ∧ e.running = false ∧
      e.heap.Owns (lost ++ perf :: base) ∧ lost.length = if transferLost then 1 else 0

structure Measurement.Describes (base : List Nat) (e : PerfEngine) (measurement : Measurement) : Prop where
  xdev : e.xdev = some measurement.down
  shutdownRequest : e.shutdownRequest = measurement.down
  desc : e.desc ≠ none
  phase : measurement.phase.Describes base e

def Measurement.Follows (base : List Nat) : Option (PerfReply × Measurement) → PerfReply × PerfChannel → Prop
  | none, after => after.2.oopsed = true
  | some (reply, measurement), after =>
    after.1 = reply ∧ after.2.oopsed = false ∧ measurement.Describes base after.2.engine

section Reports

theorem buildU64_eq (hi lo : BitVec 32) : buildU64 (hi.setWidth 64) (lo.setWidth 64) = counter hi lo := by
  have high := hi.isLt
  have low := lo.isLt
  have topBits : hi.toNat &&& 0xFFFFFFF = hi.toNat % 2 ^ 28 := Nat.and_two_pow_sub_one_eq_mod hi.toNat 28
  have bottom : lo.toNat &&& 0xFFFFFFFF = lo.toNat := by
    rw [Nat.and_two_pow_sub_one_eq_mod lo.toNat 32]
    exact Nat.mod_eq_of_lt low
  have joined : (hi.toNat % 2 ^ 28) <<< 32 ||| lo.toNat = hi.toNat % 2 ^ 28 * 2 ^ 32 + lo.toNat := by
    rw [← Nat.shiftLeft_add_eq_or_of_lt low, Nat.shiftLeft_eq]
  apply BitVec.eq_of_toNat_eq
  unfold buildU64 counter
  rw [BitVec.toNat_or, BitVec.toNat_shiftLeft, BitVec.toNat_and, BitVec.toNat_and, BitVec.toNat_setWidth,
    BitVec.toNat_setWidth, Nat.mod_eq_of_lt (show hi.toNat < 2 ^ 64 by omega),
    Nat.mod_eq_of_lt (show lo.toNat < 2 ^ 64 by omega), BitVec.toNat_ofNat, BitVec.toNat_ofNat, BitVec.toNat_ofNat]
  have shifted : (hi.toNat % 2 ^ 28) <<< 32 < 2 ^ 64 := by
    rw [Nat.shiftLeft_eq]
    omega
  rw [show 0xFFFFFFF % 2 ^ 64 = 0xFFFFFFF from rfl, show 0xFFFFFFFF % 2 ^ 64 = 0xFFFFFFFF from rfl, topBits, bottom,
    Nat.mod_eq_of_lt shifted, joined]
  omega

theorem getPerfStats_eq (regs : PerfRegs) (arg : PerfIoctl) : getPerfStats regs arg = regs.report arg := by
  have iterations : (buildU64 0 (regs.completedDescCount.setWidth 64)).setWidth 32 = regs.completedDescCount := by
    have narrow := regs.completedDescCount.isLt
    have joined := buildU64_eq 0 regs.completedDescCount
    rw [show (0 : BitVec 32).setWidth 64 = 0 from rfl] at joined
    apply BitVec.eq_of_toNat_eq
    rw [joined, counter, BitVec.toNat_setWidth, BitVec.toNat_ofNat]
    change (0 * 2 ^ 32 + regs.completedDescCount.toNat) % 2 ^ 60 % 2 ^ 64 % 2 ^ 32 = regs.completedDescCount.toNat
    omega
  unfold getPerfStats PerfRegs.report
  rw [buildU64_eq, buildU64_eq, buildU64_eq, iterations]

end Reports

section Sessions

variable {base : List Nat} {e : PerfEngine}

def PerfEngine.store (e : PerfEngine) (arg : PerfIoctl) : PerfEngine :=
  { e with xdmaPerf := some (e.heap.next, arg), heap := (e.heap.alloc true).2 }

theorem ioctlDoPerfStart_stores {answers : PerfAnswers} (device : e.xdev ≠ none) (idle : e.xdmaPerf = none)
    (granted : answers.perf = true) :
    ioctlDoPerfStart answers e =
      if answers.arg.version ≠ ioctlXdmaPerfV1 then .returned (-22) (e.store answers.arg)
      else xdmaPerformanceSubmit answers answers.arg (enablePerf (e.store answers.arg)) := by
  unfold ioctlDoPerfStart
  rw [if_neg device, if_neg (not_not.mpr idle), granted]
  rfl

/-- The structure is allocated, and so it stays with the engine whatever fails from here on. -/
theorem store_stuck {down : Bool} (described : Measurement.Describes base e ⟨.idle, down⟩) (arg : PerfIoctl) :
    Measurement.Describes base (e.store arg) ⟨.stuck arg false, down⟩ := by
  obtain ⟨xdev, shutdownRequest, desc, idle, noBuf, empty, still, owns⟩ := described
  exact ⟨xdev, shutdownRequest, desc, e.heap.next, [], rfl, noBuf, empty, still, owns.alloc_granted, rfl⟩

theorem stuck_enabled {down : Bool} {arg : PerfIoctl}
    (described : Measurement.Describes base e ⟨.stuck arg false, down⟩) :
    Measurement.Describes base (enablePerf e) ⟨.stuck arg false, down⟩ :=
  ⟨described.xdev, described.shutdownRequest, described.desc, described.phase⟩

theorem submit_wrong {answers : PerfAnswers} {arg : PerfIoctl} {down : Bool}
    (described : Measurement.Describes base e ⟨.stuck arg false, down⟩)
    (fits : ¬ maxConsistentSize < arg.transferSize.toNat)
    (refused : answers.perfBuf = false ∨ answers.transfer = false) :
    ∃ e', xdmaPerformanceSubmit answers arg e = .returned (-12) e' ∧
      Measurement.Describes base e' ⟨.stuck arg false, down⟩ := by
  obtain ⟨xdev, shutdownRequest, desc, perf, lost, stored, noBuf, empty, still, owns, none⟩ := described
  unfold xdmaPerformanceSubmit
  simp only [fits, if_false]
  cases bufGranted : answers.perfBuf with
  | false => exact ⟨_, rfl, xdev, shutdownRequest, desc, perf, lost, stored, rfl, empty, still, owns, none⟩
  | true =>
    have transferRefused : answers.transfer = false := by simpa [bufGranted] using refused
    rw [transferRefused]
    have freed : ((e.heap.alloc true).2.free (some e.heap.next)).Owns (lost ++ perf :: base) :=
      @Heap.Owns.free _ (some e.heap.next) _ owns.alloc_granted
    exact ⟨_, rfl, xdev, shutdownRequest, desc, perf, lost, stored, rfl, empty, still, freed, none⟩

theorem numDescInALoop_pos {sizeInDesc : Nat} (fits : ¬ maxConsistentSize < sizeInDesc) :
    numDescInALoop sizeInDesc ≠ 0 := by
  unfold numDescInALoop
  split
  · next large =>
    have some : 0 < sizeInDesc := by
      by_contra nothing
      have zero : sizeInDesc = 0 := by omega
      rw [zero, Nat.zero_mul] at large
      omega
    exact Nat.ne_of_gt (Nat.div_pos (Nat.not_lt.mp fits) some)
  · decide

theorem submit_granted {answers : PerfAnswers} {arg : PerfIoctl} {down : Bool}
    (described : Measurement.Describes base e ⟨.stuck arg false, down⟩)
    (fits : ¬ maxConsistentSize < arg.transferSize.toNat) (bufGranted : answers.perfBuf = true)
    (transferGranted : answers.transfer = true) :
    if down then ∃ e', xdmaPerformanceSubmit answers arg e = .oops e'
    else ∃ e', xdmaPerformanceSubmit answers arg e = .returned 0 e' ∧
      Measurement.Describes base e' ⟨.measuring arg answers.starts, down⟩ := by
  obtain ⟨xdev, shutdownRequest, desc, perf, lost, stored, noBuf, empty, still, owns, none⟩ := described
  have lostNothing : lost = [] := List.length_eq_zero_iff.mp none
  obtain ⟨block, ring⟩ := Option.ne_none_iff_exists'.mp desc
  have loops := numDescInALoop_pos fits
  dsimp only at xdev shutdownRequest
  unfold xdmaPerformanceSubmit
  simp only [fits, if_false, bufGranted, transferGranted, Heap.alloc, if_true, reduceCtorEq, ring]
  unfold queuePerfTransfer
  simp only [perfTransferQueue, xdev, loops, if_false]
  cases down with
  | true => exact ⟨_, rfl⟩
  | false =>
    simp only [Bool.false_eq_true, if_false, shutdownRequest]
    have taken : (((e.heap.alloc true).2.alloc true).2).Owns
        ((e.heap.next + 1) :: e.heap.next :: perf :: base) := by
      rw [lostNothing] at owns
      exact owns.alloc_granted.alloc_granted
    have moved : (((e.heap.alloc true).2.alloc true).2).Owns
        (e.heap.next :: (e.heap.next + 1) :: perf :: base) := taken.perm (.swap ..)
    refine ⟨_, rfl, rfl, rfl, ?_, perf, e.heap.next, e.heap.next + 1, stored, rfl, ?_, ?_, moved⟩
    · simp
    · simp [empty]
    · simp [still]

theorem startError_wrong {answers : PerfAnswers} {rv : Int} {down : Bool}
    (described : Measurement.Describes base e ⟨.idle, down⟩) (granted : answers.perf = true)
    (wrong : answers.startError = some rv) :
    ∃ e', ioctlDoPerfStart answers e = .returned rv e' ∧
      Measurement.Describes base e' ⟨.stuck answers.arg false, down⟩ := by
  have device : e.xdev ≠ none := by simp [described.xdev]
  have stuck := store_stuck described answers.arg
  rw [ioctlDoPerfStart_stores device described.phase.1 granted]
  unfold PerfAnswers.startError at wrong
  split at wrong
  · next version =>
    cases wrong
    rw [if_pos version]
    exact ⟨_, rfl, stuck⟩
  · next version =>
    rw [if_neg version]
    split at wrong
    · next large =>
      cases wrong
      unfold xdmaPerformanceSubmit
      simp only [large, if_true]
      exact ⟨_, rfl, stuck_enabled stuck⟩
    · next fits =>
      split at wrong
      · next refused =>
        cases wrong
        exact submit_wrong (stuck_enabled stuck) fits refused
      · cases wrong

theorem startError_none {answers : PerfAnswers} {down : Bool}
    (described : Measurement.Describes base e ⟨.idle, down⟩) (granted : answers.perf = true)
    (right : answers.startError = none) :
    if down then ∃ e', ioctlDoPerfStart answers e = .oops e'
    else ∃ e', ioctlDoPerfStart answers e = .returned 0 e' ∧
      Measurement.Describes base e' ⟨.measuring answers.arg answers.starts, down⟩ := by
  have device : e.xdev ≠ none := by simp [described.xdev]
  rw [ioctlDoPerfStart_stores device described.phase.1 granted]
  unfold PerfAnswers.startError at right
  split at right
  · cases right
  · next version =>
    rw [if_neg version]
    split at right
    · cases right
    · next fits =>
      split at right
      · cases right
      · next given =>
        rw [not_or, Bool.not_eq_false, Bool.not_eq_false] at given
        exact submit_granted (stuck_enabled (store_stuck described answers.arg)) fits given.1 given.2

theorem busy_start {measurement : Measurement} (described : measurement.Describes base e) (busy : e.xdmaPerf ≠ none)
    (answers : PerfAnswers) : ioctlDoPerfStart answers e = .returned (-16) e := by
  have device : e.xdev ≠ none := by simp [described.xdev]
  unfold ioctlDoPerfStart
  rw [if_neg device, if_pos busy]

theorem measuring_stop {arg : PerfIoctl} {going down : Bool}
    (described : Measurement.Describes base e ⟨.measuring arg going, down⟩) (regs : PerfRegs) (uncopied : Nat) :
    ∃ e', ioctlDoPerfStop regs uncopied e = (copyReport uncopied (regs.report arg), e') ∧
      Measurement.Describes base e' ⟨if uncopied = 0 then .idle else .stuck arg true, down⟩ := by
  obtain ⟨xdev, shutdownRequest, desc, perf, buf, transfer, stored, hasBuf, queued, runs, owns⟩ := described
  have bufFreed : (e.heap.free (some buf)).Owns (transfer :: perf :: base) := @Heap.Owns.free _ (some buf) _ owns
  unfold ioctlDoPerfStop perfCyclicStop
  simp only [stored, queued, hasBuf, getPerfStats_eq]
  by_cases copied : uncopied = 0
  · have transferFreed := @Heap.Owns.free _ (some transfer) _ bufFreed
    have allFreed := @Heap.Owns.free _ (some perf) _ transferFreed
    rw [if_neg (not_not.mpr copied), if_pos copied]
    exact ⟨_, rfl, xdev, shutdownRequest, desc, rfl, rfl, rfl, rfl, allFreed⟩
  · rw [if_pos copied, if_neg copied]
    exact ⟨_, rfl, xdev, shutdownRequest, desc, perf, [transfer], rfl, rfl, rfl, rfl, bufFreed, rfl⟩

theorem call_start {measurement : Measurement} (described : measurement.Describes base e) (answers : PerfAnswers) :
    Measurement.Follows base (measurement.call (.start answers)) (PerfChannel.call ⟨e, false⟩ (.start answers)) := by
  obtain ⟨phase, down⟩ := measurement
  cases phase with
  | idle =>
    have device : e.xdev ≠ none := by simp [described.xdev]
    cases granted : answers.perf with
    | false =>
      have refused : ioctlDoPerfStart answers e = .returned (-12) e := by
        unfold ioctlDoPerfStart
        rw [if_neg device, if_neg (not_not.mpr described.phase.1), granted]
        rfl
      simp only [Measurement.call, granted, if_true, PerfChannel.call, refused]
      exact ⟨rfl, rfl, described⟩
    | true =>
      cases checked : answers.startError with
      | some rv =>
        obtain ⟨e', ends, stuck⟩ := startError_wrong described granted checked
        simp only [Measurement.call, granted, checked, PerfChannel.call, ends]
        exact ⟨rfl, rfl, stuck⟩
      | none =>
        have ends := startError_none described granted checked
        cases down with
        | true =>
          obtain ⟨e', ends⟩ := ends
          simp only [Measurement.call, granted, checked, PerfChannel.call, ends]
          rfl
        | false =>
          obtain ⟨e', ends, measuring⟩ := ends
          simp only [Measurement.call, granted, checked, PerfChannel.call, ends]
          exact ⟨rfl, rfl, measuring⟩
  | measuring arg going =>
    obtain ⟨perf, buf, transfer, stored, -⟩ := described.phase
    have busy := busy_start described (by simp [stored]) answers
    simp only [Measurement.call, PerfChannel.call, busy]
    exact ⟨rfl, rfl, described⟩
  | stuck arg transferLost =>
    obtain ⟨perf, lost, stored, -⟩ := described.phase
    have busy := busy_start described (by simp [stored]) answers
    simp only [Measurement.call, PerfChannel.call, busy]
    exact ⟨rfl, rfl, described⟩

theorem call_stop {measurement : Measurement} (described : measurement.Describes base e) (regs : PerfRegs)
    (uncopied : Nat) :
    Measurement.Follows base (measurement.call (.stop regs uncopied))
      (PerfChannel.call ⟨e, false⟩ (.stop regs uncopied)) := by
  obtain ⟨phase, down⟩ := measurement
  cases phase with
  | idle =>
    have none : ioctlDoPerfStop regs uncopied e = (⟨-22, none⟩, e) := by
      unfold ioctlDoPerfStop
      rw [described.phase.1]
    simp only [PerfChannel.call, none]
    exact ⟨rfl, rfl, described⟩
  | measuring arg going =>
    obtain ⟨e', ends, after⟩ := measuring_stop described regs uncopied
    simp only [PerfChannel.call, ends]
    exact ⟨rfl, rfl, after⟩
  | stuck arg transferLost =>
    obtain ⟨perf, lost, stored, -, empty, -⟩ := described.phase
    have nothing : ioctlDoPerfStop regs uncopied e = (⟨-22, none⟩, e) := by
      unfold ioctlDoPerfStop perfCyclicStop
      rw [stored, empty]
    simp only [PerfChannel.call, nothing]
    exact ⟨rfl, rfl, described⟩

theorem call_get {measurement : Measurement} (described : measurement.Describes base e) (regs : PerfRegs)
    (uncopied : Nat) :
    Measurement.Follows base (measurement.call (.get regs uncopied))
      (PerfChannel.call ⟨e, false⟩ (.get regs uncopied)) := by
  obtain ⟨phase, down⟩ := measurement
  cases phase with
  | idle =>
    simp only [PerfChannel.call, ioctlDoPerfGet, described.phase.1]
    exact ⟨rfl, rfl, described⟩
  | measuring arg going =>
    obtain ⟨perf, buf, transfer, stored, -⟩ := described.phase
    simp only [PerfChannel.call, ioctlDoPerfGet, stored, getPerfStats_eq]
    exact ⟨rfl, rfl, described⟩
  | stuck arg transferLost =>
    obtain ⟨perf, lost, stored, -⟩ := described.phase
    simp only [PerfChannel.call, ioctlDoPerfGet, stored, getPerfStats_eq]
    exact ⟨rfl, rfl, described⟩

theorem call_offline {measurement : Measurement} (described : measurement.Describes base e) :
    Measurement.Follows base (measurement.call .offline) (PerfChannel.call ⟨e, false⟩ .offline) := by
  obtain ⟨phase, down⟩ := measurement
  cases phase with
  | idle =>
    obtain ⟨-, -, desc, idle, noBuf, empty, -, owns⟩ := described
    exact ⟨rfl, rfl, rfl, rfl, desc, idle, noBuf, empty, rfl, owns⟩
  | measuring arg going =>
    obtain ⟨-, -, desc, perf, buf, transfer, stored, hasBuf, queued, -, owns⟩ := described
    exact ⟨rfl, rfl, rfl, rfl, desc, perf, buf, transfer, stored, hasBuf, queued, rfl, owns⟩
  | stuck arg transferLost =>
    obtain ⟨-, -, desc, perf, lost, stored, noBuf, empty, -, owns, count⟩ := described
    exact ⟨rfl, rfl, rfl, rfl, desc, perf, lost, stored, noBuf, empty, rfl, owns, count⟩

theorem call_online {measurement : Measurement} (described : measurement.Describes base e) :
    Measurement.Follows base (measurement.call .online) (PerfChannel.call ⟨e, false⟩ .online) := by
  obtain ⟨phase, down⟩ := measurement
  cases phase with
  | idle => exact ⟨rfl, rfl, rfl, rfl, described.desc, described.phase⟩
  | measuring arg going => exact ⟨rfl, rfl, rfl, rfl, described.desc, described.phase⟩
  | stuck arg transferLost => exact ⟨rfl, rfl, rfl, rfl, described.desc, described.phase⟩

theorem call_follows {measurement : Measurement} (described : measurement.Describes base e) (call : PerfCall) :
    Measurement.Follows base (measurement.call call) (PerfChannel.call ⟨e, false⟩ call) := by
  cases call with
  | start answers => exact call_start described answers
  | stop regs uncopied => exact call_stop described regs uncopied
  | get regs uncopied => exact call_get described regs uncopied
  | offline => exact call_offline described
  | online => exact call_online described

end Sessions

/-- Whatever is called on a channel that only measures: the replies are those of the measurement, and the driver holds
    what the phase it is in says, each thing once. -/
theorem session_follows {base : List Nat} {e : PerfEngine} {measurement : Measurement}
    (described : measurement.Describes base e) (calls : List PerfCall) :
    (PerfChannel.calls calls ⟨e, false⟩).1 = (measurement.calls calls).1 ∧
      match (measurement.calls calls).2 with
      | none => (PerfChannel.calls calls ⟨e, false⟩).2.oopsed = true
      | some final =>
        (PerfChannel.calls calls ⟨e, false⟩).2.oopsed = false ∧
          final.Describes base (PerfChannel.calls calls ⟨e, false⟩).2.engine := by
  induction calls generalizing e measurement with
  | nil => exact ⟨rfl, rfl, described⟩
  | cons call rest ih =>
    have step := call_follows described call
    unfold PerfChannel.calls Measurement.calls
    cases expected : measurement.call call with
    | none =>
      rw [expected] at step
      have oopsed : (PerfChannel.call ⟨e, false⟩ call).2.oopsed = true := step
      simp only [oopsed, if_true]
      exact ⟨trivial, trivial⟩
    | some answer =>
      obtain ⟨reply, after⟩ := answer
      rw [expected] at step
      obtain ⟨same, fine, next⟩ := step
      cases ran : PerfChannel.call ⟨e, false⟩ call with
      | mk given channel =>
        obtain ⟨engine, oopsed⟩ := channel
        rw [ran] at same fine next
        cases same
        cases fine
        have later := ih next
        simp only [Bool.false_eq_true, if_false]
        exact ⟨congrArg (given :: ·) later.1, later.2⟩

theorem readyEngine_idle : Measurement.Describes [0] readyEngine ⟨.idle, false⟩ := by
  have owned := @Heap.Owns.alloc_granted Heap.empty [] Heap.empty_balanced
  exact ⟨rfl, rfl, by decide, rfl, rfl, rfl, rfl, owned⟩

/-- A measurement between two offline periods ends as it should; one of an unknown version is the last of the channel. -/
theorem stopped_then_stuck :
    let regs : PerfRegs := ⟨3, 0xF0000000, 7, 0, 0, 0, 0⟩
    let calls : List PerfCall :=
      [.start (perfAnswers 1 4096), .offline, .online, .stop regs 0, .start (perfAnswers 2 4096), .stop regs 0,
        .start (perfAnswers 1 4096)]
    (PerfChannel.calls calls ⟨readyEngine, false⟩).1.map (fun reply => reply.rv) = [0, 0, 0, 0, -22, -22, -16] ∧
      (PerfChannel.calls calls ⟨readyEngine, false⟩).2.oopsed = false := by
  intro regs calls
  obtain ⟨replies, final⟩ := session_follows readyEngine_idle calls
  constructor
  · rw [replies]
    rfl
  · exact final.1

end CigCard.Xdma
