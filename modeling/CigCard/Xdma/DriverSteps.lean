import CigCard.Xdma.Driver
import CigCard.Xdma.EngineSpec

namespace CigCard.Xdma

@[simp] theorem setThread_engine (d : Driver) (i : Nat) (t : Thread) : (d.setThread i t).engine = d.engine := rfl
@[simp] theorem setPhase_engine (d : Driver) (i : Nat) (phase : Phase) : (d.setPhase i phase).engine = d.engine := rfl
@[simp] theorem setThread_begun (d : Driver) (i : Nat) (t : Thread) : (d.setThread i t).begun = d.begun := rfl
@[simp] theorem free_engine (d : Driver) (block : Nat) : (d.free block).engine = d.engine := rfl
@[simp] theorem free_threads (d : Driver) (block : Nat) : (d.free block).threads = d.threads := rfl

@[simp] theorem setThread_self (d : Driver) (i : Nat) (t : Thread) : (d.setThread i t).threads i = t := by
  simp [Driver.setThread]

theorem setThread_other (d : Driver) {i j : Nat} (t : Thread) (other : j ≠ i) :
    (d.setThread i t).threads j = d.threads j := by
  simp [Driver.setThread, other]

@[simp] theorem setPhase_self (d : Driver) (i : Nat) (phase : Phase) :
    (d.setPhase i phase).threads i = { d.threads i with phase } := by
  simp [Driver.setPhase]

theorem setPhase_other (d : Driver) {i j : Nat} (phase : Phase) (other : j ≠ i) :
    (d.setPhase i phase).threads j = d.threads j := setThread_other d _ other

def Engine.givenUp (e : Engine) (p : Ptr) (hw : Hardware) : Engine :=
  xdmaEngineStop (transferAbort p { e with status := hw.status })

structure GivenUp (before after : Engine) (p : Ptr) : Prop where
  list : after.transferList = before.transferList ∨ ∃ rest, before.transferList = p :: rest ∧ after.transferList = rest
  head : ∀ rest, before.transferList = p :: rest → after.transferList = rest
  others : ∀ q, q ≠ p → after.tfer q = before.tfer q
  shape : ∀ q, SameShape (before.tfer q) (after.tfer q)
  submitted : (before.tfer p).state = .submitted → (after.tfer p).state = .aborted
  finished : (before.tfer p).state ≠ .submitted → (after.tfer p).state = (before.tfer p).state
  stopped : after.running = false
  shutdownRequest : after.shutdownRequest = before.shutdownRequest
  starts : after.starts = before.starts
  ring : after.ring = before.ring
  descIdx : after.descIdx = before.descIdx
  woken : after.woken = before.woken
  ioDone : after.ioDone = before.ioDone

theorem GivenUp.sublist {before after : Engine} {p : Ptr} (givenUp : GivenUp before after p) :
    after.transferList.Sublist before.transferList := by
  rcases givenUp.list with kept | ⟨rest, before, after⟩
  · rw [kept]
  · rw [before, after]
    exact List.sublist_cons_self _ _

theorem givenUp_spec (e : Engine) (p : Ptr) (hw : Hardware) : GivenUp e (e.givenUp p hw) p := by
  have unlinked : ∃ list, (list = e.transferList ∨ ∃ rest, e.transferList = p :: rest ∧ list = rest) ∧
      (∀ rest, e.transferList = p :: rest → list = rest) ∧
      e.givenUp p hw = xdmaEngineStop
        (if (e.tfer p).state = .submitted then
          { e with status := hw.status, transferList := list }.setTransfer p { e.tfer p with state := .aborted }
        else { e with status := hw.status, transferList := list }) := by
    unfold Engine.givenUp transferAbort
    cases list : e.transferList with
    | nil => exact ⟨[], .inl rfl, by simp, by simp⟩
    | cons head rest =>
      by_cases here : head = p
      · subst here
        exact ⟨rest, .inr ⟨rest, rfl, rfl⟩, by simp, by simp⟩
      · refine ⟨head :: rest, .inl rfl, ?_, by simp [here]⟩
        intro rest' same
        rw [List.cons.injEq] at same
        exact absurd same.1 here
  obtain ⟨list, which, atHead, result⟩ := unlinked
  rw [result]
  by_cases submitted : (e.tfer p).state = .submitted
  · rw [if_pos submitted]
    refine ⟨which, atHead, fun q other => ?_, fun q => ?_, fun _ => ?_, fun other => absurd submitted other,
      rfl, rfl, rfl, rfl, rfl, rfl, rfl⟩
    · simp [xdmaEngineStop, Engine.setTransfer, other]
    · by_cases here : q = p
      · subst here
        simp only [xdmaEngineStop, Engine.setTransfer, if_true]
        exact ⟨rfl, rfl, rfl, rfl, rfl, rfl⟩
      · simp only [xdmaEngineStop, Engine.setTransfer, if_neg here]
        exact .refl _
    · simp [xdmaEngineStop, Engine.setTransfer]
  · rw [if_neg submitted]
    exact ⟨which, atHead, fun _ _ => rfl, fun _ => .refl _, fun other => absurd other submitted, fun _ => rfl,
      rfl, rfl, rfl, rfl, rfl, rfl, rfl⟩

theorem transferQueue_spec {hw : Hardware} {p : Ptr} {e next : Engine} (queued : transferQueue hw p e = some next) :
    e.shutdownRequest = false ∧ next.transferList = e.transferList ++ [p] ∧
      next.tfer = (fun q => if q = p then { e.tfer p with state := .submitted } else e.tfer q) ∧
      next.woken = e.woken ∧ next.ioDone = e.ioDone ∧ next.ring = e.ring ∧ next.descIdx = e.descIdx := by
  unfold transferQueue at queued
  split at queued
  · cases queued
  · rename_i accepting
    refine ⟨by simpa using accepting, ?_⟩
    simp only at queued
    split at queued
    · simp only [Option.some.injEq] at queued
      subst queued
      cases started : engineStart hw
          ({ e with transferList := e.transferList ++ [p] }.setTransfer p { e.tfer p with state := .submitted }) with
      | none => exact ⟨rfl, rfl, rfl, rfl, rfl, rfl⟩
      | some next =>
        obtain ⟨list, woken, ioDone, tfer, ring, descIdx, -⟩ := engineStart_queue started
        exact ⟨list, tfer, woken, ioDone, ring, descIdx⟩
    · cases queued
      exact ⟨rfl, rfl, rfl, rfl, rfl, rfl⟩

theorem transferQueue_rejected {hw : Hardware} {p : Ptr} {e : Engine} (rejected : transferQueue hw p e = none) :
    e.shutdownRequest = true := by
  unfold transferQueue at rejected
  split at rejected
  · assumption
  · simp only at rejected
    split at rejected
    · cases rejected
    · cases rejected

theorem transferQueue_shape {hw : Hardware} {p : Ptr} {e next : Engine} (queued : transferQueue hw p e = some next)
    (q : Ptr) : SameShape (e.tfer q) (next.tfer q) := by
  rw [(transferQueue_spec queued).2.2.1]
  by_cases here : q = p
  · simp only [here, if_true]
    exact ⟨rfl, rfl, rfl, rfl, rfl, rfl⟩
  · simp only [here, if_false]
    exact .refl _

theorem transferQueue_member {hw : Hardware} {p q : Ptr} {e next : Engine} (queued : transferQueue hw p e = some next)
    (member : q ∈ next.transferList) : q ∈ e.transferList ∨ q = p := by
  rw [(transferQueue_spec queued).2.1, List.mem_append, List.mem_singleton] at member
  exact member

structure Initialized (cfg : EngineConfig) (p : Ptr) (cb : Bool) (e : Engine) (req : Request)
    (after : Engine × Request) : Prop where
  list : after.1.transferList = e.transferList
  others : ∀ q, q ≠ p → after.1.tfer q = e.tfer q
  descIndex : (after.1.tfer p).descIndex = e.descIdx
  descNum : (after.1.tfer p).descNum = nextDescNum cfg e req
  cb : (after.1.tfer p).cb = cb
  cyclic : (after.1.tfer p).cyclic = false
  lastInRequest : (after.1.tfer p).lastInRequest = decide (req.remaining.length = nextDescNum cfg e req)
  ring : after.1.ring =
    writeRing e.ring e.descIdx (transferBuild cfg (req.remaining.take (nextDescNum cfg e req)) req.epAddr).1
  descIdx : after.1.descIdx = (e.descIdx + nextDescNum cfg e req) % cfg.descMax
  remaining : after.2.remaining = req.remaining.drop (nextDescNum cfg e req)
  epAddr : after.2.epAddr = (transferBuild cfg (req.remaining.take (nextDescNum cfg e req)) req.epAddr).2

theorem transferInit_spec (cfg : EngineConfig) (p : Ptr) (cb : Bool) (e : Engine) (req : Request) :
    Initialized cfg p cb e req (transferInit cfg p cb e req) := by
  refine ⟨rfl, fun q other => ?_, ?_, ?_, ?_, ?_, ?_, rfl, rfl, ?_, rfl⟩
  · simp [transferInit, Engine.setTransfer, other]
  · simp [transferInit, Engine.setTransfer]
  · simp [transferInit, Engine.setTransfer]
  · simp [transferInit, Engine.setTransfer]
  · simp [transferInit, Engine.setTransfer]
  · simp [transferInit, Engine.setTransfer]
  · simp [transferInit, Request.remaining, List.drop_drop]

theorem transferBuild_length (cfg : EngineConfig) (pieces : List SwDesc) (epAddr : Nat) :
    (transferBuild cfg pieces epAddr).1.length = pieces.length := by
  induction pieces generalizing epAddr with
  | nil => rfl
  | cons piece pieces ih => simp [transferBuild, ih]

theorem writeRing_outside {ring : Nat → Descriptor} {start s : Nat} {descs : List Descriptor}
    (outside : ¬ (start ≤ s ∧ s < start + descs.length)) : writeRing ring start descs s = ring s := by
  unfold writeRing
  split
  · rw [List.getElem?_eq_none (by omega)]
    rfl
  · rfl

theorem xferCompletion_same (block : Nat) (ks : List Nat) (e : Engine) :
    ∃ ring descUsed, xferCompletion block ks e = { e with ring, descUsed } := by
  induction ks generalizing e with
  | nil => exact ⟨e.ring, e.descUsed, rfl⟩
  | cons k ks ih =>
    simp only [xferCompletion]
    split
    · obtain ⟨ring, descUsed, rest⟩ := ih
        { e with
          ring := xdmaDescDone (e.tfer ⟨block, k⟩) e.ring
          descUsed := e.descUsed - (e.tfer ⟨block, k⟩).descNum }
      exact ⟨ring, descUsed, rest⟩
    · exact ⟨_, _, rfl⟩

/-- The callbacks change nothing of the engine but the ring and the count of used descriptors, and of the calls
    nothing but which blocks are free. -/
theorem completeRequests_same (reached : Nat → Bool) (ps : List Ptr) (d : Driver) :
    ∃ ring descUsed freed, completeRequests reached ps d =
      { d with engine := { d.engine with ring, descUsed }, freed } := by
  induction ps generalizing d with
  | nil => exact ⟨d.engine.ring, d.engine.descUsed, d.freed, rfl⟩
  | cons p ps ih =>
    simp only [completeRequests]
    split
    · obtain ⟨ring, descUsed, same⟩ :=
        xferCompletion_same p.block (List.range (d.threads p.block).tferIdx) d.engine
      obtain ⟨ring', descUsed', freed, rest⟩ := ih
        ({ d with
          engine := xferCompletion p.block (List.range (d.threads p.block).tferIdx) d.engine }.free p.block)
      refine ⟨ring', descUsed', freed, ?_⟩
      rw [rest, same]
      rfl
    · exact ih d

theorem stepService_same (cfg : EngineConfig) (wb : BitVec 32) (hw : Hardware) (reached : Nat → Bool) (d : Driver) :
    ∃ ring descUsed freed moved, stepService cfg wb hw reached d =
      { d with engine := { engineService cfg hw wb d.engine with ring, descUsed }, freed, moved } := by
  obtain ⟨ring, descUsed, freed, same⟩ := completeRequests_same reached
    ((engineService cfg hw wb d.engine).ioDone.drop d.engine.ioDone.length) _
  exact ⟨ring, descUsed, freed, _, same⟩

theorem completeRequests_freed (reached : Nat → Bool) (ps : List Ptr) (d : Driver) (block : Nat) :
    (completeRequests reached ps d).freed block = true ↔
      d.freed block = true ∨ ∃ p ∈ ps, reached p.block = true ∧ p.block = block := by
  induction ps generalizing d with
  | nil => simp [completeRequests]
  | cons p ps ih =>
    simp only [completeRequests, ih]
    by_cases handled : reached p.block = true
    · by_cases own : p.block = block
      · subst own
        simp [Driver.free, handled]
      · simp [Driver.free, handled, own, Ne.symm own]
    · simp [handled]

def Thread.queued (t : Thread) : Thread :=
  match t.kind with
  | .submit => { t with phase := .waiting }
  | .perf => { t with phase := .returned }
  | .nowait => { t with tferIdx := t.tferIdx + 1, phase := if t.req.remaining = [] then .returned else .building }

@[simp] theorem queued_kind (t : Thread) : t.queued.kind = t.kind := by
  unfold Thread.queued
  split <;> rfl

theorem queued_phase (t : Thread) :
    t.queued.phase = .waiting ∧ t.kind = .submit ∨ t.queued.phase = .returned ∨ t.queued.phase = .building := by
  unfold Thread.queued
  cases kind : t.kind with
  | submit => exact .inl ⟨rfl, rfl⟩
  | perf => exact .inr (.inl rfl)
  | nowait =>
    simp only
    split
    · exact .inr (.inl rfl)
    · exact .inr (.inr rfl)

def Engine.cyclicStopped (e : Engine) (head : Ptr) (rest : List Ptr) : Engine :=
  { xdmaEngineStop e with transferList := if (e.tfer head).cyclic then rest else head :: rest, xdmaPerf := none }

theorem cyclicStopped_sublist {e : Engine} {head : Ptr} {rest : List Ptr} (list : e.transferList = head :: rest) :
    (e.cyclicStopped head rest).transferList.Sublist e.transferList := by
  simp only [Engine.cyclicStopped, list]
  split
  · exact List.sublist_cons_self _ _
  · exact List.Sublist.refl _

section Equations

variable {cfg : EngineConfig} {d : Driver} {i : Nat} {hw : Hardware}

theorem stepInit_perf (kind : (d.threads i).kind = .perf) : stepInit cfg i d =
    { d with engine := perfInit ((d.threads i).ptr i) (d.threads i).req d.engine }.setPhase i .checking := by
  simp only [stepInit, kind]

def Driver.initialized (cfg : EngineConfig) (d : Driver) (i : Nat) : Engine × Request :=
  transferInit cfg ((d.threads i).ptr i) ((d.threads i).kind = .nowait) d.engine (d.threads i).req

theorem initialized_spec (cfg : EngineConfig) (d : Driver) (i : Nat) :
    Initialized cfg ((d.threads i).ptr i) ((d.threads i).kind = .nowait) d.engine (d.threads i).req
      (d.initialized cfg i) :=
  transferInit_spec cfg _ _ _ _

theorem stepInit_transfer (kind : (d.threads i).kind ≠ .perf) : stepInit cfg i d =
    { d with
      engine := (d.initialized cfg i).1
      built := d.built + nextDescNum cfg d.engine (d.threads i).req
      begun := fun q => if q = (d.threads i).ptr i then d.built else d.begun q }.setThread i
        { d.threads i with req := (d.initialized cfg i).2, phase := .checking } := by
  cases kind' : (d.threads i).kind with
  | perf => exact absurd kind' kind
  | submit => simp only [stepInit, Driver.initialized, kind']
  | nowait => simp only [stepInit, Driver.initialized, kind']

theorem stepQueue_rejected (rejected : transferQueue hw ((d.threads i).ptr i) d.engine = none) :
    stepQueue i hw d = d.setPhase i .leaving := by
  simp only [stepQueue, rejected]

theorem stepQueue_accepted {engine : Engine}
    (accepted : transferQueue hw ((d.threads i).ptr i) d.engine = some engine) :
    stepQueue i hw d = { d with engine }.setThread i (d.threads i).queued := by
  simp only [stepQueue, accepted]
  cases kind : (d.threads i).kind with
  | submit => simp only [Driver.setPhase, Thread.queued, kind]
  | perf => simp only [Driver.setPhase, Thread.queued, kind]
  | nowait => simp only [Thread.queued, kind]

theorem stepSettle_completed {dumpOk : Bool} (completed : (d.engine.tfer ((d.threads i).ptr i)).state = .completed) :
    stepSettle i dumpOk hw d = d.setPhase i (.retiring true) := by
  simp only [stepSettle, completed]

theorem stepSettle_failed {dumpOk : Bool} (failed : (d.engine.tfer ((d.threads i).ptr i)).state ≠ .completed) :
    stepSettle i dumpOk hw d =
      if (d.engine.tfer ((d.threads i).ptr i)).state = .failed ∨ dumpOk = false then d.setPhase i (.retiring false)
      else { d with engine := d.engine.givenUp ((d.threads i).ptr i) hw }.setPhase i (.retiring false) := by
  simp only [stepSettle, Engine.givenUp]
  cases state : (d.engine.tfer ((d.threads i).ptr i)).state with
  | completed => exact absurd state failed
  | failed => simp
  | _ => cases dumpOk <;> simp

theorem stepPerfStop_empty (empty : d.engine.transferList = []) : stepPerfStop d = d := by
  simp only [stepPerfStop, empty]

theorem stepPerfStop_head {head : Ptr} {rest : List Ptr} (list : d.engine.transferList = head :: rest) :
    stepPerfStop d = { d with engine := d.engine.cyclicStopped head rest }.free head.block := by
  simp only [stepPerfStop, list, Engine.cyclicStopped, xdmaEngineStop]
  split <;> rfl

inductive Driver.Steps (cfg : EngineConfig) (d : Driver) : Action → Driver → Prop where
  | call (i : Nat) (kind : CallKind) (sdesc : List SwDesc) (epAddr : Nat) (uncalled : (d.threads i).phase = .notCalled) :
      Steps cfg d (.call i kind sdesc epAddr) (stepCall i kind sdesc epAddr d)
  | lock (i : Nat) (locking : (d.threads i).phase = .locking) (free : d.descLock = none) :
      Steps cfg d (.lock i) ({ d with descLock := some i }.setPhase i
        (if (d.threads i).req.remaining = [] then .leaving else .building))
  | init (i : Nat) (building : (d.threads i).phase = .building) : Steps cfg d (.init i) (stepInit cfg i d)
  | check (i : Nat) (checking : (d.threads i).phase = .checking) :
      Steps cfg d (.check i) (d.setPhase i (if d.offline then .leaving else .queueing))
  | queue (i : Nat) (hw : Hardware) (queueing : (d.threads i).phase = .queueing) :
      Steps cfg d (.queue i hw) (stepQueue i hw d)
  | settle (i : Nat) (dumpOk : Bool) (hw : Hardware) (waiting : (d.threads i).phase = .waiting) :
      Steps cfg d (.settle i dumpOk hw) (stepSettle i dumpOk hw d)
  | retire (i : Nat) (ok : Bool) (retiring : (d.threads i).phase = .retiring ok) :
      Steps cfg d (.retire i) (stepRetire cfg i ok d)
  | leave (i : Nat) (leaving : (d.threads i).phase = .leaving) : Steps cfg d (.leave i) (stepLeave i d)
  | service (wb : BitVec 32) (hw : Hardware) (reached : Nat → Bool) :
      Steps cfg d (.service wb hw reached) (stepService cfg wb hw reached d)
  | perfStop (running : d.engine.xdmaPerf.isSome) : Steps cfg d .perfStop (stepPerfStop d)
  | setOffline : Steps cfg d .setOffline { d with offline := true }
  | stopEngine :
      Steps cfg d .stopEngine { d with engine := xdmaEngineStop { d.engine with shutdownRequest := true } }
  | clearShutdown : Steps cfg d .clearShutdown { d with engine := { d.engine with shutdownRequest := false } }
  | clearOffline : Steps cfg d .clearOffline { d with offline := false }

theorem steps_of_step {next : Driver} {action : Action} (stepped : Driver.step cfg d action = some next) :
    Driver.Steps cfg d action next := by
  cases action with
  | retire i =>
    cases phase : (d.threads i).phase with
    | retiring ok =>
      simp only [Driver.step, phase, Option.some.injEq] at stepped
      exact stepped ▸ .retire i ok phase
    | _ => simp [Driver.step, phase] at stepped
  | service wb hw reached => exact Option.some.inj stepped ▸ .service wb hw reached
  | setOffline => exact Option.some.inj stepped ▸ .setOffline
  | stopEngine => exact Option.some.inj stepped ▸ .stopEngine
  | clearShutdown => exact Option.some.inj stepped ▸ .clearShutdown
  | clearOffline => exact Option.some.inj stepped ▸ .clearOffline
  | lock i =>
    simp only [Driver.step, Option.ite_none_right_eq_some, Option.some.injEq] at stepped
    obtain ⟨⟨locking, free⟩, rfl⟩ := stepped
    exact .lock i locking free
  | _ =>
    simp only [Driver.step, Option.ite_none_right_eq_some, Option.some.injEq] at stepped
    obtain ⟨permitted, rfl⟩ := stepped
    constructor
    exact permitted

end Equations

end CigCard.Xdma
