import CigCard.Xdma.Engine
import Mathlib.Tactic.SplitIfs

namespace CigCard.Xdma

structure SameShape (before after : Transfer) : Prop where
  descIndex : after.descIndex = before.descIndex
  descNum : after.descNum = before.descNum
  cyclic : after.cyclic = before.cyclic
  lastInRequest : after.lastInRequest = before.lastInRequest
  len : after.len = before.len
  cb : after.cb = before.cb

theorem SameShape.refl (t : Transfer) : SameShape t t := ⟨rfl, rfl, rfl, rfl, rfl, rfl⟩

theorem SameShape.trans {first second third : Transfer} (one : SameShape first second)
    (two : SameShape second third) : SameShape first third :=
  ⟨two.1.trans one.1, two.2.trans one.2, two.3.trans one.3, two.4.trans one.4, two.5.trans one.5,
    two.6.trans one.6⟩

/-- What servicing does to the queue: the transfers in `done` were its first ones; they left it finished, with
    their waiters woken and their callbacks called, and the others are as they were. -/
structure Serviced (before after : Engine) (done : List Ptr) : Prop where
  list : before.transferList = done ++ after.transferList
  woken : after.woken = before.woken ++ done
  ioDone : after.ioDone =
    before.ioDone ++ done.filter fun p => (before.tfer p).cb && (before.tfer p).lastInRequest
  finished : ∀ p ∈ done, (after.tfer p).state = .completed ∨ (after.tfer p).state = .failed
  untouched : ∀ p, p ∉ done → (after.tfer p).state = (before.tfer p).state
  shape : ∀ p, SameShape (before.tfer p) (after.tfer p)
  ring : after.ring = before.ring
  descIdx : after.descIdx = before.descIdx
  descUsed : after.descUsed = before.descUsed

namespace Serviced

theorem refl (e : Engine) : Serviced e e [] where
  list := rfl
  woken := (List.append_nil _).symm
  ioDone := (List.append_nil _).symm
  finished := by simp
  untouched := fun _ _ => rfl
  shape := fun p => .refl _
  ring := rfl
  descIdx := rfl
  descUsed := rfl

theorem trans {first second third : Engine} {some more : List Ptr} (one : Serviced first second some)
    (two : Serviced second third more) : Serviced first third (some ++ more) where
  list := by rw [one.list, two.list, List.append_assoc]
  woken := by rw [two.woken, one.woken, List.append_assoc]
  ioDone := by
    have same : (fun p => (second.tfer p).cb && (second.tfer p).lastInRequest) =
        fun p => (first.tfer p).cb && (first.tfer p).lastInRequest := by
      funext p
      rw [(one.shape p).cb, (one.shape p).lastInRequest]
    rw [two.ioDone, one.ioDone, same, List.filter_append, List.append_assoc]
  finished := by
    intro p member
    by_cases late : p ∈ more
    · exact two.finished p late
    · rw [two.untouched p late]
      rcases List.mem_append.mp member with early | absent
      · exact one.finished p early
      · exact absurd absent late
  untouched := by
    intro p outside
    rw [List.mem_append, not_or] at outside
    rw [two.untouched p outside.2, one.untouched p outside.1]
  shape := fun p => (one.shape p).trans (two.shape p)
  ring := two.ring.trans one.ring
  descIdx := two.descIdx.trans one.descIdx
  descUsed := two.descUsed.trans one.descUsed

theorem listed {before after : Engine} {done : List Ptr} (serviced : Serviced before after done) {p : Ptr}
    (finished : p ∈ done) : p ∈ before.transferList := by
  rw [serviced.list]
  exact List.mem_append_left _ finished

theorem remains {before after : Engine} {done : List Ptr} (serviced : Serviced before after done) {p : Ptr}
    (waits : p ∈ after.transferList) : p ∈ before.transferList := by
  rw [serviced.list]
  exact List.mem_append_right _ waits

end Serviced

def SameQueue (before after : Engine) : Prop :=
  after.transferList = before.transferList ∧ after.woken = before.woken ∧ after.ioDone = before.ioDone ∧
    after.tfer = before.tfer ∧ after.ring = before.ring ∧ after.descIdx = before.descIdx ∧
    after.descUsed = before.descUsed

theorem SameQueue.refl (e : Engine) : SameQueue e e := ⟨rfl, rfl, rfl, rfl, rfl, rfl, rfl⟩

theorem SameQueue.trans {first second third : Engine} (one : SameQueue first second)
    (two : SameQueue second third) : SameQueue first third := by
  obtain ⟨list, woken, ioDone, tfer, ring, descIdx, descUsed⟩ := one
  obtain ⟨list', woken', ioDone', tfer', ring', descIdx', descUsed'⟩ := two
  exact ⟨list'.trans list, woken'.trans woken, ioDone'.trans ioDone, tfer'.trans tfer, ring'.trans ring,
    descIdx'.trans descIdx, descUsed'.trans descUsed⟩

theorem SameQueue.serviced {before after : Engine} (same : SameQueue before after) : Serviced before after [] := by
  obtain ⟨list, woken, ioDone, tfer, ring, descIdx, descUsed⟩ := same
  refine ⟨list.symm, ?_, ?_, by simp, ?_, ?_, ring, descIdx, descUsed⟩
  · rw [woken, List.append_nil]
  · rw [ioDone, List.filter_nil, List.append_nil]
  · intro p _
    rw [tfer]
  · intro p
    rw [tfer]
    exact .refl _

section Steps

variable {cfg : EngineConfig} {hw : Hardware} {e : Engine}

theorem completion_serviced {p : Ptr} {rest : List Ptr} {done : Transfer} {next : Engine}
    (head : e.transferList = p :: rest) (shape : SameShape (e.tfer p) done)
    (finished : done.state = .completed ∨ done.state = .failed) (list : next.transferList = rest)
    (woken : next.woken = e.woken) (ioDone : next.ioDone = e.ioDone) (tfer : next.tfer = e.tfer)
    (ring : next.ring = e.ring) (descIdx : next.descIdx = e.descIdx) (descUsed : next.descUsed = e.descUsed) :
    Serviced e (engineTransferCompletion p (next.setTransfer p done)) [p] where
  list := by
    rw [head]
    simp [engineTransferCompletion, Engine.setTransfer, list]
  woken := by simp [engineTransferCompletion, Engine.setTransfer, woken]
  ioDone := by
    have chosen : (done.cb && done.lastInRequest) = ((e.tfer p).cb && (e.tfer p).lastInRequest) := by
      rw [shape.cb, shape.lastInRequest]
    simp only [engineTransferCompletion, Engine.setTransfer, if_true, chosen, ioDone]
    split_ifs with called
    · simp [called]
    · simp [called]
  finished := by
    intro q member
    rw [List.mem_singleton] at member
    subst member
    simpa [engineTransferCompletion, Engine.setTransfer] using finished
  untouched := by
    intro q outside
    rw [List.mem_singleton] at outside
    simp [engineTransferCompletion, Engine.setTransfer, tfer, outside]
  shape := by
    intro q
    by_cases here : q = p
    · subst here
      simpa [engineTransferCompletion, Engine.setTransfer] using shape
    · simp only [engineTransferCompletion, Engine.setTransfer, tfer, if_neg here]
      exact .refl _
  ring := ring
  descIdx := descIdx
  descUsed := descUsed

def Engine.headCompleted (e : Engine) (p : Ptr) (rest : List Ptr) : Engine :=
  engineTransferCompletion p
    ({ e with transferList := rest, descDequeued := e.descDequeued + (e.tfer p).descNum }.setTransfer p
      { e.tfer p with state := .completed })

theorem serviceTransferList_cons (p : Ptr) (rest : List Ptr) (count : Nat) :
    serviceTransferList (p :: rest) count e =
      if (e.tfer p).cyclic = false ∧ (e.tfer p).descNum < count then
        serviceTransferList rest (count - (e.tfer p).descNum) (e.headCompleted p rest)
      else (count, e) := rfl

/-- What no completion changes, the walk over the list does not change. -/
theorem serviceTransferList_keeps {β : Type} {field : Engine → β}
    (keeps : ∀ e p rest, field (Engine.headCompleted e p rest) = field e) {queue : List Ptr} {count : Nat} :
    field (serviceTransferList queue count e).2 = field e := by
  induction queue generalizing count e with
  | nil => rfl
  | cons p rest ih =>
    rw [serviceTransferList_cons]
    split_ifs
    · exact ih.trans (keeps e p rest)
    · rfl

theorem headCompleted_serviced {p : Ptr} {rest : List Ptr} (list : e.transferList = p :: rest) :
    Serviced e (e.headCompleted p rest) [p] :=
  completion_serviced list ⟨rfl, rfl, rfl, rfl, rfl, rfl⟩ (.inl rfl) rfl rfl rfl rfl rfl rfl rfl

theorem headCompleted_self (p : Ptr) (rest : List Ptr) :
    ((e.headCompleted p rest).tfer p).state = .completed := by
  simp [Engine.headCompleted, engineTransferCompletion, Engine.setTransfer]

theorem headCompleted_other {p q : Ptr} (rest : List Ptr) (other : q ≠ p) :
    (e.headCompleted p rest).tfer q = e.tfer q := by
  simp [Engine.headCompleted, engineTransferCompletion, Engine.setTransfer, other]

theorem serviceTransferList_serviced {queue : List Ptr} {count : Nat} (list : e.transferList = queue) :
    ∃ done, Serviced e (serviceTransferList queue count e).2 done ∧
      ∀ p ∈ done, ((serviceTransferList queue count e).2.tfer p).state = .completed := by
  induction queue generalizing count e with
  | nil => exact ⟨[], .refl _, by simp⟩
  | cons p rest ih =>
    rw [serviceTransferList_cons]
    split_ifs with covered
    · obtain ⟨done, others, completed⟩ := @ih (e.headCompleted p rest) (count - (e.tfer p).descNum) rfl
      refine ⟨p :: done, (headCompleted_serviced list).trans others, ?_⟩
      intro q member
      by_cases late : q ∈ done
      · exact completed q late
      · rcases List.mem_cons.mp member with here | absent
        · subst here
          rw [others.untouched _ late]
          exact headCompleted_self _ _
        · exact absurd absent late
    · exact ⟨[], .refl _, by simp⟩

theorem finalTransfer_serviced (count : Nat) :
    ∃ done, Serviced e (engineServiceFinalTransfer cfg hw count e) done := by
  unfold engineServiceFinalTransfer
  cases list : e.transferList with
  | nil => exact ⟨[], .refl _⟩
  | cons p rest =>
    simp only
    split_ifs with error short flush eop
    · exact ⟨[p], completion_serviced list ⟨rfl, rfl, rfl, rfl, rfl, rfl⟩ (.inr rfl) rfl rfl rfl rfl rfl rfl rfl⟩
    · exact ⟨[p], completion_serviced list ⟨rfl, rfl, rfl, rfl, rfl, rfl⟩ (.inl rfl) rfl rfl rfl rfl rfl rfl rfl⟩
    · refine ⟨[], rfl, ?_, ?_, by simp, ?_, ?_, rfl, rfl, rfl⟩
      · simp [Engine.setTransfer]
      · simp [Engine.setTransfer]
      · intro q _
        by_cases here : q = p
        · subst here
          simp [Engine.setTransfer]
        · simp [Engine.setTransfer, here]
      · intro q
        by_cases here : q = p
        · subst here
          simp only [Engine.setTransfer, if_true]
          exact ⟨rfl, rfl, rfl, rfl, rfl, rfl⟩
        · simp only [Engine.setTransfer, if_neg here]
          exact .refl _
    · exact ⟨[p], completion_serviced list ⟨rfl, rfl, rfl, rfl, rfl, rfl⟩ (.inr rfl) rfl rfl rfl rfl rfl rfl rfl⟩
    · exact ⟨[p], completion_serviced list ⟨rfl, rfl, rfl, rfl, rfl, rfl⟩ (.inl rfl) rfl rfl rfl rfl rfl rfl rfl⟩

theorem engineStart_queue {next : Engine} (started : engineStart hw e = some next) : SameQueue e next := by
  unfold engineStart at started
  split at started
  · cases started
  · split at started
    · cases started
    · cases started
      exact .refl _

theorem stop_queue : SameQueue e (xdmaEngineStop e) := .refl _

theorem resume_queue : SameQueue e (engineServiceResume hw e) := by
  unfold engineServiceResume
  by_cases stopped : e.running = false
  · rw [if_pos stopped]
    split
    · cases started : engineStart hw e with
      | none => exact .refl _
      | some next => exact engineStart_queue started
    · split
      · exact .refl _
      · exact .refl _
  · rw [if_neg stopped]
    split
    · exact stop_queue
    · exact .refl _

theorem perf_queue (count : Nat) : SameQueue e (engineServicePerf count e) := by
  unfold engineServicePerf
  split
  · exact .refl _
  · exact .refl _

theorem status_queue (wb : BitVec 32) : SameQueue e (serviceStatus hw wb e) := by
  unfold serviceStatus
  split
  · exact .refl _
  · exact .refl _

def serviceStopped (cfg : EngineConfig) (hw : Hardware) (descWriteback : BitVec 32) (e : Engine) : Engine :=
  let e := serviceStatus hw descWriteback e
  if ¬ e.busy ∨ (cfg.eopFlush = false ∧ wbCount descWriteback ≠ 0) then engineServiceShutdown e else e

def servicePrepared (cfg : EngineConfig) (hw : Hardware) (descWriteback : BitVec 32) (e : Engine) : Engine :=
  let e := serviceStopped cfg hw descWriteback e
  match e.transferList with | [] => e | _ :: _ => engineServicePerf (serviceCount hw descWriteback) e

theorem engineService_running (running : e.running = true) (wb : BitVec 32) :
    engineService cfg hw wb e =
      if serviceCount hw wb = 0 then serviceStopped cfg hw wb e
      else
        let prepared := servicePrepared cfg hw wb e
        let counted := engineServiceTransferList (notYetDequeued (serviceCount hw wb) prepared.descDequeued) prepared
        let final := engineServiceFinalTransfer cfg hw counted.1 counted.2
        if cfg.eopFlush then final else engineServiceResume hw final := by
  unfold engineService
  rw [if_neg (by simp [running])]
  rfl

/-- What a stop does not change is as it was when the status was read. -/
theorem stopped_keeps {β : Type} {field : Engine → β} (stop : ∀ e, field (engineServiceShutdown e) = field e)
    (wb : BitVec 32) : field (serviceStopped cfg hw wb e) = field (serviceStatus hw wb e) := by
  unfold serviceStopped
  dsimp only
  split
  · exact stop _
  · rfl

theorem prepared_keeps {β : Type} {field : Engine → β} (perf : ∀ count e, field (engineServicePerf count e) = field e)
    (wb : BitVec 32) : field (servicePrepared cfg hw wb e) = field (serviceStopped cfg hw wb e) := by
  unfold servicePrepared
  dsimp only
  split
  · rfl
  · exact perf _ _

theorem stopped_dequeued (wb : BitVec 32) : (serviceStopped cfg hw wb e).descDequeued = e.descDequeued := by
  rw [@stopped_keeps cfg hw e _ Engine.descDequeued (fun _ => rfl) wb]
  unfold serviceStatus
  split
  · rfl
  · rfl

theorem prepared_dequeued (wb : BitVec 32) : (servicePrepared cfg hw wb e).descDequeued = e.descDequeued := by
  rw [@prepared_keeps cfg hw e _ Engine.descDequeued _ wb, stopped_dequeued]
  intro count e
  unfold engineServicePerf
  split
  · rfl
  · rfl

theorem stopped_queue (wb : BitVec 32) : SameQueue e (serviceStopped cfg hw wb e) := by
  unfold serviceStopped
  simp only
  split
  · exact (status_queue wb).trans stop_queue
  · exact status_queue wb

theorem prepared_queue (wb : BitVec 32) : SameQueue e (servicePrepared cfg hw wb e) := by
  unfold servicePrepared
  simp only
  split
  · exact stopped_queue wb
  · exact (stopped_queue wb).trans (perf_queue _)

/-- One call of `engine_service` finishes some transfers at the front of the list and adds none. -/
theorem engineService_serviced (wb : BitVec 32) : ∃ done, Serviced e (engineService cfg hw wb e) done := by
  cases running : e.running with
  | false =>
    refine ⟨[], ?_⟩
    simp only [engineService, running, if_true]
    exact SameQueue.serviced (.refl _)
  | true =>
    rw [engineService_running running]
    split
    · exact ⟨[], (stopped_queue wb).serviced⟩
    · let prepared := servicePrepared cfg hw wb e
      let count := notYetDequeued (serviceCount hw wb) prepared.descDequeued
      obtain ⟨counted, first, -⟩ := @serviceTransferList_serviced prepared _ count rfl
      obtain ⟨final, second⟩ := @finalTransfer_serviced cfg hw (engineServiceTransferList count prepared).2
        (engineServiceTransferList count prepared).1
      have both := ((@prepared_queue cfg hw _ wb).serviced.trans first).trans second
      rw [List.nil_append] at both
      refine ⟨counted ++ final, ?_⟩
      simp only
      split
      · exact both
      · simpa using both.trans (@resume_queue hw _).serviced

theorem serviceTransferList_request {queue : List Ptr} {count : Nat} :
    (serviceTransferList queue count e).2.shutdownRequest = e.shutdownRequest :=
  @serviceTransferList_keeps e _ Engine.shutdownRequest (fun _ _ _ => rfl) queue count

theorem finalTransfer_request (count : Nat) :
    (engineServiceFinalTransfer cfg hw count e).shutdownRequest = e.shutdownRequest := by
  unfold engineServiceFinalTransfer
  split
  · rfl
  · simp only
    split_ifs <;> rfl

theorem resume_accepting (accepting : e.shutdownRequest = false) :
    (engineServiceResume hw e).shutdownRequest = false := by
  unfold engineServiceResume
  split
  · split
    · unfold engineStart
      split
      · exact accepting
      · split
        · exact accepting
        · rfl
    · rw [if_neg (by simp [accepting])]
      exact accepting
  · split
    · exact accepting
    · exact accepting

theorem engineService_accepting (wb : BitVec 32) (accepting : e.shutdownRequest = false) :
    (engineService cfg hw wb e).shutdownRequest = false := by
  have stopped : (serviceStopped cfg hw wb e).shutdownRequest = false := by
    rw [← accepting]
    unfold serviceStopped serviceStatus
    simp only
    split <;> split <;> rfl
  have prepared : (servicePrepared cfg hw wb e).shutdownRequest = false := by
    unfold servicePrepared
    simp only
    split
    · exact stopped
    · unfold engineServicePerf
      split
      · exact stopped
      · exact stopped
  cases running : e.running with
  | false =>
    simp only [engineService, running, if_true]
    exact accepting
  | true =>
    rw [engineService_running running]
    split
    · exact stopped
    · have final : ∀ count, (engineServiceFinalTransfer cfg hw
          (engineServiceTransferList count (servicePrepared cfg hw wb e)).1
          (engineServiceTransferList count (servicePrepared cfg hw wb e)).2).shutdownRequest = false := by
        intro count
        rw [finalTransfer_request, engineServiceTransferList, serviceTransferList_request]
        exact prepared
      simp only
      split
      · exact final _
      · exact resume_accepting (final _)

end Steps

end CigCard.Xdma
