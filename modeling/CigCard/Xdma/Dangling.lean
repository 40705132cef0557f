import CigCard.Xdma.QueueInvariant

namespace CigCard.Xdma

open Transition

def NoneDangling (d : Driver) : Prop := ∀ p ∈ d.engine.transferList, d.freed p.block = false

/-- The condition under which a step leaves no transfer behind that it or a later step frees: a rejected call has no
    earlier transfer on the list, a wait that ends with its transfer still on the list finds it at the head and can
    dump the registers, and a performance run is stopped while it is at the head. -/
def Unlinks (d : Driver) (action : Action) (_ : Driver) : Prop :=
  match action with
  | .check i => d.offline = true → ∀ p ∈ d.engine.transferList, p.block ≠ i
  | .queue i _ => d.engine.shutdownRequest = true → ∀ p ∈ d.engine.transferList, p.block ≠ i
  | .settle i dumpOk _ =>
    (d.threads i).ptr i ∈ d.engine.transferList →
      dumpOk = true ∧ d.engine.transferList.head? = some ((d.threads i).ptr i)
  | .perfStop => ∀ p ∈ d.engine.transferList.head?, (d.engine.tfer p).cyclic = true
  | _ => True

structure CallInv (d : Driver) (i : Nat) : Prop where
  submits : (d.threads i).phase = .locking ∨ (d.threads i).phase = .waiting ∨
    (∃ ok, (d.threads i).phase = .retiring ok) → (d.threads i).kind = .submit
  young : (d.threads i).phase ≠ .leaving → (d.threads i).phase ≠ .returned → d.freed i = false
  gone : (d.threads i).phase = .leaving ∨ (∃ ok, (d.threads i).phase = .retiring ok) →
    ∀ p ∈ d.engine.transferList, p.block ≠ i
  more : (d.threads i).phase ≠ .returned → (d.threads i).kind = .nowait →
    ∀ p ∈ d.engine.transferList, p.block = i → (d.engine.tfer p).lastInRequest = false
  built : (d.threads i).phase = .checking ∨ (d.threads i).phase = .queueing →
    ((d.engine.tfer ((d.threads i).ptr i)).lastInRequest = true → (d.threads i).req.remaining = []) ∧
    ((d.engine.tfer ((d.threads i).ptr i)).cb = true → (d.threads i).kind = .nowait) ∧
    ((d.engine.tfer ((d.threads i).ptr i)).cyclic = true → (d.threads i).kind = .perf)
  listed : ∀ p ∈ d.engine.transferList, p.block = i →
    ((d.engine.tfer p).cb = true → (d.threads i).kind = .nowait) ∧
    ((d.engine.tfer p).cyclic = true → (d.threads i).kind = .perf) ∧ d.freed i = false

/-- The calls' blocks with the order of the list: nothing follows the last transfer of a request. -/
structure BlockInv (d : Driver) : Prop where
  queue : QueueInv d
  calls : ∀ i, CallInv d i
  order : d.engine.transferList.Pairwise fun p q => p.block = q.block → (d.engine.tfer p).lastInRequest = false

theorem BlockInv.noneDangling {d : Driver} (inv : BlockInv d) : NoneDangling d :=
  fun p member => ((inv.calls p.block).listed p member rfl).2.2

/-- A step that changes nothing of a call, and of the list and the blocks at most takes its transfers off. -/
theorem CallInv.frame {d next : Driver} {i : Nat} (inv : CallInv d i) (thread : next.threads i = d.threads i)
    (list : ∀ p ∈ next.engine.transferList, p.block = i → p ∈ d.engine.transferList)
    (shape : ∀ p, p.block = i → SameShape (d.engine.tfer p) (next.engine.tfer p))
    (young : (d.threads i).phase ≠ .leaving → (d.threads i).phase ≠ .returned → next.freed i = false)
    (kept : ∀ p ∈ next.engine.transferList, p.block = i → next.freed i = false) : CallInv next i where
  submits := by
    rw [thread]
    exact inv.submits
  young := by
    rw [thread]
    exact young
  gone := by
    rw [thread]
    intro late p member own
    exact inv.gone late p (list p member own) own
  more := by
    rw [thread]
    intro phase kind p member own
    rw [(shape p own).lastInRequest]
    exact inv.more phase kind p (list p member own) own
  built := by
    rw [thread]
    have same := shape ((d.threads i).ptr i) (Thread.ptr_block _ _)
    rw [same.lastInRequest, same.cb, same.cyclic]
    exact inv.built
  listed := by
    rw [thread]
    intro p member own
    rw [(shape p own).cb, (shape p own).cyclic]
    obtain ⟨cb, cyclic, -⟩ := inv.listed p (list p member own) own
    exact ⟨cb, cyclic, kept p member own⟩

theorem CallInv.frame_same {d next : Driver} {i : Nat} (inv : CallInv d i) (thread : next.threads i = d.threads i)
    (list : ∀ p ∈ next.engine.transferList, p.block = i → p ∈ d.engine.transferList)
    (shape : ∀ p, p.block = i → SameShape (d.engine.tfer p) (next.engine.tfer p))
    (freed : next.freed i = d.freed i) : CallInv next i := by
  apply inv.frame thread list shape
  · rw [freed]
    exact inv.young
  · intro p member own
    rw [freed]
    exact (inv.listed p (list p member own) own).2.2

theorem BlockInv.step_of {d next : Driver} {i : Nat} (inv : BlockInv d) (queue : QueueInv next)
    (others : ∀ j, j ≠ i → next.threads j = d.threads j)
    (list : next.engine.transferList.Sublist d.engine.transferList)
    (shape : ∀ p, p.block ≠ i ∨ p ∈ d.engine.transferList → SameShape (d.engine.tfer p) (next.engine.tfer p))
    (freed : ∀ j, j ≠ i → next.freed j = d.freed j) (own : CallInv next i) : BlockInv next where
  queue := queue
  calls := by
    intro j
    by_cases here : j = i
    · rw [here]
      exact own
    · apply (inv.calls j).frame_same (others j here) (fun p member _ => list.subset member) _ (freed j here)
      intro p block
      apply shape p (.inl _)
      rw [block]
      exact here
  order := by
    apply (inv.order.sublist list).imp_of_mem
    intro p q member _ ordered same
    rw [(shape p (.inr (list.subset member))).lastInRequest]
    exact ordered same

section Steps

variable {cfg : EngineConfig} {d : Driver} {i : Nat}

theorem BlockInv.only (inv : BlockInv d) (kind : (d.threads i).kind = .submit ∨ (d.threads i).kind = .perf) {p : Ptr}
    (member : p ∈ d.engine.transferList) (own : p.block = i) : p = (d.threads i).ptr i := by
  have placed := inv.queue.placed p member
  rw [own] at placed
  rcases kind with kind | kind
  · simp only [Thread.placed, kind] at placed
    simp only [Thread.ptr, kind]
    rw [← own, ← placed.1]
  · simp only [Thread.placed, kind] at placed
    simp only [Thread.ptr, kind]
    rw [← own, ← placed.1]

theorem BlockInv.phase (inv : BlockInv d) {phase : Phase} (queue : QueueInv (d.setPhase i phase))
    (submits : phase = .locking ∨ phase = .waiting ∨ (∃ ok, phase = .retiring ok) → (d.threads i).kind = .submit)
    (early : (d.threads i).phase ≠ .leaving ∧ (d.threads i).phase ≠ .returned)
    (gone : phase = .leaving ∨ (∃ ok, phase = .retiring ok) → ∀ p ∈ d.engine.transferList, p.block ≠ i)
    (built : phase = .checking ∨ phase = .queueing → (d.threads i).phase = .checking) :
    BlockInv (d.setPhase i phase) := by
  have call := inv.calls i
  refine inv.step_of queue (fun j other => setPhase_other _ _ other) (List.Sublist.refl _) (fun _ _ => .refl _)
    (fun _ _ => rfl) ⟨?_, ?_, ?_, ?_, ?_, ?_⟩
  · simpa using submits
  · intro _ _
    exact call.young early.1 early.2
  · simpa using gone
  · intro _ kind
    simp only [setPhase_self] at kind
    exact call.more early.2 kind
  · intro late
    simp only [setPhase_self] at late ⊢
    exact call.built (.inl (built late))
  · intro p member own
    simp only [setPhase_self]
    exact call.listed p member own

theorem BlockInv.congr {next : Driver} (inv : BlockInv d) (list : next.engine.transferList = d.engine.transferList)
    (tfer : next.engine.tfer = d.engine.tfer) (threads : next.threads = d.threads) (freed : next.freed = d.freed) :
    BlockInv next where
  queue := inv.queue.shrink (by rw [list]) (fun _ _ => by rw [tfer]) threads
  calls := by
    intro j
    apply (inv.calls j).frame_same (by rw [threads]) (fun p member _ => by rwa [← list]) _ (by rw [freed])
    intro p _
    rw [tfer]
    exact .refl _
  order := by
    rw [list, tfer]
    exact inv.order

theorem blockInv_call {kind : CallKind} {sdesc : List SwDesc} {epAddr : Nat} (inv : BlockInv d)
    (uncalled : (d.threads i).phase = .notCalled) : BlockInv (stepCall i kind sdesc epAddr d) := by
  have queue := @queueInv_call d i kind sdesc epAddr inv.queue uncalled
  have absent : ∀ p ∈ d.engine.transferList, p.block ≠ i := by
    intro p member here
    have called := inv.queue.called p member
    rw [here] at called
    exact called uncalled
  have allocated := (inv.calls i).young (by simp [uncalled]) (by simp [uncalled])
  have started : ∀ (engine : Engine) (t : Thread), QueueInv { d.setThread i t with engine } →
      engine.transferList = d.engine.transferList → engine.tfer = d.engine.tfer →
      (t.phase = .locking → t.kind = .submit) → t.phase = .locking ∨ t.phase = .building ∨ t.phase = .returned →
      BlockInv { d.setThread i t with engine } := by
    intro engine t queue list tfer submits phase
    have here : ({ d.setThread i t with engine } : Driver).threads i = t := setThread_self d i t
    refine inv.step_of queue (fun j other => setThread_other _ _ other) (by rw [list]) ?_ (fun _ _ => rfl)
      ⟨?_, fun _ _ => allocated, ?_, ?_, ?_, ?_⟩
    · intro p _
      rw [tfer]
      exact .refl _
    · rw [here]
      intro late
      apply submits
      rcases phase with phase | phase | phase
      · exact phase
      · simp [phase] at late
      · simp [phase] at late
    · intro _ p member
      rw [list] at member
      exact absent p member
    · intro _ _ p member own
      rw [list] at member
      exact absurd own (absent p member)
    · rw [here]
      rcases phase with phase | phase | phase
      · simp [phase]
      · simp [phase]
      · simp [phase]
    · intro p member own
      rw [list] at member
      exact absurd own (absent p member)
  cases kind with
  | submit =>
    apply started d.engine _ queue rfl rfl (fun _ => rfl)
    split <;> simp
  | nowait =>
    apply started d.engine _ queue rfl rfl
    · split <;> simp
    · split <;> simp
  | perf =>
    unfold stepCall at queue ⊢
    cases perf : d.engine.xdmaPerf with
    | some run =>
      simp only [perf] at queue ⊢
      exact started d.engine _ queue rfl rfl (by simp) (by simp)
    | none =>
      simp only [perf] at queue ⊢
      exact started _ _ queue rfl rfl (by simp) (by simp)

theorem blockInv_lock (inv : BlockInv d) (locking : (d.threads i).phase = .locking)
    (queue : QueueInv ({ d with descLock := some i }.setPhase i
      (if (d.threads i).req.remaining = [] then .leaving else .building))) :
    BlockInv ({ d with descLock := some i }.setPhase i
      (if (d.threads i).req.remaining = [] then .leaving else .building)) := by
  have submit := (inv.calls i).submits (.inl locking)
  have absent : ∀ p ∈ d.engine.transferList, p.block ≠ i := by
    intro p member own
    have placed := inv.queue.placed p member
    rw [own] at placed
    simp [Thread.placed, submit, locking] at placed
  apply BlockInv.phase (d := { d with descLock := some i }) (inv.congr rfl rfl rfl rfl) queue (fun _ => submit)
  · exact ⟨by simp [locking], by simp [locking]⟩
  · exact fun _ => absent
  · split <;> simp

theorem blockInv_init (inv : BlockInv d) (building : (d.threads i).phase = .building) :
    BlockInv (stepInit cfg i d) := by
  have queue := @queueInv_init cfg d i inv.queue building
  have call := inv.calls i
  have fresh := inv.queue.fresh (.inl building)
  have away : ∀ p, p.block ≠ i ∨ p ∈ d.engine.transferList → p ≠ (d.threads i).ptr i := by
    intro p other same
    rcases other with other | member
    · rw [same, Thread.ptr_block] at other
      exact other rfl
    · rw [same] at member
      exact fresh member
  have young := call.young (by simp [building]) (by simp [building])
  by_cases kind : (d.threads i).kind = .perf
  · rw [stepInit_perf kind] at queue ⊢
    have others : ∀ p, p ≠ (d.threads i).ptr i →
        (perfInit ((d.threads i).ptr i) (d.threads i).req d.engine).tfer p = d.engine.tfer p := by
      intro p other
      simp [perfInit, Engine.setTransfer, other]
    refine inv.step_of queue (fun j other => setPhase_other _ _ other) (List.Sublist.refl _) ?_ (fun _ _ => rfl)
      ⟨?_, fun _ _ => young, ?_, ?_, ?_, ?_⟩
    · intro p other
      simp only [setPhase_engine, others p (away p other)]
      exact .refl _
    · simp
    · simp
    · simp [kind]
    · simp [perfInit, Engine.setTransfer, kind, Thread.ptr]
    · intro p member own
      simp only [setPhase_engine, setPhase_self, others p (away p (.inr member))]
      exact call.listed p member own
  · rw [stepInit_transfer kind] at queue ⊢
    have init := initialized_spec cfg d i
    refine inv.step_of queue (fun j other => setThread_other _ _ other) (by rw [setThread_engine, init.list]) ?_
      (fun _ _ => rfl) ⟨?_, fun _ _ => young, ?_, ?_, ?_, ?_⟩
    · intro p other
      simp only [setThread_engine, init.others p (away p other)]
      exact .refl _
    · simp
    · simp
    · intro _ nowait p member own
      simp only [setThread_self] at nowait
      simp only [setThread_engine, init.list] at member
      simp only [setThread_engine, init.others p (away p (.inr member))]
      exact call.more (by simp [building]) nowait p member own
    · intro _
      have same : ({ d.threads i with req := (d.initialized cfg i).2, phase := .checking } : Thread).ptr i =
          (d.threads i).ptr i := rfl
      simp only [setThread_self, setThread_engine, same, init.cb, init.cyclic, init.lastInRequest, init.remaining]
      refine ⟨fun all => ?_, by simp, by simp⟩
      rw [decide_eq_true_eq] at all
      rw [← all, List.drop_length]
    · intro p member own
      simp only [setThread_engine, init.list] at member
      simp only [setThread_engine, setThread_self, init.others p (away p (.inr member))]
      exact call.listed p member own

/-- While a call is about to queue a transfer, the last one of its request is not on the list. -/
theorem BlockInv.unfinished (inv : BlockInv d) (queueing : (d.threads i).phase = .queueing) :
    ∀ p ∈ d.engine.transferList, p.block = i → (d.engine.tfer p).lastInRequest = false := by
  intro p member own
  have placed := inv.queue.placed p member
  rw [own] at placed
  cases kind : (d.threads i).kind with
  | nowait => exact (inv.calls i).more (by simp [queueing]) kind p member own
  | submit => simp [Thread.placed, kind, queueing] at placed
  | perf => simp [Thread.placed, kind, queueing] at placed

theorem BlockInv.queued_call {hw : Hardware} {engine : Engine} (inv : BlockInv d)
    (queueing : (d.threads i).phase = .queueing)
    (accepted : transferQueue hw ((d.threads i).ptr i) d.engine = some engine) :
    CallInv ({ d with engine }.setThread i (d.threads i).queued) i := by
  have call := inv.calls i
  have allocated := call.young (by simp [queueing]) (by simp [queueing])
  obtain ⟨last, cb, cyclic⟩ := call.built (.inr queueing)
  have phase := queued_phase (d.threads i)
  apply CallInv.mk
  · rw [setThread_self, queued_kind]
    rcases phase with ⟨-, submit⟩ | phase | phase
    · exact fun _ => submit
    · simp [phase]
    · simp [phase]
  · exact fun _ _ => allocated
  · rw [setThread_self]
    rcases phase with ⟨phase, -⟩ | phase | phase
    · simp [phase]
    · simp [phase]
    · simp [phase]
  · rw [setThread_self, queued_kind]
    intro continues nowait p member own
    simp only [setThread_engine] at member ⊢
    rw [(transferQueue_shape accepted p).lastInRequest]
    rcases transferQueue_member accepted member with old | same
    · exact inv.unfinished queueing p old own
    · have remaining : (d.threads i).req.remaining ≠ [] := by
        intro empty
        apply continues
        simp [Thread.queued, nowait, empty]
      rw [same]
      exact Bool.eq_false_iff.mpr fun final => remaining (last final)
  · rw [setThread_self]
    rcases phase with ⟨phase, -⟩ | phase | phase
    · simp [phase]
    · simp [phase]
    · simp [phase]
  · rw [setThread_self, queued_kind]
    intro p member own
    simp only [setThread_engine] at member ⊢
    rw [(transferQueue_shape accepted p).cb, (transferQueue_shape accepted p).cyclic]
    rcases transferQueue_member accepted member with old | same
    · exact call.listed p old own
    · rw [same]
      exact ⟨cb, cyclic, allocated⟩

theorem blockInv_queue {hw : Hardware} (inv : BlockInv d) (queueing : (d.threads i).phase = .queueing)
    (rejected : d.engine.shutdownRequest = true → ∀ p ∈ d.engine.transferList, p.block ≠ i) :
    BlockInv (stepQueue i hw d) := by
  have queue := @queueInv_queue d i hw inv.queue queueing
  cases result : transferQueue hw ((d.threads i).ptr i) d.engine with
  | none =>
    rw [stepQueue_rejected result] at queue ⊢
    apply inv.phase queue
    · simp
    · exact ⟨by simp [queueing], by simp [queueing]⟩
    · exact fun _ => rejected (transferQueue_rejected result)
    · simp
  | some engine =>
    rw [stepQueue_accepted result] at queue ⊢
    apply BlockInv.mk queue
    · intro j
      by_cases here : j = i
      · rw [here]
        exact inv.queued_call queueing result
      · refine (inv.calls j).frame_same (setThread_other _ _ here) ?_ (fun p _ => transferQueue_shape result p) rfl
        intro p member own
        rcases transferQueue_member result member with old | same
        · exact old
        · rw [same, Thread.ptr_block] at own
          exact absurd own.symm here
    · simp only [setThread_engine]
      rw [(transferQueue_spec result).2.1, List.pairwise_append]
      refine ⟨?_, List.pairwise_singleton _ _, ?_⟩
      · apply inv.order.imp
        intro p q ordered same
        rw [(transferQueue_shape result p).lastInRequest]
        exact ordered same
      · intro p member q new same
        rw [List.mem_singleton] at new
        rw [new, Thread.ptr_block] at same
        rw [(transferQueue_shape result p).lastInRequest]
        exact inv.unfinished queueing p member same

theorem blockInv_settle {dumpOk : Bool} {hw : Hardware} (inv : BlockInv d)
    (waiting : (d.threads i).phase = .waiting)
    (unlinks : (d.threads i).ptr i ∈ d.engine.transferList →
      dumpOk = true ∧ d.engine.transferList.head? = some ((d.threads i).ptr i)) :
    BlockInv (stepSettle i dumpOk hw d) := by
  have queue := @queueInv_settle d i dumpOk hw inv.queue waiting
  have call := inv.calls i
  have submit := call.submits (.inr (.inl waiting))
  have early : (d.threads i).phase ≠ .leaving ∧ (d.threads i).phase ≠ .returned := by simp [waiting]
  have only : (d.threads i).ptr i ∉ d.engine.transferList → ∀ p ∈ d.engine.transferList, p.block ≠ i := by
    intro absent p member own
    rw [inv.only (.inl submit) member own] at member
    exact absent member
  have unqueued : (d.engine.tfer ((d.threads i).ptr i)).state = .completed ∨
      (d.engine.tfer ((d.threads i).ptr i)).state = .failed →
      (d.threads i).ptr i ∉ d.engine.transferList := by
    intro finished member
    have state := inv.queue.state _ member
    rcases finished with is | is
    · simp [is] at state
    · simp [is] at state
  by_cases completed : (d.engine.tfer ((d.threads i).ptr i)).state = .completed
  · rw [stepSettle_completed completed] at queue ⊢
    apply inv.phase queue (fun _ => submit) early
    · exact fun _ => only (unqueued (.inl completed))
    · simp
  · rw [stepSettle_failed completed] at queue ⊢
    by_cases failed : (d.engine.tfer ((d.threads i).ptr i)).state = .failed ∨ dumpOk = false
    · rw [if_pos failed] at queue ⊢
      apply inv.phase queue (fun _ => submit) early
      · intro _
        apply only
        intro member
        rcases failed with failed | noDump
        · exact unqueued (.inr failed) member
        · rw [(unlinks member).1] at noDump
          cases noDump
      · simp
    · rw [if_neg failed] at queue ⊢
      have givenUp := givenUp_spec d.engine ((d.threads i).ptr i) hw
      have gone : ∀ p ∈ (d.engine.givenUp ((d.threads i).ptr i) hw).transferList, p.block ≠ i := by
        intro p member own
        have old := givenUp.sublist.subset member
        have here := inv.only (.inl submit) old own
        rw [here] at member old
        have head := (unlinks old).2
        cases list : d.engine.transferList with
        | nil => simp [list] at head
        | cons first rest =>
          simp only [list, List.head?_cons, Option.some.injEq] at head
          rw [head] at list
          rw [givenUp.head rest list] at member
          have nodup := inv.queue.nodup
          rw [list, List.nodup_cons] at nodup
          exact nodup.1 member
      refine inv.step_of queue (fun j other => setPhase_other _ _ other) givenUp.sublist
        (fun p _ => givenUp.shape p) (fun _ _ => rfl) ⟨?_, ?_, ?_, ?_, ?_, ?_⟩
      · simpa using submit
      · exact fun _ _ => call.young early.1 early.2
      · simpa using gone
      · intro _ _ p member own
        exact absurd own (gone p member)
      · simp
      · intro p member own
        exact absurd own (gone p member)

theorem blockInv_retire {ok : Bool} (inv : BlockInv d) (retiring : (d.threads i).phase = .retiring ok) :
    BlockInv (stepRetire cfg i ok d) := by
  have queue := @queueInv_retire cfg d i ok inv.queue retiring
  have call := inv.calls i
  refine BlockInv.phase
    (d := { d with
      engine :=
        { d.engine with
          ring := xdmaDescDone (d.engine.tfer ((d.threads i).ptr i)) d.engine.ring
          descUsed := d.engine.descUsed - (d.engine.tfer ((d.threads i).ptr i)).descNum } })
    (inv.congr rfl rfl rfl rfl) queue ?_ ?_ ?_ ?_
  · exact fun _ => call.submits (.inr (.inr ⟨ok, retiring⟩))
  · exact ⟨by simp [retiring], by simp [retiring]⟩
  · exact fun _ => call.gone (.inr ⟨ok, retiring⟩)
  · split <;> simp

theorem stepLeave_frame : (stepLeave i d).engine = d.engine ∧ (stepLeave i d).threads = (d.setPhase i .returned).threads ∧
    (stepLeave i d).freed = (d.free i).freed := by
  unfold stepLeave
  simp only
  split <;> exact ⟨rfl, rfl, rfl⟩

theorem blockInv_leave (inv : BlockInv d) (leaving : (d.threads i).phase = .leaving) : BlockInv (stepLeave i d) := by
  have queue := queueInv_leave inv.queue leaving
  have gone := (inv.calls i).gone (.inl leaving)
  obtain ⟨engine, threads, freed⟩ := @stepLeave_frame d i
  refine inv.step_of (i := i) queue ?_ (by rw [engine]) (fun _ _ => by rw [engine]; exact .refl _) ?_
    ⟨?_, ?_, ?_, ?_, ?_, ?_⟩
  · intro j other
    rw [threads]
    exact setPhase_other _ _ other
  · intro j other
    rw [freed]
    simp [Driver.free, other]
  · simp [threads]
  · simp [threads]
  · simp [threads]
  · simp [threads]
  · simp [threads]
  · intro p member own
    rw [engine] at member
    exact absurd own (gone p member)

theorem blockInv_service {wb : BitVec 32} {hw : Hardware} {reached : Nat → Bool} (inv : BlockInv d) :
    BlockInv (stepService cfg wb hw reached d) := by
  have queue := @queueInv_service cfg d wb hw reached inv.queue
  obtain ⟨done, serviced⟩ := @engineService_serviced cfg hw d.engine wb
  have finished : (engineService cfg hw wb d.engine).ioDone.drop d.engine.ioDone.length =
      done.filter fun p => (d.engine.tfer p).cb && (d.engine.tfer p).lastInRequest := by
    rw [serviced.ioDone, List.drop_left]
  have order := inv.order
  rw [serviced.list, List.pairwise_append] at order
  have freedBy : ∀ i, d.freed i = false → (stepService cfg wb hw reached d).freed i ≠ false →
      ∃ p ∈ done, p.block = i ∧ (d.engine.tfer p).cb = true ∧ (d.engine.tfer p).lastInRequest = true := by
    intro i allocated freed
    rw [Bool.ne_false_iff, stepService, completeRequests_freed, finished] at freed
    rcases freed with old | ⟨p, handled, -, own⟩
    · rw [show d.freed i = true from old] at allocated
      cases allocated
    · rw [List.mem_filter, Bool.and_eq_true] at handled
      exact ⟨p, handled.1, own, handled.2⟩
  have same : (stepService cfg wb hw reached d).engine.transferList =
        (engineService cfg hw wb d.engine).transferList ∧
      (stepService cfg wb hw reached d).engine.tfer = (engineService cfg hw wb d.engine).tfer ∧
      (stepService cfg wb hw reached d).threads = d.threads := by
    obtain ⟨ring, descUsed, freed, moved, same⟩ := stepService_same cfg wb hw reached d
    rw [same]
    exact ⟨rfl, rfl, rfl⟩
  obtain ⟨list, tfer, threads⟩ := same
  refine ⟨queue, fun i => ?_, ?_⟩
  · have call := inv.calls i
    apply call.frame (by rw [threads])
    · intro p member _
      rw [list] at member
      exact serviced.remains member
    · intro p _
      rw [tfer]
      exact serviced.shape p
    · intro leaving returned
      by_contra freed
      obtain ⟨p, member, own, cb, last⟩ := freedBy i (call.young leaving returned) freed
      have nowait := (call.listed p (serviced.listed member) own).1 cb
      rw [call.more returned nowait p (serviced.listed member) own] at last
      cases last
    · intro p member own
      rw [list] at member
      by_contra freed
      obtain ⟨q, early, same, -, last⟩ := freedBy i (call.listed p (serviced.remains member) own).2.2 freed
      rw [order.2.2 q early p member (same.trans own.symm)] at last
      cases last
  · rw [list, tfer]
    apply order.2.1.imp
    intro p q ordered block
    rw [(serviced.shape p).lastInRequest]
    exact ordered block

theorem blockInv_perfStop (inv : BlockInv d)
    (atHead : ∀ p ∈ d.engine.transferList.head?, (d.engine.tfer p).cyclic = true) : BlockInv (stepPerfStop d) := by
  have queue := queueInv_perfStop inv.queue
  cases list : d.engine.transferList with
  | nil =>
    rw [stepPerfStop_empty list]
    exact inv
  | cons head rest =>
    rw [stepPerfStop_head list] at queue ⊢
    have here : head ∈ d.engine.transferList := by simp [list]
    have cyclic := atHead head (by simp [list])
    have call := inv.calls head.block
    have perf := (call.listed head here rfl).2.1 cyclic
    have shorter : (d.engine.cyclicStopped head rest).transferList = rest := by simp [Engine.cyclicStopped, cyclic]
    have placed := inv.queue.placed head here
    simp only [Thread.placed, perf] at placed
    have nodup := inv.queue.nodup
    rw [list, List.nodup_cons] at nodup
    have gone : ∀ p ∈ rest, p.block ≠ head.block := by
      intro p member own
      have first := inv.only (.inr perf) here rfl
      have other := inv.only (.inr perf) (by simp [list, member]) own
      rw [other, ← first] at member
      exact nodup.1 member
    refine inv.step_of (i := head.block) queue (fun _ _ => rfl) (cyclicStopped_sublist list) (fun _ _ => .refl _) ?_
      ⟨?_, ?_, ?_, ?_, ?_, ?_⟩
    · intro j other
      simp [Driver.free, other]
    · simp [placed.2]
    · simp [placed.2]
    · simp [placed.2]
    · simp [placed.2]
    · simp [placed.2]
    · intro p member own
      simp only [free_engine, shorter] at member
      exact absurd own (gone p member)

theorem blockInv_step {action : Action} {next : Driver} (stepped : Driver.step cfg d action = some next)
    (unlinks : Unlinks d action next) (inv : BlockInv d) : BlockInv next := by
  have queue := queueInv_step stepped inv.queue
  cases steps_of_step stepped with
  | call i kind sdesc epAddr uncalled =>
    exact blockInv_call inv uncalled
  | lock i locking _ =>
    exact blockInv_lock inv locking queue
  | init i building =>
    exact blockInv_init inv building
  | check i checking =>
    apply inv.phase queue
    · split <;> simp
    · exact ⟨by simp [checking], by simp [checking]⟩
    · intro late
      apply unlinks
      cases offline : d.offline with
      | true => rfl
      | false => simp [offline] at late
    · exact fun _ => checking
  | queue i hw queueing =>
    exact blockInv_queue inv queueing unlinks
  | settle i dumpOk hw waiting =>
    exact blockInv_settle inv waiting unlinks
  | retire i ok phase =>
    exact blockInv_retire inv phase
  | leave i leaving =>
    exact blockInv_leave inv leaving
  | service wb hw reached =>
    exact blockInv_service inv
  | perfStop _ =>
    exact blockInv_perfStop inv unlinks
  | setOffline =>
    exact inv.congr rfl rfl rfl rfl
  | stopEngine =>
    exact inv.congr rfl rfl rfl rfl
  | clearShutdown =>
    exact inv.congr rfl rfl rfl rfl
  | clearOffline =>
    exact inv.congr rfl rfl rfl rfl

theorem Driver.Initial.blockInv (initial : d.Initial cfg) : BlockInv d where
  queue := initial.queueInv
  calls := by
    intro i
    have uncalled := initial.uncalled i
    have empty := initial.empty
    refine ⟨by simp [uncalled], fun _ _ => initial.allocated i, by simp [uncalled], by simp [empty],
      by simp [uncalled], by simp [empty]⟩
  order := by
    rw [initial.empty]
    exact List.Pairwise.nil

end Steps

/-- In every run whose steps unlink what they free, no transfer on the list is ever in a freed block. -/
theorem none_dangling_of_unlinks (cfg : EngineConfig) (d : Driver) (initial : d.Initial cfg) (actions : List Action)
    (unlinks : EachStep (Driver.step cfg) Unlinks d actions) :
    EachStep (Driver.step cfg) (fun _ _ next => NoneDangling next) d actions := by
  apply eachStep_of_invariant _ initial.blockInv unlinks
  intro d action next stepped permitted inv
  have kept := blockInv_step stepped permitted inv
  exact ⟨kept, kept.noneDangling⟩

/-- The registers cannot be dumped when the wait ends: the transfer stays on the list and its request is freed. -/
theorem failed_dump_leaves_dangling :
    ¬ EachStep (Driver.step mmEngine) (fun _ _ next => NoneDangling next) idleDriver
      (submitOne 0 ++ [.settle 0 false (reads 0 0), .retire 0, .leave 0]) := by
  intro fine
  have last := ((eachStep_append rfl).mp fine).2
  have settled := (eachStep_cons _ rfl).mp last
  have retired := (eachStep_cons _ rfl).mp settled.2
  have left : NoneDangling _ := ((eachStep_cons _ rfl).mp retired.2).1
  have freed := left ⟨0, 0⟩ (by decide)
  cases freed

theorem aborted_none_dangling :
    EachStep (Driver.step mmEngine) (fun _ _ next => NoneDangling next) idleDriver
      (submitOne 0 ++ [.settle 0 true (reads 0 0), .retire 0, .leave 0]) := by
  apply none_dangling_of_unlinks mmEngine idleDriver (idleDriver_initial _)
  apply (eachStep_cons _ rfl).mpr ⟨trivial, _⟩
  apply (eachStep_cons _ rfl).mpr ⟨trivial, _⟩
  apply (eachStep_cons _ rfl).mpr ⟨trivial, _⟩
  apply (eachStep_cons _ rfl).mpr ⟨fun offline => Bool.noConfusion offline, _⟩
  apply (eachStep_cons _ rfl).mpr ⟨fun requested => Bool.noConfusion requested, _⟩
  apply (eachStep_cons _ rfl).mpr ⟨fun _ => ⟨rfl, rfl⟩, _⟩
  apply (eachStep_cons _ rfl).mpr ⟨trivial, _⟩
  exact (eachStep_cons _ rfl).mpr ⟨trivial, trivial⟩

end CigCard.Xdma
