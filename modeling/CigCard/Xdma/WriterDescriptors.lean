import CigCard.Xdma.Writers

namespace CigCard.Xdma

open Transition

def descriptors (cfg : EngineConfig) (sdesc : List SwDesc) (epAddr : Nat) : List Descriptor :=
  (transferBuild cfg sdesc epAddr).1

theorem transferBuild_append (cfg : EngineConfig) (front back : List SwDesc) (epAddr : Nat) :
    transferBuild cfg (front ++ back) epAddr =
      ((transferBuild cfg front epAddr).1 ++ (transferBuild cfg back (transferBuild cfg front epAddr).2).1,
        (transferBuild cfg back (transferBuild cfg front epAddr).2).2) := by
  induction front generalizing epAddr with
  | nil => rfl
  | cons piece front ih => simp only [List.cons_append, transferBuild, ih]

theorem nextDescNum_le (cfg : EngineConfig) (e : Engine) (req : Request) :
    nextDescNum cfg e req ≤ req.remaining.length := by
  unfold nextDescNum
  simp only
  split <;> omega

theorem slots_written (ring : Nat → Descriptor) (descs : List Descriptor) {t : Transfer}
    (length : t.descNum = descs.length) : slots (writeRing ring t.descIndex descs) t = descs := by
  apply List.ext_getElem
  · simp [slots, length]
  · intro j _ inside
    simp [slots, writeRing, inside]

theorem slots_shape {ring : Nat → Descriptor} {before after : Transfer} (shape : SameShape before after) :
    slots ring after = slots ring before := by
  unfold slots
  rw [shape.descNum, shape.descIndex]

def Progress (d : Driver) (i : Nat) (built : List Descriptor) : Prop :=
  match (d.threads i).phase with
  | .notCalled => False
  | .locking | .building | .retiring true => d.moved i = built
  | .checking | .queueing => d.moved i ++ slots d.engine.ring (d.engine.tfer ⟨i, 0⟩) = built
  | .waiting =>
    match (d.engine.tfer ⟨i, 0⟩).state with
    | .completed => d.moved i = built
    | .failed => d.moved i <+: built
    | _ =>
      (⟨i, 0⟩ : Ptr) ∈ d.engine.transferList ∧
        d.moved i ++ slots d.engine.ring (d.engine.tfer ⟨i, 0⟩) = built
  | .retiring false => d.moved i <+: built ∧ (d.engine.tfer ⟨i, 0⟩).state = .failed
  | .leaving | .returned =>
    d.moved i <+: built ∧
      ((d.engine.tfer ⟨i, 0⟩).state ≠ .failed → d.moved i = built ∧ (d.threads i).req.remaining = [])

structure PlanInv (cfg : EngineConfig) (i : Nat) (sdesc : List SwDesc) (epAddr : Nat) (d : Driver) : Prop where
  table : (d.threads i).req.sdesc = sdesc
  address : (transferBuild cfg (sdesc.take (d.threads i).req.swDescIdx) epAddr).2 = (d.threads i).req.epAddr
  progress : Progress d i (descriptors cfg (sdesc.take (d.threads i).req.swDescIdx) epAddr)

section Steps

variable {cfg : EngineConfig} {d next : Driver} {i : Nat} {sdesc : List SwDesc} {epAddr : Nat}

theorem descriptors_take (k : Nat) :
    descriptors cfg (sdesc.take k) epAddr <+: descriptors cfg sdesc epAddr := by
  refine ⟨(transferBuild cfg (sdesc.drop k) (transferBuild cfg (sdesc.take k) epAddr).2).1, ?_⟩
  have whole := transferBuild_append cfg (sdesc.take k) (sdesc.drop k) epAddr
  rw [List.take_append_drop] at whole
  rw [descriptors, descriptors, whole]

theorem PlanInv.called (plan : PlanInv cfg i sdesc epAddr d) : (d.threads i).phase ≠ .notCalled := by
  intro phase
  have progress := plan.progress
  unfold Progress at progress
  rw [phase] at progress
  exact progress

theorem prefix_of_eq {α : Type} {xs ys : List α} (same : xs = ys) : xs <+: ys := by
  subst ys
  exact List.prefix_refl xs

theorem Progress.moved_prefix {built : List Descriptor} (progress : Progress d i built) : d.moved i <+: built := by
  unfold Progress at progress
  split at progress
  · cases progress
  · exact prefix_of_eq progress
  · exact prefix_of_eq progress
  · exact prefix_of_eq progress
  · exact ⟨_, progress⟩
  · exact ⟨_, progress⟩
  · split at progress
    · exact prefix_of_eq progress
    · exact progress
    · exact ⟨_, progress.2⟩
  · exact progress.1
  · exact progress.1
  · exact progress.1

/-- What a call has executed is a part of its request's descriptors from the first one on, and all of them once it
    has returned without a failure. -/
theorem PlanInv.outcome (plan : PlanInv cfg i sdesc epAddr d) :
    d.moved i <+: descriptors cfg sdesc epAddr ∧
      ((d.threads i).phase = .returned → (d.engine.tfer ⟨i, 0⟩).state ≠ .failed →
        d.moved i = descriptors cfg sdesc epAddr) := by
  refine ⟨plan.progress.moved_prefix.trans (descriptors_take _), ?_⟩
  intro returned succeeded
  have progress := plan.progress
  simp only [Progress, returned] at progress
  obtain ⟨moved, empty⟩ := progress.2 succeeded
  rw [Request.remaining, plan.table, List.drop_eq_nil_iff] at empty
  rw [moved, List.take_of_length_le empty]

theorem PlanInv.frame (plan : PlanInv cfg i sdesc epAddr d) (thread : next.threads i = d.threads i)
    (moved : next.moved i = d.moved i) (tfer : next.engine.tfer ⟨i, 0⟩ = d.engine.tfer ⟨i, 0⟩)
    (listed : (⟨i, 0⟩ : Ptr) ∈ d.engine.transferList → (⟨i, 0⟩ : Ptr) ∈ next.engine.transferList)
    (ring : (d.threads i).inFlight → ((d.threads i).phase = .waiting → (⟨i, 0⟩ : Ptr) ∈ d.engine.transferList) →
      next.engine.ring = d.engine.ring) : PlanInv cfg i sdesc epAddr next where
  table := by
    rw [thread]
    exact plan.table
  address := by
    rw [thread]
    exact plan.address
  progress := by
    have progress := plan.progress
    unfold Progress at progress ⊢
    rw [thread, moved, tfer]
    cases phase : (d.threads i).phase with
    | checking =>
      simp only [phase] at progress ⊢
      rw [ring (.inl phase) (by simp [phase])]
      exact progress
    | queueing =>
      simp only [phase] at progress ⊢
      rw [ring (.inr (.inl phase)) (by simp [phase])]
      exact progress
    | waiting =>
      simp only [phase] at progress ⊢
      split at progress
      · exact progress
      · exact progress
      · rw [ring (.inr (.inr phase)) (fun _ => progress.1)]
        exact ⟨listed progress.1, progress.2⟩
    | retiring ok =>
      cases ok with
      | true => simpa only [phase] using progress
      | false => simpa only [phase] using progress
    | notCalled => simp only [phase] at progress
    | _ => simpa only [phase] using progress

theorem planInv_lock (plan : PlanInv cfg i sdesc epAddr d) (locking : (d.threads i).phase = .locking) :
    PlanInv cfg i sdesc epAddr ({ d with descLock := some i }.setPhase i
      (if (d.threads i).req.remaining = [] then .leaving else .building)) := by
  have progress := plan.progress
  simp only [Progress, locking] at progress
  refine ⟨?_, ?_, ?_⟩
  · rw [setPhase_self]
    exact plan.table
  · rw [setPhase_self]
    exact plan.address
  · rw [setPhase_self]
    unfold Progress
    rw [setPhase_self]
    by_cases empty : (d.threads i).req.remaining = []
    · simp only [empty, if_true]
      exact ⟨prefix_of_eq progress, fun _ => ⟨progress, trivial⟩⟩
    · simp only [empty, if_false]
      exact progress

theorem planInv_init (inv : WriterInv cfg d) (plan : PlanInv cfg i sdesc epAddr d)
    (building : (d.threads i).phase = .building) : PlanInv cfg i sdesc epAddr (stepInit cfg i d) := by
  have progress := plan.progress
  simp only [Progress, building] at progress
  have submit := inv.submits i (by simp [building])
  have ptr := inv.ptr (i := i) (by simp [building])
  have init := initialized_spec cfg d i
  have enough := nextDescNum_le cfg d.engine (d.threads i).req
  rw [ptr] at init
  let n := nextDescNum cfg d.engine (d.threads i).req
  let k := (d.threads i).req.swDescIdx
  have table : (d.initialized cfg i).2.sdesc = sdesc := plan.table
  have index : (d.initialized cfg i).2.swDescIdx = k + n := rfl
  have pieces : (d.threads i).req.remaining.take n = (sdesc.drop k).take n := by rw [Request.remaining, plan.table]
  have split := transferBuild_append cfg (sdesc.take k) ((sdesc.drop k).take n) epAddr
  rw [← List.take_add, plan.address] at split
  rw [stepInit_transfer (by simp [submit])]
  refine ⟨?_, ?_, ?_⟩
  · rw [setThread_self]
    exact table
  · rw [setThread_self]
    simp only
    rw [index, split, init.epAddr, pieces]
  · have length : ((d.initialized cfg i).1.tfer ⟨i, 0⟩).descNum =
        (transferBuild cfg ((sdesc.drop k).take n) (d.threads i).req.epAddr).1.length := by
      rw [init.descNum, transferBuild_length, ← pieces, List.length_take]
      exact (Nat.min_eq_left enough).symm
    have written : slots (d.initialized cfg i).1.ring ((d.initialized cfg i).1.tfer ⟨i, 0⟩) =
        (transferBuild cfg ((sdesc.drop k).take n) (d.threads i).req.epAddr).1 := by
      rw [init.ring, ← init.descIndex, pieces]
      exact slots_written _ _ length
    simp only [Progress, setThread_self, setThread_engine]
    show d.moved i ++ slots (d.initialized cfg i).1.ring ((d.initialized cfg i).1.tfer ⟨i, 0⟩) = _
    rw [written, progress, index, descriptors, descriptors, split]

theorem planInv_check (inv : WriterInv cfg d) (plan : PlanInv cfg i sdesc epAddr d)
    (checking : (d.threads i).phase = .checking) :
    PlanInv cfg i sdesc epAddr (d.setPhase i (if d.offline then .leaving else .queueing)) := by
  have progress := plan.progress
  simp only [Progress, checking] at progress
  have online : ¬ d.offline = true := by simp [inv.online]
  rw [if_neg online]
  refine ⟨?_, ?_, ?_⟩
  · rw [setPhase_self]
    exact plan.table
  · rw [setPhase_self]
    exact plan.address
  · simp only [Progress, setPhase_self]
    exact progress

theorem planInv_queue {hw : Hardware} (inv : WriterInv cfg d) (plan : PlanInv cfg i sdesc epAddr d)
    (queueing : (d.threads i).phase = .queueing) : PlanInv cfg i sdesc epAddr (stepQueue i hw d) := by
  have progress := plan.progress
  simp only [Progress, queueing] at progress
  have submit := inv.submits i (by simp [queueing])
  have ptr := inv.ptr (i := i) (by simp [queueing])
  obtain ⟨engine, accepted, -⟩ := transferQueue_accepts hw ((d.threads i).ptr i) inv.accepting
  have queued : (d.threads i).queued = { d.threads i with phase := .waiting } := by
    simp [Thread.queued, submit]
  obtain ⟨-, list, tfer, -, -, ring, -⟩ := transferQueue_spec accepted
  rw [stepQueue_accepted accepted, queued]
  rw [ptr] at list tfer
  refine ⟨?_, ?_, ?_⟩
  · rw [setThread_self]
    exact plan.table
  · rw [setThread_self]
    exact plan.address
  · simp only [Progress, setThread_self, setThread_engine, list, tfer, ring, if_true]
    exact ⟨by simp, progress⟩

theorem planInv_settle {dumpOk : Bool} {hw : Hardware} (inv : WriterInv cfg d) (plan : PlanInv cfg i sdesc epAddr d)
    (waiting : (d.threads i).phase = .waiting)
    (finished : (d.engine.tfer ((d.threads i).ptr i)).state = .completed ∨
      (d.engine.tfer ((d.threads i).ptr i)).state = .failed) :
    PlanInv cfg i sdesc epAddr (stepSettle i dumpOk hw d) := by
  have progress := plan.progress
  have ptr := inv.ptr (i := i) (by simp [waiting])
  rw [stepSettle_finished finished]
  rw [ptr] at finished ⊢
  refine ⟨?_, ?_, ?_⟩
  · rw [setPhase_self]
    exact plan.table
  · rw [setPhase_self]
    exact plan.address
  · rcases finished with completed | failed
    · simp only [Progress, waiting, completed] at progress
      simp only [Progress, setPhase_self, completed, decide_true]
      exact progress
    · simp only [Progress, waiting, failed] at progress
      have other : decide (TransferState.failed = .completed) = false := rfl
      simp only [Progress, setPhase_self, failed, other]
      exact ⟨progress, failed⟩

theorem planInv_retire (flush : cfg.eopFlush = false) {ok : Bool} (plan : PlanInv cfg i sdesc epAddr d)
    (retiring : (d.threads i).phase = .retiring ok) : PlanInv cfg i sdesc epAddr (stepRetire cfg i ok d) := by
  have progress := plan.progress
  unfold stepRetire
  refine ⟨?_, ?_, ?_⟩
  · rw [setPhase_self]
    exact plan.table
  · rw [setPhase_self]
    exact plan.address
  · cases ok with
    | true =>
      simp only [Progress, retiring] at progress
      unfold Progress
      rw [setPhase_self]
      by_cases empty : (d.threads i).req.remaining = []
      · simp only [empty, ne_eq, not_true_eq_false, false_and, and_false, if_false]
        exact ⟨prefix_of_eq progress, fun _ => ⟨progress, trivial⟩⟩
      · simp only [empty, flush, ne_eq, not_false_eq_true, and_self, if_true]
        exact progress
    | false =>
      simp only [Progress, retiring] at progress
      unfold Progress
      rw [setPhase_self]
      exact ⟨progress.1, fun succeeded => absurd progress.2 succeeded⟩

theorem planInv_leave (inv : WriterInv cfg d) (plan : PlanInv cfg i sdesc epAddr d)
    (leaving : (d.threads i).phase = .leaving) : PlanInv cfg i sdesc epAddr (stepLeave i d) := by
  have progress := plan.progress
  simp only [Progress, leaving] at progress
  rw [stepLeave_submit (inv.submits i (by simp [leaving]))]
  refine ⟨?_, ?_, ?_⟩
  · rw [free_threads, setPhase_self]
    exact plan.table
  · rw [free_threads, setPhase_self]
    exact plan.address
  · simp only [Progress, free_threads, setPhase_self]
    exact progress

theorem WriterInv.alone {after : Engine} {done : List Ptr} {p : Ptr} (inv : WriterInv cfg d)
    (serviced : Serviced d.engine after done) (taken : p ∈ done) : done = [p] := by
  have same : ∀ q ∈ done, q = p :=
    fun q member => inv.single (.inl (serviced.listed member)) (.inl (serviced.listed taken))
  have nodup := inv.queue.nodup
  rw [serviced.list] at nodup
  cases more : done with
  | nil => simp [more] at taken
  | cons first rest =>
    have head := same first (by simp [more])
    cases others : rest with
    | nil => rw [head]
    | cons second last =>
      rw [more, others, head, same second (by simp [more, others])] at nodup
      simp at nodup

theorem planInv_service {wb : BitVec 32} {hw : Hardware} {reached : Nat → Bool} (inv : WriterInv cfg d)
    (plan : PlanInv cfg i sdesc epAddr d) : PlanInv cfg i sdesc epAddr (stepService cfg wb hw reached d) := by
  obtain ⟨done, serviced, result⟩ := @stepService_writer cfg d wb hw reached inv
  have own : ∀ p ∈ done, p.block = i → p = ⟨i, 0⟩ := by
    intro p member block
    have here := (inv.owner (.inl (serviced.listed member))).1
    rwa [block] at here
  rw [result]
  refine ⟨plan.table, plan.address, ?_⟩
  have progress := plan.progress
  by_cases taken : (⟨i, 0⟩ : Ptr) ∈ done
  · have waiting := inv.waits _ (serviced.listed taken)
    have alone := inv.alone serviced taken
    have before : d.moved i ++ slots d.engine.ring (d.engine.tfer ⟨i, 0⟩) =
        descriptors cfg (sdesc.take (d.threads i).req.swDescIdx) epAddr := by
      have state := inv.queue.state _ (serviced.listed taken)
      simp only [Progress, waiting] at progress
      split at progress
      · rename_i completed
        simp [completed] at state
      · rename_i failed
        simp [failed] at state
      · exact progress.2
    have phase : (d.threads i).phase = .waiting := waiting
    simp only [Progress, phase]
    rcases serviced.finished _ taken with completed | failed
    · simp only [completed]
      rw [executed, alone]
      simp only [List.filter_cons, completed, and_self, decide_true, if_true, List.filter_nil, List.flatMap_cons,
        List.flatMap_nil, List.append_nil]
      rw [slots_shape (serviced.shape _), serviced.ring]
      exact before
    · simp only [failed]
      have none : executed (engineService cfg hw wb d.engine) done i = [] := by
        rw [executed, alone]
        simp [failed]
      rw [none, List.append_nil]
      exact ⟨_, before⟩
  · have none : executed (engineService cfg hw wb d.engine) done i = [] := by
      apply executed_none
      intro p member block
      rw [own p member block] at member
      exact taken member
    have state := serviced.untouched _ taken
    have kept : (⟨i, 0⟩ : Ptr) ∈ d.engine.transferList →
        (⟨i, 0⟩ : Ptr) ∈ (engineService cfg hw wb d.engine).transferList := by
      intro member
      rw [serviced.list] at member
      exact (List.mem_append.mp member).resolve_left taken
    unfold Progress at progress ⊢
    simp only [none, List.append_nil, slots_shape (serviced.shape _), serviced.ring, state]
    cases phase : (d.threads i).phase with
    | waiting =>
      simp only [phase] at progress ⊢
      split at progress
      · exact progress
      · exact progress
      · exact ⟨kept progress.1, progress.2⟩
    | retiring ok =>
      cases ok with
      | true => simpa only [phase] using progress
      | false => simpa only [phase] using progress
    | notCalled => simp only [phase] at progress
    | _ => simpa only [phase] using progress

theorem planInv_call (inv : WriterInv cfg d) (uncalled : (d.threads i).phase = .notCalled) :
    PlanInv cfg i sdesc epAddr (stepCall i .submit sdesc epAddr d) := by
  rw [stepCall_online inv.online]
  refine ⟨?_, ?_, ?_⟩
  · rw [setThread_self]
  · rw [setThread_self]
    rfl
  · simp only [Progress, setThread_self]
    exact inv.unmoved i uncalled

theorem inFlight_outstanding (inv : WriterInv cfg d) (flight : (d.threads i).inFlight)
    (listed : (d.threads i).phase = .waiting → (⟨i, 0⟩ : Ptr) ∈ d.engine.transferList) :
    (⟨i, 0⟩ : Ptr) ∈ outstanding d := by
  have ptr := inv.ptr flight.inside.1
  rcases flight with phase | phase | phase
  · exact .inr ⟨i, .inl phase, ptr.symm⟩
  · exact .inr ⟨i, .inr phase, ptr.symm⟩
  · exact .inl (listed phase)

/-- Each step of another call, and each step of its own, keeps a call to its plan. -/
theorem planInv_step {action : Action} (flush : cfg.eopFlush = false)
    (stepped : Driver.step cfg d action = some next) (writer : action.writer) (finishes : NoTimeout d action next)
    (inv : WriterInv cfg d) (plan : PlanInv cfg i sdesc epAddr d) : PlanInv cfg i sdesc epAddr next := by
  have ring : (d.threads i).inFlight → ((d.threads i).phase = .waiting → (⟨i, 0⟩ : Ptr) ∈ d.engine.transferList) →
      next.engine.ring = d.engine.ring :=
    fun flight listed => ring_kept stepped writer finishes inv (inFlight_outstanding inv flight listed)
  cases steps_of_step stepped with
  | call j kind sdesc epAddr uncalled =>
    have other : i ≠ j := by
      intro same
      rw [← same] at uncalled
      exact plan.called uncalled
    rw [show kind = .submit from writer, stepCall_online inv.online]
    exact plan.frame (setThread_other _ _ other) rfl rfl id (fun _ _ => rfl)
  | lock j locking _ =>
    by_cases own : i = j
    · subst own
      exact planInv_lock plan locking
    · exact plan.frame (setPhase_other _ _ own) rfl rfl id ring
  | init j building =>
    by_cases own : i = j
    · subst own
      exact planInv_init inv plan building
    · have submit := inv.submits j (by simp [building])
      have init := initialized_spec cfg d j
      rw [inv.ptr (by simp [building])] at init
      rw [stepInit_transfer (by simp [submit])] at ring ⊢
      refine plan.frame (setThread_other _ _ own) rfl (init.others ⟨i, 0⟩ (by simp [own])) ?_ ring
      rw [setThread_engine, init.list]
      exact id
  | check j checking =>
    by_cases own : i = j
    · subst own
      exact planInv_check inv plan checking
    · exact plan.frame (setPhase_other _ _ own) rfl rfl id ring
  | queue j hw queueing =>
    by_cases own : i = j
    · subst own
      exact planInv_queue inv plan queueing
    · obtain ⟨engine, accepted, -⟩ := transferQueue_accepts hw ((d.threads j).ptr j) inv.accepting
      obtain ⟨-, list, tfer, -⟩ := transferQueue_spec accepted
      rw [stepQueue_accepted accepted] at ring ⊢
      rw [inv.ptr (by simp [queueing])] at list tfer
      refine plan.frame (setThread_other _ _ own) rfl ?_ ?_ ring
      · simp [tfer, own]
      · intro listed
        rw [setThread_engine, list]
        exact List.mem_append_left _ listed
  | settle j dumpOk hw waiting =>
    by_cases own : i = j
    · subst own
      exact planInv_settle inv plan waiting finishes
    · rw [stepSettle_finished finishes] at ring ⊢
      exact plan.frame (setPhase_other _ _ own) rfl rfl id ring
  | retire j ok phase =>
    by_cases own : i = j
    · subst own
      exact planInv_retire flush plan phase
    · exact plan.frame (setPhase_other _ _ own) rfl rfl id ring
  | leave j leaving =>
    by_cases own : i = j
    · subst own
      exact planInv_leave inv plan leaving
    · rw [stepLeave_submit (inv.submits j (by simp [leaving]))] at ring ⊢
      exact plan.frame (setPhase_other _ _ own) rfl rfl id ring
  | service wb hw reached =>
    exact planInv_service inv plan
  | perfStop _ => cases writer
  | setOffline => cases writer
  | stopEngine => cases writer
  | clearShutdown => cases writer
  | clearOffline => cases writer

end Steps

def WriterStep (d : Driver) (action : Action) (next : Driver) : Prop := action.writer ∧ NoTimeout d action next

/-- In every run of the writers, each call keeps to its plan from the moment it is made. -/
theorem writers_planned (cfg : EngineConfig) (flush : cfg.eopFlush = false) (d : Driver) (inv : WriterInv cfg d)
    (before after : List Action) {i : Nat} {sdesc : List SwDesc} {epAddr : Nat} {last : Driver}
    (permitted : EachStep (Driver.step cfg) WriterStep d (before ++ .call i .submit sdesc epAddr :: after))
    (ran : Driver.run cfg d (before ++ .call i .submit sdesc epAddr :: after) = some last) :
    PlanInv cfg i sdesc epAddr last := by
  have keeps : ∀ (d : Driver) action next, Driver.step cfg d action = some next → WriterStep d action next →
      WriterInv cfg d → WriterInv cfg next :=
    fun d action next stepped permitted inv => writerInv_step stepped permitted.1 permitted.2 inv
  obtain ⟨middle, front, rest⟩ := run_append.mp ran
  obtain ⟨early, late⟩ := (eachStep_append front).mp permitted
  have arrived := run_invariant keeps inv early front
  obtain ⟨called, stepped, back⟩ := run_cons.mp rest
  obtain ⟨here, later⟩ := late called stepped
  have planned : WriterInv cfg called ∧ PlanInv cfg i sdesc epAddr called := by
    refine ⟨keeps middle _ called stepped here arrived, ?_⟩
    cases steps_of_step stepped with
    | call _ _ _ _ uncalled => exact planInv_call arrived uncalled
  have kept := run_invariant
    (I := fun d => WriterInv cfg d ∧ PlanInv cfg i sdesc epAddr d)
    (fun d action next stepped permitted inv =>
      ⟨keeps d action next stepped permitted inv.1,
        planInv_step flush stepped permitted.1 permitted.2 inv.1 inv.2⟩) planned later back
  exact kept.2

/-- Any number of processes write through one engine, and every wait ends with a finished transfer. Then no two
    transfers are ever outstanding, none of the slots of an outstanding transfer is written, and each call executes
    the descriptors of its own request, in order, as it does alone. -/
theorem writers_do_not_mix (cfg : EngineConfig) (flush : cfg.eopFlush = false) (d : Driver) (initial : d.Initial cfg)
    (actions : List Action) (writers : ∀ action ∈ actions, action.writer)
    (finishes : EachStep (Driver.step cfg) NoTimeout d actions) :
    EachStep (Driver.step cfg) StepAlone d actions ∧
      ∀ last, Driver.run cfg d actions = some last →
        ∀ i sdesc epAddr, Action.call i .submit sdesc epAddr ∈ actions →
          last.moved i <+: descriptors cfg sdesc epAddr ∧
            ((last.threads i).phase = .returned → (last.engine.tfer ⟨i, 0⟩).state ≠ .failed →
              last.moved i = descriptors cfg sdesc epAddr) := by
  have permitted : EachStep (Driver.step cfg) WriterStep d actions :=
    eachStep_and (eachStep_of_actions writers d) finishes
  constructor
  · apply eachStep_of_invariant _ initial.writerInv permitted
    intro d action next stepped permitted inv
    exact ⟨writerInv_step stepped permitted.1 permitted.2 inv, stepAlone_of_writer stepped permitted.1 permitted.2 inv⟩
  · intro last ran i sdesc epAddr called
    obtain ⟨before, after, split⟩ := List.append_of_mem called
    subst split
    exact (writers_planned cfg flush d initial.writerInv before after permitted ran).outcome

def twoWriters : List Action :=
  .call 1 .submit [⟨0x2000, 64⟩] 0x100 :: submitOne 0 ++
    [.service 0 (reads 0 1) (fun _ => false), .settle 0 true (reads 0 1), .retire 0, .leave 0, .lock 1, .init 1,
      .check 1, .queue 1 (reads xdmaStatBusy 0), .service 0 (reads 0 1) (fun _ => false),
      .settle 1 true (reads 0 1), .retire 1, .leave 1]

theorem two_writers_do_not_mix :
    EachStep (Driver.step mmEngine) StepAlone idleDriver twoWriters ∧
      ∀ last, Driver.run mmEngine idleDriver twoWriters = some last →
        last.moved 1 <+: [⟨0x2000, 0x100, 64⟩] := by
  have writers : ∀ action ∈ twoWriters, action.writer := by simp [twoWriters, submitOne, Action.writer]
  have finishes : EachStep (Driver.step mmEngine) NoTimeout idleDriver twoWriters := by
    repeat apply (eachStep_cons _ rfl).mpr ⟨trivial, _⟩
    apply (eachStep_cons _ rfl).mpr ⟨.inl rfl, _⟩
    repeat apply (eachStep_cons _ rfl).mpr ⟨trivial, _⟩
    apply (eachStep_cons _ rfl).mpr ⟨.inl rfl, _⟩
    repeat apply (eachStep_cons _ rfl).mpr ⟨trivial, _⟩
    trivial
  obtain ⟨alone, moved⟩ :=
    writers_do_not_mix mmEngine rfl idleDriver (idleDriver_initial _) twoWriters writers finishes
  refine ⟨alone, fun last ran => ?_⟩
  exact (moved last ran 1 [⟨0x2000, 64⟩] 0x100 (by simp [twoWriters])).1

end CigCard.Xdma
