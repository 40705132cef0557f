import CigCard.Xdma.DriverSteps
import CigCard.Xdma.Poller

namespace CigCard.Xdma

open Transition

def KthreadPhase.toCome : KthreadPhase → List Nat
  | .processing remaining | .polling _ _ remaining => remaining
  | .asking _ | .rescheduled => []

def Driver.Unqueues (d : Driver) : Action → Prop
  | .settle i dumpOk _ =>
    d.engine.transferList = [(d.threads i).ptr i] ∧ dumpOk = true ∧
      (d.engine.tfer ((d.threads i).ptr i)).state ≠ .completed ∧ (d.engine.tfer ((d.threads i).ptr i)).state ≠ .failed
  | .perfStop => ∃ p, d.engine.transferList = [p] ∧ (d.engine.tfer p).cyclic = true
  | _ => False

/-- The step starts no work on a list with an idle engine, and makes no engine idle that a thread has still to come
    to. -/
def Attentive (a : Assignment) (s : Poller) (action : PollAction) (_ : Poller) : Prop :=
  match action with
  | .ask i => ∀ k rest, (s.threads i).phase = .asking (k :: rest) → s.Pending k → s.Ready a i
  | .resched i => s.Ready a i
  | .driver k action => (s.drivers k).Unqueues action → ∀ i, k ∉ (s.threads i).phase.toCome
  | .wakeup _ | .proc _ _ | .poll _ _ _ _ | .loop _ => True

/-- What `xdma_thread_cmpl_status_proc` inspects is the first transfer in the queue of its engine. -/
def InspectsQueued (a : Assignment) (s : Poller) (action : PollAction) (next : Poller) : Prop :=
  match action with
  | .proc i _ => ∃ k rest p queue, (s.threads i).phase = .processing (k :: rest) ∧
      (s.drivers k).engine.transferList = p :: queue ∧
      (next.threads i).phase = .polling k (descCmplTh (a.engines k) ((s.drivers k).engine.tfer p)) rest
  | _ => True

theorem settle_keeps_queued {d : Driver} {i : Nat} {dumpOk : Bool} {hw : Hardware}
    (queued : d.engine.transferList ≠ []) (leaves : ¬ d.Unqueues (.settle i dumpOk hw)) :
    (stepSettle i dumpOk hw d).engine.transferList ≠ [] := by
  by_cases completed : (d.engine.tfer ((d.threads i).ptr i)).state = .completed
  · rw [stepSettle_completed completed]
    exact queued
  · rw [stepSettle_failed completed]
    split
    · exact queued
    next stops =>
      rw [not_or] at stops
      rw [setPhase_engine]
      rcases (givenUp_spec d.engine ((d.threads i).ptr i) hw).list with kept | ⟨rest, before, after⟩
      · rw [kept]
        exact queued
      · rw [after]
        intro empty
        rw [empty] at before
        exact leaves ⟨before, Bool.eq_true_of_not_eq_false stops.2, completed, stops.1⟩

theorem perfStop_keeps_queued {d : Driver} (queued : d.engine.transferList ≠ []) (leaves : ¬ d.Unqueues .perfStop) :
    (stepPerfStop d).engine.transferList ≠ [] := by
  obtain ⟨head, rest, list⟩ := List.exists_cons_of_ne_nil queued
  rw [stepPerfStop_head list, free_engine]
  simp only [Engine.cyclicStopped]
  split
  next cyclic =>
    intro empty
    rw [empty] at list
    exact leaves ⟨head, list, cyclic⟩
  next => exact List.cons_ne_nil _ _

theorem queue_keeps_queued {d : Driver} {i : Nat} {hw : Hardware} (queued : d.engine.transferList ≠ []) :
    (stepQueue i hw d).engine.transferList ≠ [] := by
  cases accepted : transferQueue hw ((d.threads i).ptr i) d.engine with
  | none =>
    rw [stepQueue_rejected accepted]
    exact queued
  | some engine =>
    rw [stepQueue_accepted accepted, setThread_engine, (transferQueue_spec accepted).2.1]
    exact List.append_ne_nil_of_left_ne_nil queued _

/-- A driver's step keeps a queue that is not empty, but for the steps that take the only transfer off it. -/
theorem keeps_queued {cfg : EngineConfig} {d next : Driver} {action : Action}
    (stepped : Driver.step cfg d action = some next) (calls : ∀ wb hw reached, action ≠ .service wb hw reached)
    (queued : d.engine.transferList ≠ []) (leaves : ¬ d.Unqueues action) : next.engine.transferList ≠ [] := by
  cases steps_of_step stepped with
  | call i kind sdesc epAddr uncalled =>
    cases kind with
    | submit => exact queued
    | nowait => exact queued
    | perf =>
      simp only [stepCall]
      split
      · exact queued
      · exact queued
  | lock i locking free => exact queued
  | init i building =>
    by_cases kind : (d.threads i).kind = .perf
    · rw [stepInit_perf kind]
      exact queued
    · rw [stepInit_transfer kind, setThread_engine, (initialized_spec cfg d i).list]
      exact queued
  | check i checking => exact queued
  | queue i hw queueing => exact queue_keeps_queued queued
  | settle i dumpOk hw waiting => exact settle_keeps_queued queued leaves
  | retire i ok retiring => exact queued
  | leave i leaving =>
    simp only [stepLeave]
    split
    · exact queued
    · exact queued
    · exact queued
  | service wb hw reached => exact absurd rfl (calls wb hw reached)
  | perfStop running => exact perfStop_keeps_queued queued leaves
  | setOffline => exact queued
  | stopEngine => exact queued
  | clearShutdown => exact queued
  | clearOffline => exact queued

section Steps
variable {a : Assignment} {s next : Poller} {i j k : Nat}

@[simp] theorem setDriver_threads (s : Poller) (k : Nat) (d : Driver) : (s.setDriver k d).threads = s.threads := rfl

@[simp] theorem setKthread_drivers (s : Poller) (i : Nat) (t : XdmaKthread) : (s.setThread i t).drivers = s.drivers :=
  rfl

@[simp] theorem setKthread_self (s : Poller) (i : Nat) (t : XdmaKthread) : (s.setThread i t).threads i = t := by
  simp [Poller.setThread]

theorem setKthread_other (s : Poller) (t : XdmaKthread) (other : j ≠ i) :
    (s.setThread i t).threads j = s.threads j := by
  simp [Poller.setThread, other]

@[simp] theorem setDriver_self (s : Poller) (k : Nat) (d : Driver) : (s.setDriver k d).drivers k = d := by
  simp [Poller.setDriver]

theorem setDriver_other (s : Poller) (d : Driver) (other : j ≠ k) : (s.setDriver k d).drivers j = s.drivers j := by
  simp [Poller.setDriver, other]

theorem pend_iff : xdmaThreadCmplStatusPend (s.drivers k) = true ↔ s.Pending k := by
  simp [xdmaThreadCmplStatusPend, Poller.Pending]

inductive Poller.Steps (a : Assignment) (s : Poller) : PollAction → Poller → Prop where
  | driver (k : Nat) (action : Action) (d : Driver) (calls : ∀ wb hw reached, action ≠ .service wb hw reached)
      (stepped : Driver.step (a.engines k) (s.drivers k) action = some d) :
      Steps a s (.driver k action) (s.setDriver k d)
  | wakeup (i : Nat) : Steps a s (.wakeup i) (s.setThread i { s.threads i with schedule := true })
  | asked (i : Nat) (asking : (s.threads i).phase = .asking []) : Steps a s (.ask i) (s.setPhase i .rescheduled)
  | started (i k : Nat) (rest : List Nat) (asking : (s.threads i).phase = .asking (k :: rest)) (pending : s.Pending k) :
      Steps a s (.ask i) (s.setThread i ⟨false, .processing (a.workList i)⟩)
  | skipped (i k : Nat) (rest : List Nat) (asking : (s.threads i).phase = .asking (k :: rest)) (idle : ¬ s.Pending k) :
      Steps a s (.ask i) (s.setPhase i (.asking rest))
  | resched (i : Nat) (waiting : (s.threads i).phase = .rescheduled) (schedule : (s.threads i).schedule = true) :
      Steps a s (.resched i) (s.setThread i ⟨false, .processing (a.workList i)⟩)
  | proc (i : Nat) (garbage : BitVec 32) (k : Nat) (rest : List Nat)
      (processing : (s.threads i).phase = .processing (k :: rest)) :
      Steps a s (.proc i garbage)
        (s.setPhase i (.polling k (firstDescCmplTh (a.engines k) garbage (s.drivers k).engine) rest))
  | poll (i : Nat) (words : List (BitVec 32)) (hw : Hardware) (reached : Nat → Bool) (k : Nat) (expected : BitVec 32)
      (rest : List Nat) (polling : (s.threads i).phase = .polling k expected rest) :
      Steps a s (.poll i words hw reached)
        ((s.setDriver k (engineServicePoll (a.engines k) expected words hw reached (s.drivers k))).setPhase i
          (.processing rest))
  | loop (i : Nat) (processing : (s.threads i).phase = .processing []) :
      Steps a s (.loop i) (s.setPhase i (.asking (a.workList i)))

theorem poller_steps {action : PollAction} (stepped : Poller.step a s action = some next) :
    Poller.Steps a s action next := by
  cases action with
  | driver k action =>
    have plain : (∀ wb hw reached, action ≠ .service wb hw reached) ∧
        (Driver.step (a.engines k) (s.drivers k) action).map (s.setDriver k) = some next := by
      cases action with
      | service wb hw reached => cases stepped
      | _ => exact ⟨fun _ _ _ => Action.noConfusion, stepped⟩
    obtain ⟨d, ran, rfl⟩ := Option.map_eq_some_iff.mp plain.2
    exact .driver k action d plain.1 ran
  | wakeup i =>
    cases stepped
    exact .wakeup i
  | ask i =>
    simp only [Poller.step, Poller.stepAsk] at stepped
    split at stepped
    next asking =>
      cases stepped
      exact .asked i asking
    next k rest asking =>
      split at stepped
      next pending =>
        cases stepped
        exact .started i k rest asking (pend_iff.mp pending)
      next idle =>
        cases stepped
        exact .skipped i k rest asking fun pending => idle (pend_iff.mpr pending)
    next => cases stepped
  | resched i =>
    simp only [Poller.step, Poller.stepResched, Option.ite_none_right_eq_some, Option.some.injEq] at stepped
    obtain ⟨⟨waiting, schedule⟩, rfl⟩ := stepped
    exact .resched i waiting schedule
  | proc i garbage =>
    simp only [Poller.step, Poller.stepProc] at stepped
    split at stepped
    next k rest processing =>
      cases stepped
      exact .proc i garbage k rest processing
    next => cases stepped
  | poll i words hw reached =>
    simp only [Poller.step, Poller.stepPoll] at stepped
    split at stepped
    next k expected rest polling =>
      cases stepped
      exact .poll i words hw reached k expected rest polling
    next => cases stepped
  | loop i =>
    simp only [Poller.step, Poller.stepLoop, Option.ite_none_right_eq_some, Option.some.injEq] at stepped
    obtain ⟨processing, rfl⟩ := stepped
    exact .loop i processing

end Steps

def KthreadPhase.held : KthreadPhase → List Nat
  | .polling k _ remaining => k :: remaining
  | .processing remaining => remaining
  | .asking _ | .rescheduled => []

theorem toCome_sublist (phase : KthreadPhase) : phase.toCome.Sublist phase.held := by
  cases phase with
  | polling k expected remaining => exact List.sublist_cons_self _ _
  | processing remaining => exact .refl _
  | asking remaining => exact .refl _
  | rescheduled => exact .refl _

structure PollInv (a : Assignment) (s : Poller) : Prop where
  listed : ∀ i, (s.threads i).phase.held.Sublist (a.workList i)
  pending : ∀ i, ∀ k ∈ (s.threads i).phase.toCome, s.Pending k

section Invariant
variable {a : Assignment} {s next : Poller} {i k : Nat}

theorem PollInv.thread (inv : PollInv a s) {t : XdmaKthread} (listed : t.phase.held.Sublist (a.workList i))
    (pending : ∀ k ∈ t.phase.toCome, s.Pending k) : PollInv a (s.setThread i t) := by
  apply PollInv.mk
  · intro j
    by_cases here : j = i
    · rw [here, setKthread_self]
      exact listed
    · rw [setKthread_other _ _ here]
      exact inv.listed j
  · intro j
    by_cases here : j = i
    · rw [here, setKthread_self]
      exact pending
    · rw [setKthread_other _ _ here]
      exact inv.pending j

theorem PollInv.driver (inv : PollInv a s) {d : Driver}
    (kept : ∀ i, k ∈ (s.threads i).phase.toCome → d.engine.transferList ≠ []) : PollInv a (s.setDriver k d) := by
  apply PollInv.mk
  · exact inv.listed
  · intro i other toCome
    by_cases here : other = k
    · rw [here] at toCome ⊢
      rw [Poller.Pending, setDriver_self]
      exact kept i toCome
    · rw [Poller.Pending, setDriver_other _ _ here]
      exact inv.pending i other toCome

/-- The engine that a thread polls is on no other list and only once on this one, so nobody has still to come to it. -/
theorem PollInv.polled (inv : PollInv a s) {expected : BitVec 32} {rest : List Nat}
    (polling : (s.threads i).phase = .polling k expected rest) (j : Nat) : k ∉ (s.threads j).phase.toCome := by
  intro toCome
  have own := inv.listed i
  rw [polling] at own
  have other := (toCome_sublist _).trans (inv.listed j)
  have same : i = j := a.single i j k (own.subset (List.mem_cons_self ..)) (other.subset toCome)
  rw [← same, polling] at toCome
  exact (List.nodup_cons.mp (own.nodup (a.nodup i))).1 toCome

theorem pollInv_step {action : PollAction} (stepped : Poller.step a s action = some next)
    (attentive : Attentive a s action next) (inv : PollInv a s) : PollInv a next := by
  cases poller_steps stepped with
  | driver k action d calls ran =>
    apply inv.driver
    intro i toCome
    exact keeps_queued ran calls (inv.pending i k toCome) fun unqueues => attentive unqueues i toCome
  | wakeup i => exact inv.thread (inv.listed i) (inv.pending i)
  | asked i asking => exact inv.thread (List.nil_sublist _) fun k toCome => absurd toCome List.not_mem_nil
  | started i k rest asking pending => exact inv.thread (.refl _) (attentive k rest asking pending)
  | skipped i k rest asking idle => exact inv.thread (List.nil_sublist _) fun k toCome => absurd toCome List.not_mem_nil
  | resched i waiting schedule => exact inv.thread (.refl _) attentive
  | proc i garbage k rest processing =>
    have listed := inv.listed i
    have pending := inv.pending i
    rw [processing] at listed pending
    exact inv.thread listed fun other toCome => pending other (List.mem_cons_of_mem _ toCome)
  | poll i words hw reached k expected rest polling =>
    have listed := inv.listed i
    rw [polling] at listed
    have serviced : PollInv a (s.setDriver k (engineServicePoll (a.engines k) expected words hw reached (s.drivers k))) :=
      inv.driver fun j toCome => absurd toCome (inv.polled polling j)
    have pending := serviced.pending i
    rw [setDriver_threads, polling] at pending
    exact serviced.thread ((List.sublist_cons_self _ _).trans listed) pending
  | loop i processing => exact inv.thread (List.nil_sublist _) fun k toCome => absurd toCome List.not_mem_nil

theorem inspectsQueued_step {action : PollAction} (stepped : Poller.step a s action = some next) (inv : PollInv a s) :
    InspectsQueued a s action next := by
  cases poller_steps stepped with
  | proc i garbage k rest processing =>
    have pending : s.Pending k := by
      apply inv.pending i
      rw [processing]
      exact List.mem_cons_self ..
    obtain ⟨p, queue, list⟩ := List.exists_cons_of_ne_nil pending
    refine ⟨k, rest, p, queue, processing, list, ?_⟩
    rw [Poller.setPhase, setKthread_self, firstDescCmplTh, list]
  | _ => trivial

theorem Poller.Initial.pollInv (initial : s.Initial a) : PollInv a s := by
  apply PollInv.mk
  · intro i
    rw [initial.threads i]
    exact List.nil_sublist _
  · intro i k toCome
    rw [initial.threads i] at toCome
    exact absurd toCome List.not_mem_nil

end Invariant

section Fails
variable {a : Assignment} {s next : Poller} {i k : Nat}

/-- A write-back location that stays zero until the time is over. -/
theorem monitor_silent (expected : BitVec 32) : engineServiceWbMonitor expected [0] = 0 := by
  have none_below : ¬ expected < (0 : BitVec 32) &&& wbCountMask := BitVec.not_lt_zero
  rw [engineServiceWbMonitor, if_neg none_below]
  split
  · rfl
  · split
    · rfl
    · exact if_pos rfl

def silentPoll (i : Nat) : PollAction := .poll i [0] (reads 0 0) fun _ => false

theorem silentPoll_step {expected : BitVec 32} {rest : List Nat} (a : Assignment)
    (polling : (s.threads i).phase = .polling k expected rest) :
    ∃ next, Poller.step a s (silentPoll i) = some next ∧ (next.threads i).phase = .processing rest ∧
      ∀ other, next.Pending other ↔ s.Pending other := by
  refine ⟨(s.setDriver k (s.drivers k)).setPhase i (.processing rest), ?_, ?_, ?_⟩
  · simp only [silentPoll, Poller.step, Poller.stepPoll, polling, engineServicePoll, monitor_silent, if_true]
  · rw [Poller.setPhase, setKthread_self]
  · intro other
    by_cases here : other = k
    · rw [here, Poller.Pending, Poller.setPhase, setKthread_drivers, setDriver_self]
      exact Iff.rfl
    · rw [Poller.Pending, Poller.setPhase, setKthread_drivers, setDriver_other _ _ here]
      exact Iff.rfl

theorem fails_later {action : PollAction} {actions : List PollAction} (stepped : Poller.step a s action = some next)
    (fails : ¬ EachStep (Poller.step a) (InspectsQueued a) next actions) :
    ¬ EachStep (Poller.step a) (InspectsQueued a) s (action :: actions) :=
  fun fine => fails ((eachStep_cons _ stepped).mp fine).2

/-- A thread with an idle engine to come to inspects an idle engine, if it goes on alone and no write-back arrives. By
    induction on what it has still to come to. -/
theorem processing_idle_fails (remaining : List Nat) (processing : (s.threads i).phase = .processing remaining)
    (listed : k ∈ remaining) (idle : ¬ s.Pending k) :
    ∃ actions, ¬ EachStep (Poller.step a) (InspectsQueued a) s actions := by
  induction remaining generalizing s with
  | nil => exact absurd listed List.not_mem_nil
  | cons first rest ih =>
    let inspected := s.setPhase i (.polling first (firstDescCmplTh (a.engines first) 0 (s.drivers first).engine) rest)
    have inspects : Poller.step a s (.proc i 0) = some inspected := by
      simp only [Poller.step, Poller.stepProc, processing, inspected]
    by_cases pending : s.Pending first
    · have polling : (inspected.threads i).phase =
          .polling first (firstDescCmplTh (a.engines first) 0 (s.drivers first).engine) rest := by
        simp only [inspected, Poller.setPhase, setKthread_self]
      obtain ⟨polled, polls, continues, same⟩ := silentPoll_step a polling
      have later : k ∈ rest := by
        apply List.mem_of_ne_of_mem _ listed
        intro here
        rw [here] at idle
        exact idle pending
      obtain ⟨actions, fails⟩ := ih continues later fun pends => idle ((same k).mp pends)
      exact ⟨_, fails_later inspects (fails_later polls fails)⟩
    · refine ⟨[.proc i 0], fun fine => ?_⟩
      obtain ⟨k, rest', p, queue, phase, list, -⟩ := ((eachStep_cons _ inspects).mp fine).1
      rw [processing] at phase
      cases phase
      exact pending (by rw [Poller.Pending, list]; exact List.cons_ne_nil _ _)

theorem toCome_idle_fails (toCome : k ∈ (s.threads i).phase.toCome) (idle : ¬ s.Pending k) :
    ∃ actions, ¬ EachStep (Poller.step a) (InspectsQueued a) s actions := by
  cases phase : (s.threads i).phase with
  | processing remaining =>
    rw [phase] at toCome
    exact processing_idle_fails remaining phase toCome idle
  | polling first expected remaining =>
    rw [phase] at toCome
    obtain ⟨polled, polls, continues, same⟩ := silentPoll_step a phase
    obtain ⟨actions, fails⟩ := processing_idle_fails (a := a) remaining continues toCome
      fun pends => idle ((same k).mp pends)
    exact ⟨_, fails_later polls fails⟩
  | asking remaining =>
    rw [phase] at toCome
    exact absurd toCome List.not_mem_nil
  | rescheduled =>
    rw [phase] at toCome
    exact absurd toCome List.not_mem_nil

theorem unqueues_empties {cfg : EngineConfig} {d next : Driver} {action : Action}
    (stepped : Driver.step cfg d action = some next) (unqueues : d.Unqueues action) : next.engine.transferList = [] := by
  cases steps_of_step stepped with
  | settle i dumpOk hw waiting =>
    obtain ⟨list, dumpOk, completed, failed⟩ := unqueues
    rw [stepSettle_failed completed, if_neg (by simp [dumpOk, failed]), setPhase_engine]
    exact (givenUp_spec d.engine _ hw).head [] list
  | perfStop running =>
    obtain ⟨p, list, cyclic⟩ := unqueues
    rw [stepPerfStop_head list, free_engine, Engine.cyclicStopped]
    exact if_pos cyclic
  | _ => exact unqueues.elim

/-- Every step that is not attentive can be followed by steps of one thread that make it inspect an idle engine. -/
theorem inattentive_step_fails {action : PollAction} (stepped : Poller.step a s action = some next)
    (inattentive : ¬ Attentive a s action next) :
    ∃ actions, ¬ EachStep (Poller.step a) (InspectsQueued a) next actions := by
  have unready : ∀ i, ¬ s.Ready a i → ∃ actions, ¬ EachStep (Poller.step a) (InspectsQueued a)
      (s.setThread i ⟨false, .processing (a.workList i)⟩) actions := by
    intro i unready
    rw [Poller.Ready] at unready
    push Not at unready
    obtain ⟨k, listed, idle⟩ := unready
    exact processing_idle_fails (a.workList i) (by rw [setKthread_self]) listed idle
  cases poller_steps stepped with
  | driver k action d calls ran =>
    rw [Attentive] at inattentive
    push Not at inattentive
    obtain ⟨unqueues, i, toCome⟩ := inattentive
    have idle : ¬ (s.setDriver k d).Pending k := by
      rw [Poller.Pending, setDriver_self, unqueues_empties ran unqueues]
      exact fun queued => queued rfl
    exact toCome_idle_fails (s := s.setDriver k d) toCome idle
  | started i k rest asking pending =>
    apply unready
    exact fun ready => inattentive fun _ _ _ _ => ready
  | resched i waiting schedule => exact unready i inattentive
  | asked i asking =>
    apply (inattentive _).elim
    intro k rest other
    rw [asking] at other
    cases other
  | skipped i k rest asking idle =>
    apply (inattentive _).elim
    intro first later other pending
    rw [asking] at other
    cases other
    exact absurd pending idle
  | wakeup i => exact (inattentive trivial).elim
  | proc i garbage k rest processing => exact (inattentive trivial).elim
  | poll i words hw reached k expected rest polling => exact (inattentive trivial).elim
  | loop i processing => exact (inattentive trivial).elim

end Fails

/-- In every run of attentive steps a thread inspects queued transfers only. -/
theorem inspects_queued_transfers (a : Assignment) (s : Poller) (actions : List PollAction) (initial : s.Initial a)
    (attentive : EachStep (Poller.step a) (Attentive a) s actions) :
    EachStep (Poller.step a) (InspectsQueued a) s actions := by
  apply eachStep_of_invariant _ initial.pollInv attentive
  intro s action next stepped allowed inv
  exact ⟨pollInv_step stepped allowed inv, inspectsQueued_step stepped inv⟩

def twoOnOne : Assignment where
  engines := fun _ => mmEngine
  workList := fun i => if i = 0 then [0, 1] else []
  nodup := by
    intro i
    split
    · decide
    · exact List.nodup_nil
  single := by
    intro i j k first second
    split at first
    next zero =>
      split at second
      next same => rw [zero, same]
      next => cases second
    next => cases first

def idlePoller : Poller where
  drivers := fun _ => idleDriver
  threads := fun i => ⟨false, .asking (twoOnOne.workList i)⟩

theorem idlePoller_initial : idlePoller.Initial twoOnOne := ⟨fun _ => idleDriver_initial _, fun _ => rfl⟩

def submits (k : Nat) : List PollAction := (submitOne 0).map (.driver k)

/-- Both engines have a transfer when the thread is woken. -/
theorem both_pending_inspected :
    EachStep (Poller.step twoOnOne) (InspectsQueued twoOnOne) idlePoller
      (submits 0 ++ submits 1 ++ [.wakeup 0, .ask 0, .proc 0 0, .poll 0 [1] (reads 0 1) fun _ => false, .proc 0 0]) := by
  apply inspects_queued_transfers twoOnOne idlePoller _ idlePoller_initial
  apply (eachStep_cons _ rfl).mpr ⟨fun unqueues => unqueues.elim, _⟩
  apply (eachStep_cons _ rfl).mpr ⟨fun unqueues => unqueues.elim, _⟩
  apply (eachStep_cons _ rfl).mpr ⟨fun unqueues => unqueues.elim, _⟩
  apply (eachStep_cons _ rfl).mpr ⟨fun unqueues => unqueues.elim, _⟩
  apply (eachStep_cons _ rfl).mpr ⟨fun unqueues => unqueues.elim, _⟩
  apply (eachStep_cons _ rfl).mpr ⟨fun unqueues => unqueues.elim, _⟩
  apply (eachStep_cons _ rfl).mpr ⟨fun unqueues => unqueues.elim, _⟩
  apply (eachStep_cons _ rfl).mpr ⟨fun unqueues => unqueues.elim, _⟩
  apply (eachStep_cons _ rfl).mpr ⟨fun unqueues => unqueues.elim, _⟩
  apply (eachStep_cons _ rfl).mpr ⟨fun unqueues => unqueues.elim, _⟩
  apply (eachStep_cons _ rfl).mpr ⟨trivial, _⟩
  refine (eachStep_cons _ rfl).mpr ⟨fun _ _ _ _ k listed => ?_, ?_⟩
  · obtain rfl | rfl : k = 0 ∨ k = 1 := by simpa [twoOnOne] using listed
    · exact List.cons_ne_nil _ _
    · exact List.cons_ne_nil _ _
  apply (eachStep_cons _ rfl).mpr ⟨trivial, _⟩
  apply (eachStep_cons _ rfl).mpr ⟨trivial, _⟩
  exact (eachStep_cons _ rfl).mpr ⟨trivial, trivial⟩

/-- With a transfer on the first engine only, the thread finds it and then inspects the second as well. A wake-up that
    comes when the thread is already at work sends it through both engines again. -/
theorem idle_engines_inspected :
    ¬ EachStep (Poller.step twoOnOne) (InspectsQueued twoOnOne) idlePoller
      (submits 0 ++ [.wakeup 0, .ask 0, .proc 0 0, .poll 0 [1] (reads 0 1) fun _ => false, .proc 0 0]) ∧
    ¬ EachStep (Poller.step twoOnOne) (InspectsQueued twoOnOne) idlePoller
      (submits 0 ++ submits 1 ++ [.ask 0, .wakeup 0, .proc 0 0, .poll 0 [1] (reads 0 1) fun _ => false, .proc 0 0,
        .poll 0 [1] (reads 0 1) fun _ => false, .loop 0, .ask 0, .ask 0, .ask 0, .resched 0] ++ [.proc 0 0]) := by
  apply And.intro
  · intro fine
    have last := ((eachStep_append rfl).mp fine).2
    have woken := (eachStep_cons _ rfl).mp last
    have asked := (eachStep_cons _ rfl).mp woken.2
    have first := (eachStep_cons _ rfl).mp asked.2
    have polled := (eachStep_cons _ rfl).mp first.2
    obtain ⟨k, rest, p, queue, processing, list, -⟩ := ((eachStep_cons _ rfl).mp polled.2).1
    cases processing
    cases list
  · intro fine
    have last := ((eachStep_append rfl).mp fine).2
    obtain ⟨k, rest, p, queue, processing, list, -⟩ := ((eachStep_cons _ rfl).mp last).1
    cases processing
    cases list

end CigCard.Xdma
