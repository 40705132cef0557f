import CigCard.Xdma.QueueInvariant

namespace CigCard.Xdma

open Transition

/-- The steps of processes that write through `xdma_xfer_submit`, and of the services, while the device is online. -/
def Action.writer : Action → Prop
  | .call _ kind _ _ => kind = .submit
  | .lock _ | .init _ | .check _ | .queue _ _ | .settle _ _ _ | .retire _ | .leave _ | .service _ _ _ => True
  | .perfStop | .setOffline | .stopEngine | .clearShutdown | .clearOffline => False

def NoTimeout (d : Driver) (action : Action) (_ : Driver) : Prop :=
  match action with
  | .settle i _ _ =>
    (d.engine.tfer ((d.threads i).ptr i)).state = .completed ∨ (d.engine.tfer ((d.threads i).ptr i)).state = .failed
  | _ => True

/-- At most one transfer is on the list, and the step has changed no slot of a transfer that is on the list or on its
    way there. -/
def StepAlone (d : Driver) (_ : Action) (next : Driver) : Prop :=
  next.engine.transferList.length ≤ 1 ∧
    ∀ p ∈ outstanding d, ∀ s, (d.engine.tfer p).covers s → next.engine.ring s = d.engine.ring s

def Thread.inside (t : Thread) : Prop := t.phase ≠ .notCalled ∧ t.phase ≠ .locking ∧ t.phase ≠ .returned

def Thread.inFlight (t : Thread) : Prop := t.phase = .checking ∨ t.phase = .queueing ∨ t.phase = .waiting

structure WriterInv (cfg : EngineConfig) (d : Driver) : Prop where
  queue : QueueInv d
  online : d.offline = false
  accepting : d.engine.shutdownRequest = false
  cursor : d.engine.descIdx < cfg.descMax
  submits : ∀ i, (d.threads i).phase ≠ .notCalled → (d.threads i).kind = .submit
  holds : ∀ i, (d.threads i).inside → d.descLock = some i
  waits : ∀ p ∈ d.engine.transferList, (d.threads p.block).phase = .waiting
  silent : ∀ i, (d.threads i).inFlight → (d.engine.tfer ⟨i, 0⟩).cb = false
  unmoved : ∀ i, (d.threads i).phase = .notCalled → d.moved i = []

theorem Thread.inFlight.inside {t : Thread} (flight : t.inFlight) : t.inside := by
  rcases flight with phase | phase | phase
  · simp [Thread.inside, phase]
  · simp [Thread.inside, phase]
  · simp [Thread.inside, phase]

section Steps

variable {cfg : EngineConfig} {d next : Driver} {i : Nat}

namespace WriterInv

theorem ptr (inv : WriterInv cfg d) (called : (d.threads i).phase ≠ .notCalled) : (d.threads i).ptr i = ⟨i, 0⟩ :=
  Thread.ptr_submit i (inv.submits i called)

/-- Whatever is outstanding is the transfer in flight of the call that has the lock. -/
theorem owner (inv : WriterInv cfg d) {p : Ptr} (out : p ∈ outstanding d) :
    p = ⟨p.block, 0⟩ ∧ (d.threads p.block).inFlight := by
  rcases out with listed | ⟨j, early, here⟩
  · have waiting := inv.waits p listed
    have placed := inv.queue.placed p listed
    have submit := inv.submits p.block (by simp [waiting])
    simp only [Thread.placed, submit] at placed
    exact ⟨by rw [← placed.1], .inr (.inr waiting)⟩
  · have called : (d.threads j).phase ≠ .notCalled := by
      rcases early with phase | phase
      · simp [phase]
      · simp [phase]
    have own : p = ⟨j, 0⟩ := here.trans (inv.ptr called)
    rw [own]
    refine ⟨rfl, ?_⟩
    rcases early with phase | phase
    · exact .inl phase
    · exact .inr (.inl phase)

theorem locked (inv : WriterInv cfg d) {p : Ptr} (out : p ∈ outstanding d) : d.descLock = some p.block :=
  inv.holds p.block (inv.owner out).2.inside

theorem single (inv : WriterInv cfg d) {p q : Ptr} (out : p ∈ outstanding d) (out' : q ∈ outstanding d) : p = q := by
  have same := (inv.locked out).symm.trans (inv.locked out')
  rw [Option.some.injEq] at same
  rw [(inv.owner out).1, (inv.owner out').1, same]

theorem length_le (inv : WriterInv cfg d) : d.engine.transferList.length ≤ 1 := by
  cases list : d.engine.transferList with
  | nil => simp
  | cons p rest =>
    cases more : rest with
    | nil => simp
    | cons q last =>
      have same : p = q := inv.single (.inl (by simp [list])) (.inl (by simp [list, more]))
      have nodup := inv.queue.nodup
      rw [list, more, same] at nodup
      simp at nodup

theorem idle (inv : WriterInv cfg d) (inside : (d.threads i).inside) (landed : ¬ (d.threads i).inFlight) {p : Ptr} :
    p ∉ outstanding d := by
  intro out
  have same := (inv.locked out).symm.trans (inv.holds i inside)
  rw [Option.some.injEq] at same
  have flight := (inv.owner out).2
  rw [same] at flight
  exact landed flight

theorem step_of (inv : WriterInv cfg d) (queue : QueueInv next) (others : ∀ j, j ≠ i → next.threads j = d.threads j)
    (online : next.offline = d.offline) (accepting : next.engine.shutdownRequest = false)
    (cursor : next.engine.descIdx < cfg.descMax) (submit : (next.threads i).kind = .submit)
    (holds : (next.threads i).inside → next.descLock = some i)
    (lock : next.descLock = d.descLock ∨ d.descLock = none ∨ d.descLock = some i)
    (list : ∀ p ∈ next.engine.transferList,
      p ∈ d.engine.transferList ∧ p.block ≠ i ∨ p.block = i ∧ (next.threads i).phase = .waiting)
    (tfer : ∀ j, j ≠ i → (next.engine.tfer ⟨j, 0⟩).cb = (d.engine.tfer ⟨j, 0⟩).cb)
    (silent : (next.threads i).inFlight → (next.engine.tfer ⟨i, 0⟩).cb = false)
    (called : (next.threads i).phase ≠ .notCalled) (moved : next.moved = d.moved) : WriterInv cfg next where
  queue := queue
  online := online.trans inv.online
  accepting := accepting
  cursor := cursor
  submits := by
    intro j
    by_cases here : j = i
    · rw [here]
      exact fun _ => submit
    · rw [others j here]
      exact inv.submits j
  holds := by
    intro j
    by_cases here : j = i
    · rw [here]
      exact holds
    · rw [others j here]
      intro inside
      have held := inv.holds j inside
      rcases lock with same | free | own
      · rw [same]
        exact held
      · simp [free] at held
      · rw [own, Option.some.injEq] at held
        exact absurd held.symm here
  waits := by
    intro p member
    rcases list p member with ⟨old, other⟩ | ⟨own, waiting⟩
    · rw [others _ other]
      exact inv.waits p old
    · rw [own]
      exact waiting
  silent := by
    intro j
    by_cases here : j = i
    · rw [here]
      exact silent
    · rw [others j here, tfer j here]
      exact inv.silent j
  unmoved := by
    intro j
    by_cases here : j = i
    · rw [here]
      exact fun uncalled => absurd uncalled called
    · rw [others j here, moved]
      exact inv.unmoved j

theorem unlisted (inv : WriterInv cfg d) (other : (d.threads i).phase ≠ .waiting) :
    ∀ p ∈ d.engine.transferList, p.block ≠ i := by
  intro p member own
  have waiting := inv.waits p member
  rw [own] at waiting
  exact other waiting

end WriterInv

theorem stepCall_online (online : d.offline = false) (sdesc : List SwDesc) (epAddr : Nat) :
    stepCall i .submit sdesc epAddr d = d.setThread i ⟨.submit, .locking, ⟨sdesc, 0, epAddr⟩, 0⟩ := by
  simp [stepCall, online]

theorem writerInv_call {sdesc : List SwDesc} {epAddr : Nat} (inv : WriterInv cfg d)
    (uncalled : (d.threads i).phase = .notCalled) : WriterInv cfg (stepCall i .submit sdesc epAddr d) := by
  have queue := @queueInv_call d i .submit sdesc epAddr inv.queue uncalled
  have unlisted := inv.unlisted (i := i) (by simp [uncalled])
  rw [stepCall_online inv.online] at queue ⊢
  apply inv.step_of (i := i) queue (fun j other => setThread_other _ _ other) rfl inv.accepting inv.cursor
  · simp
  · simp [Thread.inside]
  · exact .inl rfl
  · exact fun p member => .inl ⟨member, unlisted p member⟩
  · exact fun _ _ => rfl
  · simp [Thread.inFlight]
  · simp
  · rfl

theorem writerInv_phase {phase : Phase} (inv : WriterInv cfg d) (queue : QueueInv (d.setPhase i phase))
    (inside : (d.threads i).inside) (unlisted : ∀ p ∈ d.engine.transferList, p.block ≠ i)
    (flight : ({ d.threads i with phase } : Thread).inFlight → (d.threads i).inFlight) (called : phase ≠ .notCalled) :
    WriterInv cfg (d.setPhase i phase) := by
  apply inv.step_of (i := i) queue (fun j other => setPhase_other _ _ other) rfl inv.accepting inv.cursor
  · rw [setPhase_self]
    exact inv.submits i inside.1
  · intro _
    exact inv.holds i inside
  · exact .inl rfl
  · exact fun p member => .inl ⟨member, unlisted p member⟩
  · exact fun _ _ => rfl
  · rw [setPhase_self]
    exact fun after => inv.silent i (flight after)
  · rw [setPhase_self]
    exact called
  · rfl

theorem writerInv_lock (inv : WriterInv cfg d) (locking : (d.threads i).phase = .locking) (free : d.descLock = none)
    (queue : QueueInv ({ d with descLock := some i }.setPhase i
      (if (d.threads i).req.remaining = [] then .leaving else .building))) :
    WriterInv cfg ({ d with descLock := some i }.setPhase i
      (if (d.threads i).req.remaining = [] then .leaving else .building)) := by
  have unlisted := inv.unlisted (i := i) (by simp [locking])
  apply inv.step_of (i := i) queue (fun j other => setPhase_other _ _ other) rfl inv.accepting inv.cursor
  · rw [setPhase_self]
    exact inv.submits i (by simp [locking])
  · exact fun _ => rfl
  · exact .inr (.inl free)
  · exact fun p member => .inl ⟨member, unlisted p member⟩
  · exact fun _ _ => rfl
  · rw [setPhase_self]
    intro flight
    split at flight <;> simp [Thread.inFlight] at flight
  · rw [setPhase_self]
    simp only
    split <;> simp
  · rfl

theorem writerInv_init (inv : WriterInv cfg d) (building : (d.threads i).phase = .building) :
    WriterInv cfg (stepInit cfg i d) := by
  have queue := @queueInv_init cfg d i inv.queue building
  have unlisted := inv.unlisted (i := i) (by simp [building])
  have submit := inv.submits i (by simp [building])
  have ptr := inv.ptr (i := i) (by simp [building])
  have init := initialized_spec cfg d i
  rw [ptr] at init
  rw [stepInit_transfer (by simp [submit])] at queue ⊢
  apply inv.step_of (i := i) queue (fun j other => setThread_other _ _ other) rfl
  · exact inv.accepting
  · show (d.initialized cfg i).1.descIdx < cfg.descMax
    rw [init.descIdx]
    exact Nat.mod_lt _ cfg.descMax_pos
  · rw [setThread_self]
    exact submit
  · intro _
    exact inv.holds i (by simp [Thread.inside, building])
  · exact .inl rfl
  · intro p member
    rw [setThread_engine, init.list] at member
    exact .inl ⟨member, unlisted p member⟩
  · intro j other
    rw [setThread_engine, init.others ⟨j, 0⟩ (by simp [other])]
  · intro _
    rw [setThread_engine, init.cb]
    simp [submit]
  · simp
  · rfl

theorem transferQueue_accepts (hw : Hardware) (p : Ptr) {e : Engine} (accepting : e.shutdownRequest = false) :
    ∃ after, transferQueue hw p e = some after ∧ after.shutdownRequest = false := by
  unfold transferQueue
  rw [if_neg (by simp [accepting])]
  simp only
  split
  · refine ⟨_, rfl, ?_⟩
    cases started : engineStart hw ({ e with transferList := e.transferList ++ [p] }.setTransfer p
        { e.tfer p with state := .submitted }) with
    | none => exact accepting
    | some after =>
      unfold engineStart at started
      split at started
      · cases started
      · split at started
        · cases started
        · cases started
          rfl
  · exact ⟨_, rfl, accepting⟩

theorem writerInv_queue {hw : Hardware} (inv : WriterInv cfg d) (queueing : (d.threads i).phase = .queueing) :
    WriterInv cfg (stepQueue i hw d) := by
  have queue := @queueInv_queue d i hw inv.queue queueing
  have unlisted := inv.unlisted (i := i) (by simp [queueing])
  have submit := inv.submits i (by simp [queueing])
  have ptr := inv.ptr (i := i) (by simp [queueing])
  obtain ⟨engine, accepted, accepting⟩ := transferQueue_accepts hw ((d.threads i).ptr i) inv.accepting
  have queued : (d.threads i).queued = { d.threads i with phase := .waiting } := by
    simp [Thread.queued, submit]
  obtain ⟨-, list, tfer, -, -, -, descIdx⟩ := transferQueue_spec accepted
  rw [stepQueue_accepted accepted, queued] at queue ⊢
  apply inv.step_of (i := i) queue (fun j other => setThread_other _ _ other) rfl accepting
  · show engine.descIdx < cfg.descMax
    rw [descIdx]
    exact inv.cursor
  · rw [setThread_self]
    exact submit
  · intro _
    exact inv.holds i (by simp [Thread.inside, queueing])
  · exact .inl rfl
  · intro p member
    rw [setThread_engine, list, List.mem_append, List.mem_singleton] at member
    rcases member with old | new
    · exact .inl ⟨old, unlisted p old⟩
    · right
      rw [new, setThread_self]
      exact ⟨Thread.ptr_block _ _, rfl⟩
  · intro j other
    rw [setThread_engine, tfer]
    simp [ptr, other]
  · intro _
    rw [setThread_engine, tfer]
    simp only [ptr, if_true]
    exact inv.silent i (.inr (.inl queueing))
  · simp
  · rfl

theorem finished_unlisted (inv : WriterInv cfg d) (called : (d.threads i).phase ≠ .notCalled)
    (finished : (d.engine.tfer ((d.threads i).ptr i)).state = .completed ∨
      (d.engine.tfer ((d.threads i).ptr i)).state = .failed) : ∀ p ∈ d.engine.transferList, p.block ≠ i := by
  intro p member own
  have here := (inv.owner (.inl member)).1
  rw [own, ← inv.ptr called] at here
  have state := inv.queue.state p member
  rw [here] at state
  rcases finished with is | is
  · simp [is] at state
  · simp [is] at state

/-- A wait without a timeout only goes on to retire the transfer. -/
theorem stepSettle_finished {dumpOk : Bool} {hw : Hardware}
    (finished : (d.engine.tfer ((d.threads i).ptr i)).state = .completed ∨
      (d.engine.tfer ((d.threads i).ptr i)).state = .failed) :
    stepSettle i dumpOk hw d =
      d.setPhase i (.retiring (decide ((d.engine.tfer ((d.threads i).ptr i)).state = .completed))) := by
  rcases finished with completed | failed
  · rw [stepSettle_completed completed]
    simp [completed]
  · rw [stepSettle_failed (by simp [failed]), if_pos (.inl failed)]
    simp [failed]

theorem writerInv_settle {dumpOk : Bool} {hw : Hardware} (inv : WriterInv cfg d)
    (waiting : (d.threads i).phase = .waiting)
    (finished : (d.engine.tfer ((d.threads i).ptr i)).state = .completed ∨
      (d.engine.tfer ((d.threads i).ptr i)).state = .failed) : WriterInv cfg (stepSettle i dumpOk hw d) := by
  have queue := @queueInv_settle d i dumpOk hw inv.queue waiting
  have unlisted := finished_unlisted inv (by simp [waiting]) finished
  rw [stepSettle_finished finished] at queue ⊢
  apply writerInv_phase inv queue _ unlisted
  · simp [Thread.inFlight]
  · simp
  · simp [Thread.inside, waiting]

theorem writerInv_retire {ok : Bool} (inv : WriterInv cfg d) (retiring : (d.threads i).phase = .retiring ok) :
    WriterInv cfg (stepRetire cfg i ok d) := by
  have queue := @queueInv_retire cfg d i ok inv.queue retiring
  have unlisted := inv.unlisted (i := i) (by simp [retiring])
  apply inv.step_of (i := i) queue (fun j other => setPhase_other _ _ other) rfl inv.accepting inv.cursor
  · unfold stepRetire
    rw [setPhase_self]
    exact inv.submits i (by simp [retiring])
  · intro _
    exact inv.holds i (by simp [Thread.inside, retiring])
  · exact .inl rfl
  · exact fun p member => .inl ⟨member, unlisted p member⟩
  · exact fun _ _ => rfl
  · unfold stepRetire
    rw [setPhase_self]
    intro flight
    simp only [Thread.inFlight] at flight
    split at flight <;> simp at flight
  · unfold stepRetire
    rw [setPhase_self]
    simp only
    split <;> simp
  · rfl

theorem stepLeave_submit (submit : (d.threads i).kind = .submit) :
    stepLeave i d = { (d.setPhase i .returned).free i with descLock := none } := by
  have kind : (((d.setPhase i .returned).free i).threads i).kind = .submit := by
    rw [free_threads, setPhase_self]
    exact submit
  simp only [stepLeave, kind]

theorem writerInv_leave (inv : WriterInv cfg d) (leaving : (d.threads i).phase = .leaving) :
    WriterInv cfg (stepLeave i d) := by
  have queue := queueInv_leave inv.queue leaving
  have unlisted := inv.unlisted (i := i) (by simp [leaving])
  have submit := inv.submits i (by simp [leaving])
  rw [stepLeave_submit submit] at queue ⊢
  apply inv.step_of (i := i) queue (fun j other => setPhase_other _ _ other) rfl inv.accepting inv.cursor
  · rw [free_threads, setPhase_self]
    exact submit
  · rw [free_threads, setPhase_self]
    simp [Thread.inside]
  · exact .inr (.inr (inv.holds i (by simp [Thread.inside, leaving])))
  · exact fun p member => .inl ⟨member, unlisted p member⟩
  · exact fun _ _ => rfl
  · rw [free_threads, setPhase_self]
    simp [Thread.inFlight]
  · rw [free_threads, setPhase_self]
    simp
  · rfl

def executed (e : Engine) (done : List Ptr) (block : Nat) : List Descriptor :=
  (done.filter fun p => p.block = block ∧ (e.tfer p).state = .completed).flatMap fun p => slots e.ring (e.tfer p)

theorem executed_none {e : Engine} {done : List Ptr} {block : Nat} (others : ∀ p ∈ done, p.block ≠ block) :
    executed e done block = [] := by
  rw [executed, List.flatMap_eq_nil_iff]
  intro p member
  rw [List.mem_filter, decide_eq_true_eq] at member
  exact absurd member.2.1 (others p member.1)

theorem stepService_writer {wb : BitVec 32} {hw : Hardware} {reached : Nat → Bool} (inv : WriterInv cfg d) :
    ∃ done, Serviced d.engine (engineService cfg hw wb d.engine) done ∧
      stepService cfg wb hw reached d =
        { d with
          engine := engineService cfg hw wb d.engine
          moved := fun block => d.moved block ++ executed (engineService cfg hw wb d.engine) done block } := by
  obtain ⟨done, serviced⟩ := @engineService_serviced cfg hw d.engine wb
  have silent : (engineService cfg hw wb d.engine).ioDone.drop d.engine.ioDone.length = [] := by
    rw [serviced.ioDone, List.drop_left, List.filter_eq_nil_iff]
    intro p member
    obtain ⟨here, flight⟩ := inv.owner (.inl (serviced.listed member))
    have cb := inv.silent p.block flight
    rw [← here] at cb
    simp [cb]
  have woken : (engineService cfg hw wb d.engine).woken.drop d.engine.woken.length = done := by
    rw [serviced.woken, List.drop_left]
  refine ⟨done, serviced, ?_⟩
  simp only [stepService, silent, woken, completeRequests]
  rfl

theorem writerInv_service {wb : BitVec 32} {hw : Hardware} {reached : Nat → Bool} (inv : WriterInv cfg d) :
    WriterInv cfg (stepService cfg wb hw reached d) := by
  have queue := @queueInv_service cfg d wb hw reached inv.queue
  obtain ⟨done, serviced, result⟩ := @stepService_writer cfg d wb hw reached inv
  rw [result] at queue ⊢
  refine ⟨queue, inv.online, engineService_accepting wb inv.accepting, ?_, inv.submits, inv.holds, ?_, ?_, ?_⟩
  · show (engineService cfg hw wb d.engine).descIdx < cfg.descMax
    rw [serviced.descIdx]
    exact inv.cursor
  · exact fun p member => inv.waits p (serviced.remains member)
  · intro i flight
    exact (serviced.shape ⟨i, 0⟩).cb.trans (inv.silent i flight)
  · intro i uncalled
    have none : executed (engineService cfg hw wb d.engine) done i = [] := by
      apply executed_none
      intro p member block
      have waiting := inv.waits p (serviced.listed member)
      rw [block, uncalled] at waiting
      cases waiting
    simp only [none, List.append_nil]
    exact inv.unmoved i uncalled

theorem writerInv_step {action : Action} (stepped : Driver.step cfg d action = some next) (writer : action.writer)
    (finishes : NoTimeout d action next) (inv : WriterInv cfg d) : WriterInv cfg next := by
  have queue := queueInv_step stepped inv.queue
  cases steps_of_step stepped with
  | call i kind sdesc epAddr uncalled =>
    rw [show kind = .submit from writer]
    exact writerInv_call inv uncalled
  | lock i locking free =>
    exact writerInv_lock inv locking free queue
  | init i building =>
    exact writerInv_init inv building
  | check i checking =>
    apply writerInv_phase inv queue
    · simp [Thread.inside, checking]
    · exact inv.unlisted (by simp [checking])
    · exact fun _ => .inl checking
    · split <;> simp
  | queue i hw queueing =>
    exact writerInv_queue inv queueing
  | settle i dumpOk hw waiting =>
    exact writerInv_settle inv waiting finishes
  | retire i ok phase =>
    exact writerInv_retire inv phase
  | leave i leaving =>
    exact writerInv_leave inv leaving
  | service wb hw reached =>
    exact writerInv_service inv
  | perfStop _ => cases writer
  | setOffline => cases writer
  | stopEngine => cases writer
  | clearShutdown => cases writer
  | clearOffline => cases writer

theorem Driver.Initial.writerInv (initial : d.Initial cfg) : WriterInv cfg d where
  queue := initial.queueInv
  online := initial.online
  accepting := initial.accepting
  cursor := by
    rw [initial.cursor]
    exact Nat.mod_lt _ cfg.descMax_pos
  submits := fun i called => absurd (initial.uncalled i) called
  holds := fun i inside => absurd (initial.uncalled i) inside.1
  waits := by simp [initial.empty]
  silent := fun i flight => absurd (initial.uncalled i) flight.inside.1
  unmoved := fun i _ => initial.unmoved i

theorem ring_kept {action : Action} (stepped : Driver.step cfg d action = some next) (writer : action.writer)
    (finishes : NoTimeout d action next) (inv : WriterInv cfg d) {p : Ptr} (out : p ∈ outstanding d) :
    next.engine.ring = d.engine.ring := by
  cases steps_of_step stepped with
  | call i kind sdesc epAddr _ =>
    rw [show kind = .submit from writer, stepCall_online inv.online]
    rfl
  | lock i _ _ =>
    rfl
  | init i building =>
    exact absurd out (inv.idle (i := i) (by simp [Thread.inside, building]) (by simp [Thread.inFlight, building]))
  | check i _ =>
    rfl
  | queue i hw _ =>
    obtain ⟨engine, accepted, -⟩ := transferQueue_accepts hw ((d.threads i).ptr i) inv.accepting
    obtain ⟨-, -, -, -, -, ring, -⟩ := transferQueue_spec accepted
    rw [stepQueue_accepted accepted]
    exact ring
  | settle i dumpOk hw _ =>
    rw [stepSettle_finished finishes]
    rfl
  | retire i ok phase =>
    exact absurd out (inv.idle (i := i) (by simp [Thread.inside, phase]) (by simp [Thread.inFlight, phase]))
  | leave i leaving =>
    rw [stepLeave_submit (inv.submits i (by simp [leaving]))]
    rfl
  | service wb hw reached =>
    obtain ⟨done, serviced, result⟩ := @stepService_writer cfg d wb hw reached inv
    rw [result]
    exact serviced.ring
  | perfStop _ => cases writer
  | setOffline => cases writer
  | stopEngine => cases writer
  | clearShutdown => cases writer
  | clearOffline => cases writer

theorem stepAlone_of_writer {action : Action} (stepped : Driver.step cfg d action = some next) (writer : action.writer)
    (finishes : NoTimeout d action next) (inv : WriterInv cfg d) : StepAlone d action next := by
  refine ⟨(writerInv_step stepped writer finishes inv).length_le, ?_⟩
  intro p out s _
  rw [ring_kept stepped writer finishes inv out]

end Steps

end CigCard.Xdma
