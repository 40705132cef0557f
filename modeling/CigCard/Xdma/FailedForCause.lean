import CigCard.Xdma.QueueInvariant

namespace CigCard.Xdma

open Transition

/-- A service fails a transfer, or takes it off the list uncompleted, only if the status has an error or is not
    BUSY; a transfer that the hardware is still working on stays as it is. -/
structure FailedForCause (cfg : EngineConfig) (hw : Hardware) (wb : BitVec 32) (before after : Engine) : Prop where
  cause : ∀ p ∈ before.transferList,
    (after.tfer p).state = .failed ∨ (p ∉ after.transferList ∧ (after.tfer p).state ≠ .completed) →
      (serviceStatus hw wb before).hasError cfg ∨ ¬ (serviceStatus hw wb before).busy
  stays : ∀ front p back, before.transferList = front ++ p :: back → (serviceStatus hw wb before).busy →
    ¬ (serviceStatus hw wb before).hasError cfg →
    notYetDequeued (serviceCount hw wb) before.descDequeued <
      (front.map fun q => (before.tfer q).descNum).sum + (before.tfer p).descNum →
    p ∈ after.transferList ∧ (after.tfer p).state = (before.tfer p).state

def stopsAt (tfer : Ptr → Transfer) : List Ptr → Nat → Option (Ptr × Nat)
  | [], _ => none
  | p :: rest, count =>
    if (tfer p).cyclic = false ∧ (tfer p).descNum < count then stopsAt tfer rest (count - (tfer p).descNum)
    else some (p, count)

def eopSeen (hw : Hardware) (t : Transfer) (count : Nat) : Bool :=
  t.eopRcvd || (List.range count).any fun i => (hw.result (t.descIndex + i)).status &&& rxStatusEop ≠ 0

/-- A service that finds a running and busy engine without an error, and takes off the list a transfer that fewer
    descriptors than it has were completed of. -/
def CutsShort (cfg : EngineConfig) (hw : Hardware) (wb : BitVec 32) (e : Engine) : Prop :=
  e.running = true ∧ (serviceStatus hw wb e).busy ∧ ¬ (serviceStatus hw wb e).hasError cfg ∧
    serviceCount hw wb ≠ 0 ∧
    ∃ p count, stopsAt e.tfer e.transferList (notYetDequeued (serviceCount hw wb) e.descDequeued) = some (p, count) ∧
      count < (e.tfer p).descNum ∧ (cfg.eopFlush = true → eopSeen hw (e.tfer p) count = true)

section Service

variable {cfg : EngineConfig} {hw : Hardware} {wb : BitVec 32} {e : Engine}

theorem stopsAt_congr {tfer tfer' : Ptr → Transfer} (shape : ∀ p, SameShape (tfer p) (tfer' p)) (queue : List Ptr)
    (count : Nat) : stopsAt tfer' queue count = stopsAt tfer queue count := by
  induction queue generalizing count with
  | nil => rfl
  | cons p rest ih => simp only [stopsAt, (shape p).cyclic, (shape p).descNum, ih]

/-- What the loop over the covered transfers does: it completes the transfers that the count exceeds, and stops at
    the next one. -/
structure Covered (before after : Engine) (count left : Nat) (done : List Ptr) : Prop where
  serviced : Serviced before after done
  completed : ∀ p ∈ done, (after.tfer p).state = .completed
  kept : ∀ p, p ∉ done → after.tfer p = before.tfer p
  counted : left + (done.map fun p => (before.tfer p).descNum).sum = count
  exceeded : done ≠ [] → 0 < left
  stops : stopsAt before.tfer before.transferList count = after.transferList.head?.map fun p => (p, left)

theorem serviceTransferList_covered {queue : List Ptr} {count : Nat} (list : e.transferList = queue)
    (nodup : queue.Nodup) :
    ∃ done, Covered e (serviceTransferList queue count e).2 count (serviceTransferList queue count e).1 done := by
  induction queue generalizing count e with
  | nil =>
    refine ⟨[], ⟨.refl _, by simp, fun p _ => rfl, by simp [serviceTransferList], by simp, ?_⟩⟩
    simp [serviceTransferList, list, stopsAt]
  | cons p rest ih =>
    rw [serviceTransferList_cons]
    split_ifs with covered
    · have one := headCompleted_serviced list
      obtain ⟨done, others⟩ := @ih (e.headCompleted p rest) (count - (e.tfer p).descNum) rfl
        (List.nodup_cons.mp nodup).2
      have absent : p ∉ done := by
        intro late
        apply (List.nodup_cons.mp nodup).1
        rw [show rest = (e.headCompleted p rest).transferList from rfl, others.serviced.list]
        exact List.mem_append_left _ late
      have counted := others.counted
      have same : (done.map fun q => ((e.headCompleted p rest).tfer q).descNum) =
          done.map fun q => (e.tfer q).descNum := by
        apply List.map_congr_left
        intro q _
        exact (one.shape q).descNum
      rw [same] at counted
      refine ⟨p :: done, one.trans others.serviced, ?_, ?_, ?_, ?_, ?_⟩
      · intro q member
        rcases List.mem_cons.mp member with here | late
        · subst here
          rw [others.kept _ absent]
          exact headCompleted_self _ _
        · exact others.completed q late
      · intro q outside
        rw [List.mem_cons, not_or] at outside
        rw [others.kept q outside.2]
        exact headCompleted_other _ outside.1
      · simp only [List.map_cons, List.sum_cons]
        have exceeds := covered.2
        omega
      · intro _
        by_cases last : done = []
        · rw [last] at counted
          simp only [List.map_nil, List.sum_nil] at counted
          have exceeds := covered.2
          omega
        · exact others.exceeded last
      · rw [list, stopsAt, if_pos covered, ← others.stops, stopsAt_congr one.shape]
        rfl
    · refine ⟨[], ⟨.refl _, by simp, fun p _ => rfl, by simp, by simp, ?_⟩⟩
      simp [list, stopsAt, covered]

theorem finalTransfer_short {p : Ptr} {rest : List Ptr} {count : Nat} (list : e.transferList = p :: rest)
    (fine : ¬ e.hasError cfg) (short : count < (e.tfer p).descNum)
    (eop : cfg.eopFlush = true → eopSeen hw (e.tfer p) count = true) :
    (engineServiceFinalTransfer cfg hw count e).transferList = rest := by
  simp only [engineServiceFinalTransfer, list, if_neg fine, if_pos short]
  by_cases flush : cfg.eopFlush = true
  · have seen := eop flush
    simp only [eopSeen] at seen
    rw [if_pos flush, if_pos seen]
    rfl
  · rw [if_neg flush]
    rfl

/-- Without an error, and if its head is not cut short, the list is left alone or its head completes. -/
theorem finalTransfer_fair {count : Nat} (fine : ¬ e.hasError cfg)
    (fair : ∀ p ∈ e.transferList.head?, count < (e.tfer p).descNum →
      cfg.eopFlush = true ∧ eopSeen hw (e.tfer p) count = false) :
    ((engineServiceFinalTransfer cfg hw count e).transferList = e.transferList ∧
      ∀ q, ((engineServiceFinalTransfer cfg hw count e).tfer q).state = (e.tfer q).state) ∨
    ∃ p rest, e.transferList = p :: rest ∧ (e.tfer p).descNum ≤ count ∧
      (engineServiceFinalTransfer cfg hw count e).transferList = rest ∧
      ((engineServiceFinalTransfer cfg hw count e).tfer p).state = .completed ∧
      ∀ q, q ≠ p → (engineServiceFinalTransfer cfg hw count e).tfer q = e.tfer q := by
  cases list : e.transferList with
  | nil =>
    left
    simp [engineServiceFinalTransfer, list]
  | cons p rest =>
    simp only [engineServiceFinalTransfer, list, if_neg fine]
    by_cases short : count < (e.tfer p).descNum
    · left
      obtain ⟨flush, unseen⟩ := fair p (by simp [list]) short
      have unseen' : ¬ eopSeen hw (e.tfer p) count = true := by simp [unseen]
      simp only [eopSeen] at unseen'
      rw [if_pos short, if_pos flush, if_neg unseen']
      refine ⟨list, fun q => ?_⟩
      by_cases here : q = p
      · simp [Engine.setTransfer, here]
      · simp [Engine.setTransfer, here]
    · right
      rw [if_neg short]
      refine ⟨p, rest, rfl, by omega, rfl, ?_, fun q other => ?_⟩
      · simp [engineTransferCompletion, Engine.setTransfer]
      · simp [engineTransferCompletion, Engine.setTransfer, other]

theorem failedForCause_unchanged {after : Engine} (list : after.transferList = e.transferList)
    (tfer : after.tfer = e.tfer)
    (unfinished : ∀ p ∈ e.transferList, (e.tfer p).state = .submitted ∨ (e.tfer p).state = .aborted) :
    FailedForCause cfg hw wb e after := by
  refine ⟨fun p member lost => ?_, fun front p back split _ _ _ => ?_⟩
  · rw [tfer, list] at lost
    rcases lost with failed | ⟨absent, -⟩
    · have state := unfinished p member
      rw [failed] at state
      simp at state
    · exact absurd member absent
  · rw [list, tfer, split]
    exact ⟨by simp, rfl⟩

theorem FailedForCause.congr {after same : Engine} (list : same.transferList = after.transferList)
    (tfer : same.tfer = after.tfer) :
    FailedForCause cfg hw wb e same ↔ FailedForCause cfg hw wb e after := by
  constructor
  · intro fine
    refine ⟨fun p member lost => fine.cause p member ?_, fun front p back split busy noError short => ?_⟩
    · rw [list, tfer]
      exact lost
    · rw [← list, ← tfer]
      exact fine.stays front p back split busy noError short
  · intro fine
    refine ⟨fun p member lost => fine.cause p member ?_, fun front p back split busy noError short => ?_⟩
    · rw [← list, ← tfer]
      exact lost
    · rw [list, tfer]
      exact fine.stays front p back split busy noError short

theorem failedForCause_resumed {final : Engine} :
    FailedForCause cfg hw wb e (if cfg.eopFlush then final else engineServiceResume hw final) ↔
      FailedForCause cfg hw wb e final := by
  split
  · exact Iff.rfl
  · have queue := @resume_queue hw final
    exact FailedForCause.congr queue.1 queue.2.2.2.1

theorem prepared_status : (servicePrepared cfg hw wb e).status = (serviceStatus hw wb e).status := by
  rw [@prepared_keeps cfg hw e _ Engine.status _ wb]
  · exact @stopped_keeps cfg hw e _ Engine.status (fun _ => rfl) wb
  · intro count e
    unfold engineServicePerf
    split
    · rfl
    · rfl

theorem serviceTransferList_status {queue : List Ptr} {count : Nat} :
    (serviceTransferList queue count e).2.status = e.status :=
  @serviceTransferList_keeps e _ Engine.status (fun _ _ _ => rfl) queue count

theorem Covered.of_same {prepared after : Engine} {count left : Nat} {done : List Ptr} (same : SameQueue e prepared)
    (covered : Covered prepared after count left done) : Covered e after count left done := by
  have tfer : prepared.tfer = e.tfer := same.2.2.2.1
  refine ⟨by simpa using same.serviced.trans covered.serviced, covered.completed, ?_, ?_, covered.exceeded, ?_⟩
  · rw [← tfer]
    exact covered.kept
  · rw [← tfer]
    exact covered.counted
  · rw [← tfer, ← same.1]
    exact covered.stops

section Settled

variable {looped : Engine} {count left : Nat} {done : List Ptr} (covered : Covered e looped count left done)
  (nodup : e.transferList.Nodup) (fine : ¬ (serviceStatus hw wb e).hasError cfg)
  (status : looped.status = (serviceStatus hw wb e).status)
  (counted : count = notYetDequeued (serviceCount hw wb) e.descDequeued)

include covered nodup

theorem Covered.apart : looped.transferList.Nodup ∧ (∀ p ∈ looped.transferList, looped.tfer p = e.tfer p) ∧
    ∀ p ∈ done, p ∉ looped.transferList := by
  rw [covered.serviced.list] at nodup
  obtain ⟨-, tail, apart⟩ := List.nodup_append.mp nodup
  have outside : ∀ p ∈ done, p ∉ looped.transferList := fun p finished waiting => apart p finished p waiting rfl
  exact ⟨tail, fun p waiting => covered.kept p fun finished => outside p finished waiting, outside⟩

/-- A transfer that the count does not reach is still on the list after the loop, and at its head only if what is left
    of the count falls short of it. -/
theorem Covered.stays {front back : List Ptr} {p : Ptr} (split : e.transferList = front ++ p :: back)
    (short : count < (front.map fun q => (e.tfer q).descNum).sum + (e.tfer p).descNum) :
    p ∈ looped.transferList ∧ ((e.tfer p).descNum ≤ left → ¬ ∃ rest, looped.transferList = p :: rest) := by
  obtain ⟨tail, -, -⟩ := covered.apart nodup
  have parts := covered.serviced.list
  rw [← covered.counted] at short
  rw [split] at parts
  rcases List.append_eq_append_iff.mp parts with ⟨more, long, here⟩ | ⟨more, long, here⟩
  · cases more with
    | nil =>
      have kept : looped.transferList = p :: back := by simpa using here.symm
      refine ⟨by simp [kept], fun enough _ => ?_⟩
      rw [long] at short
      simp only [List.append_nil] at short
      omega
    | cons q more =>
      rw [List.cons_append, List.cons.injEq] at here
      have positive := covered.exceeded (by simp [long])
      rw [long, ← here.1] at short
      simp only [List.map_append, List.map_cons, List.sum_append, List.sum_cons] at short
      omega
  · refine ⟨by simp [here], ?_⟩
    intro enough kept
    obtain ⟨rest, head⟩ := kept
    cases more with
    | nil =>
      rw [long] at short
      simp only [List.append_nil] at short
      omega
    | cons q more =>
      rw [here, List.cons_append, List.cons.injEq] at head
      rw [here, List.cons_append, head.1] at tail
      simp at tail

theorem Covered.finished (noError : ¬ looped.hasError cfg)
    (heads : ∀ p ∈ looped.transferList.head?, left < (looped.tfer p).descNum →
      cfg.eopFlush = true ∧ eopSeen hw (looped.tfer p) left = false) :
    ∀ p ∈ done, ((engineServiceFinalTransfer cfg hw left looped).tfer p).state = .completed := by
  obtain ⟨-, -, apart⟩ := covered.apart nodup
  intro p member
  rcases finalTransfer_fair noError heads with ⟨-, states⟩ | ⟨head, rest, waiting, -, -, -, others⟩
  · rw [states]
    exact covered.completed p member
  · rw [others p fun here => apart p member (by simp [waiting, here])]
    exact covered.completed p member

theorem Covered.waited (noError : ¬ looped.hasError cfg)
    (heads : ∀ p ∈ looped.transferList.head?, left < (looped.tfer p).descNum →
      cfg.eopFlush = true ∧ eopSeen hw (looped.tfer p) left = false) :
    ∀ p ∈ looped.transferList,
      (p ∈ (engineServiceFinalTransfer cfg hw left looped).transferList ∧
        ((engineServiceFinalTransfer cfg hw left looped).tfer p).state = (e.tfer p).state) ∨
      (((engineServiceFinalTransfer cfg hw left looped).tfer p).state = .completed ∧
        (e.tfer p).descNum ≤ left ∧ ∃ rest, looped.transferList = p :: rest) := by
  obtain ⟨-, same, -⟩ := covered.apart nodup
  intro p member
  rcases finalTransfer_fair noError heads with ⟨list, states⟩ | ⟨head, rest, waiting, enough, list, completed, others⟩
  · left
    rw [list, states, same p member]
    exact ⟨member, rfl⟩
  · by_cases here : p = head
    · right
      subst here
      rw [same p member] at enough
      exact ⟨completed, enough, rest, waiting⟩
    · left
      rw [list, others p here, same p member]
      rw [waiting] at member
      exact ⟨(List.mem_cons.mp member).resolve_left here, rfl⟩

include fine status counted

theorem Covered.cut (busy : (serviceStatus hw wb e).busy) {p : Ptr}
    (atHead : stopsAt e.tfer e.transferList count = some (p, left))
    (short : left < (e.tfer p).descNum) (eop : cfg.eopFlush = true → eopSeen hw (e.tfer p) left = true) :
    ¬ FailedForCause cfg hw wb e (engineServiceFinalTransfer cfg hw left looped) := by
  intro forCause
  have stops := covered.stops
  rw [atHead] at stops
  cases waiting : looped.transferList with
  | nil => simp [waiting] at stops
  | cons head rest =>
    simp only [waiting, List.head?_cons, Option.map_some, Option.some.injEq, Prod.mk.injEq, and_true] at stops
    subst stops
    obtain ⟨tail, same, -⟩ := covered.apart nodup
    have own : looped.tfer p = e.tfer p := same p (by simp [waiting])
    have noError : ¬ looped.hasError cfg := by
      unfold Engine.hasError at fine ⊢
      rw [status]
      exact fine
    have list := @finalTransfer_short cfg hw looped p rest _ waiting noError (by rw [own]; exact short)
      (by rw [own]; exact eop)
    have split : e.transferList = done ++ p :: rest := by rw [covered.serviced.list, waiting]
    have sum := covered.counted
    obtain ⟨kept, -⟩ := forCause.stays done p rest split busy fine (by rw [← counted]; omega)
    rw [list] at kept
    rw [waiting] at tail
    exact (List.nodup_cons.mp tail).1 kept

theorem Covered.fair
    (unfinished : ∀ p ∈ e.transferList, (e.tfer p).state = .submitted ∨ (e.tfer p).state = .aborted)
    (fair : ∀ p, stopsAt e.tfer e.transferList count = some (p, left) → left < (e.tfer p).descNum →
      cfg.eopFlush = true ∧ eopSeen hw (e.tfer p) left = false) :
    FailedForCause cfg hw wb e (engineServiceFinalTransfer cfg hw left looped) := by
  obtain ⟨-, same, -⟩ := covered.apart nodup
  have noError : ¬ looped.hasError cfg := by
    unfold Engine.hasError at fine ⊢
    rw [status]
    exact fine
  have heads : ∀ p ∈ looped.transferList.head?, left < (looped.tfer p).descNum →
      cfg.eopFlush = true ∧ eopSeen hw (looped.tfer p) left = false := by
    intro p head short
    have own : looped.tfer p = e.tfer p := same p (List.mem_of_mem_head? head)
    rw [own] at short ⊢
    apply fair p _ short
    rw [covered.stops, Option.mem_def.mp head]
    rfl
  have parts := covered.serviced.list
  constructor
  · intro p member lost
    rw [parts] at member
    rcases List.mem_append.mp member with early | late
    · simp [covered.finished nodup noError heads p early] at lost
    · rcases covered.waited nodup noError heads p late with ⟨kept, state⟩ | ⟨completed, -⟩
      · have before := unfinished p (by rw [parts]; exact member)
        rw [state] at lost
        rcases lost with failed | ⟨gone, -⟩
        · rw [failed] at before
          simp at before
        · exact absurd kept gone
      · simp [completed] at lost
  · intro front p back split _ _ short
    rw [← counted] at short
    have stays := covered.stays nodup split short
    rcases covered.waited nodup noError heads p stays.1 with kept | ⟨-, enough, head⟩
    · exact kept
    · exact absurd head (stays.2 enough)

theorem Covered.failedForCause_iff (running : e.running = true) (busy : (serviceStatus hw wb e).busy)
    (reported : serviceCount hw wb ≠ 0)
    (unfinished : ∀ p ∈ e.transferList, (e.tfer p).state = .submitted ∨ (e.tfer p).state = .aborted) :
    FailedForCause cfg hw wb e (engineServiceFinalTransfer cfg hw left looped) ↔ ¬ CutsShort cfg hw wb e := by
  constructor
  · intro forCause cut
    obtain ⟨-, -, -, -, p, here, atHead, short, eop⟩ := cut
    rw [← counted] at atHead
    have same : here = left := by
      have stops := covered.stops
      rw [atHead] at stops
      cases waiting : looped.transferList.head? with
      | none => simp [waiting] at stops
      | some head =>
        simp only [waiting, Option.map_some, Option.some.injEq, Prod.mk.injEq] at stops
        exact stops.2
    subst same
    exact covered.cut nodup fine status counted busy atHead short eop forCause
  · intro uncut
    apply covered.fair nodup fine status counted unfinished
    intro p atHead short
    by_contra other
    apply uncut
    rw [counted] at atHead
    refine ⟨running, busy, fine, reported, p, left, atHead, short, fun flush => ?_⟩
    cases seen : eopSeen hw (e.tfer p) left with
    | true => rfl
    | false => exact absurd ⟨flush, seen⟩ other

end Settled

/-- One service fails and removes transfers only for cause, just when it does not cut a transfer short. -/
theorem failedForCause_iff (nodup : e.transferList.Nodup)
    (unfinished : ∀ p ∈ e.transferList, (e.tfer p).state = .submitted ∨ (e.tfer p).state = .aborted) :
    FailedForCause cfg hw wb e (engineService cfg hw wb e) ↔ ¬ CutsShort cfg hw wb e := by
  cases running : e.running with
  | false =>
    have unchanged : FailedForCause cfg hw wb e (engineService cfg hw wb e) := by
      simp only [engineService, running, if_true]
      exact failedForCause_unchanged rfl rfl unfinished
    refine ⟨fun _ cut => ?_, fun _ => unchanged⟩
    simp [CutsShort, running] at cut
  | true =>
    rw [engineService_running running]
    by_cases none : serviceCount hw wb = 0
    · rw [if_pos none]
      have same := @stopped_queue cfg hw e wb
      exact ⟨fun _ cut => cut.2.2.2.1 none, fun _ => failedForCause_unchanged same.1 same.2.2.2.1 unfinished⟩
    · rw [if_neg none]
      by_cases fair : (serviceStatus hw wb e).busy ∧ ¬ (serviceStatus hw wb e).hasError cfg
      · obtain ⟨busy, fine⟩ := fair
        have same := @prepared_queue cfg hw e wb
        have status := @prepared_status cfg hw wb e
        have dequeued := @prepared_dequeued cfg hw e wb
        simp only [dequeued]
        let count := notYetDequeued (serviceCount hw wb) e.descDequeued
        let looped := engineServiceTransferList count (servicePrepared cfg hw wb e)
        have preparedNodup : (servicePrepared cfg hw wb e).transferList.Nodup := by
          rw [same.1]
          exact nodup
        obtain ⟨done, loop⟩ := @serviceTransferList_covered (servicePrepared cfg hw wb e) _ count rfl preparedNodup
        have covered : Covered e looped.2 count looped.1 done := loop.of_same same
        have loopedStatus : looped.2.status = (serviceStatus hw wb e).status :=
          serviceTransferList_status.trans status
        exact failedForCause_resumed.trans
          (covered.failedForCause_iff nodup fine loopedStatus rfl running busy none unfinished)
      · have cause : (serviceStatus hw wb e).hasError cfg ∨ ¬ (serviceStatus hw wb e).busy := by
          by_cases busy : (serviceStatus hw wb e).busy
          · left
            by_contra fine
            exact fair ⟨busy, fine⟩
          · exact .inr busy
        refine ⟨fun _ cut => fair ⟨cut.2.1, cut.2.2.1⟩, fun _ => ⟨fun _ _ _ => cause, ?_⟩⟩
        intro front p back _ busy fine
        exact absurd ⟨busy, fine⟩ fair

end Service

def StepFailedForCause (cfg : EngineConfig) (d : Driver) (action : Action) (next : Driver) : Prop :=
  match action with
  | .service wb hw _ => FailedForCause cfg hw wb d.engine next.engine
  | _ => True

def StepCutsNone (cfg : EngineConfig) (d : Driver) (action : Action) (_ : Driver) : Prop :=
  match action with
  | .service wb hw _ => ¬ CutsShort cfg hw wb d.engine
  | _ => True

/-- In every run from an idle engine, the services fail transfers only for cause just when none of them cuts a
    transfer short. -/
theorem failed_for_cause_iff (cfg : EngineConfig) (d : Driver) (initial : d.Initial cfg) (actions : List Action) :
    EachStep (Driver.step cfg) (StepFailedForCause cfg) d actions ↔
      EachStep (Driver.step cfg) (StepCutsNone cfg) d actions := by
  apply eachStep_congr (I := QueueInv) (C := fun _ _ _ => True) (fun _ _ _ stepped _ => queueInv_step stepped) _
    initial.queueInv (eachStep_of_forall (fun _ _ _ _ => trivial) d actions)
  intro d action next stepped _ inv
  cases action with
  | service wb hw reached =>
    simp only [Driver.step, Option.some.injEq] at stepped
    subst stepped
    simp only [StepFailedForCause, StepCutsNone, ← failedForCause_iff inv.nodup inv.state]
    obtain ⟨ring, descUsed, freed, moved, same⟩ := stepService_same cfg wb hw reached d
    rw [same]
    exact FailedForCause.congr rfl rfl
  | _ => exact Iff.rfl

/-- A call waits too long and gives up. The work of its late interrupt then runs while the next call's transfer is
    half done. -/
def lateWork : List Action :=
  submitOne 0 ++ [.settle 0 true (reads xdmaStatBusy 0), .retire 0, .leave 0] ++
    [.call 1 .submit [⟨0x1000, 64⟩, ⟨0x2000, 64⟩] 0, .lock 1, .init 1, .check 1, .queue 1 (reads xdmaStatBusy 0)]

theorem late_work_fails_transfer :
    ¬ EachStep (Driver.step mmEngine) (StepFailedForCause mmEngine) idleDriver
      (lateWork ++ [.service 0 (reads xdmaStatBusy 1) fun _ => false]) := by
  intro fine
  have last := ((eachStep_append rfl).mp fine).2
  have serviced : FailedForCause mmEngine _ _ _ _ := ((eachStep_cons _ rfl).mp last).1
  have cause := serviced.cause ⟨1, 0⟩ (by decide) (.inl rfl)
  revert cause
  decide

theorem stopped_engine_fails_none :
    EachStep (Driver.step mmEngine) (StepFailedForCause mmEngine) idleDriver
      (submitOne 0 ++ [.service 0 (reads 0 1) fun _ => false]) := by
  apply (failed_for_cause_iff mmEngine idleDriver (idleDriver_initial _) _).mpr
  apply (eachStep_cons _ rfl).mpr ⟨trivial, _⟩
  apply (eachStep_cons _ rfl).mpr ⟨trivial, _⟩
  apply (eachStep_cons _ rfl).mpr ⟨trivial, _⟩
  apply (eachStep_cons _ rfl).mpr ⟨trivial, _⟩
  apply (eachStep_cons _ rfl).mpr ⟨trivial, _⟩
  refine (eachStep_cons _ rfl).mpr ⟨fun cut => ?_, trivial⟩
  have busy := cut.2.1
  revert busy
  decide

end CigCard.Xdma
