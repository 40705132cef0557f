import CigCard.Xdma.QueueInvariant

namespace CigCard.Xdma

open Transition

/-- A service leaves no transfer behind on a stopped engine. If the engine had stopped with an error before it
    completed any descriptor, the head transfer has failed and its waiter was woken. -/
structure NotStranded (cfg : EngineConfig) (hw : Hardware) (wb : BitVec 32) (before after : Engine) : Prop where
  empty : after.running = false → after.shutdownRequest = false → after.transferList = []
  failed : before.running = true → (serviceStatus hw wb before).hasError cfg → ¬ (serviceStatus hw wb before).busy →
    serviceCount hw wb = 0 → after.shutdownRequest = false → ∀ p ∈ before.transferList.head?,
      (after.tfer p).state = .failed ∧ p ∈ after.woken.drop before.woken.length

/-- What a service must find in order not to leave early: a running engine and, if it has stopped, a completed
    descriptor. -/
def Serviceable (hw : Hardware) (wb : BitVec 32) (e : Engine) : Prop :=
  e.shutdownRequest = true ∨ e.transferList = [] ∨
    (e.running = true ∧ (serviceCount hw wb ≠ 0 ∨ (serviceStatus hw wb e).busy))

section Service

variable {cfg : EngineConfig} {hw : Hardware} {wb : BitVec 32} {e : Engine}

theorem resume_empty (stopped : (engineServiceResume hw e).running = false) :
    (engineServiceResume hw e).transferList = [] := by
  unfold engineServiceResume at stopped ⊢
  by_cases running : e.running = false
  · simp only [running, if_true] at stopped ⊢
    cases list : e.transferList with
    | nil =>
      simp only
      split
      · rfl
      · exact list
    | cons p rest => simp [list, engineStart, running] at stopped
  · simp only [running] at stopped ⊢
    cases list : e.transferList with
    | nil => exact list
    | cons p rest => simp [list, running] at stopped

theorem wbCount_of_count (none : serviceCount hw wb = 0) : wbCount wb = 0 := by
  unfold serviceCount at none
  split at none
  · assumption
  · exact none

theorem stopped_running (none : serviceCount hw wb = 0) (running : e.running = true) :
    (serviceStopped cfg hw wb e).running = decide (serviceStatus hw wb e).busy := by
  have status : (serviceStatus hw wb e).running = true := by
    unfold serviceStatus
    split
    · exact running
    · exact running
  simp only [serviceStopped, wbCount_of_count none, ne_eq, not_true_eq_false, and_false, or_false]
  by_cases busy : (serviceStatus hw wb e).busy
  · simp [busy, status]
  · simp [busy, engineServiceShutdown, xdmaEngineStop]

theorem stopped_request : (serviceStopped cfg hw wb e).shutdownRequest = e.shutdownRequest := by
  rw [@stopped_keeps cfg hw e _ Engine.shutdownRequest (fun _ => rfl) wb]
  unfold serviceStatus
  split
  · rfl
  · rfl

theorem notStranded_iff (flush : cfg.eopFlush = false) :
    NotStranded cfg hw wb e (engineService cfg hw wb e) ↔ Serviceable hw wb e := by
  cases running : e.running with
  | false =>
    have unchanged : engineService cfg hw wb e = { e with status := hw.statusRc } := by
      simp only [engineService, running, if_true]
    rw [unchanged]
    constructor
    · intro fine
      cases request : e.shutdownRequest with
      | true => exact .inl request
      | false => exact .inr (.inl (fine.empty running request))
    · intro serviceable
      refine ⟨fun _ request => ?_, fun wasRunning => by simp [running] at wasRunning⟩
      rcases serviceable with requested | empty | ⟨wasRunning, -⟩
      · rw [request] at requested
        cases requested
      · exact empty
      · rw [running] at wasRunning
        cases wasRunning
  | true =>
    rw [engineService_running running]
    by_cases none : serviceCount hw wb = 0
    · rw [if_pos none]
      have stops := @stopped_running cfg _ _ _ none running
      have request := @stopped_request cfg hw wb e
      have list : (serviceStopped cfg hw wb e).transferList = e.transferList := (stopped_queue wb).1
      constructor
      · intro fine
        by_cases busy : (serviceStatus hw wb e).busy
        · exact .inr (.inr ⟨running, .inr busy⟩)
        · cases requested : e.shutdownRequest with
          | true => exact .inl requested
          | false =>
            right
            left
            rw [← list]
            exact fine.empty (by rw [stops]; simp [busy]) (by rw [request, requested])
      · intro serviceable
        refine ⟨fun stopped unrequested => ?_, fun _ _ idle _ unrequested => ?_⟩
        · rw [list]
          rw [stops, decide_eq_false_iff_not] at stopped
          rcases serviceable with requested | empty | ⟨-, counted | busy⟩
          · rw [request, requested] at unrequested
            cases unrequested
          · exact empty
          · exact absurd none counted
          · exact absurd busy stopped
        · rcases serviceable with requested | empty | ⟨-, counted | busy⟩
          · rw [request, requested] at unrequested
            cases unrequested
          · simp [empty]
          · exact absurd none counted
          · exact absurd busy idle
    · rw [if_neg none]
      simp only [flush]
      constructor
      · intro _
        exact .inr (.inr ⟨running, .inl none⟩)
      · intro _
        exact ⟨fun stopped _ => resume_empty stopped, fun _ _ _ counted => absurd counted none⟩

end Service

def StepNotStranded (cfg : EngineConfig) (d : Driver) (action : Action) (next : Driver) : Prop :=
  match action with
  | .service wb hw _ => NotStranded cfg hw wb d.engine next.engine
  | _ => True

def StepServiceable (d : Driver) (action : Action) (_ : Driver) : Prop :=
  match action with
  | .service wb hw _ => Serviceable hw wb d.engine
  | _ => True

/-- In every run, the services strand no transfer just when each of them is serviceable. -/
theorem services_strand_none_iff (cfg : EngineConfig) (flush : cfg.eopFlush = false) (d : Driver)
    (actions : List Action) :
    EachStep (Driver.step cfg) (StepNotStranded cfg) d actions ↔
      EachStep (Driver.step cfg) StepServiceable d actions := by
  apply eachStep_congr (I := fun _ => True) (C := fun _ _ _ => True) (fun _ _ _ _ _ _ => trivial) _ trivial
    (eachStep_of_forall (fun _ _ _ _ => trivial) d actions)
  intro d action next stepped _ _
  cases action with
  | service wb hw reached =>
    simp only [Driver.step, Option.some.injEq] at stepped
    subst stepped
    simp only [StepNotStranded, StepServiceable, ← @notStranded_iff _ hw wb _ flush]
    obtain ⟨ring, descUsed, freed, moved, same⟩ := stepService_same cfg wb hw reached d
    rw [same]
    exact ⟨fun fine => ⟨fine.empty, fine.failed⟩, fun fine => ⟨fine.empty, fine.failed⟩⟩
  | _ => exact Iff.rfl

/-- The engine stops with an alignment error before its first descriptor: the transfer stays on the list. -/
theorem error_strands_transfer :
    ¬ EachStep (Driver.step mmEngine) (StepNotStranded mmEngine) idleDriver
      (submitOne 0 ++ [.service 0 (reads xdmaStatAlignMismatch 0) fun _ => false]) := by
  intro fine
  have called := (eachStep_cons _ rfl).mp fine
  have locked := (eachStep_cons _ rfl).mp called.2
  have built := (eachStep_cons _ rfl).mp locked.2
  have checked := (eachStep_cons _ rfl).mp built.2
  have queued := (eachStep_cons _ rfl).mp checked.2
  have serviced : NotStranded mmEngine _ _ _ _ := ((eachStep_cons _ rfl).mp queued.2).1
  have empty := serviced.empty rfl rfl
  cases empty

theorem completed_strands_none :
    EachStep (Driver.step mmEngine) (StepNotStranded mmEngine) idleDriver
      (submitOne 0 ++ [.service 0 (reads 0 1) fun _ => false]) := by
  apply (services_strand_none_iff mmEngine rfl _ _).mpr
  apply (eachStep_cons _ rfl).mpr ⟨trivial, _⟩
  apply (eachStep_cons _ rfl).mpr ⟨trivial, _⟩
  apply (eachStep_cons _ rfl).mpr ⟨trivial, _⟩
  apply (eachStep_cons _ rfl).mpr ⟨trivial, _⟩
  apply (eachStep_cons _ rfl).mpr ⟨trivial, _⟩
  exact (eachStep_cons _ rfl).mpr ⟨.inr (.inr ⟨rfl, .inl (by decide)⟩), trivial⟩

end CigCard.Xdma
