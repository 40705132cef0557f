import CigCard.Transition.Run

namespace CigCard.Xdma

open Transition

/-- What `xthread_main` does next: it tests whether it should stop, looks for work, tests `schedule` in the wait, sleeps
    there, clears `schedule`, goes over its list, or has left the loop. -/
inductive ThreadPc where
  | shouldStop
  | anyWork
  | waitTest
  | asleep
  | clear
  | process
  | exited
deriving DecidableEq

/-- How far `xdma_kthread_stop` is: it has set `schedule`, and in `kthread_stop` told the thread, woken it and waits. -/
inductive StopPc where
  | idle
  | scheduled
  | told
  | waiting
  | returned
deriving DecidableEq

structure KthreadStop where
  thread : ThreadPc
  schedule : Bool
  shouldStop : Bool
  stop : StopPc
deriving DecidableEq

/-- A piece of the thread, which may find work pending, or of the stop. `schedule` and `wake` are the two halves of
    `xdma_kthread_wakeup`. -/
inductive StopAction where
  | thread (pending : Bool)
  | schedule
  | wake
  | stop

namespace KthreadStop

def woken : ThreadPc → ThreadPc
  | .asleep => .waitTest
  | pc => pc

def stepThread (s : KthreadStop) (pending : Bool) : Option KthreadStop :=
  match s.thread with
  | .shouldStop => some { s with thread := if s.shouldStop then .exited else .anyWork }
  | .anyWork => some { s with thread := if pending then .clear else .waitTest }
  | .waitTest => some { s with thread := if s.schedule then .clear else .asleep }
  | .clear => some { s with thread := .process, schedule := false }
  | .process => some { s with thread := .shouldStop }
  | .asleep | .exited => none

def stepStop (s : KthreadStop) : Option KthreadStop :=
  match s.stop with
  | .idle => some { s with schedule := true, stop := .scheduled }
  | .scheduled => some { s with shouldStop := true, stop := .told }
  | .told => some { s with thread := woken s.thread, stop := .waiting }
  | .waiting => if s.thread = .exited then some { s with stop := .returned } else none
  | .returned => none

def step (s : KthreadStop) : StopAction → Option KthreadStop
  | .thread pending => if pending = true ∧ s.stop ≠ .idle then none else s.stepThread pending
  | .schedule => if s.stop = .idle then some { s with schedule := true } else none
  | .wake => if s.stop = .idle then some { s with thread := woken s.thread } else none
  | .stop => s.stepStop

def started : KthreadStop := ⟨.shouldStop, false, false, .idle⟩

def Missed (s : KthreadStop) : Prop :=
  s.schedule = false ∧ (s.thread = .anyWork ∨ s.thread = .waitTest ∨ s.thread = .asleep)

/-- Whoever has told the thread to stop has told it for good, and a thread that was woken for it sleeps only if
    `schedule` is clear. -/
structure Orderly (s : KthreadStop) : Prop where
  told : s.shouldStop = true ↔ s.stop = .told ∨ s.stop = .waiting ∨ s.stop = .returned
  sleeps : s.stop = .waiting → s.thread = .asleep → s.schedule = false

theorem woken_awake (pc : ThreadPc) : woken pc ≠ .asleep := by
  cases pc <;> decide

section Steps

variable {s next : KthreadStop} {action : StopAction}

/-- A thread goes to sleep only where `schedule` is clear, and a stop does not notice where it is. -/
theorem stepThread_cases {pending : Bool} (stepped : s.stepThread pending = some next) :
    next.shouldStop = s.shouldStop ∧ next.stop = s.stop ∧ (next.thread = .asleep → next.schedule = false) := by
  obtain ⟨thread, schedule, shouldStop, stop⟩ := s
  cases thread with
  | shouldStop =>
    cases stepped
    cases shouldStop with
    | true => exact ⟨rfl, rfl, fun asleep => by cases asleep⟩
    | false => exact ⟨rfl, rfl, fun asleep => by cases asleep⟩
  | anyWork =>
    cases stepped
    cases pending with
    | true => exact ⟨rfl, rfl, fun asleep => by cases asleep⟩
    | false => exact ⟨rfl, rfl, fun asleep => by cases asleep⟩
  | waitTest =>
    cases stepped
    cases schedule with
    | true => exact ⟨rfl, rfl, fun asleep => by cases asleep⟩
    | false => exact ⟨rfl, rfl, fun _ => rfl⟩
  | clear =>
    cases stepped
    exact ⟨rfl, rfl, fun _ => rfl⟩
  | process =>
    cases stepped
    exact ⟨rfl, rfl, fun asleep => by cases asleep⟩
  | asleep | exited => cases stepped

theorem Orderly.idle {thread : ThreadPc} {schedule shouldStop : Bool}
    (orderly : Orderly ⟨thread, schedule, shouldStop, .idle⟩) (thread' : ThreadPc) (schedule' : Bool) :
    Orderly ⟨thread', schedule', shouldStop, .idle⟩ :=
  ⟨orderly.told, fun waiting => by cases waiting⟩

theorem stepStop_orderly (stepped : s.stepStop = some next) (orderly : s.Orderly) : next.Orderly := by
  obtain ⟨thread, schedule, shouldStop, stop⟩ := s
  have told := orderly.told
  cases stop with
  | idle =>
    cases stepped
    exact ⟨by simpa using told, fun waiting => by cases waiting⟩
  | scheduled =>
    cases stepped
    exact ⟨by simp, fun waiting => by cases waiting⟩
  | told =>
    cases stepped
    exact ⟨by simpa using told, fun _ asleep => absurd asleep (woken_awake thread)⟩
  | waiting =>
    dsimp only [stepStop] at stepped
    split at stepped
    · cases stepped
      exact ⟨by simpa using told, fun waiting => by cases waiting⟩
    · cases stepped
  | returned => cases stepped

theorem step_orderly (stepped : s.step action = some next) (orderly : s.Orderly) : next.Orderly := by
  cases action with
  | thread pending =>
    rw [step] at stepped
    split at stepped
    · cases stepped
    · obtain ⟨told, stop, sleeps⟩ := stepThread_cases stepped
      refine ⟨?_, fun _ => sleeps⟩
      rw [told, stop]
      exact orderly.told
  | schedule =>
    obtain ⟨thread, schedule, shouldStop, stop⟩ := s
    cases stop with
    | idle =>
      cases stepped
      exact orderly.idle thread true
    | scheduled | told | waiting | returned => cases stepped
  | wake =>
    obtain ⟨thread, schedule, shouldStop, stop⟩ := s
    cases stop with
    | idle =>
      cases stepped
      exact orderly.idle (woken thread) schedule
    | scheduled | told | waiting | returned => cases stepped
  | stop => exact stepStop_orderly stepped orderly

theorem stepThread_missed (stepped : s.stepThread false = some next) (told : s.shouldStop = true) :
    next.Missed ↔ s.Missed := by
  obtain ⟨thread, schedule, shouldStop, stop⟩ := s
  cases told
  cases thread with
  | shouldStop =>
    cases stepped
    simp [Missed]
  | anyWork =>
    cases stepped
    simp [Missed]
  | waitTest =>
    cases stepped
    cases schedule with
    | true => simp [Missed]
    | false => simp [Missed]
  | clear =>
    cases stepped
    simp [Missed]
  | process =>
    cases stepped
    simp [Missed]
  | asleep | exited => cases stepped

theorem woken_missed (thread : ThreadPc) (schedule shouldStop : Bool) (stop stop' : StopPc) :
    Missed ⟨woken thread, schedule, shouldStop, stop⟩ ↔ Missed ⟨thread, schedule, shouldStop, stop'⟩ := by
  cases thread with
  | asleep => simp [Missed, woken]
  | shouldStop | anyWork | waitTest | clear | process | exited => simp [Missed, woken]

/-- Once the thread is told to stop, no step makes or mends a missed stop. -/
theorem step_missed (stepped : s.step action = some next) (orderly : s.Orderly) (told : s.shouldStop = true) :
    next.shouldStop = true ∧ (next.Missed ↔ s.Missed) := by
  have begun : s.stop ≠ .idle := by
    intro idle
    have later := orderly.told.mp told
    simp [idle] at later
  cases action with
  | thread pending =>
    rw [step] at stepped
    split at stepped
    · cases stepped
    · next quiet =>
      have none : pending = false := by simpa [begun] using quiet
      rw [none] at stepped
      exact ⟨(stepThread_cases stepped).1.trans told, stepThread_missed stepped told⟩
  | schedule =>
    rw [step, if_neg begun] at stepped
    cases stepped
  | wake =>
    rw [step, if_neg begun] at stepped
    cases stepped
  | stop =>
    obtain ⟨thread, schedule, shouldStop, stop⟩ := s
    cases stop with
    | idle => exact absurd rfl begun
    | scheduled =>
      have early := orderly.told.mp told
      simp at early
    | told =>
      cases stepped
      exact ⟨told, woken_missed thread schedule shouldStop .waiting .told⟩
    | waiting =>
      dsimp only [step, stepStop] at stepped
      split at stepped
      · cases stepped
        exact ⟨told, Iff.rfl⟩
      · cases stepped
    | returned => cases stepped

theorem Missed.not_returned (missed : s.Missed) (open' : s.stop ≠ .returned) (stepped : s.step action = some next) :
    next.stop ≠ .returned := by
  cases action with
  | thread pending =>
    rw [step] at stepped
    split at stepped
    · cases stepped
    · rwa [(stepThread_cases stepped).2.1]
  | schedule | wake =>
    rw [step] at stepped
    split at stepped
    · cases stepped
      exact open'
    · cases stepped
  | stop =>
    obtain ⟨thread, schedule, shouldStop, stop⟩ := s
    cases stop with
    | idle | scheduled | told =>
      cases stepped
      exact fun returned => by cases returned
    | waiting =>
      dsimp only [step, stepStop] at stepped
      split at stepped
      · next gone =>
        cases gone
        rcases missed.2 with pc | pc | pc
        · cases pc
        · cases pc
        · cases pc
      · cases stepped
    | returned => cases stepped

theorem run_orderly {actions : List StopAction} {last : KthreadStop} (orderly : s.Orderly)
    (ran : run step s actions = some last) : last.Orderly := by
  have free := @eachStep_of_forall _ _ step (fun _ _ _ => True) (fun _ _ _ _ => trivial) s actions
  exact run_invariant (fun _ _ _ stepped _ orderly => step_orderly stepped orderly) orderly free ran

/-- Whether a stop is missed is settled when the thread is told. -/
theorem run_missed {actions : List StopAction} {last : KthreadStop} (orderly : s.Orderly) (told : s.shouldStop = true)
    (ran : run step s actions = some last) : last.shouldStop = true ∧ (last.Missed ↔ s.Missed) := by
  induction actions generalizing s with
  | nil =>
    cases ran
    exact ⟨told, Iff.rfl⟩
  | cons action actions ih =>
    obtain ⟨next, stepped, rest⟩ := run_cons.mp ran
    obtain ⟨toldNext, same⟩ := step_missed stepped orderly told
    obtain ⟨toldLast, later⟩ := ih (step_orderly stepped orderly) toldNext rest
    exact ⟨toldLast, later.trans same⟩

theorem Missed.run_not_returned {actions : List StopAction} {last : KthreadStop} (orderly : s.Orderly)
    (told : s.shouldStop = true) (missed : s.Missed) (open' : s.stop ≠ .returned)
    (ran : run step s actions = some last) : last.stop ≠ .returned := by
  induction actions generalizing s with
  | nil =>
    cases ran
    exact open'
  | cons action actions ih =>
    obtain ⟨next, stepped, rest⟩ := run_cons.mp ran
    obtain ⟨toldNext, same⟩ := step_missed stepped orderly told
    exact ih (step_orderly stepped orderly) toldNext (same.mpr missed) (missed.not_returned open' stepped) rest

/-- The steps that the thread still takes. -/
theorem exits (waiting : s.stop = .waiting) (orderly : s.Orderly) (told : s.shouldStop = true) (heard : ¬ s.Missed) :
    ∃ steps ≤ 5, ∃ last, run step s (List.replicate steps (.thread false) ++ [.stop]) = some last ∧
      last.stop = .returned := by
  obtain ⟨thread, schedule, shouldStop, stop⟩ := s
  cases told
  cases waiting
  cases thread with
  | exited => exact ⟨0, by decide, _, rfl, rfl⟩
  | shouldStop => exact ⟨1, by decide, _, rfl, rfl⟩
  | process => exact ⟨2, by decide, _, rfl, rfl⟩
  | clear => exact ⟨3, by decide, _, rfl, rfl⟩
  | waitTest =>
    cases schedule with
    | true => exact ⟨4, by decide, _, rfl, rfl⟩
    | false => exact absurd ⟨rfl, .inr (.inl rfl)⟩ heard
  | anyWork =>
    cases schedule with
    | true => exact ⟨5, by decide, _, rfl, rfl⟩
    | false => exact absurd ⟨rfl, .inl rfl⟩ heard
  | asleep => exact absurd ⟨orderly.sleeps rfl rfl, .inr (.inr rfl)⟩ heard

end Steps

theorem started_orderly : started.Orderly := ⟨by simp [started], fun waiting => by cases waiting⟩

/-- In every interleaving of a thread, its wakers and its stop: the stop can still return exactly if the thread has not
    cleared `schedule` behind its test by the time it is told; then it takes the thread five steps at most. -/
theorem stop_returns_iff {before after : List StopAction} {s₀ s : KthreadStop}
    (reached : run step started before = some s₀) (about : s₀.stop = .scheduled)
    (ran : run step s₀ (.stop :: after) = some s) (waiting : s.stop = .waiting) :
    ((∃ more last, run step s more = some last ∧ last.stop = .returned) ↔ ¬ s₀.Missed) ∧
      (¬ s₀.Missed → ∃ steps ≤ 5, ∃ last,
        run step s (List.replicate steps (.thread false) ++ [.stop]) = some last ∧ last.stop = .returned) := by
  have orderly := run_orderly started_orderly reached
  obtain ⟨told, stepped, rest⟩ := run_cons.mp ran
  have tells : told = { s₀ with shouldStop := true, stop := .told } := by
    rw [step, stepStop, about] at stepped
    exact (Option.some.inj stepped).symm
  have toldOrderly := step_orderly stepped orderly
  rw [tells] at rest toldOrderly
  obtain ⟨toldLast, same⟩ := run_missed toldOrderly rfl rest
  have settled : s.Missed ↔ s₀.Missed := same
  have lastOrderly := run_orderly toldOrderly rest
  have returns : ¬ s₀.Missed → ∃ steps ≤ 5, ∃ last,
      run step s (List.replicate steps (.thread false) ++ [.stop]) = some last ∧ last.stop = .returned := by
    intro heard
    exact exits waiting lastOrderly toldLast (settled.not.mpr heard)
  refine ⟨⟨?_, ?_⟩, returns⟩
  · rintro ⟨more, last, ends, returned⟩ missed
    have stays : s.stop ≠ .returned := by simp [waiting]
    exact Missed.run_not_returned lastOrderly toldLast (settled.mpr missed) stays ends returned
  · intro heard
    obtain ⟨steps, -, last, ends, returned⟩ := returns heard
    exact ⟨_, last, ends, returned⟩

/-- A thread that is woken for nothing just when it is to be stopped sleeps for ever, and so does who stops it. -/
theorem missed_stop_hangs :
    let before : List StopAction :=
      [.thread false, .thread false, .stop, .thread false, .thread false, .thread false, .thread false]
    let after : List StopAction := [.stop, .thread false, .thread false]
    ∃ s, run step started (before ++ .stop :: after) = some s ∧ s.stop = .waiting ∧
      ∀ more last, run step s more = some last → last.stop ≠ .returned := by
  intro before after
  refine ⟨⟨.asleep, false, true, .waiting⟩, rfl, rfl, ?_⟩
  have outcome := @stop_returns_iff before after ⟨.anyWork, false, false, .scheduled⟩ ⟨.asleep, false, true, .waiting⟩
    rfl rfl rfl rfl
  intro more last ends returned
  exact outcome.1.mp ⟨more, last, ends, returned⟩ ⟨rfl, .inl rfl⟩

end KthreadStop

end CigCard.Xdma
