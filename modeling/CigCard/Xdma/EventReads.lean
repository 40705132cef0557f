import CigCard.Transition.Run
import CigCard.Xdma.UserIrq

namespace CigCard.Xdma

open Transition

/-- How far a thread is in `char_events_read`: it waits, has seen the flag set, or has taken the word. -/
inductive ReadPhase where
  | idle
  | waiting
  | woken
  | took (eventsUser : BitVec 32)
deriving DecidableEq

structure EndedRead where
  reader : Nat
  rv : Int
  word : Option (BitVec 32)
deriving DecidableEq

structure EventsLine where
  userIrq : UserIrq
  phase : Nat → ReadPhase
  ended : List EndedRead

inductive EventAction where
  | interrupt
  | call (i : Nat) (check : Int) (known : Bool) (count : Nat) (pos : BitVec 64)
  | wake (i : Nat)
  | signal (i : Nat)
  | take (i : Nat)
  | finish (i : Nat) (uncopied : Nat)

def UserIrq.raise (u : UserIrq) : UserIrq := if u.handler then u else { u with eventsIrq := true }

theorem userIrqService_raise (user : Nat) (s : IsrState) :
    (userIrqService user s).userIrq user = (s.userIrq user).raise := by
  unfold userIrqService UserIrq.raise
  dsimp only
  split_ifs with handled raised
  · rfl
  · cases line : s.userIrq user with
    | mk handler eventsIrq =>
      rw [line] at raised
      cases raised
      rfl
  · simp

theorem UserIrq.raise_keeps {u : UserIrq} (set : u.eventsIrq = true) : u.raise.eventsIrq = true := by
  unfold UserIrq.raise
  split
  · exact set
  · rfl

def UserIrq.word (u : UserIrq) : BitVec 32 := if u.eventsIrq then 1 else 0

def charEventsCheck (check : Int) (known : Bool) (count : Nat) (pos : BitVec 64) : Option Int :=
  if check < 0 then some check
  else if known = false then some (-22)
  else if count ≠ 4 then some (-71)
  else if pos &&& 3 ≠ 0 then some (-71)
  else none

namespace EventsLine

def setPhase (s : EventsLine) (i : Nat) (phase : ReadPhase) : EventsLine :=
  { s with phase := fun j => if j = i then phase else s.phase j }

def endRead (s : EventsLine) (i : Nat) (rv : Int) (word : Option (BitVec 32)) : EventsLine :=
  { s.setPhase i .idle with ended := s.ended ++ [⟨i, rv, word⟩] }

/-- `wait_event_interruptible` looks at the flag without the lock; it is taken and cleared with it. -/
def step (s : EventsLine) : EventAction → Option EventsLine
  | .interrupt => some { s with userIrq := s.userIrq.raise }
  | .call i check known count pos =>
    if s.phase i = .idle then
      match charEventsCheck check known count pos with
      | some rv => some (s.endRead i rv none)
      | none => some (s.setPhase i .waiting)
    else none
  | .wake i => if s.phase i = .waiting ∧ s.userIrq.eventsIrq = true then some (s.setPhase i .woken) else none
  | .signal i => if s.phase i = .waiting ∧ s.userIrq.eventsIrq = false then some (s.endRead i (-512) none) else none
  | .take i =>
    if s.phase i = .woken then
      some { s.setPhase i (.took s.userIrq.word) with userIrq := { s.userIrq with eventsIrq := false } }
    else none
  | .finish i uncopied =>
    match s.phase i with
    | .took word => some (s.endRead i 4 (if uncopied = 0 then some word else none))
    | _ => none

/-- What a step does for events: a call that returns 4 has handed over a word that is not 0, a set flag is cleared only
    by a read that takes it, and a read that has taken it returns it. -/
structure Delivers (s : EventsLine) (action : EventAction) (next : EventsLine) : Prop where
  handed : ∀ read, next.ended = s.ended ++ [read] → read.rv = 4 → ∃ word, read.word = some word ∧ word ≠ 0
  kept : s.userIrq.eventsIrq = true →
    next.userIrq.eventsIrq = true ∨ ∃ i, action = .take i ∧ next.phase i = .took 1
  carried : ∀ i word, s.phase i = .took word → word ≠ 0 →
    next.phase i = .took word ∨ next.ended = s.ended ++ [⟨i, 4, some word⟩]

/-- A read takes the flag while it is still set, and what it has taken can be copied. -/
def Conclusive (s : EventsLine) (action : EventAction) (_next : EventsLine) : Prop :=
  match action with
  | .take _ => s.userIrq.eventsIrq = true
  | .finish _ uncopied => uncopied = 0
  | _ => True

section Steps

variable {s next : EventsLine} {action : EventAction} {i : Nat} {phase : ReadPhase}

def Holds (s : EventsLine) : Prop := ∀ i word, s.phase i = .took word → word ≠ 0

theorem setPhase_self : (s.setPhase i phase).phase i = phase := if_pos rfl

theorem setPhase_other {j : Nat} (other : j ≠ i) : (s.setPhase i phase).phase j = s.phase j := if_neg other

theorem Holds.setPhase (holds : s.Holds) (full : ∀ word, phase = .took word → word ≠ 0) :
    (s.setPhase i phase).Holds := by
  intro j word taken
  by_cases here : j = i
  · subst here
    rw [setPhase_self] at taken
    exact full word taken
  · rw [setPhase_other here] at taken
    exact holds j word taken

/-- A step that ends no call, and leaves the flag and the words that are held. -/
theorem Delivers.quiet (ended : next.ended = s.ended)
    (flag : s.userIrq.eventsIrq = true → next.userIrq.eventsIrq = true)
    (held : ∀ j word, s.phase j = .took word → next.phase j = .took word) : Delivers s action next := by
  refine ⟨?_, fun set => .inl (flag set), fun j word taken _ => .inl (held j word taken)⟩
  intro read added
  rw [ended] at added
  exact absurd added.symm (by simp)

theorem setPhase_holding {j : Nat} {word : BitVec 32} (empty : ∀ taken, s.phase i ≠ .took taken)
    (taken : s.phase j = .took word) : (s.setPhase i phase).phase j = .took word := by
  rw [setPhase_other]
  · exact taken
  · rintro rfl
    exact empty word taken

theorem Delivers.fails {rv : Int} (error : rv ≠ 4) (empty : ∀ taken, s.phase i ≠ .took taken) :
    Delivers s action (s.endRead i rv none) := by
  refine ⟨?_, .inl, fun j word taken _ => .inl (setPhase_holding empty taken)⟩
  intro read added four
  have same : (⟨i, rv, none⟩ : EndedRead) = read := List.singleton_inj.mp (List.append_cancel_left added)
  rw [← same] at four
  exact absurd four error

theorem Delivers.takes (woken : s.phase i = .woken) :
    Delivers s (.take i) { s.setPhase i (.took 1) with userIrq := { s.userIrq with eventsIrq := false } } := by
  refine ⟨?_, fun _ => .inr ⟨i, rfl, setPhase_self⟩, ?_⟩
  · intro read added
    have unchanged : s.ended = s.ended ++ [read] := added
    exact absurd unchanged.symm (by simp)
  · exact fun j word taken _ => .inl (setPhase_holding (by simp [woken]) taken)

theorem Delivers.hands {word : BitVec 32} (taken : s.phase i = .took word) (full : word ≠ 0) :
    Delivers s action (s.endRead i 4 (some word)) := by
  refine ⟨?_, .inl, ?_⟩
  · intro read added _
    have same : (⟨i, 4, some word⟩ : EndedRead) = read := List.singleton_inj.mp (List.append_cancel_left added)
    rw [← same]
    exact ⟨word, rfl, full⟩
  · intro j other held _
    by_cases here : j = i
    · subst here
      rw [taken] at held
      cases held
      exact .inr rfl
    · exact .inl ((setPhase_other here).trans held)

theorem charEventsCheck_error {check rv : Int} {known : Bool} {count : Nat} {pos : BitVec 64}
    (refused : charEventsCheck check known count pos = some rv) : rv < 0 := by
  unfold charEventsCheck at refused
  split_ifs at refused with closed
  · cases refused
    exact closed
  · cases refused
    decide
  · cases refused
    decide
  · cases refused
    decide

theorem conclusive_step (stepped : step s action = some next) (conclusive : Conclusive s action next)
    (holds : s.Holds) : next.Holds ∧ Delivers s action next := by
  cases action with
  | interrupt =>
    cases stepped
    exact ⟨holds, .quiet rfl UserIrq.raise_keeps fun j word taken => taken⟩
  | call i check known count pos =>
    obtain ⟨idle, same⟩ := Option.ite_none_right_eq_some.mp stepped
    have empty : ∀ taken, s.phase i ≠ .took taken := by simp [idle]
    split at same
    · next rv refused =>
      cases same
      have negative := charEventsCheck_error refused
      exact ⟨holds.setPhase (by simp), .fails (by omega) empty⟩
    · cases same
      exact ⟨holds.setPhase (by simp), .quiet rfl id fun j word taken => setPhase_holding empty taken⟩
  | wake i =>
    obtain ⟨⟨waiting, -⟩, same⟩ := Option.ite_none_right_eq_some.mp stepped
    cases same
    exact ⟨holds.setPhase (by simp), .quiet rfl id fun j word taken => setPhase_holding (by simp [waiting]) taken⟩
  | signal i =>
    obtain ⟨⟨waiting, -⟩, same⟩ := Option.ite_none_right_eq_some.mp stepped
    cases same
    exact ⟨holds.setPhase (by simp), .fails (by decide) (by simp [waiting])⟩
  | take i =>
    obtain ⟨woken, same⟩ := Option.ite_none_right_eq_some.mp stepped
    have full : s.userIrq.word = 1 := if_pos conclusive
    rw [full] at same
    cases same
    refine ⟨@Holds.setPhase s i (.took 1) holds ?_, .takes woken⟩
    intro word taken
    cases taken
    decide
  | finish i uncopied =>
    unfold step at stepped
    dsimp only at stepped
    split at stepped
    · next word taken =>
      have copied : uncopied = 0 := conclusive
      rw [if_pos copied] at stepped
      cases stepped
      exact ⟨holds.setPhase (by simp), .hands taken (holds i word taken)⟩
    · cases stepped

/-- Reads pass their wait one at a time: none does while another has yet to take the flag. -/
def OneAtOnce (s : EventsLine) (action : EventAction) (_next : EventsLine) : Prop :=
  match action with
  | .wake _ => ∀ j, s.phase j ≠ .woken
  | .finish _ uncopied => uncopied = 0
  | _ => True

structure WokenOnce (s : EventsLine) : Prop where
  set : ∀ i, s.phase i = .woken → s.userIrq.eventsIrq = true
  once : ∀ i j, s.phase i = .woken → s.phase j = .woken → i = j

theorem WokenOnce.mono (woken : s.WokenOnce) (flag : s.userIrq.eventsIrq = true → next.userIrq.eventsIrq = true)
    (fewer : ∀ j, next.phase j = .woken → s.phase j = .woken) : next.WokenOnce :=
  ⟨fun i past => flag (woken.set i (fewer i past)), fun i j one other => woken.once i j (fewer i one) (fewer j other)⟩

theorem setPhase_woken (asleep : phase ≠ .woken) (j : Nat) (past : (s.setPhase i phase).phase j = .woken) :
    j ≠ i ∧ s.phase j = .woken := by
  have other : j ≠ i := by
    rintro rfl
    rw [setPhase_self] at past
    exact asleep past
  rw [setPhase_other other] at past
  exact ⟨other, past⟩

theorem oneAtOnce_step (stepped : step s action = some next) (alone : OneAtOnce s action next) (woken : s.WokenOnce) :
    next.WokenOnce ∧ Conclusive s action next := by
  cases action with
  | interrupt =>
    cases stepped
    exact ⟨woken.mono UserIrq.raise_keeps fun j past => past, trivial⟩
  | call i check known count pos =>
    obtain ⟨-, same⟩ := Option.ite_none_right_eq_some.mp stepped
    split at same
    · cases same
      exact ⟨woken.mono id fun j past => (@setPhase_woken s i .idle (by decide) j past).2, trivial⟩
    · cases same
      exact ⟨woken.mono id fun j past => (setPhase_woken (by decide) j past).2, trivial⟩
  | wake i =>
    obtain ⟨⟨-, set⟩, same⟩ := Option.ite_none_right_eq_some.mp stepped
    cases same
    have only : ∀ j, (s.setPhase i .woken).phase j = .woken → j = i := by
      intro j past
      by_contra other
      rw [setPhase_other other] at past
      exact alone j past
    exact ⟨⟨fun _ _ => set, fun j k one other => (only j one).trans (only k other).symm⟩, trivial⟩
  | signal i =>
    obtain ⟨-, same⟩ := Option.ite_none_right_eq_some.mp stepped
    cases same
    exact ⟨woken.mono id fun j past => (@setPhase_woken s i .idle (by decide) j past).2, trivial⟩
  | take i =>
    obtain ⟨past, same⟩ := Option.ite_none_right_eq_some.mp stepped
    cases same
    have none : ∀ j, (s.setPhase i (.took s.userIrq.word)).phase j ≠ .woken := by
      intro j still
      obtain ⟨other, before⟩ := setPhase_woken (by simp) j still
      exact other (woken.once j i before past)
    exact ⟨⟨fun j still => absurd still (none j), fun j k still _ => absurd still (none j)⟩, woken.set i past⟩
  | finish i uncopied =>
    unfold step at stepped
    dsimp only at stepped
    split at stepped
    · cases stepped
      exact ⟨woken.mono id fun j past => (@setPhase_woken s i .idle (by decide) j past).2, alone⟩
    · cases stepped

theorem oneAtOnce_conclusive (s : EventsLine) (quiet : ∀ i, s.phase i = .idle) (actions : List EventAction)
    (alone : EachStep step OneAtOnce s actions) : EachStep step Conclusive s actions := by
  apply @eachStep_of_invariant _ _ _ WokenOnce OneAtOnce _ _ _ _ _ alone
  · intro s action next stepped allowed woken
    exact oneAtOnce_step stepped allowed woken
  · exact ⟨fun i past => by simp [quiet i] at past, fun i j past _ => by simp [quiet i] at past⟩

theorem conclusive_deliver (s : EventsLine) (quiet : ∀ i, s.phase i = .idle) (actions : List EventAction)
    (conclusive : EachStep step Conclusive s actions) : EachStep step Delivers s actions := by
  apply @eachStep_of_invariant _ _ _ Holds Conclusive _ _ _ _ _ conclusive
  · intro s action next stepped allowed holds
    exact conclusive_step stepped allowed holds
  · intro i word taken
    rw [quiet i] at taken
    cases taken

end Steps

/-- In every run in which no read passes its wait before the one before it has taken the flag, events are delivered;
    in particular with one reader on the line. -/
theorem reads_deliver (s : EventsLine) (quiet : ∀ i, s.phase i = .idle) (actions : List EventAction)
    (alone : EachStep step OneAtOnce s actions) : EachStep step Delivers s actions :=
  conclusive_deliver s quiet actions (oneAtOnce_conclusive s quiet actions alone)

def quietLine : EventsLine := ⟨⟨false, false⟩, fun _ => .idle, []⟩

def twoReaders : List EventAction := [.call 0 0 true 4 0, .call 1 0 true 4 0]

theorem quietLine_delivers :
    EachStep step Delivers quietLine
      (twoReaders ++ [.interrupt, .wake 0, .take 0, .interrupt, .wake 1, .finish 0 0, .take 1, .finish 1 0]) := by
  apply reads_deliver _ fun _ => rfl
  apply (eachStep_cons _ rfl).mpr ⟨trivial, _⟩
  apply (eachStep_cons _ rfl).mpr ⟨trivial, _⟩
  apply (eachStep_cons _ rfl).mpr ⟨trivial, _⟩
  apply (eachStep_cons _ rfl).mpr ⟨fun j => by simp only [setPhase, quietLine]; split_ifs <;> simp, _⟩
  apply (eachStep_cons _ rfl).mpr ⟨trivial, _⟩
  apply (eachStep_cons _ rfl).mpr ⟨trivial, _⟩
  apply (eachStep_cons _ rfl).mpr ⟨fun j => by simp only [setPhase, quietLine]; split_ifs <;> simp, _⟩
  apply (eachStep_cons _ rfl).mpr ⟨rfl, _⟩
  apply (eachStep_cons _ rfl).mpr ⟨trivial, _⟩
  exact (eachStep_cons _ rfl).mpr ⟨rfl, trivial⟩

/-- One event wakes both threads; the second to take the flag returns 4 with no event. -/
theorem quietLine_race :
    ¬ EachStep step Delivers quietLine
      (twoReaders ++ [.interrupt, .wake 0, .wake 1, .take 0, .take 1, .finish 0 0, .finish 1 0]) := by
  intro delivers
  have first := (eachStep_cons _ rfl).mp delivers
  have second := (eachStep_cons _ rfl).mp first.2
  have raised := (eachStep_cons _ rfl).mp second.2
  have woken := (eachStep_cons _ rfl).mp raised.2
  have both := (eachStep_cons _ rfl).mp woken.2
  have taken := (eachStep_cons _ rfl).mp both.2
  have empty := (eachStep_cons _ rfl).mp taken.2
  have returned := (eachStep_cons _ rfl).mp empty.2
  have last := ((eachStep_cons _ rfl).mp returned.2).1
  obtain ⟨word, given, full⟩ := last.handed ⟨1, 4, some 0⟩ rfl rfl
  cases given
  exact full rfl

end EventsLine

end CigCard.Xdma
