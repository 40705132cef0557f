import Mathlib.Algebra.Order.BigOperators.Group.Finset
import CigCard.Xdma.AsyncIo

namespace CigCard.Xdma.AsyncIo

open Transition

/-- Nothing is queued: the segments so far have all been refused. -/
structure Refusing (s : AsyncIo) : Prop where
  phase : ∀ k, s.phase k = if k < s.next then .notQueued false else .idle
  cancel : s.cancel = false
  lock : s.lock = none
  cmplCnt : s.cmplCnt = 0
  res : s.res = 0
  completed : s.completed = []
  cb : s.cbFrees = []
  caio : s.caioFrees ≤ 1
  fresh : s.ret = none → s.caioFrees = 0
  unused : s.usedAfterFree = false
  ret : ∀ rv, s.ret = some rv → rv ≠ -eiocbqueued

/-- All segments so far have been queued, and the handlers of those in `past` have counted. -/
structure Completing (n : Nat) (past : Finset Nat) (s : AsyncIo) : Prop where
  idle : ∀ k, s.phase k = .idle ↔ s.next ≤ k
  queued : ∀ k part, s.phase k ≠ .notQueued part
  hasLock : ∀ k, s.phase k ≠ .lockFailed
  lock : ∀ k, s.phase k = .locked ↔ s.lock = some k
  bound : s.next ≤ n
  ret : s.ret = none ∨ s.ret = some (-eiocbqueued) ∧ s.next = n
  cancel : s.cancel = false
  unused : s.usedAfterFree = false
  counted : ∀ k, k ∈ past ↔ s.phase k = .releasing ∨ s.phase k = .handled
  cmplCnt : s.cmplCnt = past.card
  res : s.res = ∑ k ∈ past, s.reported k
  early : s.cmplCnt < n → s.completed = [] ∧ s.caioFrees = 0 ∧ s.cbFrees = [] ∧ ∀ k, s.phase k ≠ .releasing
  late : s.cmplCnt = n → (∃ res2, s.completed = [(s.res, res2)]) ∧
    ((s.phase 0 = .releasing ∧ (∀ k, s.phase k = .releasing → k = 0) ∧ s.caioFrees = 0 ∧ s.cbFrees = []) ∨
      ((∀ k, s.phase k ≠ .releasing) ∧ s.caioFrees = 1 ∧ s.cbFrees = [0]))

section Steps

variable {n k : Nat} {past : Finset Nat} {s : AsyncIo}

@[simp]
theorem setPhase_self (s : AsyncIo) (k : Nat) (phase : SegmentPhase) : (s.setPhase k phase).phase k = phase := by
  simp [setPhase]

theorem setPhase_other {j : Nat} (s : AsyncIo) (phase : SegmentPhase) (other : j ≠ k) :
    (s.setPhase k phase).phase j = s.phase j := by
  simp [setPhase, other]

theorem forall_phase {P : Nat → SegmentPhase → Prop} {phase : SegmentPhase} (here : P k phase)
    (others : ∀ j, j ≠ k → P j (s.phase j)) : ∀ j, P j ((s.setPhase k phase).phase j) := by
  intro j
  by_cases same : j = k
  · subst same
    rw [setPhase_self]
    exact here
  · rw [setPhase_other s phase same]
    exact others j same

theorem touch_live (caio : s.caioFrees = 0) (cb : s.cbFrees = []) : s.touch = s := by
  have fine : (s.usedAfterFree || decide (0 < s.caioFrees) || decide (s.cbFrees ≠ [])) = s.usedAfterFree := by
    simp [caio, cb]
  rw [touch, fine]

theorem start_refusing : start.Refusing := by
  constructor <;> simp [start]

theorem Completing.subset (inv : Completing n past s) : past ⊆ Finset.range n := by
  intro k member
  have begun : ¬ s.next ≤ k := by
    intro later
    have idle := (inv.idle k).mpr later
    rcases (inv.counted k).mp member with releasing | handled
    · rw [idle] at releasing
      cases releasing
    · rw [idle] at handled
      cases handled
  have bound := inv.bound
  rw [Finset.mem_range]
  omega

/-- While a segment has not counted, the counter is below the number of segments. -/
theorem Completing.waits (inv : Completing n past s) (inside : k < n) (open_ : k ∉ past) : s.cmplCnt < n := by
  have proper : past ⊂ Finset.range n := by
    refine (Finset.ssubset_iff_of_subset inv.subset).mpr ⟨k, Finset.mem_range.mpr inside, open_⟩
  rw [inv.cmplCnt]
  simpa using Finset.card_lt_card proper

theorem Completing.all (inv : Completing n past s) (count : s.cmplCnt = n) : past = Finset.range n := by
  apply Finset.eq_of_subset_of_card_le inv.subset
  rw [Finset.card_range, ← inv.cmplCnt, count]

theorem Completing.inside (inv : Completing n past s) (called : s.phase k ≠ .idle) : k < n := by
  have bound := inv.bound
  have begun : ¬ s.next ≤ k := fun later => called ((inv.idle k).mpr later)
  omega

theorem Refusing.completing (inv : s.Refusing) (first : s.next = 0) (running : s.ret = none) (some : 0 < n) :
    Completing n ∅ s where
  idle := by
    intro k
    simp [inv.phase k, first]
  queued := by
    intro k part
    simp [inv.phase k, first]
  hasLock := by
    intro k
    simp [inv.phase k, first]
  lock := by
    intro k
    simp [inv.phase k, first, inv.lock]
  bound := by omega
  ret := .inl running
  cancel := inv.cancel
  unused := inv.unused
  counted := by
    intro k
    simp [inv.phase k, first]
  cmplCnt := inv.cmplCnt
  res := inv.res
  early := by
    intro _
    refine ⟨inv.completed, inv.fresh running, inv.cb, ?_⟩
    intro k
    simp [inv.phase k, first]
  late := by
    intro all
    rw [inv.cmplCnt] at all
    omega

theorem Completing.prepare (inv : Completing n past s) (running : s.ret = none) (inside : s.next < n) :
    Completing n past (s.prepare .queued) := by
  have idle : s.phase s.next = .idle := (inv.idle s.next).mpr (le_refl _)
  have fresh : s.next ∉ past := by
    intro member
    rcases (inv.counted s.next).mp member with releasing | handled
    · rw [idle] at releasing
      cases releasing
    · rw [idle] at handled
      cases handled
  have waits := inv.waits inside fresh
  obtain ⟨completed, caio, cb, releasing⟩ := inv.early waits
  rw [AsyncIo.prepare, touch_live caio cb]
  refine ⟨?_, ?_, ?_, ?_, inside, .inl running, inv.cancel, inv.unused, ?_, inv.cmplCnt, inv.res, ?_, ?_⟩
  · apply forall_phase (P := fun j phase => phase = .idle ↔ s.next + 1 ≤ j) (by simp)
    intro j other
    rw [inv.idle j]
    omega
  · exact forall_phase (P := fun _ phase => ∀ part, phase ≠ .notQueued part) (by simp) fun j _ => inv.queued j
  · exact forall_phase (P := fun _ phase => phase ≠ .lockFailed) (by simp) fun j _ => inv.hasLock j
  · refine forall_phase (P := fun j phase => phase = .locked ↔ s.lock = some j) ?_ fun j _ => inv.lock j
    rw [← inv.lock, idle]
    simp
  · refine forall_phase (P := fun j phase => j ∈ past ↔ phase = .releasing ∨ phase = .handled) ?_
      fun j _ => inv.counted j
    simp [fresh]
  · intro _
    exact ⟨completed, caio, cb, forall_phase (P := fun _ phase => phase ≠ .releasing) (by simp) fun j _ => releasing j⟩
  · intro all
    exact absurd all waits.ne

theorem Completing.enter (inv : Completing n past s) (queued : s.phase k = .queued) (free : s.lock = none) :
    Completing n past (s.enter k) := by
  have called : s.phase k ≠ .idle := by simp [queued]
  have fresh : k ∉ past := by simp [inv.counted, queued]
  have waits := inv.waits (inv.inside called) fresh
  obtain ⟨completed, caio, cb, releasing⟩ := inv.early waits
  rw [AsyncIo.enter, touch_live caio cb]
  simp only [free]
  refine ⟨?_, ?_, ?_, ?_, inv.bound, inv.ret, inv.cancel, inv.unused, ?_, inv.cmplCnt, inv.res, ?_, ?_⟩
  · refine forall_phase (P := fun j phase => phase = .idle ↔ s.next ≤ j) ?_ fun j _ => inv.idle j
    rw [← inv.idle k]
    simp [queued]
  · exact forall_phase (P := fun _ phase => ∀ part, phase ≠ .notQueued part) (by simp) fun j _ => inv.queued j
  · exact forall_phase (P := fun _ phase => phase ≠ .lockFailed) (by simp) fun j _ => inv.hasLock j
  · apply forall_phase (P := fun j phase => phase = .locked ↔ some k = some j) (by simp)
    intro j other
    rw [inv.lock j, free]
    simp [other.symm]
  · refine forall_phase (P := fun j phase => j ∈ past ↔ phase = .releasing ∨ phase = .handled) ?_
      fun j _ => inv.counted j
    simp [fresh]
  · intro _
    exact ⟨completed, caio, cb, forall_phase (P := fun _ phase => phase ≠ .releasing) (by simp) fun j _ => releasing j⟩
  · intro all
    exact absurd all waits.ne

theorem handle_live {err : Int} {bytes : Nat} (caio : s.caioFrees = 0) (cb : s.cbFrees = []) (cancel : s.cancel = false) :
    s.handle n k err bytes =
      if s.cmplCnt + 1 = n then
        { (s.count k err (if err = 0 then bytes else 0)).setPhase k .releasing with
          completed := s.completed ++ [(s.res + (if err = 0 then bytes else 0),
            (s.count k err (if err = 0 then bytes else 0)).res2)] }
      else (s.count k err (if err = 0 then bytes else 0)).setPhase k .handled := by
  rw [AsyncIo.handle, touch_live caio cb]
  exact if_neg (by simp [cancel])

/-- A handler counts, and the last one completes the request. -/
theorem Completing.handle {err : Int} {bytes : Nat} (inv : Completing n past s) (locked : s.phase k = .locked)
    (last : s.cmplCnt + 1 = n → k = 0) : Completing n (insert k past) (s.handle n k err bytes) := by
  have called : s.phase k ≠ .idle := by simp [locked]
  have fresh : k ∉ past := by simp [inv.counted, locked]
  have waits := inv.waits (inv.inside called) fresh
  obtain ⟨completed, caio, cb, releasing⟩ := inv.early waits
  have lock := (inv.lock k).mp locked
  have notLocked : ∀ j, j ≠ k → s.phase j ≠ .locked := by
    intro j other here
    have both := lock.symm.trans ((inv.lock j).mp here)
    exact other (Option.some.inj both).symm
  have card : s.cmplCnt + 1 = (insert k past).card := by rw [Finset.card_insert_of_notMem fresh, inv.cmplCnt]
  let numbytes := if err = 0 then bytes else 0
  have sum : s.res + numbytes =
      ∑ j ∈ insert k past, if j = k then numbytes else s.reported j := by
    have others : ∀ j ∈ past, (if j = k then numbytes else s.reported j) = s.reported j := by
      intro j member
      have other : j ≠ k := fun same => fresh (same ▸ member)
      exact if_neg other
    rw [Finset.sum_insert fresh, if_pos rfl, Finset.sum_congr rfl others, inv.res, Nat.add_comm]
  have counted : ∀ phase, phase = SegmentPhase.releasing ∨ phase = SegmentPhase.handled → ∀ j,
      j ∈ insert k past ↔ (s.setPhase k phase).phase j = .releasing ∨ (s.setPhase k phase).phase j = .handled := by
    intro phase either
    apply forall_phase (P := fun j phase => j ∈ insert k past ↔ phase = .releasing ∨ phase = .handled)
    · simp [either]
    · intro j other
      rw [← inv.counted j]
      simp [other]
  have idle : ∀ phase, phase ≠ SegmentPhase.idle → ∀ j, (s.setPhase k phase).phase j = .idle ↔ s.next ≤ j := by
    intro phase some
    refine forall_phase (P := fun j phase => phase = .idle ↔ s.next ≤ j) ?_ fun j _ => inv.idle j
    rw [← inv.idle k]
    simp [locked, some]
  have unlocked : ∀ phase, phase ≠ SegmentPhase.locked → ∀ j,
      (s.setPhase k phase).phase j = .locked ↔ none = some j := by
    intro phase gone
    apply forall_phase (P := fun j phase => phase = .locked ↔ none = some j) (by simp [gone])
    intro j other
    simp [notLocked j other]
  rw [handle_live caio cb inv.cancel]
  by_cases all : s.cmplCnt + 1 = n
  · rw [if_pos all]
    refine ⟨idle .releasing (by simp), ?_, ?_, unlocked .releasing (by simp), inv.bound, inv.ret, inv.cancel, inv.unused,
      counted .releasing (.inl rfl), card, sum, ?_, ?_⟩
    · exact forall_phase (P := fun _ phase => ∀ part, phase ≠ .notQueued part) (by simp) fun j _ => inv.queued j
    · exact forall_phase (P := fun _ phase => phase ≠ .lockFailed) (by simp) fun j _ => inv.hasLock j
    · intro below
      exact absurd all below.ne
    · intro _
      have first := last all
      refine ⟨⟨_, by rw [completed]; rfl⟩, .inl ⟨?_, ?_, caio, cb⟩⟩
      · show (s.setPhase k .releasing).phase 0 = .releasing
        rw [← first, setPhase_self]
      · apply forall_phase (P := fun j phase => phase = .releasing → j = 0) (fun _ => first)
        intro j _ here
        exact absurd here (releasing j)
  · rw [if_neg all]
    refine ⟨idle .handled (by simp), ?_, ?_, unlocked .handled (by simp), inv.bound, inv.ret, inv.cancel, inv.unused,
      counted .handled (.inr rfl), card, sum, ?_, ?_⟩
    · exact forall_phase (P := fun _ phase => ∀ part, phase ≠ .notQueued part) (by simp) fun j _ => inv.queued j
    · exact forall_phase (P := fun _ phase => phase ≠ .lockFailed) (by simp) fun j _ => inv.hasLock j
    · intro _
      exact ⟨completed, caio, cb,
        forall_phase (P := fun _ phase => phase ≠ .releasing) (by simp) fun j _ => releasing j⟩
    · intro whole
      exact absurd whole all

theorem Completing.release (inv : Completing n past s) (releasing : s.phase k = .releasing) :
    Completing n past (s.release k) := by
  have all : s.cmplCnt = n := by
    by_contra other
    have le : s.cmplCnt ≤ n := by
      rw [inv.cmplCnt]
      simpa using Finset.card_le_card inv.subset
    exact (inv.early (by omega)).2.2.2 k releasing
  obtain ⟨completed, frees⟩ := inv.late all
  rcases frees with ⟨-, only, caio, cb⟩ | ⟨none, -⟩
  · have first := only k releasing
    rw [AsyncIo.release]
    refine ⟨?_, ?_, ?_, ?_, inv.bound, inv.ret, inv.cancel, inv.unused, ?_, inv.cmplCnt, inv.res, ?_, ?_⟩
    · refine forall_phase (P := fun j phase => phase = .idle ↔ s.next ≤ j) ?_ fun j _ => inv.idle j
      rw [← inv.idle k]
      simp [releasing]
    · exact forall_phase (P := fun _ phase => ∀ part, phase ≠ .notQueued part) (by simp) fun j _ => inv.queued j
    · exact forall_phase (P := fun _ phase => phase ≠ .lockFailed) (by simp) fun j _ => inv.hasLock j
    · refine forall_phase (P := fun j phase => phase = .locked ↔ s.lock = some j) ?_ fun j _ => inv.lock j
      rw [← inv.lock k]
      simp [releasing]
    · refine forall_phase (P := fun j phase => j ∈ past ↔ phase = .releasing ∨ phase = .handled) ?_
        fun j _ => inv.counted j
      simp [inv.counted, releasing]
    · intro below
      exact absurd all below.ne
    · intro _
      refine ⟨completed, .inr ⟨?_, ?_, ?_⟩⟩
      · apply forall_phase (P := fun _ phase => phase ≠ .releasing) (by simp)
        intro j other here
        exact other ((only j here).trans first.symm)
      · simp [caio]
      · simp [cb, first]
  · exact absurd releasing (none k)

def Orderly (n : Nat) (s : AsyncIo) : Prop := s.Refusing ∨ ∃ past, Completing n past s ∧ 0 < s.next

theorem Refusing.orderly_prepare {outcome : SegmentOutcome} (inv : s.Refusing) (running : s.ret = none)
    (inside : s.next < n) (permitted : OneAtATime n s (.prepare outcome) (s.prepare outcome)) :
    Orderly n (s.prepare outcome) := by
  have fresh := inv.fresh running
  cases outcome with
  | misaligned =>
    left
    rw [AsyncIo.prepare, touch_live fresh inv.cb]
    refine { inv with caio := ?_, fresh := ?_, ret := ?_ }
    · simp [fresh]
    · intro none
      cases none
    · intro rv same
      cases same
      decide
  | unmapped rv =>
    left
    rw [AsyncIo.prepare, touch_live fresh inv.cb]
    refine { inv with fresh := ?_, ret := ?_ }
    · intro none
      cases none
    · intro other same
      cases same
      exact rv.2.2
  | notQueued part =>
    left
    obtain ⟨-, rfl⟩ := permitted
    rw [AsyncIo.prepare, touch_live fresh inv.cb]
    refine { inv with phase := ?_ }
    apply forall_phase (P := fun j phase => phase = if j < s.next + 1 then .notQueued false else .idle) (by simp)
    intro j other
    rw [inv.phase j]
    by_cases before : j < s.next
    · rw [if_pos before, if_pos (by omega)]
    · rw [if_neg before, if_neg (by omega)]
  | queued =>
    right
    -- A segment that was refused before this one is not permitted.
    have first : s.next = 0 := by
      by_contra later
      exact permitted 0 false ((inv.phase 0).trans (if_pos (Nat.pos_of_ne_zero later)))
    exact ⟨∅, (inv.completing first running (by omega)).prepare running inside, Nat.succ_pos _⟩

theorem Completing.orderly_prepare {outcome : SegmentOutcome} (inv : Completing n past s) (running : s.ret = none)
    (inside : s.next < n) (permitted : OneAtATime n s (.prepare outcome) (s.prepare outcome)) (begun : 0 < s.next) :
    Orderly n (s.prepare outcome) := by
  have first : ¬ s.NoneQueued := by
    intro none
    rcases none 0 with idle | refused
    · have next := (inv.idle 0).mp idle
      omega
    · exact inv.queued 0 false refused
  cases outcome with
  | misaligned => exact absurd permitted first
  | unmapped rv => exact absurd permitted first
  | notQueued part => exact absurd permitted.1 first
  | queued => exact .inr ⟨past, inv.prepare running inside, Nat.succ_pos _⟩

theorem enter_next (s : AsyncIo) (k : Nat) : (s.enter k).next = s.next := by
  unfold AsyncIo.enter
  cases lock : s.touch.lock <;> simp only [lock] <;> rfl

theorem handle_next (s : AsyncIo) (k : Nat) (err : Int) (bytes : Nat) : (s.handle n k err bytes).next = s.next := by
  simp [AsyncIo.handle, apply_ite AsyncIo.next, setPhase, count, touch]

theorem orderly_step {action : AioAction} {next : AsyncIo} (stepped : s.step n action = some next)
    (permitted : OneAtATime n s action next) (inv : Orderly n s) : Orderly n next := by
  cases action with
  | prepare outcome =>
    simp only [step, Option.ite_none_right_eq_some, Option.some.injEq] at stepped
    obtain ⟨⟨running, inside⟩, rfl⟩ := stepped
    rcases inv with refusing | ⟨past, completing, begun⟩
    · exact refusing.orderly_prepare running inside permitted
    · exact completing.orderly_prepare running inside permitted begun
  | finish =>
    simp only [step, Option.ite_none_right_eq_some, Option.some.injEq] at stepped
    obtain ⟨⟨running, whole⟩, rfl⟩ := stepped
    rcases inv with refusing | ⟨past, completing, begun⟩
    · obtain ⟨some, accepted⟩ := permitted
      exact absurd ((refusing.phase 0).trans (if_pos (by omega))) (accepted 0 false)
    · exact .inr ⟨past, { completing with ret := .inr ⟨rfl, whole⟩ }, begun⟩
  | enter k =>
    simp only [step, Option.ite_none_right_eq_some, Option.some.injEq] at stepped
    obtain ⟨queued, rfl⟩ := stepped
    rcases inv with refusing | ⟨past, completing, begun⟩
    · rw [refusing.phase k] at queued
      split at queued <;> cases queued
    · exact .inr ⟨past, completing.enter queued permitted, by rwa [enter_next]⟩
  | handle k err bytes =>
    simp only [step, Option.ite_none_right_eq_some, Option.some.injEq] at stepped
    obtain ⟨locked, rfl⟩ := stepped
    rcases inv with refusing | ⟨past, completing, begun⟩
    · rw [refusing.phase k] at locked
      split at locked <;> cases locked
    · exact .inr ⟨_, completing.handle locked permitted, by rwa [handle_next]⟩
  | release k =>
    simp only [step, Option.ite_none_right_eq_some, Option.some.injEq] at stepped
    obtain ⟨releasing, rfl⟩ := stepped
    rcases inv with refusing | ⟨past, completing, begun⟩
    · rw [refusing.phase k] at releasing
      split at releasing <;> cases releasing
    · exact .inr ⟨past, completing.release releasing, begun⟩
  | skip k =>
    simp only [step, Option.ite_none_right_eq_some, Option.some.injEq] at stepped
    obtain ⟨failed, -⟩ := stepped
    rcases inv with refusing | ⟨past, completing, begun⟩
    · rw [refusing.phase k] at failed
      split at failed <;> cases failed
    · exact absurd failed (completing.hasLock k)

theorem Refusing.completesOnce (inv : s.Refusing) : CompletesOnce n s where
  unused := inv.unused
  caio := inv.caio
  cb := .inl inv.cb
  once := by simp [inv.completed]
  last := by simp [inv.completed]
  refused := by
    intro _ _ _ k
    rw [inv.phase k]
    split
    · exact .inr rfl
    · exact .inl rfl
  whole := by
    intro _ queued
    exact absurd rfl (inv.ret _ queued)

theorem Completing.completesOnce (inv : Completing n past s) : CompletesOnce n s := by
  have le : s.cmplCnt ≤ n := by
    rw [inv.cmplCnt]
    simpa using Finset.card_le_card inv.subset
  have refused : ∀ rv, s.ret = some rv → rv ≠ -eiocbqueued → s.NoneQueued := by
    intro rv returned other
    rcases inv.ret with running | ⟨queued, -⟩
    · rw [running] at returned
      cases returned
    · rw [queued] at returned
      cases returned
      exact absurd rfl other
  by_cases all : s.cmplCnt = n
  · obtain ⟨⟨res2, completed⟩, frees⟩ := inv.late all
    have everyone := inv.all all
    refine ⟨inv.unused, ?_, ?_, by simp [completed], ?_, refused, ?_⟩
    · rcases frees with ⟨-, -, caio, -⟩ | ⟨-, caio, -⟩ <;> omega
    · rcases frees with ⟨-, -, -, cb⟩ | ⟨-, -, cb⟩
      · exact .inl cb
      · exact .inr cb
    · intro result member
      rw [completed, List.mem_singleton] at member
      rw [member, ← everyone]
      refine ⟨?_, inv.res⟩
      intro k inside
      exact (inv.counted k).mp (everyone ▸ Finset.mem_range.mpr inside)
    · intro quiet _
      rcases frees with ⟨releasing, -⟩ | ⟨-, caio, cb⟩
      · rcases quiet.2 0 with idle | ⟨part, refused⟩ | handled
        · rw [releasing] at idle
          cases idle
        · rw [releasing] at refused
          cases refused
        · rw [releasing] at handled
          cases handled
      · exact ⟨by simp [completed], caio, cb⟩
  · obtain ⟨completed, caio, cb, -⟩ := inv.early (by omega)
    refine ⟨inv.unused, by omega, .inl cb, by simp [completed], by simp [completed], refused, ?_⟩
    -- Some segment has not counted, so its handler is still to come or under way.
    intro quiet returned
    have whole : s.next = n := by
      rcases inv.ret with running | ⟨-, whole⟩
      · exact absurd running quiet.1
      · exact whole
    refine absurd ?_ all
    have everyone : past = Finset.range n := by
      apply Finset.Subset.antisymm inv.subset
      intro k member
      have inside := Finset.mem_range.mp member
      rcases quiet.2 k with idle | ⟨part, refused⟩ | handled
      · have later := (inv.idle k).mp idle
        omega
      · exact absurd refused (inv.queued k part)
      · exact (inv.counted k).mpr (.inr handled)
    rw [inv.cmplCnt, everyone, Finset.card_range]

end Steps

/-- In every run whose steps are permitted, of a call with any number of segments, the request is completed once. -/
theorem completes_once_of_oneAtATime (n : Nat) (actions : List AioAction)
    (permitted : EachStep (step n) (OneAtATime n) start actions) :
    EachStep (step n) (fun _ _ next => CompletesOnce n next) start actions := by
  apply eachStep_of_invariant (I := Orderly n) _ (.inl start_refusing) permitted
  intro s action next stepped allowed inv
  have kept := orderly_step stepped allowed inv
  refine ⟨kept, ?_⟩
  rcases kept with refusing | ⟨past, completing, -⟩
  · exact refusing.completesOnce
  · exact completing.completesOnce

def twoSegments (first last : Nat) : List AioAction :=
  [.prepare .queued, .prepare .queued, .finish, .enter first, .handle first 0 64, .enter last, .handle last 0 64,
    .release last]

theorem twoSegments_backwards :
    EachStep (step 2) (fun _ _ next => CompletesOnce 2 next) start (twoSegments 1 0) := by
  apply completes_once_of_oneAtATime
  have first : ∀ k part, (start.prepare .queued).phase k ≠ .notQueued part :=
    forall_phase (P := fun _ phase => ∀ part, phase ≠ .notQueued part) (by simp) fun _ _ => by simp [touch, start]
  have second : ∀ k part, ((start.prepare .queued).prepare .queued).phase k ≠ .notQueued part :=
    forall_phase (P := fun _ phase => ∀ part, phase ≠ .notQueued part) (by simp) fun k _ => first k
  apply (eachStep_cons _ rfl).mpr ⟨fun k part => by simp [start], _⟩
  apply (eachStep_cons _ rfl).mpr ⟨first, _⟩
  apply (eachStep_cons _ rfl).mpr ⟨⟨by decide, second⟩, _⟩
  apply (eachStep_cons _ rfl).mpr ⟨rfl, _⟩
  apply (eachStep_cons _ rfl).mpr ⟨fun (early : 0 + 1 = 2) => absurd early (by decide), _⟩
  apply (eachStep_cons _ rfl).mpr ⟨rfl, _⟩
  apply (eachStep_cons _ rfl).mpr ⟨fun _ => rfl, _⟩
  exact (eachStep_cons _ rfl).mpr ⟨trivial, trivial⟩

/-- The handlers come in the order of the segments, and the last one frees the second element of the array. -/
theorem twoSegments_in_order :
    ¬ EachStep (step 2) (fun _ _ next => CompletesOnce 2 next) start (twoSegments 0 1) := by
  intro fine
  have queued := (eachStep_cons _ rfl).mp fine
  have both := (eachStep_cons _ rfl).mp queued.2
  have returned := (eachStep_cons _ rfl).mp both.2
  have entered := (eachStep_cons _ rfl).mp returned.2
  have counted := (eachStep_cons _ rfl).mp entered.2
  have again := (eachStep_cons _ rfl).mp counted.2
  have completed := (eachStep_cons _ rfl).mp again.2
  have freed : CompletesOnce 2 _ := ((eachStep_cons _ rfl).mp completed.2).1
  rcases freed.cb with none | first
  · cases none
  · cases first

end CigCard.Xdma.AsyncIo
