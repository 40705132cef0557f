import CigCard.Ledger.Heap
import CigCard.Transition.Run

namespace CigCard.Xdma

open Ledger Transition

structure ListedDevice where
  hndl : Nat
  pdev : Nat
  idx : Nat
deriving DecidableEq

/-- The list of the devices, and the completion threads with the tasks in their slots. `orphaned` is history: the tasks
    that were in the slots when a start failed. -/
structure DriverLists where
  xdevList : List ListedDevice
  csThreads : Option Nat
  threadCnt : Nat
  slots : List Nat
  memory : Heap
  tasks : Heap
  orphaned : List Nat

/-- For a start of the completion threads: whether there is memory, how many CPUs are online, and which of the threads
    can be created. -/
structure ThreadAnswers where
  granted : Bool
  cpus : Nat
  creates : Nat → Bool

namespace DriverLists

def cleanupThreads (s : DriverLists) : DriverLists :=
  { s with memory := s.memory.free s.csThreads, csThreads := none, threadCnt := 0, slots := [] }

def startThreads (creates : Nat → Bool) (numThreads : Nat) : Nat → DriverLists → Int × DriverLists
  | 0, s => (0, s)
  | cpus + 1, s =>
    match s.tasks.alloc (creates s.threadCnt) with
    -- the threads that run already are not stopped
    | (none, tasks) => (-14, { s with tasks, orphaned := s.slots ++ s.orphaned }.cleanupThreads)
    | (some task, tasks) =>
      let s := { s with tasks, threadCnt := s.threadCnt + 1, slots := s.slots ++ [task] }
      if s.threadCnt = numThreads then (0, s) else startThreads creates numThreads cpus s

def xdmaThreadsCreate (numThreads : Nat) (answers : ThreadAnswers) (s : DriverLists) : Int × DriverLists :=
  if s.threadCnt ≠ 0 then (0, s)
  else
    match s.memory.alloc answers.granted with
    | (none, memory) => (-12, { s with memory })
    | (some block, memory) =>
      startThreads answers.creates numThreads answers.cpus { s with memory, csThreads := some block }

def xdmaThreadsDestroy (s : DriverLists) : DriverLists :=
  if s.threadCnt = 0 then s
  else { s with tasks := s.slots.foldl (fun tasks task => tasks.free (some task)) s.tasks }.cleanupThreads

def xdevListAdd (pollMode : Bool) (hndl pdev numThreads : Nat) (answers : ThreadAnswers) (s : DriverLists) :
    Int × DriverLists :=
  match s.xdevList.getLast? with
  | none =>
    if pollMode then
      match s.xdmaThreadsCreate numThreads answers with
      | (rv, s) => if rv < 0 then (rv, s) else (0, { s with xdevList := [⟨hndl, pdev, 0⟩] })
    else (0, { s with xdevList := [⟨hndl, pdev, 0⟩] })
  | some last => (0, { s with xdevList := s.xdevList ++ [⟨hndl, pdev, last.idx + 1⟩] })

def xdevListRemove (pollMode : Bool) (hndl : Nat) (s : DriverLists) : DriverLists :=
  let s := { s with xdevList := s.xdevList.filter fun device => device.hndl ≠ hndl }
  if pollMode && s.xdevList.isEmpty then s.xdmaThreadsDestroy else s

def xdevFindByPdev (pdev : Nat) (s : DriverLists) : Option Nat :=
  (s.xdevList.find? fun device => device.pdev = pdev).map fun device => device.hndl

def debugCheckDevHndl (pdev hndl : Nat) (s : DriverLists) : Int :=
  match s.xdevFindByPdev pdev with
  | none => -22
  | some found => if found = hndl then 0 else -22

end DriverLists

inductive ListAction where
  | add (hndl pdev numThreads : Nat) (answers : ThreadAnswers)
  | remove (hndl : Nat)

namespace DriverLists

def step (pollMode : Bool) (s : DriverLists) : ListAction → Option DriverLists
  | .add hndl pdev numThreads answers =>
    if (∀ device ∈ s.xdevList, device.hndl ≠ hndl ∧ device.pdev ≠ pdev) ∧ 0 < numThreads ∧ 0 < answers.cpus then
      some (s.xdevListAdd pollMode hndl pdev numThreads answers).2
    else none
  | .remove hndl =>
    if ∃ device ∈ s.xdevList, device.hndl = hndl then some (s.xdevListRemove pollMode hndl) else none

def loaded : DriverLists := ⟨[], none, 0, [], .empty, .empty, []⟩

def CreatesAll : ListAction → Prop
  | .add _ _ _ answers => ∀ i, answers.creates i = true
  | .remove _ => True

inductive Threaded (s : DriverLists) : Prop where
  | up (block : Nat) : s.csThreads = some block → s.threadCnt = s.slots.length → s.slots ≠ [] → Threaded s
  | down : s.csThreads = none → s.threadCnt = 0 → s.slots = [] → Threaded s

structure Ordered (xdevList : List ListedDevice) : Prop where
  indices : (xdevList.map ListedDevice.idx).Pairwise (· < ·)
  handles : (xdevList.map ListedDevice.hndl).Nodup
  functions : (xdevList.map ListedDevice.pdev).Nodup

structure Kept (pollMode : Bool) (s : DriverLists) : Prop where
  ordered : Ordered s.xdevList
  threaded : s.Threaded
  polled : s.threadCnt ≠ 0 ↔ pollMode = true ∧ s.xdevList ≠ []
  block : s.memory.Owns s.csThreads.toList
  tasks : s.tasks.Owns (s.slots ++ s.orphaned)

section Threads

variable {s : DriverLists}

theorem freeAll_owns {slots orphans : List Nat} {tasks : Heap} (owns : tasks.Owns (slots ++ orphans)) :
    (slots.foldl (fun tasks task => tasks.free (some task)) tasks).Owns orphans := by
  induction slots generalizing tasks with
  | nil => exact owns
  | cons task slots ih => exact ih (@Heap.Owns.free _ (some task) _ owns)

theorem cleanupThreads_down (s : DriverLists) : s.cleanupThreads.Threaded := .down rfl rfl rfl

structure Begun (creates : Nat → Bool) (s : DriverLists) (ended : Int × DriverLists) : Prop where
  xdevList : ended.2.xdevList = s.xdevList
  threaded : ended.2.Threaded
  block : ended.2.memory.Owns ended.2.csThreads.toList
  failed : ended.1 < 0 ↔ ended.2.threadCnt = 0
  tasks : ended.2.tasks.Owns (ended.2.slots ++ ended.2.orphaned)
  clean : (∀ i, creates i = true) → ended.2.orphaned = s.orphaned

theorem Begun.done {creates : Nat → Bool} {block : Nat} {next : DriverLists}
    (list : next.xdevList = s.xdevList) (counted : next.threadCnt = next.slots.length)
    (memory : next.csThreads = some block) (owned : next.memory.Owns [block]) (filled : next.slots ≠ [])
    (owns : next.tasks.Owns (next.slots ++ next.orphaned)) (same : next.orphaned = s.orphaned) :
    Begun creates s (0, next) := by
  have many : next.threadCnt ≠ 0 := by
    rw [counted]
    exact fun none => filled (List.length_eq_zero_iff.mp none)
  have block : next.memory.Owns next.csThreads.toList := by rwa [memory]
  exact ⟨list, .up _ memory counted filled, block, iff_of_false (Int.lt_irrefl 0) many, owns, fun _ => same⟩

theorem Threaded.relist (threaded : s.Threaded) (xdevList : List ListedDevice) : Threaded { s with xdevList } := by
  cases threaded with
  | up block memory counted filled => exact .up block memory counted filled
  | down memory none empty => exact .down memory none empty

theorem startThreads_begun {creates : Nat → Bool} {numThreads cpus : Nat} {block : Nat}
    (positive : 0 < cpus ∨ s.slots ≠ []) (counted : s.threadCnt = s.slots.length) (memory : s.csThreads = some block)
    (owned : s.memory.Owns [block]) (owns : s.tasks.Owns (s.slots ++ s.orphaned)) :
    Begun creates s (startThreads creates numThreads cpus s) := by
  induction cpus generalizing s with
  | zero => exact .done rfl counted memory owned (positive.resolve_left (Nat.lt_irrefl 0)) owns rfl
  | succ cpus ih =>
    let next : DriverLists :=
      { s with
        tasks := (s.tasks.alloc true).2
        threadCnt := s.threadCnt + 1
        slots := s.slots ++ [s.tasks.next] }
    cases creates_ : creates s.threadCnt with
    | false =>
      have ended : startThreads creates numThreads (cpus + 1) s =
          (-14, { s with orphaned := s.slots ++ s.orphaned }.cleanupThreads) := by
        unfold startThreads
        rw [creates_]
        rfl
      have freed : (s.memory.free s.csThreads).Owns [] := by
        rw [memory]
        exact @Heap.Owns.free _ (some block) _ owned
      rw [ended]
      refine ⟨rfl, cleanupThreads_down _, freed, iff_of_true (Int.negSucc_lt_zero 13) rfl, owns, ?_⟩
      intro all
      exact absurd ((all _).symm.trans creates_) (by decide)
    | true =>
      have ended : startThreads creates numThreads (cpus + 1) s =
          if next.threadCnt = numThreads then (0, next) else startThreads creates numThreads cpus next := by
        conv_lhs => unfold startThreads
        rw [creates_]
        rfl
      have started : next.tasks.Owns (next.slots ++ next.orphaned) := by
        show (s.tasks.alloc true).2.Owns (s.slots ++ [s.tasks.next] ++ s.orphaned)
        rw [List.append_assoc, List.singleton_append]
        exact owns.alloc_granted.perm List.perm_middle.symm
      have counts : next.threadCnt = next.slots.length := by
        show s.threadCnt + 1 = (s.slots ++ [s.tasks.next]).length
        rw [List.length_append, List.length_singleton, counted]
      have filled : next.slots ≠ [] := List.append_ne_nil_of_right_ne_nil _ (List.cons_ne_nil _ _)
      rw [ended]
      split
      · exact .done rfl counts memory owned filled started rfl
      · have later := @ih next (.inr filled) counts memory owned started
        exact ⟨later.xdevList, later.threaded, later.block, later.failed, later.tasks, later.clean⟩

theorem Threaded.none_up (threaded : s.Threaded) (none : s.threadCnt = 0) : s.csThreads = .none ∧ s.slots = [] := by
  cases threaded with
  | up block memory counted filled =>
    rw [none] at counted
    exact absurd (List.length_eq_zero_iff.mp counted.symm) filled
  | down memory _ empty => exact ⟨memory, empty⟩

theorem threadsCreate_begun {numThreads : Nat} {answers : ThreadAnswers}
    (threaded : s.Threaded) (none : s.threadCnt = 0) (online : 0 < answers.cpus)
    (owned : s.memory.Owns s.csThreads.toList) (owns : s.tasks.Owns (s.slots ++ s.orphaned)) :
    Begun answers.creates s (s.xdmaThreadsCreate numThreads answers) := by
  obtain ⟨memory, empty⟩ := threaded.none_up none
  unfold xdmaThreadsCreate
  rw [if_neg (not_not.mpr none)]
  cases answers.granted with
  | false =>
    exact ⟨rfl, .down memory none empty, owned, iff_of_true (Int.negSucc_lt_zero 11) none, owns, fun _ => rfl⟩
  | true =>
    let next : DriverLists := { s with memory := (s.memory.alloc true).2, csThreads := some s.memory.next }
    have counted : next.threadCnt = next.slots.length := by
      show s.threadCnt = s.slots.length
      rw [none, empty]
      rfl
    have block : next.memory.Owns [s.memory.next] := by
      rw [memory] at owned
      exact owned.alloc_granted
    have begun := @startThreads_begun next answers.creates numThreads answers.cpus s.memory.next (.inl online)
      counted rfl block owns
    exact ⟨begun.xdevList, begun.threaded, begun.block, begun.failed, begun.tasks, begun.clean⟩

/-- After the threads were destroyed there are none, and all that were in the slots have been stopped. -/
theorem threadsDestroy_down (threaded : s.Threaded) (owned : s.memory.Owns s.csThreads.toList)
    (owns : s.tasks.Owns (s.slots ++ s.orphaned)) :
    ∃ after, s.xdmaThreadsDestroy = after ∧ after.xdevList = s.xdevList ∧ after.Threaded ∧ after.threadCnt = 0 ∧
      after.memory.Owns after.csThreads.toList ∧ after.tasks.Owns (after.slots ++ after.orphaned) ∧
      after.orphaned = s.orphaned := by
  cases threaded with
  | up block memory counted filled =>
    have many : s.threadCnt ≠ 0 := by
      rw [counted]
      exact fun none => filled (List.length_eq_zero_iff.mp none)
    have freed : (s.memory.free s.csThreads).Owns [] := by
      rw [memory] at owned ⊢
      exact @Heap.Owns.free _ (some block) _ owned
    exact ⟨_, if_neg many, rfl, cleanupThreads_down _, rfl, freed, freeAll_owns owns, rfl⟩
  | down memory none empty => exact ⟨s, if_pos none, rfl, .down memory none empty, none, owned, owns, rfl⟩

end Threads

section Devices

variable {xdevList : List ListedDevice} {device : ListedDevice}

theorem Ordered.single (device : ListedDevice) : Ordered [device] :=
  ⟨List.pairwise_singleton _ _, List.nodup_singleton _, List.nodup_singleton _⟩

theorem Ordered.filter (ordered : Ordered xdevList) (keeps : ListedDevice → Bool) : Ordered (xdevList.filter keeps) := by
  have sublist := List.filter_sublist (p := keeps) (l := xdevList)
  exact ⟨ordered.indices.sublist (sublist.map _), ordered.handles.sublist (sublist.map _),
    ordered.functions.sublist (sublist.map _)⟩

theorem Ordered.idx_le_last (ordered : Ordered xdevList) {last : ListedDevice} (ends : xdevList.getLast? = some last)
    (listed : device ∈ xdevList) : device.idx ≤ last.idx := by
  obtain ⟨front, rfl⟩ := List.getLast?_eq_some_iff.mp ends
  have indices := ordered.indices
  rw [List.map_append, List.pairwise_append] at indices
  rcases List.mem_append.mp listed with before | same
  · exact Nat.le_of_lt (indices.2.2 _ (List.mem_map_of_mem before) _ (List.mem_singleton_self _))
  · exact Nat.le_of_eq (congrArg ListedDevice.idx (List.mem_singleton.mp same))

theorem Ordered.add (ordered : Ordered xdevList) (above : ∀ other ∈ xdevList, other.idx < device.idx)
    (fresh : ∀ other ∈ xdevList, other.hndl ≠ device.hndl ∧ other.pdev ≠ device.pdev) :
    Ordered (xdevList ++ [device]) := by
  refine ⟨?_, ?_, ?_⟩
  · rw [List.map_append, List.pairwise_append]
    refine ⟨ordered.indices, List.pairwise_singleton _ _, ?_⟩
    intro idx listed last same
    obtain ⟨other, member, rfl⟩ := List.mem_map.mp listed
    rw [List.mem_singleton.mp same]
    exact above other member
  · rw [List.map_append, List.nodup_append]
    refine ⟨ordered.handles, List.nodup_singleton _, ?_⟩
    intro hndl listed last same
    obtain ⟨other, member, rfl⟩ := List.mem_map.mp listed
    rw [List.mem_singleton.mp same]
    exact (fresh other member).1
  · rw [List.map_append, List.nodup_append]
    refine ⟨ordered.functions, List.nodup_singleton _, ?_⟩
    intro pdev listed last same
    obtain ⟨other, member, rfl⟩ := List.mem_map.mp listed
    rw [List.mem_singleton.mp same]
    exact (fresh other member).2

/-- The lookup of the handle checks finds a device by its function, and only that device. -/
theorem Ordered.find (functions : (xdevList.map ListedDevice.pdev).Nodup) (listed : device ∈ xdevList) :
    xdevList.find? (fun other => other.pdev = device.pdev) = some device := by
  induction xdevList with
  | nil => cases listed
  | cons first rest ih =>
    rw [List.map_cons, List.nodup_cons] at functions
    rcases List.mem_cons.mp listed with rfl | later
    · exact List.find?_cons_of_pos (decide_eq_true rfl)
    · have other : first.pdev ≠ device.pdev := by
        intro same
        exact functions.1 (same ▸ List.mem_map_of_mem later)
      rw [List.find?_cons_of_neg (by simpa using other)]
      exact ih functions.2 later

theorem debugCheckDevHndl_iff {s : DriverLists} (ordered : Ordered s.xdevList) (pdev hndl : Nat) :
    s.debugCheckDevHndl pdev hndl = 0 ↔ ∃ device ∈ s.xdevList, device.pdev = pdev ∧ device.hndl = hndl := by
  unfold debugCheckDevHndl xdevFindByPdev
  constructor
  · intro passes
    cases found : s.xdevList.find? fun device => device.pdev = pdev with
    | none =>
      rw [found] at passes
      cases passes
    | some device =>
      rw [found] at passes
      dsimp only [Option.map_some] at passes
      split at passes
      · next same => exact ⟨device, List.mem_of_find?_eq_some found, by simpa using List.find?_some found, same⟩
      · cases passes
  · rintro ⟨device, listed, rfl, rfl⟩
    rw [Ordered.find ordered.functions listed]
    simp

end Devices

section Runs

variable {pollMode : Bool} {s next : DriverLists}

theorem add_kept {hndl pdev numThreads : Nat} {answers : ThreadAnswers} (kept : s.Kept pollMode)
    (fresh : ∀ device ∈ s.xdevList, device.hndl ≠ hndl ∧ device.pdev ≠ pdev) (online : 0 < answers.cpus) :
    (s.xdevListAdd pollMode hndl pdev numThreads answers).2.Kept pollMode ∧
      ((∀ i, answers.creates i = true) →
        (s.xdevListAdd pollMode hndl pdev numThreads answers).2.orphaned = s.orphaned) := by
  unfold xdevListAdd
  cases ends : s.xdevList.getLast? with
  | some last =>
    refine ⟨⟨?_, kept.threaded.relist _, ?_, kept.block, kept.tasks⟩, fun _ => rfl⟩
    · apply kept.ordered.add _ fresh
      intro other listed
      exact Nat.lt_succ_of_le (kept.ordered.idx_le_last ends listed)
    · have some : s.xdevList ≠ [] := by
        intro empty
        rw [empty] at ends
        cases ends
      rw [kept.polled]
      simp [some]
  | none =>
    have empty : s.xdevList = [] := List.getLast?_eq_none_iff.mp ends
    have down : s.threadCnt = 0 := by
      by_contra up
      exact (kept.polled.mp up).2 empty
    cases pollMode with
    | false =>
      refine ⟨⟨.single _, kept.threaded.relist _, ?_, kept.block, kept.tasks⟩, fun _ => rfl⟩
      exact iff_of_false (not_not.mpr down) fun poll => absurd poll.1 (by decide)
    | true =>
      have begun := @threadsCreate_begun s numThreads answers kept.threaded down online kept.block kept.tasks
      cases created : s.xdmaThreadsCreate numThreads answers with
      | mk rv after =>
        rw [created] at begun
        dsimp only [if_true]
        by_cases failed : rv < 0
        · have none : after.threadCnt = 0 := begun.failed.mp failed
          have off : after.xdevList = [] := begun.xdevList.trans empty
          have ordered : Ordered after.xdevList := by
            rw [begun.xdevList]
            exact kept.ordered
          rw [if_pos failed]
          exact ⟨⟨ordered, begun.threaded, iff_of_false (not_not.mpr none) fun poll => poll.2 off, begun.block,
            begun.tasks⟩, begun.clean⟩
        · have many : after.threadCnt ≠ 0 := begun.failed.not.mp failed
          rw [if_neg failed]
          exact ⟨⟨.single _, begun.threaded.relist _, iff_of_true many ⟨rfl, List.cons_ne_nil _ _⟩, begun.block,
            begun.tasks⟩, begun.clean⟩

theorem remove_kept (kept : s.Kept pollMode) (hndl : Nat) :
    (s.xdevListRemove pollMode hndl).Kept pollMode ∧ (s.xdevListRemove pollMode hndl).orphaned = s.orphaned := by
  let left : DriverLists := { s with xdevList := s.xdevList.filter fun device => device.hndl ≠ hndl }
  have ordered : Ordered left.xdevList := kept.ordered.filter _
  have threaded : left.Threaded := kept.threaded.relist _
  unfold xdevListRemove
  cases last : pollMode && left.xdevList.isEmpty with
  | true =>
    obtain ⟨poll, empty⟩ := Bool.and_eq_true_iff.mp last
    obtain ⟨after, destroyed, list, threaded, none, block, owns, same⟩ :=
      threadsDestroy_down threaded kept.block kept.tasks
    have off : after.xdevList = [] := list.trans (List.isEmpty_iff.mp empty)
    dsimp only
    rw [if_pos last, destroyed]
    refine ⟨⟨?_, threaded, iff_of_false (not_not.mpr none) fun poll => poll.2 off, block, owns⟩, same⟩
    rw [list]
    exact ordered
  | false =>
    dsimp only
    rw [if_neg (Bool.eq_false_iff.mp last)]
    refine ⟨⟨ordered, threaded, ?_, kept.block, kept.tasks⟩, rfl⟩
    show s.threadCnt ≠ 0 ↔ pollMode = true ∧ left.xdevList ≠ []
    rw [kept.polled]
    apply and_congr_right
    intro poll
    have some : left.xdevList ≠ [] := by
      intro empty
      rw [poll, empty] at last
      cases last
    refine iff_of_true ?_ some
    intro empty
    apply some
    show s.xdevList.filter _ = []
    rw [empty, List.filter_nil]

theorem step_kept {action : ListAction} (stepped : s.step pollMode action = some next) (kept : s.Kept pollMode) :
    next.Kept pollMode ∧ (CreatesAll action → next.orphaned = s.orphaned) := by
  cases action with
  | add hndl pdev numThreads answers =>
    rw [step] at stepped
    split at stepped
    · next valid =>
      cases stepped
      exact add_kept kept valid.1 valid.2.2
    · cases stepped
  | remove hndl =>
    rw [step] at stepped
    split at stepped
    · cases stepped
      obtain ⟨keptNext, same⟩ := remove_kept kept hndl
      exact ⟨keptNext, fun _ => same⟩
    · cases stepped

theorem run_kept {actions : List ListAction} {last : DriverLists} (kept : s.Kept pollMode)
    (ran : run (step pollMode) s actions = some last) :
    last.Kept pollMode ∧ ((∀ action ∈ actions, CreatesAll action) → last.orphaned = s.orphaned) := by
  induction actions generalizing s with
  | nil =>
    cases ran
    exact ⟨kept, fun _ => rfl⟩
  | cons action actions ih =>
    obtain ⟨next, stepped, rest⟩ := run_cons.mp ran
    obtain ⟨keptNext, same⟩ := step_kept stepped kept
    obtain ⟨keptLast, later⟩ := ih keptNext rest
    refine ⟨keptLast, ?_⟩
    intro all
    rw [List.forall_mem_cons] at all
    rw [later all.2, same all.1]

theorem loaded_kept : loaded.Kept pollMode :=
  ⟨⟨.nil, List.nodup_nil, List.nodup_nil⟩, .down rfl rfl rfl, iff_of_false (fun many => many rfl) fun poll => poll.2 rfl,
    Heap.empty_balanced, Heap.empty_balanced⟩

end Runs

/-- Over every run of opens and closes: the devices stand in the order of their indices, no two of which are the same, a
    handle passes its check exactly while its device is listed, the completion threads are there exactly while a
    polled device is, and the tasks that run are those in the slots and those a failed start left in its own. -/
theorem devices_kept {pollMode : Bool} {actions : List ListAction} {s : DriverLists}
    (ran : run (step pollMode) loaded actions = some s) :
    (s.xdevList.map ListedDevice.idx).Pairwise (· < ·) ∧
      (∀ pdev hndl, s.debugCheckDevHndl pdev hndl = 0 ↔
        ∃ device ∈ s.xdevList, device.pdev = pdev ∧ device.hndl = hndl) ∧
      (s.csThreads ≠ none ↔ pollMode = true ∧ s.xdevList ≠ []) ∧ s.threadCnt = s.slots.length ∧
      s.memory.Owns s.csThreads.toList ∧ s.tasks.Owns (s.slots ++ s.orphaned) ∧
      ((∀ action ∈ actions, CreatesAll action) → s.orphaned = []) := by
  obtain ⟨kept, clean⟩ := run_kept loaded_kept ran
  have threads : s.threadCnt = s.slots.length ∧ (s.csThreads ≠ none ↔ s.threadCnt ≠ 0) := by
    cases kept.threaded with
    | up block memory counted filled =>
      refine ⟨counted, iff_of_true (by simp [memory]) ?_⟩
      rw [counted]
      exact fun none => filled (List.length_eq_zero_iff.mp none)
    | down memory none empty => exact ⟨by simp [none, empty], by simp [memory, none]⟩
  exact ⟨kept.ordered.indices, debugCheckDevHndl_iff kept.ordered, threads.2.trans kept.polled, threads.1, kept.block,
    kept.tasks, clean⟩

/-- The second thread cannot be created: the first runs on, and the next open starts anew. -/
theorem orphaned_thread : ∃ s,
    run (step true) loaded [.add 1 10 8 ⟨true, 4, fun i => i == 0⟩, .add 2 20 8 ⟨true, 2, fun _ => true⟩,
      .add 3 30 8 ⟨false, 1, fun _ => false⟩, .remove 2] = some s ∧
      s.slots = [1, 2] ∧ s.orphaned = [0] ∧ s.debugCheckDevHndl 30 3 = 0 ∧ s.debugCheckDevHndl 20 2 ≠ 0 := by
  refine ⟨_, rfl, rfl, rfl, ?_⟩
  have kept := @devices_kept true [.add 1 10 8 ⟨true, 4, fun i => i == 0⟩, .add 2 20 8 ⟨true, 2, fun _ => true⟩,
      .add 3 30 8 ⟨false, 1, fun _ => false⟩, .remove 2] _ rfl
  constructor
  · exact (kept.2.1 30 3).mpr ⟨⟨3, 30, 1⟩, List.mem_singleton_self _, rfl, rfl⟩
  · intro passes
    obtain ⟨device, listed, -, hndl⟩ := (kept.2.1 20 2).mp passes
    rw [List.mem_singleton.mp listed] at hndl
    cases hndl

end DriverLists

end CigCard.Xdma
