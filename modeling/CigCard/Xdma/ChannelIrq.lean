import CigCard.Transition.Run
import CigCard.Xdma.IrqAlternation
import CigCard.Xdma.UserIrq

namespace CigCard.Xdma

open Transition

/-- The handlers and the works that they schedule: which are queued, and which are being run. -/
structure IrqWork where
  isr : IsrState
  pending : Nat → Bool
  running : Nat → Bool

inductive IrqAction where
  | shared (chIrq userIrq : BitVec 32)
  | channel (engine : Nat)
  | user (line : Nat)
  | start (engine : Nat)
  | finish (engine : Nat) (serviced : Bool)
deriving DecidableEq

def setEngineMask (engine : Nat) (mask : BitVec 32) (xdev : Device) : Device :=
  { xdev with interruptEnableMask := fun k => if k = engine then mask else xdev.interruptEnableMask k }

def xdmaChannelIrq (cfg : Config) (engine : Nat) (s : IsrState) : IsrState :=
  { s with
    xdev := setEngineMask engine (s.xdev.interruptEnableMask engine &&& ~~~engineInterruptEnable cfg.pollMode) s.xdev
    scheduled := s.scheduled ++ [engine]
    irqCount := s.irqCount + 1 }

/-- The end of `engine_service_work`: if `engine_service` fails, the interrupts are not enabled again. -/
def engineServiceWork (cfg : Config) (engine : Nat) (serviced : Bool) (s : IsrState) : IsrState :=
  if serviced then
    if cfg.mode = .msix then
      { s with
        xdev :=
          setEngineMask engine (s.xdev.interruptEnableMask engine ||| engineInterruptEnable cfg.pollMode) s.xdev }
    else { s with xdev := channelInterruptsEnable (irqBitmask engine) s.xdev }
  else s

namespace IrqWork

def handled (s : IrqWork) (isr : IsrState) : IrqWork :=
  { s with isr, pending := fun e => s.pending e || decide (e ∈ isr.scheduled.drop s.isr.scheduled.length) }

def step (cfg : Config) (s : IrqWork) : IrqAction → Option IrqWork
  | .shared chIrq userIrq =>
    if cfg.mode ≠ .msix ∧ chIrq &&& ~~~s.isr.xdev.channelIntEnable = 0 then
      some (s.handled (xdmaIsr cfg chIrq userIrq s.isr))
    else none
  | .channel engine =>
    if cfg.mode = .msix ∧ engine < cfg.channels ∧ s.isr.xdev.interruptEnableMask engine ≠ 0 then
      some (s.handled (xdmaChannelIrq cfg engine s.isr))
    else none
  | .user line => if cfg.mode = .msix then some (s.handled (xdmaUserIrq line s.isr)) else none
  | .start engine =>
    if s.pending engine = true ∧ s.running engine = false then
      some
        { s with
          pending := fun e => if e = engine then false else s.pending e
          running := fun e => if e = engine then true else s.running e }
    else none
  | .finish engine serviced =>
    if s.running engine then
      some
        { s with
          isr := engineServiceWork cfg engine serviced s.isr
          running := fun e => if e = engine then false else s.running e }
    else none

def Enabled (cfg : Config) (engine : Nat) (xdev : Device) : Prop :=
  if cfg.mode = .msix then xdev.interruptEnableMask engine = engineInterruptEnable cfg.pollMode
  else xdev.channelIntEnable.getLsbD engine = true

def Live (cfg : Config) (engine : Nat) (s : IrqWork) : Prop :=
  Enabled cfg engine s.isr.xdev ∨ s.pending engine = true ∨ s.running engine = true

end IrqWork

section Dispatch

theorem engineMask_bit {engines : List Nat} (b : Nat) (small : b < 32) :
    (engineMask engines).getLsbD b = decide (b ∈ engines) := by
  have fromHere : ∀ (engines : List Nat) (mask : BitVec 32),
      (engines.foldl (fun mask engine => mask ||| irqBitmask engine) mask).getLsbD b =
        (BitVec.getLsbD mask b || decide (b ∈ engines)) := by
    intro engines
    induction engines with
    | nil => simp
    | cons engine engines ih =>
      intro mask
      rw [List.foldl_cons, ih, BitVec.getLsbD_or, irqBitmask, ← BitVec.twoPow_eq, BitVec.getLsbD_twoPow]
      by_cases here : engine = b
      · simp [here, small]
      · simp [here, Ne.symm here]
  rw [engineMask, fromHere engines 0]
  simp

/-- The loop schedules the engines whose bits are set, each once. -/
theorem dispatchEngines_eq {engines : List Nat} (distinct : engines.Nodup) (small : ∀ e ∈ engines, e < 32)
    (mask : BitVec 32) (s : IsrState) :
    dispatchEngines engines mask s = { s with scheduled := s.scheduled ++ engines.filter fun e => mask.getLsbD e } := by
  induction engines generalizing mask s with
  | nil => simp [dispatchEngines]
  | cons engine engines ih =>
    obtain ⟨away, rest⟩ := List.nodup_cons.mp distinct
    have smaller : ∀ e ∈ engines, e < 32 := fun e member => small e (List.mem_cons_of_mem _ member)
    have bit := @and_shifted_one mask engine (small engine List.mem_cons_self)
    rw [← irqBitmask, BitVec.and_comm] at bit
    unfold dispatchEngines
    by_cases none : mask = 0
    · simp [none]
    · rw [if_neg none]
      by_cases set : mask.getLsbD engine = true
      · rw [if_pos (bit.mpr set), ih rest smaller]
        have others : engines.filter (fun e => (mask &&& ~~~irqBitmask engine).getLsbD e) =
            engines.filter fun e => mask.getLsbD e := by
          apply List.filter_congr
          intro e member
          exact clear_shifted_one fun same => away (same ▸ member)
        rw [others, List.filter_cons_of_pos set, List.append_assoc, List.singleton_append]
      · rw [if_neg (fun here => set (bit.mp here)), ih rest smaller]
        rw [List.filter_cons_of_neg set]

theorem dispatchUsers_scheduled (left user : Nat) (mask userIrq : BitVec 32) (s : IsrState) :
    (dispatchUsers left user mask userIrq s).scheduled = s.scheduled := by
  induction left generalizing user mask userIrq s with
  | zero => rfl
  | succ left ih =>
    have serviced : (userIrqService user s).scheduled = s.scheduled := by
      simp only [userIrqService]
      split_ifs <;> rfl
    unfold dispatchUsers
    split_ifs
    · rfl
    · rw [ih, serviced]
    · rw [ih]

theorem channel_lists (cfg : Config) : cfg.h2cList ++ cfg.c2hList = List.range cfg.channels := cfg.channel_range.symm

theorem xdmaIsr_channels {cfg : Config} (few : cfg.channels ≤ 32) (chIrq userIrq : BitVec 32) (s : IsrState) :
    (xdmaIsr cfg chIrq userIrq s).xdev = channelInterruptsDisable chIrq s.xdev ∧
      (xdmaIsr cfg chIrq userIrq s).scheduled =
        s.scheduled ++ (List.range cfg.channels).filter fun e => chIrq.getLsbD e := by
  let quiet : IsrState := if chIrq ≠ 0 then { s with xdev := channelInterruptsDisable chIrq s.xdev } else s
  let acked := { quiet with userWrites := quiet.userWrites ++ [(regsUserOfsIntV2 + 0xb0, userIrq &&& 0xff)] }
  let users := if userIrq &&& 0xff ≠ 0 then dispatchUsers cfg.userMax 0 1 (userIrq &&& 0xff) acked else acked
  have disabled : quiet.xdev = channelInterruptsDisable chIrq s.xdev ∧ quiet.scheduled = s.scheduled := by
    simp only [quiet]
    split_ifs with some
    · exact ⟨rfl, rfl⟩
    · have none : chIrq = 0 := by simpa using some
      have all : ~~~(0 : BitVec 32) = BitVec.allOnes 32 := rfl
      rw [none, channelInterruptsDisable, all, BitVec.and_allOnes]
      exact ⟨rfl, rfl⟩
  have dispatched : users.xdev = quiet.xdev ∧ users.scheduled = quiet.scheduled := by
    simp only [users]
    split_ifs
    · exact ⟨(dispatchUsers_frame cfg.userMax 0 1 (userIrq &&& 0xff)).1, dispatchUsers_scheduled _ _ _ _ _⟩
    · exact ⟨rfl, rfl⟩
  have h2cSmall : ∀ e ∈ cfg.h2cList, e < 32 := by
    intro e member
    have below := List.mem_range.mp member
    unfold Config.channels at few
    omega
  have c2hSmall : ∀ e ∈ cfg.c2hList, e < 32 := by
    intro e member
    obtain ⟨i, inside, rfl⟩ := List.mem_map.mp member
    have below := List.mem_range.mp inside
    unfold Config.channels at few
    omega
  have h2cDistinct : cfg.h2cList.Nodup := List.nodup_range
  have c2hDistinct : cfg.c2hList.Nodup := List.nodup_range.map fun i j same => by simpa using same
  have masked : ∀ engines : List Nat, (∀ e ∈ engines, e < 32) →
      engines.filter (fun e => (chIrq &&& engineMask engines).getLsbD e) = engines.filter fun e => chIrq.getLsbD e := by
    intro engines small
    apply List.filter_congr
    intro e member
    rw [BitVec.getLsbD_and, engineMask_bit e (small e member)]
    simp [member]
  let last := dispatchEngines cfg.c2hList (chIrq &&& engineMask cfg.c2hList)
    (dispatchEngines cfg.h2cList (chIrq &&& engineMask cfg.h2cList) users)
  have isr : xdmaIsr cfg chIrq userIrq s = { last with irqCount := last.irqCount + 1 } := rfl
  have ends : last =
      { users with scheduled := users.scheduled ++ (List.range cfg.channels).filter fun e => chIrq.getLsbD e } := by
    simp only [last]
    rw [dispatchEngines_eq h2cDistinct h2cSmall, dispatchEngines_eq c2hDistinct c2hSmall, masked _ h2cSmall,
      masked _ c2hSmall, ← channel_lists, List.filter_append, List.append_assoc]
  rw [isr, ends]
  exact ⟨dispatched.1.trans disabled.1, by rw [dispatched.2, disabled.2]⟩

end Dispatch

/-- Where an engine stands between its interrupt and the next one. -/
inductive WorkPhase where
  | enabled
  | pending
  | running
  | failed

namespace WorkPhase

def next (engine : Nat) : WorkPhase → IrqAction → WorkPhase
  | .enabled, .shared chIrq _ => if chIrq.getLsbD engine then .pending else .enabled
  | .enabled, .channel k => if k = engine then .pending else .enabled
  | .pending, .start k => if k = engine then .running else .pending
  | .running, .finish k serviced => if k = engine then if serviced then .enabled else .failed else .running
  | phase, _ => phase

def Disabled (cfg : Config) (engine : Nat) (xdev : Device) : Prop :=
  if cfg.mode = .msix then xdev.interruptEnableMask engine = 0 else xdev.channelIntEnable.getLsbD engine = false

def Describes (cfg : Config) (engine : Nat) (s : IrqWork) : WorkPhase → Prop
  | .enabled => IrqWork.Enabled cfg engine s.isr.xdev ∧ s.pending engine = false ∧ s.running engine = false
  | .pending => Disabled cfg engine s.isr.xdev ∧ s.pending engine = true ∧ s.running engine = false
  | .running => Disabled cfg engine s.isr.xdev ∧ s.pending engine = false ∧ s.running engine = true
  | .failed => Disabled cfg engine s.isr.xdev ∧ s.pending engine = false ∧ s.running engine = false

/-- What was done so far is reflected by the phase, and each time the work was queued it was started or is queued. -/
structure Tracks (cfg : Config) (engine : Nat) (done : List IrqAction) (s : IrqWork) (phase : WorkPhase) : Prop where
  describes : phase.Describes cfg engine s
  failed : phase = .failed ↔ .finish engine false ∈ done
  counted : s.isr.scheduled.count engine = done.count (.start engine) + if s.pending engine then 1 else 0

variable {cfg : Config} {engine : Nat} {s after : IrqWork} {done : List IrqAction} {phase : WorkPhase}

theorem Describes.congr (describes : phase.Describes cfg engine s)
    (mask : after.isr.xdev.interruptEnableMask engine = s.isr.xdev.interruptEnableMask engine)
    (enable : after.isr.xdev.channelIntEnable.getLsbD engine = s.isr.xdev.channelIntEnable.getLsbD engine)
    (pending : after.pending engine = s.pending engine) (running : after.running engine = s.running engine) :
    phase.Describes cfg engine after := by
  cases phase <;>
    simpa only [Describes, Disabled, IrqWork.Enabled, mask, enable, pending, running] using describes

/-- An action that is not about the engine. -/
theorem Tracks.other (tracks : Tracks cfg engine done s phase) (action : IrqAction)
    (describes : phase.Describes cfg engine after) (start : action ≠ .start engine)
    (finish : action ≠ .finish engine false) (scheduled : after.isr.scheduled.count engine = s.isr.scheduled.count engine)
    (pending : after.pending engine = s.pending engine) : Tracks cfg engine (done ++ [action]) after phase := by
  refine ⟨describes, ?_, ?_⟩
  · rw [tracks.failed]
    simp [finish.symm]
  · rw [scheduled, tracks.counted, pending, List.count_append, List.count_singleton]
    simp [start]

theorem Tracks.start (tracks : Tracks cfg engine done s phase) {k : Nat}
    (stepped : IrqWork.step cfg s (.start k) = some after) :
    Tracks cfg engine (done ++ [.start k]) after (phase.next engine (.start k)) := by
  simp only [IrqWork.step, Option.ite_none_right_eq_some, Option.some.injEq] at stepped
  obtain ⟨⟨queued, idle⟩, rfl⟩ := stepped
  by_cases here : k = engine
  · subst here
    have failed := tracks.failed
    have counted := tracks.counted
    cases phase with
    | pending =>
      obtain ⟨disabled, -, -⟩ := tracks.describes
      simp only [WorkPhase.next, if_true]
      refine ⟨⟨disabled, if_pos rfl, if_pos rfl⟩, ?_, ?_⟩
      · simpa using failed
      · simp only [counted, queued, if_true, List.count_append, List.count_singleton_self]
        simp
    | enabled => exact absurd queued (by simp [tracks.describes.2.1])
    | running => exact absurd queued (by simp [tracks.describes.2.1])
    | failed => exact absurd queued (by simp [tracks.describes.2.1])
  · have same : phase.next engine (.start k) = phase := by
      cases phase with
      | pending => exact if_neg here
      | enabled | running | failed => rfl
    have away : engine ≠ k := fun same => here same.symm
    rw [same]
    apply tracks.other
    · apply tracks.describes.congr
      · rfl
      · rfl
      · simp [away]
      · simp [away]
    · simpa using here
    · simp
    · rfl
    · simp [away]

theorem serviceWork_scheduled (k : Nat) (serviced : Bool) (isr : IsrState) :
    (engineServiceWork cfg k serviced isr).scheduled = isr.scheduled := by
  unfold engineServiceWork
  split_ifs <;> rfl

theorem serviceWork_other {k : Nat} (away : engine ≠ k) (serviced : Bool) (isr : IsrState) :
    (engineServiceWork cfg k serviced isr).xdev.interruptEnableMask engine = isr.xdev.interruptEnableMask engine ∧
      (engineServiceWork cfg k serviced isr).xdev.channelIntEnable.getLsbD engine =
        isr.xdev.channelIntEnable.getLsbD engine := by
  unfold engineServiceWork
  split_ifs
  · exact ⟨if_neg away, rfl⟩
  · refine ⟨rfl, ?_⟩
    rw [channelInterruptsEnable, irqBitmask, BitVec.getLsbD_or, ← BitVec.twoPow_eq, BitVec.getLsbD_twoPow]
    simp [away.symm]
  · exact ⟨rfl, rfl⟩

theorem serviceWork_enabled (small : engine < 32) (isr : IsrState) (disabled : Disabled cfg engine isr.xdev) :
    IrqWork.Enabled cfg engine (engineServiceWork cfg engine true isr).xdev := by
  unfold Disabled at disabled
  unfold IrqWork.Enabled engineServiceWork
  by_cases msix : cfg.mode = .msix
  · rw [if_pos msix] at disabled
    simp [msix, setEngineMask, disabled]
  · rw [if_neg msix] at disabled
    rw [if_neg msix, if_pos rfl, if_neg msix, channelInterruptsEnable, irqBitmask, BitVec.getLsbD_or,
      ← BitVec.twoPow_eq, BitVec.getLsbD_twoPow]
    simp [small]

theorem Tracks.finish (tracks : Tracks cfg engine done s phase) (small : engine < 32) {k : Nat} {serviced : Bool}
    (stepped : IrqWork.step cfg s (.finish k serviced) = some after) :
    Tracks cfg engine (done ++ [.finish k serviced]) after (phase.next engine (.finish k serviced)) := by
  simp only [IrqWork.step, Option.ite_none_right_eq_some, Option.some.injEq] at stepped
  obtain ⟨busy, rfl⟩ := stepped
  have scheduled := @serviceWork_scheduled cfg k serviced s.isr
  by_cases here : k = engine
  · subst here
    have failed := tracks.failed
    have counted := tracks.counted
    cases phase with
    | running =>
      obtain ⟨disabled, idle, -⟩ := tracks.describes
      cases serviced with
      | true =>
        simp only [WorkPhase.next, if_true]
        refine ⟨⟨serviceWork_enabled small s.isr disabled, idle, if_pos rfl⟩, ?_, ?_⟩
        · simpa using failed
        · simp [scheduled, counted, idle]
      | false =>
        simp only [WorkPhase.next, if_true, Bool.false_eq_true, if_false]
        refine ⟨⟨disabled, idle, if_pos rfl⟩, ?_, ?_⟩
        · simp
        · simp [scheduled, counted, idle]
    | enabled => exact absurd busy (by simp [tracks.describes.2.2])
    | pending => exact absurd busy (by simp [tracks.describes.2.2])
    | failed => exact absurd busy (by simp [tracks.describes.2.2])
  · have same : phase.next engine (.finish k serviced) = phase := by
      cases phase with
      | running => exact if_neg here
      | enabled | pending | failed => rfl
    have away : engine ≠ k := fun same => here same.symm
    obtain ⟨mask, enable⟩ := @serviceWork_other cfg engine k away serviced s.isr
    rw [same]
    apply tracks.other
    · apply tracks.describes.congr
      · exact mask
      · exact enable
      · rfl
      · simp [away]
    · simp
    · simp [here]
    · rw [scheduled]
    · rfl

theorem Tracks.user (tracks : Tracks cfg engine done s phase) {line : Nat}
    (stepped : IrqWork.step cfg s (.user line) = some after) :
    Tracks cfg engine (done ++ [.user line]) after (phase.next engine (.user line)) := by
  simp only [IrqWork.step, Option.ite_none_right_eq_some, Option.some.injEq] at stepped
  obtain ⟨-, rfl⟩ := stepped
  have scheduled : (xdmaUserIrq line s.isr).scheduled = s.isr.scheduled := by
    simp only [xdmaUserIrq, userIrqService]
    split_ifs <;> rfl
  have device : (xdmaUserIrq line s.isr).xdev = s.isr.xdev := userIrqService_xdev line
  have queued : (s.handled (xdmaUserIrq line s.isr)).pending engine = s.pending engine := by
    simp [IrqWork.handled, scheduled]
  have same : phase.next engine (.user line) = phase := by
    cases phase with
    | enabled | pending | running | failed => rfl
  rw [same]
  apply tracks.other
  · apply tracks.describes.congr
    · rw [IrqWork.handled, device]
    · rw [IrqWork.handled, device]
    · exact queued
    · rfl
  · simp
  · simp
  · rw [IrqWork.handled, scheduled]
  · exact queued

/-- A handler has queued the work of the engine. -/
theorem Tracks.queued (tracks : Tracks cfg engine done s .enabled) (action : IrqAction)
    (start : action ≠ .start engine) (finish : action ≠ .finish engine false)
    (disabled : Disabled cfg engine after.isr.xdev) (pending : after.pending engine = true)
    (running : after.running engine = s.running engine)
    (scheduled : after.isr.scheduled.count engine = s.isr.scheduled.count engine + 1) :
    Tracks cfg engine (done ++ [action]) after .pending := by
  obtain ⟨-, idle, stopped⟩ := tracks.describes
  have failed := tracks.failed
  refine ⟨⟨disabled, pending, running.trans stopped⟩, ?_, ?_⟩
  · simpa [finish.symm] using failed
  · rw [scheduled, tracks.counted, List.count_append, List.count_singleton]
    simp [start, idle, pending]

theorem Tracks.channel (tracks : Tracks cfg engine done s phase) {k : Nat}
    (stepped : IrqWork.step cfg s (.channel k) = some after) :
    Tracks cfg engine (done ++ [.channel k]) after (phase.next engine (.channel k)) := by
  simp only [IrqWork.step, Option.ite_none_right_eq_some, Option.some.injEq] at stepped
  obtain ⟨⟨msix, -, raised⟩, rfl⟩ := stepped
  have queued : ∀ e, (s.handled (xdmaChannelIrq cfg k s.isr)).pending e = (s.pending e || decide (e = k)) := by
    intro e
    simp [IrqWork.handled, xdmaChannelIrq]
  by_cases here : k = engine
  · subst here
    have disabled : ∀ phase : WorkPhase, phase.Describes cfg k s → phase = .enabled := by
      intro phase describes
      cases phase with
      | enabled => rfl
      | pending | running | failed =>
        have quiet := describes.1
        rw [Disabled, if_pos msix] at quiet
        exact absurd quiet raised
    obtain rfl := disabled phase tracks.describes
    have enabled := tracks.describes.1
    rw [IrqWork.Enabled, if_pos msix] at enabled
    simp only [WorkPhase.next, if_true]
    apply tracks.queued
    · simp
    · simp
    · rw [Disabled, if_pos msix]
      simp [IrqWork.handled, xdmaChannelIrq, setEngineMask, enabled]
    · simp [queued]
    · rfl
    · simp [IrqWork.handled, xdmaChannelIrq]
  · have same : phase.next engine (.channel k) = phase := by
      cases phase with
      | enabled => exact if_neg here
      | pending | running | failed => rfl
    have away : engine ≠ k := fun same => here same.symm
    have unqueued : (s.handled (xdmaChannelIrq cfg k s.isr)).pending engine = s.pending engine := by
      simp [queued, away]
    rw [same]
    apply tracks.other
    · apply tracks.describes.congr
      · exact if_neg away
      · rfl
      · exact unqueued
      · rfl
    · simp
    · simp
    · simp [IrqWork.handled, xdmaChannelIrq, here]
    · exact unqueued

theorem count_selected (chIrq : BitVec 32) (below : engine < cfg.channels) :
    ((List.range cfg.channels).filter fun e => chIrq.getLsbD e).count engine = if chIrq.getLsbD engine then 1 else 0 := by
  by_cases set : chIrq.getLsbD engine = true
  · rw [List.count_filter set, List.count_range]
    simp [below, set]
  · rw [List.count_eq_zero.mpr (by simp [set])]
    simp [set]

theorem Tracks.shared (tracks : Tracks cfg engine done s phase) (few : cfg.channels ≤ 32) (below : engine < cfg.channels)
    {chIrq userIrq : BitVec 32} (stepped : IrqWork.step cfg s (.shared chIrq userIrq) = some after) :
    Tracks cfg engine (done ++ [.shared chIrq userIrq]) after (phase.next engine (.shared chIrq userIrq)) := by
  simp only [IrqWork.step, Option.ite_none_right_eq_some, Option.some.injEq] at stepped
  obtain ⟨⟨single, raised⟩, rfl⟩ := stepped
  obtain ⟨device, scheduled⟩ := xdmaIsr_channels few chIrq userIrq s.isr
  have small : engine < 32 := by omega
  have queued : (s.handled (xdmaIsr cfg chIrq userIrq s.isr)).pending engine =
      (s.pending engine || chIrq.getLsbD engine) := by
    simp [IrqWork.handled, scheduled, below]
  have count : (s.handled (xdmaIsr cfg chIrq userIrq s.isr)).isr.scheduled.count engine =
      s.isr.scheduled.count engine + if chIrq.getLsbD engine then 1 else 0 := by
    rw [IrqWork.handled, scheduled, List.count_append, count_selected chIrq below]
  have enable : (s.handled (xdmaIsr cfg chIrq userIrq s.isr)).isr.xdev.channelIntEnable.getLsbD engine =
      (s.isr.xdev.channelIntEnable.getLsbD engine && !chIrq.getLsbD engine) := by
    rw [IrqWork.handled, device, channelInterruptsDisable, BitVec.getLsbD_and, BitVec.getLsbD_not]
    simp [small]
  by_cases fired : chIrq.getLsbD engine = true
  · have on : s.isr.xdev.channelIntEnable.getLsbD engine = true := by
      have bit := congrArg (fun word : BitVec 32 => word.getLsbD engine) raised
      simpa [fired, small] using bit
    have enabled : phase = .enabled := by
      cases phase with
      | enabled => rfl
      | pending | running | failed =>
        have quiet := tracks.describes.1
        rw [Disabled, if_neg single, on] at quiet
        cases quiet
    subst enabled
    simp only [WorkPhase.next, fired, if_true]
    apply tracks.queued
    · simp
    · simp
    · rw [Disabled, if_neg single, enable, fired, on]
      rfl
    · rw [queued, fired, Bool.or_true]
    · rfl
    · rw [count, fired]
      rfl
  · have quiet : chIrq.getLsbD engine = false := by simpa using fired
    have same : phase.next engine (.shared chIrq userIrq) = phase := by
      cases phase with
      | enabled => exact if_neg fired
      | pending | running | failed => rfl
    rw [same]
    apply tracks.other
    · apply tracks.describes.congr
      · rw [IrqWork.handled, device]
        rfl
      · simp [enable, quiet]
      · simp [queued, quiet]
      · rfl
    · simp
    · simp
    · simp [count, quiet]
    · simp [queued, quiet]

theorem Tracks.step (tracks : Tracks cfg engine done s phase) (few : cfg.channels ≤ 32) (below : engine < cfg.channels)
    (action : IrqAction) (stepped : IrqWork.step cfg s action = some after) :
    Tracks cfg engine (done ++ [action]) after (phase.next engine action) := by
  cases action with
  | shared chIrq userIrq => exact tracks.shared few below stepped
  | channel k => exact tracks.channel stepped
  | user line => exact tracks.user stepped
  | start k => exact tracks.start stepped
  | finish k serviced => exact tracks.finish (by omega) stepped

theorem Tracks.run (tracks : Tracks cfg engine done s phase) (few : cfg.channels ≤ 32) (below : engine < cfg.channels)
    {actions : List IrqAction} {last : IrqWork} (ran : Transition.run (IrqWork.step cfg) s actions = some last) :
    ∃ phase, Tracks cfg engine (done ++ actions) last phase := by
  induction actions generalizing s done phase with
  | nil =>
    cases ran
    rw [List.append_nil]
    exact ⟨phase, tracks⟩
  | cons action actions ih =>
    obtain ⟨middle, stepped, rest⟩ := run_cons.mp ran
    have there := ih (tracks.step few below action stepped) rest
    rwa [List.append_assoc, List.singleton_append] at there

theorem Tracks.live_iff (tracks : Tracks cfg engine done s phase) (value : engineInterruptEnable cfg.pollMode ≠ 0) :
    IrqWork.Live cfg engine s ↔ .finish engine false ∉ done := by
  rw [← tracks.failed, IrqWork.Live]
  have describes := tracks.describes
  cases phase with
  | enabled => exact iff_of_true (.inl describes.1) (by simp)
  | pending => exact iff_of_true (.inr (.inl describes.2.1)) (by simp)
  | running => exact iff_of_true (.inr (.inr describes.2.2)) (by simp)
  | failed =>
    obtain ⟨disabled, idle, stopped⟩ := describes
    apply iff_of_false
    · rintro (enabled | queued | busy)
      · unfold IrqWork.Enabled at enabled
        unfold Disabled at disabled
        split_ifs at enabled disabled
        · exact value (enabled.symm.trans disabled)
        · rw [disabled] at enabled
          cases enabled
      · rw [idle] at queued
        cases queued
      · rw [stopped] at busy
        cases busy
    · simp

end WorkPhase

section Runs

def IrqWork.opened (xdev : Device) (userIrq : Nat → UserIrq) : IrqWork :=
  ⟨⟨xdev, userIrq, 0, [], [], [], [], []⟩, fun _ => false, fun _ => false⟩

theorem opened_tracks {cfg : Config} {engine : Nat} {xdev : Device} {userIrq : Nat → UserIrq} (opened : Opened cfg xdev)
    (interrupts : cfg.pollMode = false) (few : cfg.channels ≤ 32) (below : engine < cfg.channels) :
    WorkPhase.Tracks cfg engine [] (.opened xdev userIrq) .enabled := by
  refine ⟨⟨?_, rfl, rfl⟩, by simp, rfl⟩
  unfold IrqWork.Enabled
  split_ifs
  · exact opened.engines engine below
  · change xdev.channelIntEnable.getLsbD engine = true
    have small : engine < 32 := by omega
    have all : (if false = true then 0 else ~~~0 : BitVec 32) = BitVec.allOnes 32 := rfl
    rw [opened.channels, interrupts, all, BitVec.getLsbD_allOnes]
    exact decide_eq_true small

/-- On a card that uses interrupts, in every order of interrupts and works: the interrupt of an engine is enabled, or
    its work is queued or being run, exactly as long as no service of the engine has failed. And each time a handler
    schedules the work, that makes one run of it, begun or still to come. -/
theorem channel_live_iff {pci : PciFunction} {userMax h2cChannelMax c2hChannelMax : Nat} {refuses : Nat → Bool}
    {channelIntEnable userIntEnable : BitVec 32} {interruptEnableMask : Nat → BitVec 32} {xdev : Device}
    {userIrq : Nat → UserIrq} {actions : List IrqAction} {s : IrqWork}
    (opened : xdmaDeviceOpen (pci.config false userMax h2cChannelMax c2hChannelMax) refuses channelIntEnable
      userIntEnable interruptEnableMask = some xdev)
    (ran : run (IrqWork.step (pci.config false userMax h2cChannelMax c2hChannelMax)) (.opened xdev userIrq) actions =
      some s) :
    ∀ engine < (pci.config false userMax h2cChannelMax c2hChannelMax).channels,
      (s.Live (pci.config false userMax h2cChannelMax c2hChannelMax) engine ↔ .finish engine false ∉ actions) ∧
        s.isr.scheduled.count engine = actions.count (.start engine) + if s.pending engine then 1 else 0 := by
  have few : (pci.config false userMax h2cChannelMax c2hChannelMax).channels ≤ 32 :=
    Nat.le_trans (config_channels_le pci false userMax h2cChannelMax c2hChannelMax) (by decide)
  have value : engineInterruptEnable (pci.config false userMax h2cChannelMax c2hChannelMax).pollMode ≠ 0 := by
    simp only [PciFunction.config]
    decide
  intro engine below
  have start := @opened_tracks _ engine xdev userIrq (open_opened opened) rfl few below
  obtain ⟨phase, tracks⟩ := start.run few below ran
  exact ⟨tracks.live_iff value, tracks.counted⟩

/-- The service of the C2H engine fails, and its interrupt stays off. -/
theorem failed_service_not_live : ∃ xdev s,
    xdmaDeviceOpen (smallCard.config false 2 1 1) (fun _ => false) 0 0 (fun _ => 0) = some xdev ∧
      run (IrqWork.step (smallCard.config false 2 1 1)) (.opened xdev fun _ => ⟨false, false⟩)
        [.channel 0, .channel 1, .start 1, .finish 1 false, .start 0] = some s ∧
      s.Live (smallCard.config false 2 1 1) 0 ∧ ¬ s.Live (smallCard.config false 2 1 1) 1 := by
  have happens : ∃ xdev s,
      xdmaDeviceOpen (smallCard.config false 2 1 1) (fun _ => false) 0 0 (fun _ => 0) = some xdev ∧
        run (IrqWork.step (smallCard.config false 2 1 1)) (.opened xdev fun _ => ⟨false, false⟩)
          [.channel 0, .channel 1, .start 1, .finish 1 false, .start 0] = some s := ⟨_, _, rfl, rfl⟩
  obtain ⟨xdev, s, opened, ran⟩ := happens
  have engines := channel_live_iff opened ran
  refine ⟨xdev, s, opened, ran, ?_, ?_⟩
  · exact (engines 0 (by decide)).1.mpr (by decide)
  · exact fun live => (engines 1 (by decide)).1.mp live (by decide)

end Runs

end CigCard.Xdma
