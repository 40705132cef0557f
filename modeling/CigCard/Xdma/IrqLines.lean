import CigCard.Xdma.Interrupts
import Mathlib.Data.List.TakeWhile
import Mathlib.Tactic.SplitIfs

namespace CigCard.Xdma

open Ledger

namespace Config

variable (cfg : Config)

def channels : Nat := cfg.h2cChannelMax + cfg.c2hChannelMax

def channelLine (j : Nat) : Nat × Handler := (cfg.vector j, .channelIrq j)

def userLine (i : Nat) : Nat × Handler := (cfg.vector (cfg.h2cChannelMax + cfg.c2hChannelMax + i), .userIrq i)

def channelLines : List (Nat × Handler) := (List.range cfg.channels).map cfg.channelLine

def userLines : List (Nat × Handler) := (List.range cfg.userMax).map cfg.userLine

def lines : List (Nat × Handler) :=
  match cfg.mode with
  | .msix => cfg.channelLines ++ cfg.userLines
  | .msi | .legacy => [(cfg.irq, .isr)]

theorem channel_range : List.range cfg.channels =
    List.range cfg.h2cChannelMax ++ (List.range cfg.c2hChannelMax).map (cfg.h2cChannelMax + ·) :=
  List.range_add

theorem vector_distinct {indices : List Nat} (distinct : indices.Nodup) : (indices.map cfg.vector).Nodup :=
  distinct.map cfg.vector_injective

theorem channelLines_keys : cfg.channelLines.map Prod.fst = (List.range cfg.channels).map cfg.vector := by
  simp [channelLines, channelLine, Function.comp_def]

theorem userLines_keys :
    cfg.userLines.map Prod.fst = ((List.range cfg.userMax).map (cfg.channels + ·)).map cfg.vector := by
  simp [userLines, userLine, channels, Function.comp_def]

theorem msixLines_distinct : ((cfg.channelLines ++ cfg.userLines).map Prod.fst).Nodup := by
  rw [List.map_append, channelLines_keys, userLines_keys, ← List.map_append, ← List.range_add]
  exact cfg.vector_distinct List.nodup_range

theorem lines_distinct : (cfg.lines.map Prod.fst).Nodup := by
  unfold lines
  split
  · exact cfg.msixLines_distinct
  · simp
  · simp

theorem lines_nonempty : cfg.lines ≠ [] := by
  have users : (List.range cfg.userMax) ≠ [] := by
    intro none
    have := cfg.user_pos
    simp at none
    omega
  unfold lines
  split
  · simpa [userLines] using fun _ => Nat.ne_of_gt cfg.user_pos
  · simp
  · simp

end Config

theorem boundedMax_channels (requested : Nat) : boundedMax xdmaChannelNumMax requested ≤ 4 := by
  unfold boundedMax xdmaChannelNumMax
  split <;> omega

theorem config_channels_le (pci : PciFunction) (pollMode : Bool) (userMax h2cChannelMax c2hChannelMax : Nat) :
    (pci.config pollMode userMax h2cChannelMax c2hChannelMax).channels ≤ 8 := by
  have h2c := boundedMax_channels h2cChannelMax
  have c2h := boundedMax_channels c2hChannelMax
  simp only [Config.channels, PciFunction.config]
  omega

section Requests

variable {cfg : Config} {refuses : Nat → Bool} {xdev : Device}

theorem requestIrq_free {line : Nat} (handler : Handler) (free : xdev.irqs.owner line = none) :
    requestIrq refuses line handler xdev =
      if refuses line then (false, xdev) else (true, { xdev with irqs := xdev.irqs.acquire line handler }) := by
  simp [requestIrq, free]

theorem requestIrq_held {line : Nat} (handler : Handler) (held : (xdev.irqs.owner line).isSome) :
    requestIrq refuses line handler xdev = (false, { xdev with irqs := xdev.irqs.acquire line handler }) := by
  simp [requestIrq, held]

theorem requestIrq_misused (line : Nat) (handler : Handler) (misused : xdev.irqs.misused = true) :
    (requestIrq refuses line handler xdev).2.irqs.misused = true := by
  have taken := Registry.acquire_misused line handler misused
  unfold requestIrq
  split_ifs
  · exact taken
  · exact misused
  · exact taken

theorem requestChannels_append (first second : List Nat) :
    requestChannels cfg refuses (first ++ second) xdev =
      match requestChannels cfg refuses first xdev with
      | (false, xdev) => (false, xdev)
      | (true, xdev) => requestChannels cfg refuses second xdev := by
  induction first generalizing xdev with
  | nil => rfl
  | cons j first ih =>
    simp only [List.cons_append, requestChannels]
    rcases requestIrq refuses (cfg.vector j) (.channelIrq j) xdev with ⟨granted, next⟩
    cases granted with
    | false => rfl
    | true => exact ih

theorem irqMsixChannelSetup_eq :
    irqMsixChannelSetup cfg refuses xdev = requestChannels cfg refuses (List.range cfg.channels) xdev := by
  rw [cfg.channel_range, requestChannels_append]
  rfl

theorem requestChannels_free {js : List Nat} {held : List (Nat × Handler)} (holds : xdev.irqs.Holds held)
    (distinct : ((held ++ js.map cfg.channelLine).map Prod.fst).Nodup) :
    requestChannels cfg refuses js xdev =
      (js.all fun j => !refuses (cfg.vector j),
        let taken := js.takeWhile fun j => !refuses (cfg.vector j)
        { xdev with
          irqs := xdev.irqs.acquireAll (taken.map cfg.channelLine)
          msixIrqLine := fun k => if k ∈ taken then cfg.vector k else xdev.msixIrqLine k }) := by
  induction js generalizing xdev held with
  | nil => simp [requestChannels]
  | cons j js ih =>
    have fresh : cfg.vector j ∉ held.map Prod.fst := by
      rw [List.map_append, List.map_cons, List.map_cons, List.nodup_append] at distinct
      intro member
      exact distinct.2.2 _ member _ List.mem_cons_self rfl
    have free := holds.free fresh
    simp only [requestChannels, requestIrq_free _ free]
    by_cases refused : refuses (cfg.vector j) = true
    · simp [refused]
    · have granted : refuses (cfg.vector j) = false := by simpa using refused
      have next := @ih
        { xdev with
          irqs := xdev.irqs.acquire (cfg.vector j) (.channelIrq j)
          msixIrqLine := fun k => if k = j then cfg.vector j else xdev.msixIrqLine k }
        (held ++ [(cfg.vector j, .channelIrq j)]) (holds.acquire _ _ free)
        (by simpa [Config.channelLine] using distinct)
      simp only [granted, Bool.false_eq_true, if_false, next]
      have recorded : ∀ taken : List Nat,
          (fun k => if k ∈ taken then cfg.vector k else if k = j then cfg.vector j else xdev.msixIrqLine k) =
            fun k => if k ∈ j :: taken then cfg.vector k else xdev.msixIrqLine k := by
        intro taken
        funext k
        by_cases here : k = j
        · subst k
          simp
        · simp [here]
      simp [granted, Config.channelLine, recorded]

/-- User lines are all requested, or the request leaves the lines as they were. -/
theorem requestUsers_free {is : List Nat} {held : List (Nat × Handler)} (holds : xdev.irqs.Holds held)
    (distinct : ((held ++ is.map cfg.userLine).map Prod.fst).Nodup) :
    requestUsers cfg refuses is xdev =
      if (is.all fun i => !refuses (cfg.userLine i).1) = true then
        (true, { xdev with irqs := xdev.irqs.acquireAll (is.map cfg.userLine) })
      else (false, xdev) := by
  induction is generalizing xdev held with
  | nil => simp [requestUsers]
  | cons i is ih =>
    have fresh : (cfg.userLine i).1 ∉ held.map Prod.fst := by
      rw [List.map_append, List.map_cons, List.map_cons, List.nodup_append] at distinct
      intro member
      exact distinct.2.2 _ member _ List.mem_cons_self rfl
    have free := holds.free fresh
    have request := @requestIrq_free refuses _ _ (.userIrq i) free
    simp only [Config.userLine] at request free
    simp only [requestUsers, request]
    by_cases refused : refuses (cfg.vector (cfg.h2cChannelMax + cfg.c2hChannelMax + i)) = true
    · simp [refused, Config.userLine]
    · have granted : refuses (cfg.vector (cfg.h2cChannelMax + cfg.c2hChannelMax + i)) = false := by
        simpa using refused
      have next := @ih
        { xdev with
          irqs := xdev.irqs.acquire (cfg.vector (cfg.h2cChannelMax + cfg.c2hChannelMax + i)) (.userIrq i) }
        (held ++ [(cfg.vector (cfg.h2cChannelMax + cfg.c2hChannelMax + i), .userIrq i)])
        (holds.acquire _ _ free) (by simpa [Config.userLine] using distinct)
      simp only [granted, Bool.false_eq_true, if_false, next]
      by_cases rest : (is.all fun i => !refuses (cfg.userLine i).1) = true
      · rw [if_pos rest, if_pos (by rw [List.all_cons, rest]; simp [Config.userLine, granted])]
        rfl
      · rw [if_neg rest, if_neg (by rw [List.all_cons, Bool.and_eq_true]; exact fun both => rest both.2)]
        simp [freeIrq, Registry.release_acquire _ free]

theorem requestChannels_misused (js : List Nat) (misused : xdev.irqs.misused = true) :
    (requestChannels cfg refuses js xdev).2.irqs.misused = true := by
  induction js generalizing xdev with
  | nil => exact misused
  | cons j js ih =>
    have asked := @requestIrq_misused refuses _ (cfg.vector j) (.channelIrq j) misused
    simp only [requestChannels]
    rcases requested : requestIrq refuses (cfg.vector j) (.channelIrq j) xdev with ⟨granted, next⟩
    rw [requested] at asked
    cases granted with
    | false => exact asked
    | true => exact ih asked

theorem requestUsers_misused (is : List Nat) (misused : xdev.irqs.misused = true) :
    (requestUsers cfg refuses is xdev).2.irqs.misused = true := by
  induction is generalizing xdev with
  | nil => exact misused
  | cons i is ih =>
    have asked := @requestIrq_misused refuses _
      (cfg.vector (cfg.h2cChannelMax + cfg.c2hChannelMax + i)) (.userIrq i) misused
    simp only [requestUsers]
    rcases requested : requestIrq refuses (cfg.vector (cfg.h2cChannelMax + cfg.c2hChannelMax + i))
      (.userIrq i) xdev with ⟨granted, next⟩
    rw [requested] at asked
    cases granted with
    | false => exact asked
    | true =>
      have others := ih asked
      simp only
      rcases rest : requestUsers cfg refuses is next with ⟨allGranted, last⟩
      rw [rest] at others
      cases allGranted with
      | true => exact others
      | false => exact Registry.release_misused _ _ others

theorem irqSetup_misused (misused : xdev.irqs.misused = true) :
    (irqSetup cfg refuses xdev).2.irqs.misused = true := by
  unfold irqSetup
  split
  · have channels := @requestChannels_misused cfg refuses _ (List.range cfg.channels) misused
    rw [irqMsixChannelSetup_eq]
    rcases setup : requestChannels cfg refuses (List.range cfg.channels) xdev with ⟨granted, next⟩
    rw [setup] at channels
    cases granted with
    | false => exact channels
    | true => exact requestUsers_misused _ channels
  · exact requestIrq_misused _ _ misused
  · unfold irqLegacySetup
    split
    · exact misused
    · exact requestIrq_misused _ _ misused

theorem irqSetup_held (wired : cfg.mode = .legacy → cfg.interruptPin ≠ 0)
    (held : ∀ line ∈ cfg.lines.head?, (xdev.irqs.owner line.1).isSome) :
    (irqSetup cfg refuses xdev).2.irqs.misused = true := by
  unfold irqSetup
  cases mode : cfg.mode with
  | msix =>
    simp only [irqMsixChannelSetup_eq]
    simp only [Config.lines, mode] at held
    cases channels : cfg.channels with
    | zero =>
      obtain ⟨users, some⟩ := Nat.exists_eq_succ_of_ne_zero (Nat.ne_of_gt cfg.user_pos)
      have first : (xdev.irqs.owner (cfg.userLine 0).1).isSome := by
        apply held
        simp [Config.channelLines, Config.userLines, channels, some, List.range_succ_eq_map]
      have asked : requestIrq refuses (cfg.vector (cfg.h2cChannelMax + cfg.c2hChannelMax + 0)) (.userIrq 0) xdev =
          _ := requestIrq_held _ first
      simp only [List.range_zero, requestChannels, irqMsixUserSetup, some, List.range_succ_eq_map, requestUsers,
        asked]
      exact Registry.acquire_held _ first
    | succ channels =>
      have first : (xdev.irqs.owner (cfg.channelLine 0).1).isSome := by
        apply held
        simp [Config.channelLines, *, List.range_succ_eq_map]
      have asked : requestIrq refuses (cfg.vector 0) (.channelIrq 0) xdev = _ := requestIrq_held _ first
      simp only [List.range_succ_eq_map, requestChannels, asked]
      exact Registry.acquire_held _ first
  | msi =>
    have first : (xdev.irqs.owner cfg.irq).isSome := held (cfg.irq, .isr) (by simp [Config.lines, mode])
    have asked := @requestIrq_held refuses { xdev with irqLine := some cfg.irq } _ .isr first
    simp only [irqMsiSetup, asked]
    exact Registry.acquire_held _ first
  | legacy =>
    have first : (xdev.irqs.owner cfg.irq).isSome := held (cfg.irq, .isr) (by simp [Config.lines, mode])
    have asked := @requestIrq_held refuses { xdev with irqLine := some cfg.irq } _ .isr first
    simp only [irqLegacySetup, wired mode, if_false, asked]
    exact Registry.acquire_held _ first

def Recorded (cfg : Config) (xdev : Device) : Prop :=
  match cfg.mode with
  | .msix => ∀ j < cfg.channels, xdev.msixIrqLine j = cfg.vector j
  | .msi | .legacy => xdev.irqLine = some cfg.irq

theorem freeChannels_append {first second : List Nat} (recorded : ∀ j ∈ first, xdev.msixIrqLine j ≠ 0) :
    freeChannels (first ++ second) xdev = freeChannels second (freeChannels first xdev) := by
  induction first generalizing xdev with
  | nil => rfl
  | cons j first ih =>
    have here := recorded j List.mem_cons_self
    simp only [List.cons_append, freeChannels, here, if_false]
    exact ih fun k member => recorded k (List.mem_cons_of_mem _ member)

theorem freeChannels_recorded {js : List Nat} (recorded : ∀ j ∈ js, xdev.msixIrqLine j = cfg.vector j) :
    freeChannels js xdev = { xdev with irqs := xdev.irqs.releaseAll (js.map cfg.channelLine) } := by
  induction js generalizing xdev with
  | nil => rfl
  | cons j js ih =>
    have here := recorded j List.mem_cons_self
    simp only [freeChannels, here, cfg.vector_ne_zero, if_false]
    exact ih fun k member => recorded k (List.mem_cons_of_mem _ member)

theorem freeUsers_eq (is : List Nat) :
    freeUsers cfg is xdev = { xdev with irqs := xdev.irqs.releaseAll (is.map cfg.userLine) } := by
  induction is generalizing xdev with
  | nil => rfl
  | cons i is ih => exact ih

theorem irqTeardown_recorded (recorded : Recorded cfg xdev) :
    irqTeardown cfg xdev = { xdev with irqs := xdev.irqs.releaseAll cfg.lines } := by
  unfold irqTeardown Config.lines
  cases mode : cfg.mode with
  | msix =>
    simp only [Recorded, mode] at recorded
    have first : ∀ j ∈ List.range cfg.h2cChannelMax, xdev.msixIrqLine j ≠ 0 := by
      intro j member
      rw [recorded j (by simp [Config.channels] at member ⊢; omega)]
      exact cfg.vector_ne_zero j
    have all : ∀ j ∈ List.range cfg.channels, xdev.msixIrqLine j = cfg.vector j :=
      fun j member => recorded j (List.mem_range.mp member)
    simp only [irqMsixUserTeardown, irqMsixChannelTeardown, ← freeChannels_append first, ← cfg.channel_range,
      freeChannels_recorded all, freeUsers_eq, Registry.releaseAll_append]
    rfl
  | msi | legacy =>
    simp only [Recorded, mode] at recorded
    simp [recorded, freeIrq]

end Requests

structure Standing (cfg : Config) (claims : List (Nat × Handler)) (xdev : Device) : Prop where
  holds : xdev.irqs.Holds claims
  clean : xdev.irqs.misused = false
  recorded : Recorded cfg xdev

structure HalfHeld (cfg : Config) (xdev : Device) : Prop where
  recorded : Recorded cfg xdev
  first : ∀ line ∈ cfg.lines.head?, (xdev.irqs.owner line.1).isSome
  missing : ∃ line ∈ cfg.lines, xdev.irqs.owner line.1 ≠ some line.2

def Config.grants (cfg : Config) (refuses : Nat → Bool) : Prop := ∀ line ∈ cfg.lines, refuses line.1 = false

def Config.granted (cfg : Config) (refuses : Nat → Bool) : List Nat :=
  (List.range cfg.channels).takeWhile fun j => !refuses (cfg.vector j)

def Config.refusedAtOnce (cfg : Config) (refuses : Nat → Bool) : Bool :=
  match cfg.mode with
  | .msix => cfg.channels == 0 || refuses (cfg.vector 0)
  | .msi | .legacy => true

section Setup

variable {cfg : Config} {refuses : Nat → Bool} {xdev : Device}

theorem irqSetup_msix (mode : cfg.mode = .msix) (holds : xdev.irqs.Holds []) :
    irqSetup cfg refuses xdev =
      let asked : Device :=
        { xdev with
          irqs := xdev.irqs.acquireAll ((cfg.granted refuses).map cfg.channelLine)
          msixIrqLine := fun k => if k ∈ cfg.granted refuses then cfg.vector k else xdev.msixIrqLine k }
      if ((List.range cfg.channels).all fun j => !refuses (cfg.vector j)) = true then
        if ((List.range cfg.userMax).all fun i => !refuses (cfg.userLine i).1) = true then
          (true, { asked with irqs := asked.irqs.acquireAll cfg.userLines })
        else (false, asked)
      else (false, asked) := by
  have distinct := cfg.msixLines_distinct
  have channelsDistinct : (cfg.channelLines.map Prod.fst).Nodup := by
    rw [List.map_append, List.nodup_append] at distinct
    exact distinct.1
  have first : requestChannels cfg refuses (List.range cfg.channels) xdev =
      ((List.range cfg.channels).all fun j => !refuses (cfg.vector j),
        { xdev with
          irqs := xdev.irqs.acquireAll ((cfg.granted refuses).map cfg.channelLine)
          msixIrqLine := fun k => if k ∈ cfg.granted refuses then cfg.vector k else xdev.msixIrqLine k }) :=
    requestChannels_free holds channelsDistinct
  simp only [irqSetup, mode, irqMsixChannelSetup_eq, first]
  by_cases granted : ((List.range cfg.channels).all fun j => !refuses (cfg.vector j)) = true
  · have taken : cfg.granted refuses = List.range cfg.channels :=
      List.takeWhile_eq_self_iff.mpr (List.all_eq_true.mp granted)
    have held := (holds.acquireAll channelsDistinct).1
    rw [if_pos granted, granted, taken]
    exact requestUsers_free held distinct
  · rw [if_neg granted, Bool.eq_false_iff.mpr granted]

theorem irqSetup_granted (wired : cfg.mode = .legacy → cfg.interruptPin ≠ 0) (holds : xdev.irqs.Holds [])
    (granted : cfg.grants refuses) : ∃ irqLine msixIrqLine,
      irqSetup cfg refuses xdev =
        (true, { xdev with irqs := xdev.irqs.acquireAll cfg.lines, irqLine, msixIrqLine }) ∧
      Recorded cfg { xdev with irqs := xdev.irqs.acquireAll cfg.lines, irqLine, msixIrqLine } := by
  unfold Config.grants Config.lines at granted
  unfold Recorded Config.lines
  cases mode : cfg.mode with
  | msix =>
    simp only [mode, List.forall_mem_append] at granted
    have channels : ∀ j ∈ List.range cfg.channels, (!refuses (cfg.vector j)) = true := by
      intro j member
      have allowed : refuses (cfg.vector j) = false := granted.1 _ (List.mem_map.mpr ⟨j, member, rfl⟩)
      rw [allowed, Bool.not_false]
    have users : ∀ i ∈ List.range cfg.userMax, (!refuses (cfg.userLine i).1) = true := by
      intro i member
      have allowed := granted.2 _ (List.mem_map.mpr ⟨i, member, rfl⟩)
      rw [allowed, Bool.not_false]
    have taken : cfg.granted refuses = List.range cfg.channels := List.takeWhile_eq_self_iff.mpr channels
    refine ⟨xdev.irqLine, fun k => if k ∈ List.range cfg.channels then cfg.vector k else xdev.msixIrqLine k, ?_, ?_⟩
    · rw [irqSetup_msix mode holds]
      simp only [if_pos (List.all_eq_true.mpr channels), if_pos (List.all_eq_true.mpr users), taken]
      rw [Registry.acquireAll_append]
      rfl
    · intro j below
      simp [below]
  | msi =>
    have free := @requestIrq_free refuses { xdev with irqLine := some cfg.irq } _ .isr
      (holds.nothing cfg.irq)
    have allowed : refuses cfg.irq = false := granted (cfg.irq, .isr) (by simp [mode])
    refine ⟨some cfg.irq, xdev.msixIrqLine, ?_, rfl⟩
    simp [irqSetup, mode, irqMsiSetup, free, allowed]
  | legacy =>
    have free := @requestIrq_free refuses { xdev with irqLine := some cfg.irq } _ .isr
      (holds.nothing cfg.irq)
    have allowed : refuses cfg.irq = false := granted (cfg.irq, .isr) (by simp [mode])
    refine ⟨some cfg.irq, xdev.msixIrqLine, ?_, rfl⟩
    simp [irqSetup, mode, irqLegacySetup, wired mode, free, allowed]

theorem grants_of_all (mode : cfg.mode = .msix)
    (channels : ((List.range cfg.channels).all fun j => !refuses (cfg.vector j)) = true)
    (users : ((List.range cfg.userMax).all fun i => !refuses (cfg.userLine i).1) = true) : cfg.grants refuses := by
  intro line member
  simp only [Config.lines, mode, List.mem_append, Config.channelLines, Config.userLines, List.mem_map] at member
  rcases member with ⟨j, member, rfl⟩ | ⟨i, member, rfl⟩
  · have allowed := List.all_eq_true.mp channels j member
    rwa [Bool.not_eq_true'] at allowed
  · have allowed := List.all_eq_true.mp users i member
    rwa [Bool.not_eq_true'] at allowed

theorem irqSetup_msix_refused (mode : cfg.mode = .msix) (holds : xdev.irqs.Holds []) (refused : ¬ cfg.grants refuses) :
    irqSetup cfg refuses xdev =
      (false,
        { xdev with
          irqs := xdev.irqs.acquireAll ((cfg.granted refuses).map cfg.channelLine)
          msixIrqLine := fun k => if k ∈ cfg.granted refuses then cfg.vector k else xdev.msixIrqLine k }) := by
  rw [irqSetup_msix mode holds]
  simp only
  split_ifs with channels users
  · exact absurd (grants_of_all mode channels users) refused
  · rfl
  · rfl

theorem irqSetup_isr_refused (mode : cfg.mode ≠ .msix) (holds : xdev.irqs.Holds []) (refused : ¬ cfg.grants refuses) :
    irqSetup cfg refuses xdev = (false, { xdev with irqLine := some cfg.irq }) ∨
      irqSetup cfg refuses xdev = (false, xdev) := by
  have refusedLine : refuses cfg.irq = true := by
    by_contra allowed
    apply refused
    intro line member
    cases kind : cfg.mode with
    | msix => exact absurd kind mode
    | msi | legacy =>
      simp only [Config.lines, kind, List.mem_singleton] at member
      subst member
      simpa using allowed
  have free := @requestIrq_free refuses { xdev with irqLine := some cfg.irq } _ .isr
    (holds.nothing cfg.irq)
  rw [if_pos refusedLine] at free
  cases kind : cfg.mode with
  | msix => exact absurd kind mode
  | msi =>
    left
    simp only [irqSetup, kind, irqMsiSetup, free]
  | legacy =>
    by_cases pin : cfg.interruptPin = 0
    · right
      simp [irqSetup, kind, irqLegacySetup, pin]
    · left
      simp only [irqSetup, kind, irqLegacySetup, pin, if_false, free]

theorem irqSetup_refused_fails (holds : xdev.irqs.Holds []) (refused : ¬ cfg.grants refuses) :
    (irqSetup cfg refuses xdev).1 = false := by
  by_cases mode : cfg.mode = .msix
  · rw [irqSetup_msix_refused mode holds refused]
  · rcases irqSetup_isr_refused mode holds refused with setup | setup
    · rw [setup]
    · rw [setup]

theorem mem_granted {j : Nat} (member : j ∈ cfg.granted refuses) : refuses (cfg.vector j) = false := by
  simpa using List.mem_takeWhile_imp member

theorem granted_distinct : (((cfg.granted refuses).map cfg.channelLine).map Prod.fst).Nodup := by
  have some := cfg.vector_distinct
    ((List.takeWhile_sublist fun j => !refuses (cfg.vector j)).nodup (List.nodup_range (n := cfg.channels)))
  simpa [Config.granted, Config.channelLine, Function.comp_def] using some

theorem granted_cases (mode : cfg.mode = .msix) :
    if cfg.refusedAtOnce refuses = true then cfg.granted refuses = []
    else 0 ∈ cfg.granted refuses ∧ ∃ rest, cfg.lines = cfg.channelLine 0 :: rest := by
  simp only [Config.refusedAtOnce, mode, Bool.or_eq_true, beq_iff_eq, Config.granted, Config.lines,
    Config.channelLines]
  cases count : cfg.channels with
  | zero => simp
  | succ channels =>
    rw [List.range_succ_eq_map]
    by_cases refused : refuses (cfg.vector 0) = true
    · simp [refused]
    · simp [refused]

/-- A refused setup leaves nothing behind if the first line is refused or there are only user lines; otherwise it
    leaves some of the lines held. -/
theorem irqSetup_refused (standing : Standing cfg [] xdev) (refused : ¬ cfg.grants refuses) :
    if cfg.refusedAtOnce refuses = true then Standing cfg [] (irqSetup cfg refuses xdev).2
    else HalfHeld cfg (irqSetup cfg refuses xdev).2 := by
  have holds := standing.holds
  have recorded := standing.recorded
  by_cases mode : cfg.mode = .msix
  · rw [irqSetup_msix_refused mode holds refused]
    simp only [Recorded, mode] at recorded
    have held := holds.acquireAll (@granted_distinct cfg refuses)
    rw [List.nil_append] at held
    have remembered : Recorded cfg
        { xdev with
          irqs := xdev.irqs.acquireAll ((cfg.granted refuses).map cfg.channelLine)
          msixIrqLine := fun k => if k ∈ cfg.granted refuses then cfg.vector k else xdev.msixIrqLine k } := by
      simp only [Recorded, mode]
      intro j below
      rw [recorded j below, ite_self]
    have outcome := @granted_cases cfg refuses mode
    split_ifs with atOnce
    · rw [if_pos atOnce] at outcome
      rw [outcome] at held remembered ⊢
      exact ⟨held.1, held.2.trans standing.clean, remembered⟩
    · rw [if_neg atOnce] at outcome
      obtain ⟨first, rest, lines⟩ := outcome
      have owner := (held.1 (cfg.channelLine 0).1 (cfg.channelLine 0).2).mpr (List.mem_map.mpr ⟨0, first, rfl⟩)
      have some : ∃ line ∈ cfg.lines, refuses line.1 = true := by
        by_contra allGranted
        apply refused
        intro line member
        by_contra denied
        exact allGranted ⟨line, member, by simpa using denied⟩
      obtain ⟨line, member, denied⟩ := some
      refine ⟨remembered, ?_, line, member, ?_⟩
      · intro head isHead
        rw [lines, List.head?_cons, Option.mem_some_iff] at isHead
        subst isHead
        simp only [owner, Option.isSome_some]
      · intro lineOwner
        obtain ⟨j, taken, same⟩ := List.mem_map.mp ((held.1 line.1 line.2).mp lineOwner)
        have vector : cfg.vector j = line.1 := congrArg Prod.fst same
        have granted := mem_granted taken
        rw [vector, denied] at granted
        cases granted
  · have atOnce : cfg.refusedAtOnce refuses = true := by
      cases kind : cfg.mode with
      | msix => exact absurd kind mode
      | msi | legacy => simp only [Config.refusedAtOnce, kind]
    rw [if_pos atOnce]
    rcases irqSetup_isr_refused mode holds refused with setup | setup
    · rw [setup]
      refine ⟨holds, standing.clean, ?_⟩
      cases kind : cfg.mode with
      | msix => exact absurd kind mode
      | msi | legacy => simp only [Recorded, kind]
    · rw [setup]
      exact standing

end Setup

end CigCard.Xdma
