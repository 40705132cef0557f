import CigCard.Xdma.IrqLines

namespace CigCard.Xdma

open Ledger

variable {cfg : Config} {refuses : Nat → Bool} {xdev : Device}

theorem Recorded.congr {other : Device} (recorded : Recorded cfg xdev) (line : other.irqLine = xdev.irqLine)
    (lines : other.msixIrqLine = xdev.msixIrqLine) : Recorded cfg other := by
  unfold Recorded at recorded ⊢
  rw [line, lines]
  exact recorded

theorem Standing.congr {claims : List (Nat × Handler)} {other : Device} (standing : Standing cfg claims xdev)
    (irqs : other.irqs = xdev.irqs) (line : other.irqLine = xdev.irqLine)
    (lines : other.msixIrqLine = xdev.msixIrqLine) : Standing cfg claims other := by
  refine ⟨?_, ?_, standing.recorded.congr line lines⟩
  · rw [irqs]
    exact standing.holds
  · rw [irqs]
    exact standing.clean

theorem HalfHeld.congr {other : Device} (half : HalfHeld cfg xdev) (irqs : other.irqs = xdev.irqs)
    (line : other.irqLine = xdev.irqLine) (lines : other.msixIrqLine = xdev.msixIrqLine) : HalfHeld cfg other := by
  refine ⟨half.recorded.congr line lines, ?_, ?_⟩
  · rw [irqs]
    exact half.first
  · rw [irqs]
    exact half.missing

theorem initEngines_eq : cfg.initEngines xdev =
    { xdev with
      interruptEnableMask := fun k =>
        if k < cfg.channels then engineInterruptEnable cfg.pollMode else xdev.interruptEnableMask k } := by
  unfold Config.initEngines
  change List.foldl _ _ (List.range cfg.channels) = _
  induction cfg.channels with
  | zero => simp
  | succ n ih =>
    rw [List.range_succ, List.foldl_append, ih]
    simp only [List.foldl_cons, List.foldl_nil, engineInitRegs, Device.mk.injEq, true_and]
    funext k
    by_cases last : k = n
    · simp [last]
    · have below : k < n + 1 ↔ k < n := by omega
      simp [last, below]

structure Opened (cfg : Config) (xdev : Device) : Prop where
  standing : Standing cfg cfg.lines xdev
  wired : cfg.mode = .legacy → cfg.interruptPin ≠ 0
  channels : xdev.channelIntEnable = if cfg.pollMode then 0 else ~~~0
  users : xdev.userIntEnable = xdev.maskIrqUser
  engines : ∀ k < cfg.channels, xdev.interruptEnableMask k = engineInterruptEnable cfg.pollMode

theorem Standing.acquired {irqLine : Option Nat} {msixIrqLine : Nat → Nat} (holds : xdev.irqs.Holds [])
    (clean : xdev.irqs.misused = false)
    (recorded : Recorded cfg { xdev with irqs := xdev.irqs.acquireAll cfg.lines, irqLine, msixIrqLine }) :
    Standing cfg cfg.lines { xdev with irqs := xdev.irqs.acquireAll cfg.lines, irqLine, msixIrqLine } := by
  have held := holds.acquireAll cfg.lines_distinct
  exact ⟨held.1, held.2.trans clean, recorded⟩

/-- Open succeeds when `irq_setup` does, and then only writes the channel interrupt enable. -/
theorem xdmaDeviceOpen_some {channelIntEnable userIntEnable : BitVec 32} {interruptEnableMask : Nat → BitVec 32}
    (opened : xdmaDeviceOpen cfg refuses channelIntEnable userIntEnable interruptEnableMask = some xdev) :
    let start := userInterruptsDisable (~~~0) (channelInterruptsDisable (~~~0)
      (allocDevInstance channelIntEnable userIntEnable interruptEnableMask))
    (irqSetup cfg refuses (cfg.initEngines start)).1 = true ∧
      xdev = if cfg.pollMode then (irqSetup cfg refuses (cfg.initEngines start)).2
        else channelInterruptsEnable (~~~0) (irqSetup cfg refuses (cfg.initEngines start)).2 := by
  intro start
  rcases setup : irqSetup cfg refuses (cfg.initEngines start) with ⟨succeeds, next⟩
  simp only [start] at setup
  simp only [xdmaDeviceOpen, setup] at opened
  cases succeeds with
  | false => cases opened
  | true =>
    cases opened
    exact ⟨rfl, rfl⟩

theorem open_opened {channelIntEnable userIntEnable : BitVec 32} {interruptEnableMask : Nat → BitVec 32}
    (opened : xdmaDeviceOpen cfg refuses channelIntEnable userIntEnable interruptEnableMask = some xdev) :
    Opened cfg xdev := by
  let start := userInterruptsDisable (~~~0) (channelInterruptsDisable (~~~0)
    (allocDevInstance channelIntEnable userIntEnable interruptEnableMask))
  have irqs : (cfg.initEngines start).irqs = Registry.empty := by
    rw [initEngines_eq]
    rfl
  have holds : (cfg.initEngines start).irqs.Holds [] := by
    rw [irqs]
    intro key user
    simp [Registry.empty]
  have clean : (cfg.initEngines start).irqs.misused = false := by
    rw [irqs]
    rfl
  have enables : (cfg.initEngines start).channelIntEnable = 0 ∧
      (cfg.initEngines start).userIntEnable = (cfg.initEngines start).maskIrqUser ∧
      ∀ k < cfg.channels, (cfg.initEngines start).interruptEnableMask k = engineInterruptEnable cfg.pollMode := by
    rw [initEngines_eq]
    refine ⟨?_, ?_, fun k below => if_pos below⟩
    · simp [start, userInterruptsDisable, channelInterruptsDisable]
    · simp [start, userInterruptsDisable, channelInterruptsDisable, allocDevInstance]
  obtain ⟨succeeds, open_eq⟩ := xdmaDeviceOpen_some opened
  have granted : cfg.grants refuses := by
    by_contra refused
    have fails : (irqSetup cfg refuses (cfg.initEngines start)).1 = false := irqSetup_refused_fails holds refused
    rw [fails] at succeeds
    cases succeeds
  have wired : cfg.mode = .legacy → cfg.interruptPin ≠ 0 := by
    intro mode pin
    simp [irqSetup, mode, irqLegacySetup, pin] at succeeds
  obtain ⟨irqLine, msixIrqLine, setup, recorded⟩ := irqSetup_granted wired holds granted
  have standing := Standing.acquired holds clean recorded
  rw [setup] at open_eq
  subst open_eq
  by_cases poll : cfg.pollMode = true
  · simp only [poll, if_true]
    exact ⟨standing, wired, by simpa [poll] using enables.1, enables.2.1, enables.2.2⟩
  · simp only [poll]
    refine ⟨standing.congr rfl rfl rfl, wired, ?_, enables.2.1, enables.2.2⟩
    simp only [Bool.false_eq_true, if_false, channelInterruptsEnable, enables.1, poll]
    rfl

theorem offline_irqs (recorded : Recorded cfg xdev) :
    (xdmaDeviceOffline cfg xdev).irqs = xdev.irqs.releaseAll cfg.lines ∧ Recorded cfg (xdmaDeviceOffline cfg xdev) := by
  let quiet := userInterruptsDisable (~~~0) (channelInterruptsDisable (~~~0) xdev)
  have remembered : Recorded cfg quiet := recorded.congr rfl rfl
  change (irqTeardown cfg quiet).irqs = _ ∧ Recorded cfg (irqTeardown cfg quiet)
  rw [irqTeardown_recorded remembered]
  exact ⟨rfl, remembered.congr rfl rfl⟩

theorem offline_standing (standing : Standing cfg cfg.lines xdev) : Standing cfg [] (xdmaDeviceOffline cfg xdev) := by
  obtain ⟨irqs, recorded⟩ := offline_irqs standing.recorded
  obtain ⟨holds, misused⟩ := standing.holds.releaseAll cfg.lines_distinct
  refine ⟨?_, ?_, recorded⟩
  · rw [irqs]
    exact holds
  · rw [irqs, misused]
    exact standing.clean

theorem offline_missing (recorded : Recorded cfg xdev)
    (missing : ∃ line ∈ cfg.lines, xdev.irqs.owner line.1 ≠ some line.2) :
    (xdmaDeviceOffline cfg xdev).irqs.misused = true := by
  obtain ⟨line, member, free⟩ := missing
  rw [(offline_irqs recorded).1]
  exact Registry.releaseAll_spoils member free

theorem Standing.missing (standing : Standing cfg [] xdev) :
    ∃ line ∈ cfg.lines, xdev.irqs.owner line.1 ≠ some line.2 := by
  obtain ⟨line, member⟩ := List.exists_mem_of_ne_nil _ cfg.lines_nonempty
  refine ⟨line, member, ?_⟩
  rw [standing.holds.nothing]
  simp

theorem Standing.first (standing : Standing cfg cfg.lines xdev) :
    ∀ line ∈ cfg.lines.head?, (xdev.irqs.owner line.1).isSome := by
  intro line head
  rw [(standing.holds line.1 line.2).mpr (List.mem_of_mem_head? head)]
  rfl

theorem freeChannels_misused (js : List Nat) (misused : xdev.irqs.misused = true) :
    (freeChannels js xdev).irqs.misused = true := by
  induction js generalizing xdev with
  | nil => exact misused
  | cons j js ih =>
    unfold freeChannels
    split
    · exact misused
    · exact ih (Registry.release_misused _ _ misused)

theorem offline_misused (misused : xdev.irqs.misused = true) : (xdmaDeviceOffline cfg xdev).irqs.misused = true := by
  unfold xdmaDeviceOffline irqTeardown
  split
  · unfold irqMsixUserTeardown irqMsixChannelTeardown
    rw [freeUsers_eq]
    exact Registry.releaseAll_misused _ (freeChannels_misused _ (freeChannels_misused _ misused))
  all_goals
    split
    · exact misused
    · exact Registry.release_misused _ _ misused

section Online

variable (interrupts : cfg.pollMode = false)

include interrupts

theorem online_eq : xdmaDeviceOnline cfg refuses xdev =
    let next := (irqSetup cfg refuses (cfg.initEngines xdev)).2
    userInterruptsEnable next.maskIrqUser (channelInterruptsEnable (~~~0) next) := by
  simp only [xdmaDeviceOnline, interrupts]
  rfl

theorem online_misused (misused : xdev.irqs.misused = true) :
    (xdmaDeviceOnline cfg refuses xdev).irqs.misused = true := by
  rw [online_eq interrupts, initEngines_eq]
  exact irqSetup_misused misused

theorem online_held (wired : cfg.mode = .legacy → cfg.interruptPin ≠ 0)
    (first : ∀ line ∈ cfg.lines.head?, (xdev.irqs.owner line.1).isSome) :
    (xdmaDeviceOnline cfg refuses xdev).irqs.misused = true := by
  rw [online_eq interrupts, initEngines_eq]
  exact irqSetup_held wired first

theorem online_granted (wired : cfg.mode = .legacy → cfg.interruptPin ≠ 0) (standing : Standing cfg [] xdev)
    (granted : cfg.grants refuses) : Standing cfg cfg.lines (xdmaDeviceOnline cfg refuses xdev) := by
  have start : Standing cfg [] (cfg.initEngines xdev) := by
    rw [initEngines_eq]
    exact standing.congr rfl rfl rfl
  obtain ⟨irqLine, msixIrqLine, setup, recorded⟩ := irqSetup_granted wired start.holds granted
  rw [online_eq interrupts, setup]
  exact (Standing.acquired start.holds start.clean recorded).congr rfl rfl rfl

theorem online_refused (standing : Standing cfg [] xdev) (refused : ¬ cfg.grants refuses) :
    if cfg.refusedAtOnce refuses = true then Standing cfg [] (xdmaDeviceOnline cfg refuses xdev)
    else HalfHeld cfg (xdmaDeviceOnline cfg refuses xdev) := by
  have start : Standing cfg [] (cfg.initEngines xdev) := by
    rw [initEngines_eq]
    exact standing.congr rfl rfl rfl
  have outcome := irqSetup_refused start refused
  rw [online_eq interrupts]
  split_ifs at outcome ⊢ with atOnce
  · exact outcome.congr rfl rfl rfl
  · exact outcome.congr rfl rfl rfl

end Online

/-- The calls that the OFFLINE and ONLINE ioctls and the PCI error and reset handlers make. In each `online` the
    kernel refuses some lines. -/
inductive Call where
  | offline
  | online (refuses : Nat → Bool)

def Call.perform (cfg : Config) (xdev : Device) : Call → Device
  | .offline => xdmaDeviceOffline cfg xdev
  | .online refuses => xdmaDeviceOnline cfg refuses xdev

def performAll (cfg : Config) (calls : List Call) (xdev : Device) : Device := calls.foldl (Call.perform cfg) xdev

/-- Each offline finds the lines held and each online finds none held. An online may be refused if that leaves no
    line behind. -/
def Alternating (cfg : Config) : Bool → List Call → Prop
  | held, [] => held = true
  | true, .offline :: calls => Alternating cfg false calls
  | false, .online refuses :: calls =>
    (cfg.grants refuses ∧ Alternating cfg true calls) ∨
      (¬ cfg.grants refuses ∧ cfg.refusedAtOnce refuses = true ∧ Alternating cfg false calls)
  | true, .online _ :: _ => False
  | false, .offline :: _ => False

/-- No line was ever requested while held or freed while not held, and none is held after the close. -/
def LinesBalanced (cfg : Config) (calls : List Call) (xdev : Device) : Prop :=
  let closed := xdmaDeviceClose cfg (performAll cfg calls xdev)
  closed.irqs.misused = false ∧ ∀ line, closed.irqs.owner line = none

theorem perform_misused (call : Call) (misused : xdev.irqs.misused = true) :
    (call.perform cfg xdev).irqs.misused = true := by
  cases call with
  | offline => exact offline_misused misused
  | online refuses =>
    by_cases interrupts : cfg.pollMode = false
    · exact online_misused interrupts misused
    · simp only [Bool.not_eq_false] at interrupts
      simp only [Call.perform, xdmaDeviceOnline, interrupts, if_true, initEngines_eq]
      exact misused

theorem not_balanced {calls : List Call} (misused : xdev.irqs.misused = true) : ¬ LinesBalanced cfg calls xdev := by
  intro balanced
  have final : (performAll cfg calls xdev).irqs.misused = true := by
    clear balanced
    induction calls generalizing xdev with
    | nil => exact misused
    | cons call calls ih => exact ih (perform_misused call misused)
  have closed : (xdmaDeviceClose cfg (performAll cfg calls xdev)).irqs.misused = true := offline_misused final
  rw [balanced.1] at closed
  cases closed

section Interrupts

variable (interrupts : cfg.pollMode = false) (wired : cfg.mode = .legacy → cfg.interruptPin ≠ 0)

include interrupts wired

theorem half_not_balanced {calls : List Call} (half : HalfHeld cfg xdev) : ¬ LinesBalanced cfg calls xdev := by
  cases calls with
  | nil =>
    intro balanced
    have closed : (xdmaDeviceClose cfg xdev).irqs.misused = true := offline_missing half.recorded half.missing
    exact absurd (balanced.1.symm.trans closed) (by simp)
  | cons call calls =>
    cases call with
    | offline => exact @not_balanced _ _ calls (offline_missing half.recorded half.missing)
    | online refuses => exact @not_balanced _ _ calls (online_held interrupts wired half.first)

/-- From all lines held or from none held, the lines stay balanced just when the calls alternate. -/
theorem balanced_iff_alternating (calls : List Call) :
    (Standing cfg cfg.lines xdev → (LinesBalanced cfg calls xdev ↔ Alternating cfg true calls)) ∧
      (Standing cfg [] xdev → (LinesBalanced cfg calls xdev ↔ Alternating cfg false calls)) := by
  induction calls generalizing xdev with
  | nil =>
    refine ⟨fun standing => ?_, fun standing => ?_⟩
    · have closed : Standing cfg [] (xdmaDeviceClose cfg xdev) := offline_standing standing
      exact ⟨fun _ => rfl, fun _ => ⟨closed.clean, closed.holds.nothing⟩⟩
    · have closed : (xdmaDeviceClose cfg xdev).irqs.misused = true :=
        offline_missing standing.recorded standing.missing
      refine ⟨fun balanced => ?_, fun alternating => by cases alternating⟩
      exact absurd (balanced.1.symm.trans closed) (by simp)
  | cons call calls ih =>
    refine ⟨fun standing => ?_, fun standing => ?_⟩
    · cases call with
      | offline => exact ih.2 (offline_standing standing)
      | online refuses =>
        have spoiled : ¬ LinesBalanced cfg calls (xdmaDeviceOnline cfg refuses xdev) :=
          not_balanced (online_held interrupts wired standing.first)
        exact ⟨fun balanced => absurd balanced spoiled, fun alternating => alternating.elim⟩
    · cases call with
      | offline =>
        have spoiled : ¬ LinesBalanced cfg calls (xdmaDeviceOffline cfg xdev) :=
          not_balanced (offline_missing standing.recorded standing.missing)
        exact ⟨fun balanced => absurd balanced spoiled, fun alternating => alternating.elim⟩
      | online refuses =>
        change LinesBalanced cfg calls (xdmaDeviceOnline cfg refuses xdev) ↔ _
        simp only [Alternating]
        by_cases granted : cfg.grants refuses
        · rw [ih.1 (online_granted interrupts wired standing granted)]
          simp [granted]
        · have outcome := online_refused interrupts standing granted
          split_ifs at outcome with atOnce
          · rw [ih.2 outcome]
            simp [granted, atOnce]
          · have spoiled := @half_not_balanced _ _ interrupts wired calls outcome
            simp [granted, atOnce, spoiled]

end Interrupts

/-- In poll mode an online requests nothing, so any offline call frees lines that the close frees again. -/
theorem balanced_iff_never_offline (poll : cfg.pollMode = true) (calls : List Call)
    (standing : Standing cfg cfg.lines xdev) :
    LinesBalanced cfg calls xdev ↔ ∀ call ∈ calls, call ≠ .offline := by
  have freed : ∀ (calls : List Call) (xdev : Device), Standing cfg [] xdev → ¬ LinesBalanced cfg calls xdev := by
    intro calls
    induction calls with
    | nil =>
      intro xdev standing balanced
      have closed : (xdmaDeviceClose cfg xdev).irqs.misused = true :=
        offline_missing standing.recorded standing.missing
      exact absurd (balanced.1.symm.trans closed) (by simp)
    | cons call calls ih =>
      intro xdev standing
      cases call with
      | offline => exact @not_balanced _ _ calls (offline_missing standing.recorded standing.missing)
      | online refuses =>
        apply ih (xdmaDeviceOnline cfg refuses xdev)
        simp only [xdmaDeviceOnline, poll, if_true, initEngines_eq]
        exact standing.congr rfl rfl rfl
  induction calls generalizing xdev with
  | nil =>
    have closed : Standing cfg [] (xdmaDeviceClose cfg xdev) := offline_standing standing
    have balanced : LinesBalanced cfg [] xdev := ⟨closed.clean, closed.holds.nothing⟩
    simp [balanced]
  | cons call calls ih =>
    cases call with
    | offline =>
      have spoiled := freed calls _ (offline_standing standing)
      exact ⟨fun balanced => absurd balanced spoiled, fun never => absurd rfl (never _ List.mem_cons_self)⟩
    | online refuses =>
      have next : Standing cfg cfg.lines (xdmaDeviceOnline cfg refuses xdev) := by
        simp only [xdmaDeviceOnline, poll, if_true, initEngines_eq]
        exact standing.congr rfl rfl rfl
      have rest : LinesBalanced cfg calls (xdmaDeviceOnline cfg refuses xdev) ↔ ∀ call ∈ calls, call ≠ .offline :=
        ih next
      exact rest.trans (by simp)

theorem lines_balanced_iff {cfg : Config} {refuses : Nat → Bool} {channelIntEnable userIntEnable : BitVec 32}
    {interruptEnableMask : Nat → BitVec 32} {xdev : Device}
    (opened : xdmaDeviceOpen cfg refuses channelIntEnable userIntEnable interruptEnableMask = some xdev)
    (calls : List Call) :
    LinesBalanced cfg calls xdev ↔
      if cfg.pollMode = true then ∀ call ∈ calls, call ≠ .offline else Alternating cfg true calls := by
  have state := open_opened opened
  split_ifs with poll
  · exact balanced_iff_never_offline poll calls state.standing
  · exact (balanced_iff_alternating (by simpa using poll) state.wired calls).1 state.standing

/-- The driver is removed while the device is offline: every line is freed twice. -/
theorem close_while_offline : ∃ xdev,
    xdmaDeviceOpen (smallCard.config false 2 1 1) (fun _ => false) 0 0 (fun _ => 0) = some xdev ∧
      ¬ LinesBalanced (smallCard.config false 2 1 1) [.offline] xdev := by
  refine ⟨_, rfl, ?_⟩
  intro balanced
  exact absurd balanced.1 (by decide)

theorem offline_online_balanced : ∃ xdev,
    xdmaDeviceOpen (smallCard.config false 2 1 1) (fun _ => false) 0 0 (fun _ => 0) = some xdev ∧
      LinesBalanced (smallCard.config false 2 1 1) [.offline, .online fun _ => false] xdev := by
  refine ⟨_, rfl, ?_⟩
  apply (@lines_balanced_iff _ (fun _ => false) 0 0 (fun _ => 0) _ rfl _).mpr
  have alternating : Alternating (smallCard.config false 2 1 1) true [.offline, .online fun _ => false] :=
    Or.inl ⟨fun _ _ => rfl, rfl⟩
  exact alternating

end CigCard.Xdma
