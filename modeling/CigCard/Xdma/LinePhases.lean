import CigCard.Xdma.IrqRestore

namespace CigCard.Xdma

open Ledger

instance (cfg : Config) (refuses : Nat → Bool) : Decidable (cfg.grants refuses) :=
  inferInstanceAs (Decidable (∀ line ∈ cfg.lines, _))

/-- What is called while a card is open. In each `online` the kernel refuses some lines. -/
inductive DeviceCall where
  | offline
  | online (refuses : Nat → Bool)
  | userIsr (call : UserIsrCall)

def DeviceCall.perform (cfg : Config) (xdev : Device) : DeviceCall → Device
  | .offline => xdmaDeviceOffline cfg xdev
  | .online refuses => xdmaDeviceOnline cfg refuses xdev
  | .userIsr call => call.perform xdev

/-- The lines of a card: all held, all free, some held of those that the driver will free, or misused at some time. -/
inductive LinePhase where
  | held
  | freed
  | half
  | spoiled
deriving DecidableEq

namespace LinePhase

def next (cfg : Config) : LinePhase → DeviceCall → LinePhase
  | .held, .offline => .freed
  | .held, .online _ => if cfg.pollMode then .held else .spoiled
  | .freed, .offline => .spoiled
  | .freed, .online refuses =>
    if cfg.pollMode then .freed
    else if cfg.grants refuses then .held
    else if cfg.refusedAtOnce refuses then .freed
    else .half
  | .half, .offline => .spoiled
  | .half, .online _ => if cfg.pollMode then .half else .spoiled
  | .spoiled, .offline | .spoiled, .online _ => .spoiled
  | phase, .userIsr _ => phase

def after (cfg : Config) (calls : List DeviceCall) : LinePhase := calls.foldl (next cfg) .held

def Describes (cfg : Config) (xdev : Device) : LinePhase → Prop
  | .held => Standing cfg cfg.lines xdev
  | .freed => Standing cfg [] xdev
  | .half => HalfHeld cfg xdev
  | .spoiled => xdev.irqs.misused = true

variable {cfg : Config} {xdev : Device}

theorem Describes.congr {phase : LinePhase} {other : Device} (describes : phase.Describes cfg xdev)
    (irqs : other.irqs = xdev.irqs) (line : other.irqLine = xdev.irqLine)
    (lines : other.msixIrqLine = xdev.msixIrqLine) : phase.Describes cfg other := by
  cases phase with
  | held => exact Standing.congr describes irqs line lines
  | freed => exact Standing.congr describes irqs line lines
  | half => exact HalfHeld.congr describes irqs line lines
  | spoiled =>
    unfold Describes
    rw [irqs]
    exact describes

theorem Describes.userIsr {phase : LinePhase} (describes : phase.Describes cfg xdev) (call : UserIsrCall) :
    phase.Describes cfg (call.perform xdev) := by
  cases call with
  | enable mask => exact describes.congr rfl rfl rfl
  | disable mask => exact describes.congr rfl rfl rfl

theorem Describes.offline {phase : LinePhase} (describes : phase.Describes cfg xdev) :
    (phase.next cfg .offline).Describes cfg (xdmaDeviceOffline cfg xdev) := by
  cases phase with
  | held => exact offline_standing describes
  | freed => exact offline_missing (Standing.recorded describes) (Standing.missing describes)
  | half => exact offline_missing (HalfHeld.recorded describes) (HalfHeld.missing describes)
  | spoiled => exact offline_misused describes

theorem Describes.polledOnline {phase : LinePhase} (poll : cfg.pollMode = true) (refuses : Nat → Bool)
    (describes : phase.Describes cfg xdev) :
    (phase.next cfg (.online refuses)).Describes cfg (xdmaDeviceOnline cfg refuses xdev) := by
  have same : phase.next cfg (.online refuses) = phase := by
    cases phase with
    | held | freed | half => simp [next, poll]
    | spoiled => rfl
  rw [same]
  simp only [xdmaDeviceOnline, poll, if_true, initEngines_eq]
  exact describes.congr rfl rfl rfl

theorem Describes.online {phase : LinePhase} (interrupts : cfg.pollMode = false)
    (wired : cfg.mode = .legacy → cfg.interruptPin ≠ 0) (refuses : Nat → Bool) (describes : phase.Describes cfg xdev) :
    (phase.next cfg (.online refuses)).Describes cfg (xdmaDeviceOnline cfg refuses xdev) := by
  unfold next
  cases phase with
  | held =>
    simp only [interrupts, Bool.false_eq_true, if_false]
    exact online_held interrupts wired (Standing.first describes)
  | freed =>
    simp only [interrupts, Bool.false_eq_true, if_false]
    by_cases granted : cfg.grants refuses
    · rw [if_pos granted]
      exact online_granted interrupts wired describes granted
    · rw [if_neg granted]
      have outcome := online_refused interrupts describes granted
      cases atOnce : cfg.refusedAtOnce refuses with
      | true =>
        rw [if_pos atOnce] at outcome
        exact outcome
      | false =>
        rw [atOnce] at outcome
        exact outcome
  | half =>
    simp only [interrupts, Bool.false_eq_true, if_false]
    exact online_held interrupts wired (HalfHeld.first describes)
  | spoiled => exact online_misused interrupts describes

theorem Describes.perform {phase : LinePhase} (wired : cfg.mode = .legacy → cfg.interruptPin ≠ 0)
    (describes : phase.Describes cfg xdev) (call : DeviceCall) :
    (phase.next cfg call).Describes cfg (call.perform cfg xdev) := by
  cases call with
  | offline => exact describes.offline
  | online refuses =>
    by_cases poll : cfg.pollMode = true
    · exact describes.polledOnline poll refuses
    · exact describes.online (Bool.eq_false_of_not_eq_true poll) wired refuses
  | userIsr call =>
    have same : phase.next cfg (.userIsr call) = phase := by
      cases phase with
      | held | freed | half | spoiled => rfl
    rw [same]
    exact describes.userIsr call

/-- Every run of calls is followed by the phases. -/
theorem Describes.run {phase : LinePhase} (wired : cfg.mode = .legacy → cfg.interruptPin ≠ 0)
    (describes : phase.Describes cfg xdev) (calls : List DeviceCall) :
    (calls.foldl (next cfg) phase).Describes cfg (calls.foldl (DeviceCall.perform cfg) xdev) := by
  induction calls generalizing phase xdev with
  | nil => exact describes
  | cons call calls ih => exact ih (describes.perform wired call)

/-- Only from the phase in which all lines are held, closing the card leaves nothing held and nothing misused. -/
theorem Describes.closed {phase : LinePhase} (describes : phase.Describes cfg xdev) :
    ((xdmaDeviceClose cfg xdev).irqs.Holds [] ∧ (xdmaDeviceClose cfg xdev).irqs.misused = false) ↔ phase = .held := by
  have down := describes.offline
  change Describes cfg (xdmaDeviceClose cfg xdev) _ at down
  cases phase with
  | held => exact iff_of_true ⟨Standing.holds down, Standing.clean down⟩ rfl
  | freed | half | spoiled =>
    apply iff_of_false
    · rintro ⟨-, clean⟩
      exact absurd (clean.symm.trans down) (by decide)
    · decide

end LinePhase

end CigCard.Xdma
