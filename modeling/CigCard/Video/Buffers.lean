import Mathlib.Data.List.Basic
import Mathlib.Tactic.IntervalCases

namespace CigCard.Video

def firstBufAddr : List Nat :=
  [0x810000000, 0x816000000, 0x81c000000, 0x822000000, 0x428000000, 0x42e000000, 0x434000000, 0x43a000000]

def bufAddrStep : Nat := 0x2000000

def bufReadyAddr : List Nat := [0x30170, 0x30174, 0x30178, 0x3017c, 0x30180, 0x30184, 0x30188, 0x3018c]

/-- The globals that `pase_arg` sets; all numbers are `uint64_t`. -/
structure Globals where
  addr : Nat
  aperture : Nat
  size : Nat
  offset : Nat
  count : Nat
  waitAddr : Nat
  channel : Nat
  card : Nat

inductive Opt where
  | channel (value : Nat)
  | card (value : Nat)
  | aperture (value : Nat)
  | addr (value : Nat)
  | size (value : Nat)
  | offset (value : Nat)
  | replay (value : Nat)
  | other
  | help

def setOption (globals : Globals) : Opt → Globals
  | .channel value => { globals with channel := value }
  | .card value => { globals with card := value % 256 }
  | .aperture value => { globals with aperture := value }
  | .addr value => { globals with addr := value }
  | .size value => { globals with size := value }
  | .offset value => { globals with offset := value % 4096 }
  | .replay value => { globals with count := value }
  | .other | .help => globals

def initialGlobals : Globals := ⟨0, 0, 0, 0, 1, 0, 0, 0⟩

/-- How `pase_arg` ends: it prints the usage text and exits, it reads past the end of an address table,
    or it leaves the globals set. -/
inductive Arguments where
  | usage
  | pastTable
  | ready (globals : Globals)

def paseArg : List Opt → Globals → Arguments
  | [], globals =>
    match firstBufAddr[globals.channel]?, bufReadyAddr[globals.channel]? with
    | some addr, some waitAddr => .ready { globals with addr, waitAddr }
    | _, _ => .pastTable
  | .help :: _, _ => .usage
  | opt :: opts, globals => paseArg opts (setOption globals opt)

def bufferAddr (addr sendCount : Nat) : Nat := addr + sendCount % 3 * bufAddrStep

def Globals.Writes (globals : Globals) (sendCount address : Nat) : Prop :=
  bufferAddr globals.addr sendCount ≤ address ∧ address < bufferAddr globals.addr sendCount + globals.size

/-- Each half of the table is evenly spaced, by three steps. -/
theorem firstBufAddr_spaced {channel addr : Nat} (entry : firstBufAddr[channel]? = some addr) :
    channel < 8 ∧ addr = (if channel < 4 then 0x810000000 else 0x428000000) + channel % 4 * (3 * bufAddrStep) := by
  have bound : channel < 8 := by
    have inside := (List.getElem?_eq_some_iff.mp entry).1
    simpa [firstBufAddr] using inside
  refine ⟨bound, ?_⟩
  simp only [bufAddrStep]
  interval_cases channel <;> simp [firstBufAddr] at entry ⊢ <;> omega

theorem paseArg_ready {opts : List Opt} {start globals : Globals} (ready : paseArg opts start = .ready globals) :
    firstBufAddr[globals.channel]? = some globals.addr := by
  induction opts generalizing start with
  | nil =>
    unfold paseArg at ready
    split at ready
    · cases ready
      assumption
    · cases ready
  | cons opt opts ih =>
    cases opt <;> first | exact ih ready | cases ready

/-- Two slots whose frames fit into a step are apart unless they are the same slot of the same channel. -/
theorem buffers_apart {channel₁ channel₂ addr₁ addr₂ count₁ count₂ : Nat}
    (entry₁ : firstBufAddr[channel₁]? = some addr₁) (entry₂ : firstBufAddr[channel₂]? = some addr₂)
    (different : channel₁ ≠ channel₂ ∨ count₁ % 3 ≠ count₂ % 3) :
    bufferAddr addr₁ count₁ + bufAddrStep ≤ bufferAddr addr₂ count₂ ∨
      bufferAddr addr₂ count₂ + bufAddrStep ≤ bufferAddr addr₁ count₁ := by
  obtain ⟨bound₁, rfl⟩ := firstBufAddr_spaced entry₁
  obtain ⟨bound₂, rfl⟩ := firstBufAddr_spaced entry₂
  simp only [bufferAddr, bufAddrStep]
  split <;> split <;> omega

/-- The frames of two processes, or two frames of one, do not touch each other's buffers as long as they
    fit into a step; nothing else about the arguments matters. -/
theorem buffers_disjoint (opts₁ opts₂ : List Opt) (globals₁ globals₂ : Globals) (count₁ count₂ : Nat)
    (ready₁ : paseArg opts₁ initialGlobals = .ready globals₁) (ready₂ : paseArg opts₂ initialGlobals = .ready globals₂)
    (fits₁ : globals₁.size ≤ bufAddrStep) (fits₂ : globals₂.size ≤ bufAddrStep)
    (different : globals₁.channel ≠ globals₂.channel ∨ count₁ % 3 ≠ count₂ % 3) (address : Nat) :
    ¬ (globals₁.Writes count₁ address ∧ globals₂.Writes count₂ address) := by
  have apart := buffers_apart (paseArg_ready ready₁) (paseArg_ready ready₂) different
  intro holds
  obtain ⟨⟨from₁, upTo₁⟩, ⟨from₂, upTo₂⟩⟩ := holds
  omega

def sized (size : Nat) : Globals := ⟨0x810000000, 0, size, 0, 1, 0x30170, 0, 0⟩

theorem sized_ready (size : Nat) : paseArg [.size size] initialGlobals = .ready (sized size) := rfl

theorem buffers_disjoint_full_hd :
    ¬ ((sized 4147200).Writes 0 0x812000000 ∧ (sized 4147200).Writes 1 0x812000000) :=
  buffers_disjoint _ _ _ _ 0 1 (sized_ready _) (sized_ready _) (by decide) (by decide) (by decide) 0x812000000

/-- The parser takes any size: with one byte more than a step the first slot reaches into the second. -/
theorem oversized_slots_overlap : paseArg [.size 0x2000001] initialGlobals = .ready (sized 0x2000001) ∧
    (0 : Nat) % 3 ≠ 1 % 3 ∧ (sized 0x2000001).Writes 0 0x812000000 ∧ (sized 0x2000001).Writes 1 0x812000000 := by
  refine ⟨sized_ready _, by decide, ?_, ?_⟩
  · constructor <;> decide
  · constructor <;> decide

example : paseArg [.channel 8] initialGlobals = .pastTable := rfl

end CigCard.Video
