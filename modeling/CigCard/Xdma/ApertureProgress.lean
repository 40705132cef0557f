import CigCard.Xdma.ApertureHost

namespace CigCard.Xdma

variable {b : Build} {cfg : EngineConfig} {e : Engine} {epAddr : BitVec 64} {aperture : BitVec 32} {sgt : MappedSg}

theorem apertureRequest_agrees (short : sgt.totalLen < 2 ^ 32) : CursorsAgree sgt.entries (apertureRequest sgt) := by
  have start : restOf sgt.entries (apertureRequest sgt) = sgt.bytes := bytesFrom_zero sgt.entries
  have total : (apertureRequest sgt).totalLen = sgt.totalLen := Nat.mod_eq_of_lt short
  refine ⟨rfl, ?_, ?_, Nat.mod_lt _ (by decide), .inl rfl, fun later => absurd rfl later⟩
  · rw [start, total, sgt.bytes_length]
    exact Nat.zero_add _
  · rw [total, ← sgt.bytes_length]
    rfl

def completedAperture (b : Build) (cfg : EngineConfig) (e : Engine) (epAddr : BitVec 64) (aperture : BitVec 32)
    (sgt : MappedSg) (fuel : Nat) : ApertureRun :=
  xdmaXferAperture b cfg false (fun _ => .completed) fuel e epAddr aperture sgt

theorem completedAperture_eq (fuel : Nat) :
    completedAperture b cfg e epAddr aperture sgt fuel =
      apertureLoop cfg (apertureWindow b epAddr aperture) sgt.entries.length (fun _ => .completed) ⟨0, 0⟩ fuel 0 0 e
        (apertureRequest sgt) := rfl

/-- Every pass of the loop over the transfers finds the entry that it counts where `req->sg` points to, and cuts no
    piece off the end of an entry. -/
def ApertureInStep (b : Build) (cfg : EngineConfig) (e : Engine) (epAddr : BitVec 64) (aperture : BitVec 32)
    (sgt : MappedSg) : Prop :=
  ∀ fuel, ∀ t ∈ (completedAperture b cfg e epAddr aperture sgt fuel).transfers,
    t.InStep (apertureWindow b epAddr aperture)

/-- Every pass of the loop over the transfers moves the request on, all transfers completing, and the loop comes to its
    end with the request at its end. -/
structure ApertureProgress (b : Build) (cfg : EngineConfig) (e : Engine) (epAddr : BitVec 64) (aperture : BitVec 32)
    (sgt : MappedSg) : Prop where
  each : ∀ fuel, ∀ t ∈ (completedAperture b cfg e epAddr aperture sgt fuel).transfers, t.Progresses
  ends : ∃ fuel ret, (completedAperture b cfg e epAddr aperture sgt fuel).ended = .returned ret ∧
    (completedAperture b cfg e epAddr aperture sgt fuel).req.offset = sgt.totalLen

/-- With an aperture of no bytes, the first transfer has none. -/
theorem zero_aperture_stalls (short : sgt.totalLen < 2 ^ 32) (some_bytes : sgt.totalLen ≠ 0) :
    ¬ ApertureProgress b cfg e epAddr 0 sgt := by
  intro progress
  have more : (apertureRequest sgt).offset < (apertureRequest sgt).totalLen := by
    change 0 < sgt.totalLen % 2 ^ 32
    omega
  have each := progress.each 1
  rw [completedAperture_eq] at each
  by_cases something : (buildTransfer (apertureWindow b epAddr 0) sgt.entries.length (cfg.descMax - e.descIdx)
      (apertureRequest sgt)).passes = []
  · rw [apertureLoop_fault more something] at each
    exact (each _ (List.mem_singleton_self _)).something rfl
  · obtain ⟨later, idle, -, step⟩ := @apertureLoop_step cfg (apertureWindow b epAddr 0) sgt.entries.length
      (fun _ => .completed) ⟨0, 0⟩ 0 0 e (apertureRequest sgt) more something rfl
    rw [step] at each
    have positive := (each _ (List.mem_cons_self ..)).positive
    obtain ⟨pass, member⟩ := List.exists_mem_of_ne_nil _ something
    obtain ⟨-, addr, cut⟩ := buildEntries_ofLoop _ _ _ _ pass member
    have some_cut := positive pass member
    rw [cut, cutPiece_zero rfl] at some_cut
    exact absurd some_cut (Nat.lt_irrefl 0)

theorem empty_progresses (empty : sgt.totalLen = 0) : ApertureProgress b cfg e epAddr aperture sgt := by
  have ended : ¬ (apertureRequest sgt).offset < (apertureRequest sgt).totalLen := by
    change ¬ 0 < sgt.totalLen % 2 ^ 32
    rw [empty]
    exact Nat.lt_irrefl 0
  refine ⟨?_, 1, doneOr 0 0, ?_⟩
  · intro fuel
    rw [completedAperture_eq]
    cases fuel with
    | zero => exact List.forall_mem_nil _
    | succ fuel =>
      rw [apertureLoop_ended ended]
      exact List.forall_mem_nil _
  · rw [completedAperture_eq, apertureLoop_ended ended]
    exact ⟨rfl, empty.symm⟩

theorem inStep_progresses (cursor : e.descIdx < cfg.descMax) (short : sgt.totalLen < 2 ^ 32) (nonzero : aperture ≠ 0)
    (inStep : ApertureInStep b cfg e epAddr aperture sgt) : ApertureProgress b cfg e epAddr aperture sgt := by
  have agree := apertureRequest_agrees short
  have positive : 0 < (apertureWindow b epAddr aperture).aperture := by
    apply Nat.pos_of_ne_zero
    intro zero
    exact nonzero (BitVec.eq_of_toNat_eq zero)
  constructor
  · intro fuel
    exact apertureLoop_progresses positive _ _ _ _ _ _ agree cursor (inStep fuel)
  · let fuel := (restOf sgt.entries (apertureRequest sgt)).length + 1
    obtain ⟨⟨ret, ended⟩, -, offset⟩ :=
      apertureLoop_whole positive ⟨0, 0⟩ fuel 0 0 e _ agree cursor (Nat.lt_succ_self _) (inStep fuel)
    exact ⟨fuel, ret, ended, offset.trans (Nat.mod_eq_of_lt short)⟩

/-- Where every pass of the loop over the transfers is in step, all of them move the request on and the loop ends,
    exactly if the aperture has a byte or there is none to move. -/
theorem aperture_progress_iff (b : Build) (cfg : EngineConfig) (e : Engine) (cursor : e.descIdx < cfg.descMax)
    (epAddr : BitVec 64) (aperture : BitVec 32) (sgt : MappedSg) (short : sgt.totalLen < 2 ^ 32)
    (inStep : ApertureInStep b cfg e epAddr aperture sgt) :
    ApertureProgress b cfg e epAddr aperture sgt ↔ aperture ≠ 0 ∨ sgt.totalLen = 0 := by
  constructor
  · intro progress
    by_contra neither
    simp only [not_or, not_not] at neither
    obtain ⟨rfl, some_bytes⟩ := neither
    exact zero_aperture_stalls short some_bytes progress
  · rintro (nonzero | empty)
    · exact inStep_progresses cursor short nonzero inStep
    · exact empty_progresses empty

def oneEntry : MappedSg := ⟨[⟨0x10000, 64⟩], by decide, by decide⟩

theorem oneEntry_inStep : ApertureInStep usualBuild mmEngine idleDriver.engine 0x1000 4096 oneEntry := by
  have returned : (completedAperture usualBuild mmEngine idleDriver.engine 0x1000 4096 oneEntry 2).ended =
      .returned 64 := by decide +kernel
  intro fuel t member
  rw [completedAperture_eq] at returned member
  have among := (apertureLoop_front returned fuel).subset member
  have fine : ∀ t ∈ (completedAperture usualBuild mmEngine idleDriver.engine 0x1000 4096 oneEntry 2).transfers,
      t.InStep (apertureWindow usualBuild 0x1000 4096) := by decide +kernel
  exact fine t among

/-- All passes move on. -/
theorem oneEntry_progresses : ApertureProgress usualBuild mmEngine idleDriver.engine 0x1000 4096 oneEntry :=
  (aperture_progress_iff usualBuild mmEngine idleDriver.engine (by decide) 0x1000 4096 oneEntry (by decide)
    oneEntry_inStep).mpr (.inl (by decide))

/-- An aperture of no bytes, which the ioctl does not refuse. -/
theorem zero_aperture_no_progress : ¬ ApertureProgress usualBuild mmEngine idleDriver.engine 0x1000 0 oneEntry :=
  zero_aperture_stalls (by decide) (by decide)

end CigCard.Xdma
