import CigCard.Xdma.ApertureProgress

namespace CigCard.Xdma

/-- The device side of descriptors of which the first moves what is at offset `k` of a request: they go through the
    window again and again, and none leaves it. -/
def DeviceExact (w : Window) : Nat → List Descriptor → Prop
  | _, [] => True
  | k, desc :: descs =>
    (desc.epAddr = w.epAddr + k % w.aperture ∧ k % w.aperture + desc.bytes ≤ w.aperture) ∧
      DeviceExact w (k + desc.bytes) descs

def decideDeviceExact (w : Window) : (k : Nat) → (descs : List Descriptor) → Decidable (DeviceExact w k descs)
  | _, [] => inferInstanceAs (Decidable True)
  | k, desc :: descs =>
    have := decideDeviceExact w (k + desc.bytes) descs
    inferInstanceAs (Decidable ((_ ∧ _) ∧ DeviceExact w (k + desc.bytes) descs))

instance (w : Window) (k : Nat) (descs : List Descriptor) : Decidable (DeviceExact w k descs) :=
  decideDeviceExact w k descs

/-- A pass that begins in the window or where it ends, and the end of which, before it is cut, is an address still; or
    it is the end of both window and address space. -/
def Pass.Unwrapped (w : Window) (pass : Pass) : Prop :=
  w.epAddr ≤ pass.epAddr ∧
    (w.wrap pass.epAddr + min pass.tlen w.maxlen < 2 ^ 64 ∨
      w.wrap pass.epAddr + min pass.tlen w.maxlen = 2 ^ 64 ∧ w.epAddr + w.aperture = 2 ^ 64)

instance (w : Window) (pass : Pass) : Decidable (pass.Unwrapped w) := inferInstanceAs (Decidable (_ ∧ (_ ∨ _ ∧ _)))

/-- Each pass begins at the device address at which the one before has ended. -/
def EpChain : Nat → List Pass → Prop
  | _, [] => True
  | epAddr, pass :: passes => pass.epAddr = epAddr ∧ EpChain ((pass.desc.epAddr + pass.desc.bytes) % 2 ^ 64) passes

def epAfter (epAddr : Nat) (passes : List Pass) : Nat :=
  passes.foldl (fun _ pass => (pass.desc.epAddr + pass.desc.bytes) % 2 ^ 64) epAddr

section Chains

variable {w : Window}

theorem EpChain.append {epAddr : Nat} {front back : List Pass} (first : EpChain epAddr front)
    (second : EpChain (epAfter epAddr front) back) : EpChain epAddr (front ++ back) := by
  induction front generalizing epAddr with
  | nil => exact second
  | cons pass front ih => exact ⟨first.1, ih first.2 second⟩

theorem cutEntry_chain (room : Nat) (c : Cursor) (addr tlen : Nat) :
    EpChain c.epAddr (cutEntry w room c addr tlen).passes ∧
      (cutEntry w room c addr tlen).cursor.epAddr = epAfter c.epAddr (cutEntry w room c addr tlen).passes := by
  induction room generalizing c addr tlen with
  | zero => exact ⟨trivial, rfl⟩
  | succ room ih =>
    unfold cutEntry
    split
    · exact ⟨trivial, rfl⟩
    · obtain ⟨chain, after⟩ := ih
        ⟨(c.offset + (cutPiece w c.epAddr addr tlen).bytes) % 2 ^ 32,
          (c.sgOffset + (cutPiece w c.epAddr addr tlen).bytes) % 2 ^ 32,
          ((cutPiece w c.epAddr addr tlen).epAddr + (cutPiece w c.epAddr addr tlen).bytes) % 2 ^ 64⟩
        ((addr + (cutPiece w c.epAddr addr tlen).bytes) % 2 ^ 64)
        ((tlen + 2 ^ 32 - (cutPiece w c.epAddr addr tlen).bytes) % 2 ^ 32)
      exact ⟨⟨rfl, chain⟩, after⟩

theorem buildEntries_chain {sgMax : Nat} (sg : List SgEntry) (i room : Nat) (c : Cursor) :
    EpChain c.epAddr (buildEntries w sgMax sg i room c).passes := by
  induction sg generalizing i room c with
  | nil => trivial
  | cons entry sg ih =>
    unfold buildEntries
    split
    · obtain ⟨chain, after⟩ := @cutEntry_chain w room c ((entry.dmaAddress.toNat + c.sgOffset) % 2 ^ 64)
        ((entry.dmaLen.toNat + 2 ^ 32 - c.sgOffset) % 2 ^ 32)
      obtain ⟨cut, same⟩ : ∃ cut, cutEntry w room c ((entry.dmaAddress.toNat + c.sgOffset) % 2 ^ 64)
        ((entry.dmaLen.toNat + 2 ^ 32 - c.sgOffset) % 2 ^ 32) = cut := ⟨_, rfl⟩
      rw [same] at chain after ⊢
      dsimp only
      split
      · have rest := ih (i + 1) cut.room { cut.cursor with sgOffset := 0 }
        change EpChain cut.cursor.epAddr _ at rest
        rw [after] at rest
        exact chain.append rest
      · exact chain
    · trivial

end Chains

section Transfers

variable {w : Window}

theorem deviceExact_append (front back : List Descriptor) (k : Nat) :
    DeviceExact w k (front ++ back) ↔
      DeviceExact w k front ∧ DeviceExact w (k + (front.map Descriptor.bytes).sum) back := by
  induction front generalizing k with
  | nil => exact (true_and _).to_iff.symm
  | cons desc front ih =>
    change _ ∧ DeviceExact w _ (front ++ back) ↔ (_ ∧ DeviceExact w _ front) ∧ _
    rw [ih, List.map_cons, List.sum_cons, ← Nat.add_assoc]
    exact and_assoc.symm

structure StandsFor (w : Window) (epAddr k : Nat) : Prop where
  after : w.epAddr ≤ epAddr
  place : w.wrap epAddr = w.epAddr + k % w.aperture

theorem epAddrMax_eq (positive : 0 < w.aperture) (below : w.epAddr + w.aperture ≤ 2 ^ 64) :
    w.epAddrMax + 1 = w.epAddr + w.aperture := by
  unfold Window.epAddrMax
  omega

/-- A pass with its end before the end of the address space is in the window, and so is the next. -/
theorem cutPiece_stands (positive : 0 < w.aperture) (below : w.epAddr + w.aperture ≤ 2 ^ 64) {epAddr addr tlen k : Nat}
    (stands : StandsFor w epAddr k) (fits : w.wrap epAddr + min tlen w.maxlen < 2 ^ 64) :
    k % w.aperture + (cutPiece w epAddr addr tlen).bytes ≤ w.aperture ∧
      StandsFor w ((w.wrap epAddr + (cutPiece w epAddr addr tlen).bytes) % 2 ^ 64)
        (k + (cutPiece w epAddr addr tlen).bytes) := by
  have last := epAddrMax_eq positive below
  have inside := Nat.mod_lt k positive
  have small := w.aperture_lt
  have short := w.maxlen_le
  have place := stands.place
  have bytes : (cutPiece w epAddr addr tlen).bytes = min (min tlen w.maxlen) (w.aperture - k % w.aperture) := by
    unfold cutPiece
    dsimp only
    rw [Nat.mod_eq_of_lt fits]
    split
    · omega
    · omega
  have low : w.wrap epAddr + (cutPiece w epAddr addr tlen).bytes < 2 ^ 64 := by omega
  have sum : (k + (cutPiece w epAddr addr tlen).bytes) % w.aperture =
      (k % w.aperture + (cutPiece w epAddr addr tlen).bytes) % w.aperture := (Nat.mod_add_mod ..).symm
  have fits_window : k % w.aperture + (cutPiece w epAddr addr tlen).bytes ≤ w.aperture := by omega
  generalize (cutPiece w epAddr addr tlen).bytes = len at low sum fits_window ⊢
  refine ⟨fits_window, ?_, ?_⟩
  · rw [Nat.mod_eq_of_lt low]
    omega
  · rw [Nat.mod_eq_of_lt low, place, sum, Window.wrap]
    rcases Nat.lt_or_eq_of_le fits_window with before | ends
    · rw [if_neg (by omega), Nat.mod_eq_of_lt before, Nat.add_assoc]
    · rw [if_pos (by omega), ends, Nat.mod_self, Nat.add_zero]

/-- A pass the end of which, before it is cut, is not an address is not cut. -/
theorem cutPiece_past (positive : 0 < w.aperture) (below : w.epAddr + w.aperture ≤ 2 ^ 64) {epAddr addr tlen k : Nat}
    (stands : StandsFor w epAddr k) (past : 2 ^ 64 ≤ w.wrap epAddr + min tlen w.maxlen) :
    (cutPiece w epAddr addr tlen).bytes = min tlen w.maxlen := by
  have last := epAddrMax_eq positive below
  have inside := Nat.mod_lt k positive
  have small := w.aperture_lt
  have short := w.maxlen_le
  have place := stands.place
  unfold cutPiece
  dsimp only
  exact if_neg (by omega)

theorem Pass.OfLoop.desc_epAddr {pass : Pass} (ofLoop : pass.OfLoop w) : pass.desc.epAddr = w.wrap pass.epAddr := by
  obtain ⟨-, addr, cut⟩ := ofLoop
  rw [cut]
  rfl

/-- After the end of the address space the device addresses go on at its start. -/
theorem chain_zero_iff (ends : w.epAddr + w.aperture = 2 ^ 64) {passes : List Pass} {k : Nat}
    (ofLoop : ∀ pass ∈ passes, pass.OfLoop w) (chain : EpChain 0 passes) :
    DeviceExact w k (passes.map Pass.desc) ↔ ∀ pass ∈ passes, pass.Unwrapped w := by
  have small := w.aperture_lt
  cases passes with
  | nil => exact iff_of_true trivial (List.forall_mem_nil _)
  | cons pass passes =>
    apply iff_of_false
    · rintro ⟨⟨place, -⟩, -⟩
      have here : w.wrap 0 = 0 := if_neg (Nat.not_lt_zero _)
      rw [(ofLoop pass (List.mem_cons_self ..)).desc_epAddr, chain.1, here] at place
      omega
    · intro unwrapped
      have after := (unwrapped pass (List.mem_cons_self ..)).1
      rw [chain.1] at after
      omega

/-- In a transfer that begins where it should, the descriptors are in place if and only if no pass runs over the end of
    the address space. -/
theorem passes_deviceExact_iff (positive : 0 < w.aperture) (below : w.epAddr + w.aperture ≤ 2 ^ 64) {passes : List Pass}
    {epAddr k : Nat} (ofLoop : ∀ pass ∈ passes, pass.OfLoop w) (chain : EpChain epAddr passes)
    (stands : StandsFor w epAddr k) :
    DeviceExact w k (passes.map Pass.desc) ↔ ∀ pass ∈ passes, pass.Unwrapped w := by
  induction passes generalizing epAddr k with
  | nil => exact iff_of_true trivial (List.forall_mem_nil _)
  | cons pass passes ih =>
    obtain ⟨ofLoop_here, ofLoop⟩ := List.forall_mem_cons.mp ofLoop
    have start := ofLoop_here.desc_epAddr
    obtain ⟨-, addr, cut⟩ := ofLoop_here
    obtain ⟨here, chain⟩ := chain
    rw [List.map_cons, List.forall_mem_cons]
    rw [← here] at stands
    have place := stands.place
    by_cases fits : w.wrap pass.epAddr + min pass.tlen w.maxlen < 2 ^ 64
    · obtain ⟨inside, next⟩ := @cutPiece_stands w positive below pass.epAddr addr pass.tlen k stands fits
      rw [← cut] at inside next
      rw [start] at chain
      change (_ ∧ _) ∧ DeviceExact w (k + pass.desc.bytes) (passes.map Pass.desc) ↔ _
      rw [ih ofLoop chain next, start]
      exact and_congr (iff_of_true ⟨place, inside⟩ ⟨stands.after, .inl fits⟩) Iff.rfl
    · have whole := @cutPiece_past w positive below pass.epAddr addr pass.tlen k stands (Nat.le_of_not_lt fits)
      rw [← cut] at whole
      have small := w.aperture_lt
      by_cases ends : w.wrap pass.epAddr + min pass.tlen w.maxlen = 2 ^ 64 ∧ w.epAddr + w.aperture = 2 ^ 64
      · apply and_congr
        · exact iff_of_true ⟨start.trans place, by omega⟩ ⟨stands.after, .inr ends⟩
        · rw [start, whole, ends.1, Nat.mod_self] at chain
          exact chain_zero_iff ends.2 ofLoop chain
      · apply iff_of_false
        · rintro ⟨⟨-, inside⟩, -⟩
          exact ends (by omega)
        · rintro ⟨⟨-, unwrapped⟩, -⟩
          exact unwrapped.elim fits ends

end Transfers

section Runs

variable {w : Window}

structure ApertureTransfer.BuiltIn (w : Window) (t : ApertureTransfer) : Prop where
  descs : t.xfer.descs = t.passes.map Pass.desc
  ofLoop : ∀ pass ∈ t.passes, pass.OfLoop w
  chain : EpChain ((w.epAddr + (t.req.offset &&& (w.aperture + 2 ^ 32 - 1) % 2 ^ 32)) % 2 ^ 64) t.passes

/-- Each transfer begins at the place in the window that the bytes described before it lead to. -/
def AimedFrom (w : Window) : Nat → List ApertureTransfer → Prop
  | _, [] => True
  | k, t :: ts =>
    (t.passes = [] ∨ t.req.offset &&& (w.aperture - 1) = k % w.aperture) ∧
      AimedFrom w (k + (t.xfer.descs.map Descriptor.bytes).sum) ts

def decideAimedFrom (w : Window) : (k : Nat) → (ts : List ApertureTransfer) → Decidable (AimedFrom w k ts)
  | _, [] => inferInstanceAs (Decidable True)
  | k, t :: ts =>
    have := decideAimedFrom w (k + (t.xfer.descs.map Descriptor.bytes).sum) ts
    inferInstanceAs (Decidable ((_ ∨ _) ∧ AimedFrom w (k + (t.xfer.descs.map Descriptor.bytes).sum) ts))

instance (w : Window) (k : Nat) (ts : List ApertureTransfer) : Decidable (AimedFrom w k ts) := decideAimedFrom w k ts

theorem transfer_deviceExact_iff (positive : 0 < w.aperture) (below : w.epAddr + w.aperture ≤ 2 ^ 64)
    {t : ApertureTransfer} (built : t.BuiltIn w) (k : Nat) :
    DeviceExact w k t.xfer.descs ↔
      (t.passes = [] ∨ t.req.offset &&& (w.aperture - 1) = k % w.aperture) ∧ ∀ pass ∈ t.passes, pass.Unwrapped w := by
  have small := w.aperture_lt
  have last := epAddrMax_eq positive below
  have within : t.req.offset &&& (w.aperture - 1) ≤ w.aperture - 1 := Nat.and_le_right
  have mask : (w.aperture + 2 ^ 32 - 1) % 2 ^ 32 = w.aperture - 1 := by omega
  have chain := built.chain
  rw [mask, Nat.mod_eq_of_lt (by omega)] at chain
  have start : w.wrap (w.epAddr + (t.req.offset &&& (w.aperture - 1))) =
      w.epAddr + (t.req.offset &&& (w.aperture - 1)) := if_neg (by omega)
  rw [built.descs]
  by_cases aimed : t.req.offset &&& (w.aperture - 1) = k % w.aperture
  · have stands : StandsFor w (w.epAddr + (t.req.offset &&& (w.aperture - 1))) k :=
      ⟨Nat.le_add_right _ _, by rw [start, aimed]⟩
    rw [passes_deviceExact_iff positive below built.ofLoop chain stands]
    exact (and_iff_right (.inr aimed)).symm
  · cases passes : t.passes with
    | nil => exact iff_of_true trivial ⟨.inl rfl, List.forall_mem_nil _⟩
    | cons pass later =>
      rw [passes] at chain
      apply iff_of_false
      · rintro ⟨⟨place, -⟩, -⟩
        have ofLoop := built.ofLoop pass (by rw [passes]; exact List.mem_cons_self ..)
        rw [ofLoop.desc_epAddr, chain.1, start] at place
        exact aimed (Nat.add_left_cancel place)
      · rintro ⟨empty | aims, -⟩
        · cases empty
        · exact aimed aims

theorem transfers_deviceExact_iff (positive : 0 < w.aperture) (below : w.epAddr + w.aperture ≤ 2 ^ 64)
    {ts : List ApertureTransfer} (built : ∀ t ∈ ts, t.BuiltIn w) (k : Nat) :
    DeviceExact w k (ts.flatMap fun t => t.xfer.descs) ↔
      AimedFrom w k ts ∧ ∀ t ∈ ts, ∀ pass ∈ t.passes, pass.Unwrapped w := by
  induction ts generalizing k with
  | nil => exact iff_of_true trivial ⟨trivial, List.forall_mem_nil _⟩
  | cons t ts ih =>
    obtain ⟨built_here, built⟩ := List.forall_mem_cons.mp built
    rw [List.flatMap_cons, deviceExact_append, transfer_deviceExact_iff positive below built_here, ih built,
      List.forall_mem_cons]
    exact and_and_and_comm

theorem apertureLoop_builtIn {cfg : EngineConfig} {sgMax : Nat} {outcome : Nat → Outcome} (p : Ptr)
    (fuel k done : Nat) (e : Engine) (req : ApertureRequest) :
    ∀ t ∈ (apertureLoop cfg w sgMax outcome p fuel k done e req).transfers, t.BuiltIn w := by
  induction fuel generalizing k done e req with
  | zero => exact List.forall_mem_nil _
  | succ fuel ih =>
    have next : ∀ result, (nextTransfer cfg w sgMax result p e req).BuiltIn w := fun result =>
      ⟨apertureInit_slots _, buildEntries_ofLoop _ _ _ _, buildEntries_chain _ _ _ ⟨_, _, _⟩⟩
    by_cases more : req.offset < req.totalLen
    · by_cases something : (buildTransfer w sgMax (cfg.descMax - e.descIdx) req).passes = []
      · rw [apertureLoop_fault more something]
        exact List.forall_mem_singleton.mpr ⟨rfl, List.forall_mem_nil _, trivial⟩
      · by_cases completes : outcome k = .completed
        · obtain ⟨later, idle, -, step⟩ :=
            @apertureLoop_step cfg w sgMax outcome p k done e req more something completes
          rw [step]
          exact List.forall_mem_cons.mpr ⟨next _, ih _ _ _ _⟩
        · obtain ⟨ret, stops⟩ := @apertureLoop_stops cfg w sgMax outcome p fuel k done e req more something completes
          rw [stops]
          exact List.forall_mem_singleton.mpr (next _)
    · rw [apertureLoop_ended more]
      exact List.forall_mem_nil _

/-- Whatever becomes of its transfers, the descriptors that the call builds keep to the window in turn if and only if
    its transfers begin in turn and no pass runs over the end of the address space. -/
theorem aperture_deviceExact_iff (b : Build) (cfg : EngineConfig) (oom : Bool) (outcome : Nat → Outcome) (fuel : Nat)
    (e : Engine) (epAddr : BitVec 64) (aperture : BitVec 32) (positive : 1 ≤ aperture.toNat)
    (below : epAddr.toNat + aperture.toNat - 1 < 2 ^ 64) (sgt : MappedSg) :
    DeviceExact (apertureWindow b epAddr aperture) 0
        (xdmaXferAperture b cfg oom outcome fuel e epAddr aperture sgt).descs ↔
      AimedFrom (apertureWindow b epAddr aperture) 0
          (xdmaXferAperture b cfg oom outcome fuel e epAddr aperture sgt).transfers ∧
        ∀ t ∈ (xdmaXferAperture b cfg oom outcome fuel e epAddr aperture sgt).transfers, ∀ pass ∈ t.passes,
          pass.Unwrapped (apertureWindow b epAddr aperture) := by
  have low : (apertureWindow b epAddr aperture).epAddr + (apertureWindow b epAddr aperture).aperture ≤ 2 ^ 64 := by
    change epAddr.toNat + aperture.toNat ≤ 2 ^ 64
    omega
  apply @transfers_deviceExact_iff (apertureWindow b epAddr aperture) positive low
  unfold xdmaXferAperture
  split
  · exact List.forall_mem_nil _
  · exact apertureLoop_builtIn _ _ _ _ _ _

def pageEntry : MappedSg := ⟨[⟨0x10000, 4096⟩], by decide, by decide⟩

theorem pageEntry_deviceExact :
    DeviceExact (apertureWindow usualBuild 0x1000 4096) 0
      (xdmaXferAperture usualBuild mmEngine false (fun _ => .completed) 2 idleDriver.engine 0x1000 4096 pageEntry).descs :=
  (aperture_deviceExact_iff usualBuild mmEngine false (fun _ => .completed) 2 idleDriver.engine 0x1000 4096 (by decide)
    (by decide) pageEntry).mpr (by decide +kernel)

def twelveBytes : MappedSg := ⟨[⟨0x10000, 12⟩], by decide, by decide⟩

/-- A window of six bytes, with the end of the ring after the first of two descriptors: the second begins at the fifth
    byte of the window. -/
theorem sixBytes_not_deviceExact :
    ¬ DeviceExact (apertureWindow usualBuild 0x1000 6) 0
      (xdmaXferAperture usualBuild mmEngine false (fun _ => .completed) 3
        { idleDriver.engine with descIdx := 2047 } 0x1000 6 twelveBytes).descs := by
  decide +kernel

end Runs

section Powers

variable {w : Window}

/-- The offset of a request counts the bytes that are described, in 32 bits. -/
theorem cutEntry_offset (room : Nat) (c : Cursor) (addr tlen : Nat) (low : c.offset < 2 ^ 32) :
    (cutEntry w room c addr tlen).cursor.offset =
      (c.offset + ((cutEntry w room c addr tlen).passes.map fun pass => pass.desc.bytes).sum) % 2 ^ 32 := by
  induction room generalizing c addr tlen with
  | zero => exact (Nat.mod_eq_of_lt low).symm
  | succ room ih =>
    unfold cutEntry
    split
    · exact (Nat.mod_eq_of_lt low).symm
    · have rest := ih
        ⟨(c.offset + (cutPiece w c.epAddr addr tlen).bytes) % 2 ^ 32,
          (c.sgOffset + (cutPiece w c.epAddr addr tlen).bytes) % 2 ^ 32,
          ((cutPiece w c.epAddr addr tlen).epAddr + (cutPiece w c.epAddr addr tlen).bytes) % 2 ^ 64⟩
        ((addr + (cutPiece w c.epAddr addr tlen).bytes) % 2 ^ 64)
        ((tlen + 2 ^ 32 - (cutPiece w c.epAddr addr tlen).bytes) % 2 ^ 32) (Nat.mod_lt _ (by decide))
      dsimp only at rest ⊢
      rw [rest, List.map_cons, List.sum_cons, Nat.mod_add_mod, Nat.add_assoc]

theorem buildEntries_offset {sgMax : Nat} (sg : List SgEntry) (i room : Nat) (c : Cursor) (low : c.offset < 2 ^ 32) :
    (buildEntries w sgMax sg i room c).cursor.offset =
      (c.offset + ((buildEntries w sgMax sg i room c).passes.map fun pass => pass.desc.bytes).sum) % 2 ^ 32 := by
  induction sg generalizing i room c with
  | nil => exact (Nat.mod_eq_of_lt low).symm
  | cons entry sg ih =>
    unfold buildEntries
    split
    · have moved := @cutEntry_offset w room c ((entry.dmaAddress.toNat + c.sgOffset) % 2 ^ 64)
        ((entry.dmaLen.toNat + 2 ^ 32 - c.sgOffset) % 2 ^ 32) low
      obtain ⟨cut, same⟩ : ∃ cut, cutEntry w room c ((entry.dmaAddress.toNat + c.sgOffset) % 2 ^ 64)
        ((entry.dmaLen.toNat + 2 ^ 32 - c.sgOffset) % 2 ^ 32) = cut := ⟨_, rfl⟩
      rw [same] at moved ⊢
      dsimp only
      split
      · have rest := ih (i + 1) cut.room { cut.cursor with sgOffset := 0 }
          (by rw [moved]; exact Nat.mod_lt _ (by decide))
        dsimp only at rest ⊢
        rw [rest, moved, List.map_append, List.sum_append, Nat.mod_add_mod, Nat.add_assoc]
      · exact moved
    · exact (Nat.mod_eq_of_lt low).symm

theorem buildTransfer_offset {sgMax room : Nat} {req : ApertureRequest} (low : req.offset < 2 ^ 32) :
    (buildTransfer w sgMax room req).cursor.offset =
      (req.offset + ((buildTransfer w sgMax room req).passes.map fun pass => pass.desc.bytes).sum) % 2 ^ 32 :=
  buildEntries_offset _ _ _ ⟨_, _, _⟩ low

theorem apertureLoop_aimed {n : Nat} (bits : n ≤ 32) (power : w.aperture = 2 ^ n) {cfg : EngineConfig} {sgMax : Nat}
    {outcome : Nat → Outcome} (p : Ptr) (fuel i done : Nat) (e : Engine) (req : ApertureRequest) (k : Nat)
    (offset : req.offset = k % 2 ^ 32) :
    AimedFrom w k (apertureLoop cfg w sgMax outcome p fuel i done e req).transfers := by
  have aims : req.offset &&& (w.aperture - 1) = k % w.aperture := by
    rw [power, Nat.and_two_pow_sub_one_eq_mod, offset, Nat.mod_mod_of_dvd _ (Nat.pow_dvd_pow 2 bits)]
  induction fuel generalizing i done e req k with
  | zero => trivial
  | succ fuel ih =>
    by_cases more : req.offset < req.totalLen
    · by_cases something : (buildTransfer w sgMax (cfg.descMax - e.descIdx) req).passes = []
      · rw [apertureLoop_fault more something]
        exact ⟨.inl rfl, trivial⟩
      · by_cases completes : outcome i = .completed
        · obtain ⟨later, idle, -, step⟩ :=
            @apertureLoop_step cfg w sgMax outcome p i done e req more something completes
          have described : (nextTransfer cfg w sgMax .completed p e req).xfer.descs =
            (buildTransfer w sgMax (cfg.descMax - e.descIdx) req).descs := apertureInit_slots _
          have low : req.offset < 2 ^ 32 := by
            rw [offset]
            exact Nat.mod_lt _ (by decide)
          have moved : (req.advance (buildTransfer w sgMax (cfg.descMax - e.descIdx) req)).offset =
              (k + ((nextTransfer cfg w sgMax .completed p e req).xfer.descs.map Descriptor.bytes).sum) % 2 ^ 32 := by
            rw [described, Built.descs, List.map_map]
            have counted := @buildTransfer_offset w sgMax (cfg.descMax - e.descIdx) req low
            rw [offset, Nat.mod_add_mod] at counted
            exact counted
          rw [step]
          refine ⟨.inr aims, ih _ _ _ _ _ moved ?_⟩
          rw [power, Nat.and_two_pow_sub_one_eq_mod, moved, Nat.mod_mod_of_dvd _ (Nat.pow_dvd_pow 2 bits)]
        · obtain ⟨ret, stops⟩ := @apertureLoop_stops cfg w sgMax outcome p fuel i done e req more something completes
          rw [stops]
          exact ⟨.inr aims, trivial⟩
    · rw [apertureLoop_ended more]
      trivial

/-- For an aperture that is a power of two, every transfer begins in turn. -/
theorem aperture_aimed {n : Nat} (b : Build) (cfg : EngineConfig) (oom : Bool) (outcome : Nat → Outcome) (fuel : Nat)
    (e : Engine) (epAddr : BitVec 64) (aperture : BitVec 32) (power : aperture.toNat = 2 ^ n) (sgt : MappedSg) :
    AimedFrom (apertureWindow b epAddr aperture) 0
      (xdmaXferAperture b cfg oom outcome fuel e epAddr aperture sgt).transfers := by
  have bits : n ≤ 32 := by
    apply Nat.le_of_lt
    exact (Nat.pow_lt_pow_iff_right (by decide)).mp (power ▸ aperture.isLt)
  unfold xdmaXferAperture
  split
  · trivial
  · exact apertureLoop_aimed bits power _ _ _ _ _ _ 0 rfl

end Powers

end CigCard.Xdma
