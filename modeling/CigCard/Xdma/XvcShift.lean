import CigCard.Xdma.Xvc

namespace CigCard.Xdma

open ByteMemory

section Block

variable {jtag : Jtag}

theorem pollDone_iff (count busy : Nat) : pollDone count busy = true ↔ busy < count := by
  induction count generalizing busy with
  | zero => simp [pollDone]
  | succ count ih =>
    cases busy with
    | zero => simp [pollDone]
    | succ busy => rw [pollDone, ih, Nat.add_lt_add_iff_right]

theorem answers_getD (driven pins : List (Bool × Bool)) (i : Nat) (bound : i < pins.length) :
    (answers jtag driven pins).getD i false = jtag.answer (driven ++ pins.take (i + 1)) := by
  induction pins generalizing driven i with
  | nil => cases bound
  | cons pin pins ih =>
    cases i with
    | zero => rfl
    | succ i =>
      rw [answers, List.getD_cons_succ, ih _ _ (Nat.lt_of_succ_lt_succ bound), List.take_succ_cons, List.append_assoc,
        List.singleton_append]

theorem shift_tdo (block : ShiftBlock) (i : Nat) (bound : i < block.length.toNat) (word : i < 32) :
    (block.shift jtag).tdo.getLsbD i = jtag.answer (block.driven ++
      (List.range (i + 1)).map fun j => (block.tms.getLsbD j, block.tdi.getLsbD j)) := by
  have inside : i < ((List.range block.length.toNat).map fun j => (block.tms.getLsbD j, block.tdi.getLsbD j)).length := by
    rw [List.length_map, List.length_range]
    exact bound
  unfold ShiftBlock.shift
  dsimp only
  rw [BitVec.getLsbD_setWidth, BitVec.getLsbD_ofBoolListLE, answers_getD _ _ _ inside, ← List.map_take, List.take_range,
    Nat.min_eq_left bound]
  simp [word]

theorem word_getLsbD (buf : Memory) (bytes count i : Nat) (bound : i < 8 * count) (word : i < 32) :
    (BitVec.ofNat 32 (number buf bytes count)).getLsbD i = bit buf (8 * bytes + i) := by
  rw [BitVec.getLsbD_ofNat, number_testBit _ _ _ _ bound]
  simp [word]

end Block

section Round

variable {jtag : Jtag} {tmsBuf tdiBuf : Memory} {totalBits : BitVec 32} {k : Nat} {run next : XvcRun}
  {before : List (Bool × Bool)} {old : List (BitVec 32)}

def pinBits (tmsBuf tdiBuf : Memory) (count : Nat) : List (Bool × Bool) :=
  (List.range count).map fun i => (bit tmsBuf i, bit tdiBuf i)

def wordBits (totalBits k : Nat) : Nat := min 32 (totalBits - 32 * k)

structure Shifted (jtag : Jtag) (tmsBuf tdiBuf : Memory) (before : List (Bool × Bool)) (old : List (BitVec 32))
    (totalBits k : Nat) (run : XvcRun) : Prop where
  driven : run.block.driven = before ++ pinBits tmsBuf tdiBuf (min (32 * k) totalBits)
  transactions : run.block.transactions = old ++ (List.range k).map fun j => BitVec.ofNat 32 (wordBits totalBits j)
  tdo : ∀ i, i < min (32 * k) totalBits → bit run.tdoBuf i = jtag.answer (before ++ pinBits tmsBuf tdiBuf (i + 1))
  length : 32 * k + 32 ≤ totalBits → run.block.length = 32

theorem xvcTotalBytes_eq (short : totalBits.toNat + 8 ≤ 2 ^ 32) :
    (xvcTotalBytes totalBits).toNat = (totalBits.toNat + 7) / 8 := by
  rw [xvcTotalBytes, BitVec.toNat_ushiftRight, BitVec.toNat_add, Nat.shiftRight_eq_div_pow]
  change (totalBits.toNat + 7) % 2 ^ 32 / 2 ^ 3 = _
  rw [Nat.mod_eq_of_lt (by omega)]

theorem xvcTotalBytes_wraps (long : 2 ^ 32 < totalBits.toNat + 8) : xvcTotalBytes totalBits = 0 := by
  have below := totalBits.isLt
  apply BitVec.eq_of_toNat_eq
  rw [xvcTotalBytes, BitVec.toNat_ushiftRight, BitVec.toNat_add, Nat.shiftRight_eq_div_pow]
  change (totalBits.toNat + 7) % 2 ^ 32 / 2 ^ 3 = 0
  omega

/-- Where the word at a place lies: `bits`, `bits_left`, and the number of bytes that are copied. -/
theorem word_place (more : 32 * k < totalBits.toNat) :
    (BitVec.ofNat 32 (32 * k) >>> 3).toNat = 4 * k ∧
    (totalBits - BitVec.ofNat 32 (32 * k)).toNat = totalBits.toNat - 32 * k := by
  have below := totalBits.isLt
  have bits : (BitVec.ofNat 32 (32 * k)).toNat = 32 * k := Nat.mod_eq_of_lt (by omega)
  constructor
  · rw [BitVec.toNat_ushiftRight, bits, Nat.shiftRight_eq_div_pow]
    omega
  · rw [BitVec.toNat_sub, bits]
    omega

theorem shiftBytes_eq {bitsLeft : BitVec 32} :
    (if bitsLeft < 32 then ((bitsLeft + 7) >>> 3).toNat else 4) = (min 32 bitsLeft.toNat + 7) / 8 := by
  split
  · next few =>
    have short : bitsLeft.toNat < 32 := BitVec.lt_def.mp few
    rw [BitVec.toNat_ushiftRight, BitVec.toNat_add, Nat.shiftRight_eq_div_pow]
    change (bitsLeft.toNat + 7) % 2 ^ 32 / 2 ^ 3 = _
    omega
  · next many =>
    have long : ¬ bitsLeft.toNat < 32 := fun few => many (BitVec.lt_def.mpr few)
    omega

theorem xvcRound_eq (short : totalBits.toNat + 8 ≤ 2 ^ 32) (more : 32 * k < totalBits.toNat) (run : XvcRun) :
    ∃ block, (run.block.length = 32 ∨ totalBits.toNat < 32 * k + 32 →
        block.length = BitVec.ofNat 32 (wordBits totalBits.toNat k)) ∧
      block = { run.block with length := block.length } ∧
      xvcRound jtag tmsBuf tdiBuf (xvcTotalBytes totalBits) (BitVec.ofNat 32 (32 * k))
          (totalBits - BitVec.ofNat 32 (32 * k)) run =
        match xvcShiftBits jtag (BitVec.ofNat 32 (number tmsBuf (4 * k) ((wordBits totalBits.toNat k + 7) / 8)))
          (BitVec.ofNat 32 (number tdiBuf (4 * k) ((wordBits totalBits.toNat k + 7) / 8))) block with
        | (none, block) => .ok (false, { run with block })
        | (some tdoStore, block) => .ok (true,
            ⟨block, store run.tdoBuf (4 * k) (leBytes ((wordBits totalBits.toNat k + 7) / 8) tdoStore.toNat)⟩) := by
  obtain ⟨bytes, left⟩ := @word_place totalBits k more
  have count := @shiftBytes_eq (totalBits - BitVec.ofNat 32 (32 * k))
  rw [left] at count
  refine ⟨if totalBits - BitVec.ofNat 32 (32 * k) < 32 then
    { run.block with length := totalBits - BitVec.ofNat 32 (32 * k) } else run.block, ?_, ?_, ?_⟩
  · intro ready
    split
    · next few =>
      have less : (totalBits - BitVec.ofNat 32 (32 * k)).toNat < 32 := BitVec.lt_def.mp few
      apply BitVec.eq_of_toNat_eq
      rw [left] at less
      rw [left, BitVec.toNat_ofNat, wordBits]
      omega
    · next many =>
      have long : ¬ (totalBits - BitVec.ofNat 32 (32 * k)).toNat < 32 := fun few => many (BitVec.lt_def.mpr few)
      rw [left] at long
      have whole : wordBits totalBits.toNat k = 32 := by
        unfold wordBits
        omega
      rw [whole]
      exact ready.resolve_right (by omega)
  · split
    · rfl
    · rfl
  · unfold xvcRound
    dsimp only
    rw [count, bytes, xvcTotalBytes_eq short]
    change (if (totalBits.toNat + 7) / 8 < 4 * k + (wordBits totalBits.toNat k + 7) / 8 then _ else _) = _
    rw [if_neg (by unfold wordBits; omega)]
    rfl

theorem pinBits_add (tmsBuf tdiBuf : Memory) (first second : Nat) :
    pinBits tmsBuf tdiBuf (first + second) =
      pinBits tmsBuf tdiBuf first ++ (List.range second).map fun i => (bit tmsBuf (first + i), bit tdiBuf (first + i)) := by
  unfold pinBits
  rw [List.range_add, List.map_append, List.map_map]
  rfl

/-- A transaction of the word at a place drives the bits of that word. -/
theorem shift_driven {block : ShiftBlock} {count : Nat} (few : count ≤ 32)
    (tms : block.tms = BitVec.ofNat 32 (number tmsBuf (4 * k) ((count + 7) / 8)))
    (tdi : block.tdi = BitVec.ofNat 32 (number tdiBuf (4 * k) ((count + 7) / 8))) {i : Nat} (bound : i ≤ count) :
    ((List.range i).map fun j => (block.tms.getLsbD j, block.tdi.getLsbD j)) =
      (List.range i).map fun j => (bit tmsBuf (32 * k + j), bit tdiBuf (32 * k + j)) := by
  apply List.map_congr_left
  intro j member
  have below := List.mem_range.mp member
  have place : 8 * (4 * k) + j = 32 * k + j := by omega
  rw [tms, tdi, word_getLsbD _ _ _ _ (by omega) (by omega), word_getLsbD _ _ _ _ (by omega) (by omega), place]

theorem shifted_next {block : ShiftBlock} (shifted : Shifted jtag tmsBuf tdiBuf before old totalBits.toNat k run)
    (more : 32 * k < totalBits.toNat) (kept : block.driven = run.block.driven ∧
      block.transactions = run.block.transactions)
    (length : block.length = BitVec.ofNat 32 (wordBits totalBits.toNat k))
    (tms : block.tms = BitVec.ofNat 32 (number tmsBuf (4 * k) ((wordBits totalBits.toNat k + 7) / 8)))
    (tdi : block.tdi = BitVec.ofNat 32 (number tdiBuf (4 * k) ((wordBits totalBits.toNat k + 7) / 8))) :
    Shifted jtag tmsBuf tdiBuf before old totalBits.toNat (k + 1)
      ⟨block.shift jtag, store run.tdoBuf (4 * k)
        (leBytes ((wordBits totalBits.toNat k + 7) / 8) (block.shift jtag).tdo.toNat)⟩ := by
  obtain ⟨driven, transactions⟩ := kept
  have few : wordBits totalBits.toNat k ≤ 32 := Nat.min_le_left _ _
  have count : block.length.toNat = wordBits totalBits.toNat k := by
    rw [length]
    exact Nat.mod_eq_of_lt (by omega)
  have before_eq : min (32 * k) totalBits.toNat = 32 * k := Nat.min_eq_left more.le
  have after_eq : min (32 * (k + 1)) totalBits.toNat = 32 * k + wordBits totalBits.toNat k := by
    unfold wordBits
    omega
  have history : block.driven = before ++ pinBits tmsBuf tdiBuf (32 * k) := by
    rw [driven, shifted.driven, before_eq]
  constructor
  · change block.driven ++ (List.range block.length.toNat).map _ = _
    rw [history, count, shift_driven few tms tdi (Nat.le_refl _), after_eq, pinBits_add, List.append_assoc]
  · change block.transactions ++ [block.length] = _
    rw [transactions, shifted.transactions, length, List.append_assoc, List.range_succ, List.map_append]
    rfl
  · rw [after_eq]
    intro i bound
    by_cases early : i < 32 * k
    · rw [bit_store_below _ _ _ _ (by omega)]
      exact shifted.tdo i (by omega)
    · obtain ⟨j, rfl⟩ : ∃ j, i = 32 * k + j := ⟨i - 32 * k, by omega⟩
      have place : 32 * k + j = 8 * (4 * k) + j := by omega
      have inside : j < block.length.toNat := by omega
      change bit (store _ _ _) (32 * k + j) = _
      rw [place, bit_store_leBytes _ _ _ _ _ (by omega), BitVec.testBit_toNat, shift_tdo _ _ inside (by omega),
        shift_driven few tms tdi (by omega), history, List.append_assoc, ← pinBits_add, ← place, Nat.add_assoc]
  · intro another
    change block.length = 32
    have whole : wordBits totalBits.toNat k = 32 := by
      unfold wordBits
      omega
    rw [length, whole]
    rfl

/-- One round: it shifts the word at its place, or finds the block too slow. -/
theorem xvcRound_spec (short : totalBits.toNat + 8 ≤ 2 ^ 32) (more : 32 * k < totalBits.toNat) (run : XvcRun) :
    ∃ next, xvcRound jtag tmsBuf tdiBuf (xvcTotalBytes totalBits) (BitVec.ofNat 32 (32 * k))
        (totalBits - BitVec.ofNat 32 (32 * k)) run =
          .ok (pollDone completionLoopMax (jtag.busy run.block.transactions.length), next) ∧
      next.block.transactions.length = run.block.transactions.length + 1 ∧
      (pollDone completionLoopMax (jtag.busy run.block.transactions.length) = true →
        Shifted jtag tmsBuf tdiBuf before old totalBits.toNat k run →
        Shifted jtag tmsBuf tdiBuf before old totalBits.toNat (k + 1) next) := by
  obtain ⟨block, length, same, round⟩ := @xvcRound_eq jtag tmsBuf tdiBuf totalBits k short more run
  have transactions : block.transactions = run.block.transactions := by rw [same]
  have driven : block.driven = run.block.driven := by rw [same]
  rw [round]
  unfold xvcShiftBits
  dsimp only
  rw [transactions]
  cases done : pollDone completionLoopMax (jtag.busy run.block.transactions.length) with
  | false =>
    refine ⟨_, rfl, ?_, fun ready => absurd ready (by decide)⟩
    exact List.length_append
  | true =>
    refine ⟨_, rfl, ?_, fun _ shifted => ?_⟩
    · exact List.length_append
    · refine shifted_next shifted more ⟨driven, rfl⟩ (length ?_) rfl rfl
      by_cases another : 32 * k + 32 ≤ totalBits.toNat
      · exact .inl (shifted.length another)
      · exact .inr (not_le.mp another)

end Round

section Loop

variable {jtag : Jtag} {tmsBuf tdiBuf : Memory} {totalBits : BitVec 32} {k : Nat} {run : XvcRun}
  {before : List (Bool × Bool)} {old : List (BitVec 32)}

theorem bits_next (k : Nat) : BitVec.ofNat 32 (32 * k) + 32 = BitVec.ofNat 32 (32 * (k + 1)) := by
  rw [Nat.mul_succ, BitVec.ofNat_add]
  rfl

theorem bitsLeft_next (totalBits : BitVec 32) (k : Nat) :
    totalBits - BitVec.ofNat 32 (32 * k) - 32 = totalBits - BitVec.ofNat 32 (32 * (k + 1)) := by
  rw [← bits_next, sub_sub]

/-- The counters of the loop come round after 2^27 words. -/
theorem bits_wrap (k : Nat) : BitVec.ofNat 32 (32 * k) = BitVec.ofNat 32 (32 * (k % 2 ^ 27)) := by
  apply BitVec.eq_of_toNat_eq
  rw [BitVec.toNat_ofNat, BitVec.toNat_ofNat]
  omega

theorem counter_lt_iff (short : totalBits.toNat + 32 ≤ 2 ^ 32) (place : 32 * k < totalBits.toNat + 32) :
    BitVec.ofNat 32 (32 * k) < totalBits ↔ 32 * k < totalBits.toNat := by
  rw [BitVec.lt_def, BitVec.toNat_ofNat, Nat.mod_eq_of_lt (by omega)]

theorem xvcLoop_ended (short : totalBits.toNat + 32 ≤ 2 ^ 32) (place : 32 * k < totalBits.toNat + 32)
    (past : totalBits.toNat ≤ 32 * k) (fuel : Nat) :
    xvcLoop jtag tmsBuf tdiBuf totalBits (xvcTotalBytes totalBits) (fuel + 1) (BitVec.ofNat 32 (32 * k))
        (totalBits - BitVec.ofNat 32 (32 * k)) run = .ok (0, run) ∧
      (totalBits.toNat + 31) / 32 = k := by
  have ended : ¬ BitVec.ofNat 32 (32 * k) < totalBits := by
    rw [counter_lt_iff short place]
    omega
  exact ⟨if_neg ended, by omega⟩

theorem xvcLoop_spec (short : totalBits.toNat + 32 ≤ 2 ^ 32) (fuel : Nat) (enough : totalBits.toNat ≤ 32 * (k + fuel))
    (place : 32 * k < totalBits.toNat + 32) (shifted : Shifted jtag tmsBuf tdiBuf before old totalBits.toNat k run) :
    ∃ rv last, xvcLoop jtag tmsBuf tdiBuf totalBits (xvcTotalBytes totalBits) (fuel + 1) (BitVec.ofNat 32 (32 * k))
        (totalBits - BitVec.ofNat 32 (32 * k)) run = .ok (rv, last) ∧
      (rv = -110 ∨ rv = 0 ∧ Shifted jtag tmsBuf tdiBuf before old totalBits.toNat ((totalBits.toNat + 31) / 32) last) := by
  induction fuel generalizing k run with
  | zero =>
    obtain ⟨ended, words⟩ := @xvcLoop_ended jtag tmsBuf tdiBuf totalBits k run short place enough 0
    rw [words]
    exact ⟨0, run, ended, .inr ⟨rfl, shifted⟩⟩
  | succ fuel ih =>
    by_cases more : 32 * k < totalBits.toNat
    · obtain ⟨next, round, -, shifts⟩ := @xvcRound_spec jtag tmsBuf tdiBuf totalBits k before old (by omega) more run
      rw [xvcLoop, if_pos ((counter_lt_iff short place).mpr more), round]
      cases done : pollDone completionLoopMax (jtag.busy run.block.transactions.length) with
      | false => exact ⟨-110, next, rfl, .inl rfl⟩
      | true =>
        dsimp only
        rw [bits_next, bitsLeft_next]
        exact ih (by omega) (by omega) (shifts done shifted)
    · have past : totalBits.toNat ≤ 32 * k := not_lt.mp more
      obtain ⟨ended, words⟩ := @xvcLoop_ended jtag tmsBuf tdiBuf totalBits k run short place past (fuel + 1)
      rw [words]
      exact ⟨0, run, ended, .inr ⟨rfl, shifted⟩⟩

/-- Where the last word crosses 2^32, every round is followed by another, unless it was too slow. -/
theorem xvcLoop_wraps (long : 2 ^ 32 < totalBits.toNat + 32) (short : totalBits.toNat + 8 ≤ 2 ^ 32) (k : Nat)
    (run : XvcRun) :
    ∃ next, next.block.transactions.length = run.block.transactions.length + 1 ∧
      ∀ fuel, xvcLoop jtag tmsBuf tdiBuf totalBits (xvcTotalBytes totalBits) (fuel + 1) (BitVec.ofNat 32 (32 * k))
          (totalBits - BitVec.ofNat 32 (32 * k)) run =
        if pollDone completionLoopMax (jtag.busy run.block.transactions.length) then
          xvcLoop jtag tmsBuf tdiBuf totalBits (xvcTotalBytes totalBits) fuel (BitVec.ofNat 32 (32 * (k + 1)))
            (totalBits - BitVec.ofNat 32 (32 * (k + 1))) next
        else .ok (-110, next) := by
  have turn : k % 2 ^ 27 < 2 ^ 27 := Nat.mod_lt _ (by decide)
  have more : 32 * (k % 2 ^ 27) < totalBits.toNat := by omega
  obtain ⟨next, round, count, -⟩ := @xvcRound_spec jtag tmsBuf tdiBuf totalBits (k % 2 ^ 27) [] [] short more run
  refine ⟨next, count, fun fuel => ?_⟩
  have going : BitVec.ofNat 32 (32 * k) < totalBits := by
    rw [bits_wrap, BitVec.lt_def, BitVec.toNat_ofNat]
    omega
  rw [← bits_wrap] at round
  rw [xvcLoop, if_pos going, round]
  cases done : pollDone completionLoopMax (jtag.busy run.block.transactions.length) with
  | false => rfl
  | true =>
    dsimp only
    rw [bits_next, bitsLeft_next]
    rfl

theorem xvcLoop_endless (long : 2 ^ 32 < totalBits.toNat + 32) (short : totalBits.toNat + 8 ≤ 2 ^ 32)
    (fast : ∀ d, jtag.busy (run.block.transactions.length + d) < completionLoopMax) (fuel : Nat) :
    xvcLoop jtag tmsBuf tdiBuf totalBits (xvcTotalBytes totalBits) fuel (BitVec.ofNat 32 (32 * k))
      (totalBits - BitVec.ofNat 32 (32 * k)) run = .error .outOfFuel := by
  induction fuel generalizing k run with
  | zero => rfl
  | succ fuel ih =>
    obtain ⟨next, count, round⟩ := @xvcLoop_wraps jtag tmsBuf tdiBuf totalBits long short k run
    have first := fast 0
    rw [Nat.add_zero] at first
    rw [round, if_pos ((pollDone_iff _ _).mpr first)]
    apply ih
    intro d
    rw [count, Nat.add_assoc, Nat.add_comm 1]
    exact fast (d + 1)

theorem xvcLoop_slow (long : 2 ^ 32 < totalBits.toNat + 32) (short : totalBits.toNat + 8 ≤ 2 ^ 32) (d : Nat)
    (slow : completionLoopMax ≤ jtag.busy (run.block.transactions.length + d)) :
    ∃ fuel last, xvcLoop jtag tmsBuf tdiBuf totalBits (xvcTotalBytes totalBits) fuel (BitVec.ofNat 32 (32 * k))
      (totalBits - BitVec.ofNat 32 (32 * k)) run = .ok (-110, last) := by
  induction d generalizing k run with
  | zero =>
    obtain ⟨next, -, round⟩ := @xvcLoop_wraps jtag tmsBuf tdiBuf totalBits long short k run
    have late : ¬ pollDone completionLoopMax (jtag.busy run.block.transactions.length) = true := by
      rw [pollDone_iff, not_lt]
      exact slow
    exact ⟨1, next, (round 0).trans (if_neg late)⟩
  | succ d ih =>
    obtain ⟨next, count, round⟩ := @xvcLoop_wraps jtag tmsBuf tdiBuf totalBits long short k run
    by_cases done : pollDone completionLoopMax (jtag.busy run.block.transactions.length) = true
    · have later : completionLoopMax ≤ jtag.busy (next.block.transactions.length + d) := by
        rw [count, Nat.add_assoc, Nat.add_comm 1]
        exact slow
      obtain ⟨fuel, last, rest⟩ := @ih (k + 1) next later
      exact ⟨fuel + 1, last, ((round fuel).trans (if_pos done)).trans rest⟩
    · exact ⟨1, next, (round 0).trans (if_neg done)⟩

/-- From 7 bits below 2^32 on the buffers have no bytes, and the first word is read from outside them. -/
theorem xvcLoop_outOfBounds (long : 2 ^ 32 < totalBits.toNat + 8) (fuel : Nat) :
    ∃ fault, xvcLoop jtag tmsBuf tdiBuf totalBits (xvcTotalBytes totalBits) fuel 0 totalBits run = .error fault := by
  cases fuel with
  | zero => exact ⟨_, rfl⟩
  | succ fuel =>
    have below := totalBits.isLt
    have going : (0 : BitVec 32) < totalBits := by
      rw [BitVec.lt_def]
      change 0 < totalBits.toNat
      omega
    have many : ¬ totalBits < 32 := by
      rw [BitVec.lt_def]
      change ¬ totalBits.toNat < 32
      omega
    have round : xvcRound jtag tmsBuf tdiBuf (xvcTotalBytes totalBits) 0 totalBits run = .error .outOfBounds := by
      unfold xvcRound
      dsimp only
      rw [if_neg many, if_neg many, xvcTotalBytes_wraps long]
      rfl
    rw [xvcLoop, if_pos going, round]
    exact ⟨_, rfl⟩

end Loop

section Ioctl

variable {jtag : Jtag} {kernel : XvcKernel} {obj : XvcIoc} {block : ShiftBlock}

/-- A call has driven the first bits of TMS and TDI in order, with LENGTH as many as there were in each transaction, and
    the answers are where the bits were. Opcode 2 gives TDI back. -/
structure Shifts (jtag : Jtag) (obj : XvcIoc) (block : ShiftBlock) (ended : XvcEnd) : Prop where
  driven : ended.run.block.driven = block.driven ++ pinBits obj.tmsBuf obj.tdiBuf obj.length.toNat
  transactions : ended.run.block.transactions = block.transactions ++
    (List.range ((obj.length.toNat + 31) / 32)).map fun j => BitVec.ofNat 32 (wordBits obj.length.toNat j)
  tdo : ∀ i, i < obj.length.toNat →
    bit ended.run.tdoBuf i = jtag.answer (block.driven ++ pinBits obj.tmsBuf obj.tdiBuf (i + 1))
  out : ended.out = some (if obj.opcode = 2 then obj.tdiBuf else ended.run.tdoBuf)

theorem xvcIoctl_refused (refused : ¬ kernel.Admits obj) (fuel : Nat) :
    ∃ ended, xvcIoctl jtag kernel obj fuel block = .ok ended ∧ ended.rv ≠ 0 := by
  unfold xvcIoctl
  dsimp only
  split_ifs with check known copied opcode granted tms tdi
  · exact ⟨_, rfl, check.ne⟩
  · exact ⟨_, rfl, (by decide : (-515 : Int) ≠ 0)⟩
  · exact ⟨_, rfl, Int.natCast_ne_zero.mpr copied⟩
  · exact ⟨_, rfl, (by decide : (-22 : Int) ≠ 0)⟩
  · exact ⟨_, rfl, (by decide : (-12 : Int) ≠ 0)⟩
  · exact ⟨_, rfl, Int.natCast_ne_zero.mpr tms⟩
  · exact ⟨_, rfl, Int.natCast_ne_zero.mpr tdi⟩
  · refine absurd ⟨not_lt.mp check, ?_, not_not.mp copied, ?_, ?_, not_not.mp tms, not_not.mp tdi⟩ refused
    · exact (Bool.not_eq_false _).mp known
    · by_contra neither
      exact opcode (not_or.mp neither)
    · exact (Bool.not_eq_false _).mp granted

theorem xvcIoctl_admitted (admits : kernel.Admits obj) (fuel : Nat) :
    xvcIoctl jtag kernel obj fuel block = xvcShiftAll jtag kernel obj fuel block := by
  obtain ⟨check, known, copied, opcode, granted, tms, tdi⟩ := admits
  unfold xvcIoctl
  dsimp only
  rw [if_neg (not_lt.mpr check), if_neg (by simp [known]), if_neg (not_not.mpr copied),
    if_neg (fun neither => opcode.elim neither.1 neither.2), if_neg (by simp [granted]), if_neg (not_not.mpr tms),
    if_neg (not_not.mpr tdi)]

theorem shifted_start (jtag : Jtag) (obj : XvcIoc) (block : ShiftBlock) (garbage : Memory) :
    Shifted jtag obj.tmsBuf obj.tdiBuf block.driven block.transactions obj.length.toNat 0
      ⟨if 32 ≤ obj.length then { block with length := 32 } else block, garbage⟩ := by
  constructor
  · dsimp only
    split
    · simp [pinBits]
    · simp [pinBits]
  · dsimp only
    split
    · simp
    · simp
  · intro i bound
    omega
  · intro whole
    have long : (32 : BitVec 32) ≤ obj.length := by
      rw [BitVec.le_def]
      exact whole
    dsimp only
    rw [if_pos long]

theorem xvcShiftAll_short (short : obj.length.toNat + 32 ≤ 2 ^ 32) :
    ∃ fuel ended, xvcShiftAll jtag kernel obj fuel block = .ok ended ∧ (ended.rv = 0 → Shifts jtag obj block ended) := by
  have start := shifted_start jtag obj block kernel.garbage
  obtain ⟨rv, last, loop, ends⟩ := @xvcLoop_spec jtag obj.tmsBuf obj.tdiBuf obj.length 0 _ block.driven
    block.transactions short obj.length.toNat (by omega) (by omega) start
  have zero : obj.length - BitVec.ofNat 32 (32 * 0) = obj.length := BitVec.sub_zero _
  rw [zero] at loop
  change xvcLoop jtag obj.tmsBuf obj.tdiBuf obj.length (xvcTotalBytes obj.length) (obj.length.toNat + 1) 0 obj.length _ =
    _ at loop
  refine ⟨obj.length.toNat + 1, ?_⟩
  unfold xvcShiftAll
  dsimp only
  rw [loop]
  rcases ends with rfl | ⟨rfl, shifted⟩
  · exact ⟨_, rfl, fun success => absurd success (by decide : (-110 : Int) ≠ 0)⟩
  · have whole : min (32 * ((obj.length.toNat + 31) / 32)) obj.length.toNat = obj.length.toNat := by omega
    refine ⟨_, rfl, fun _ => ⟨?_, shifted.transactions, ?_, rfl⟩⟩
    · have driven := shifted.driven
      rw [whole] at driven
      exact driven
    · intro i bound
      apply shifted.tdo
      rw [whole]
      exact bound

theorem xvcShiftAll_long (many : 32 ≤ obj.length.toNat) (fuel : Nat) :
    xvcShiftAll jtag kernel obj fuel block =
      match xvcLoop jtag obj.tmsBuf obj.tdiBuf obj.length (xvcTotalBytes obj.length) fuel (BitVec.ofNat 32 (32 * 0))
        (obj.length - BitVec.ofNat 32 (32 * 0)) ⟨{ block with length := 32 }, kernel.garbage⟩ with
      | .error fault => .error fault
      | .ok (rv, run) =>
        if rv < 0 then .ok ⟨rv, run, none⟩
        else .ok ⟨kernel.tdoUncopied, run, some (if obj.opcode = 2 then obj.tdiBuf else run.tdoBuf)⟩ := by
  have word : (32 : BitVec 32) ≤ obj.length := BitVec.le_def.mpr many
  have zero : obj.length - BitVec.ofNat 32 (32 * 0) = obj.length := BitVec.sub_zero _
  unfold xvcShiftAll
  dsimp only
  rw [if_pos word, zero]
  rfl

theorem xvcShiftAll_wraps (long : 2 ^ 32 < obj.length.toNat + 32) :
    (∃ fuel ended, xvcShiftAll jtag kernel obj fuel block = .ok ended ∧ (ended.rv = 0 → Shifts jtag obj block ended)) ↔
      obj.length.toNat + 8 ≤ 2 ^ 32 ∧ ∃ d, completionLoopMax ≤ jtag.busy (block.transactions.length + d) := by
  have start := @xvcShiftAll_long jtag kernel obj block (by omega)
  have zero : obj.length - BitVec.ofNat 32 (32 * 0) = obj.length := BitVec.sub_zero _
  constructor
  · rintro ⟨fuel, ended, returns, -⟩
    rw [start] at returns
    by_cases short : obj.length.toNat + 8 ≤ 2 ^ 32
    · refine ⟨short, ?_⟩
      by_contra fast
      have quick : ∀ d, jtag.busy (block.transactions.length + d) < completionLoopMax := by
        intro d
        exact not_le.mp (not_exists.mp fast d)
      rw [xvcLoop_endless long short quick fuel] at returns
      cases returns
    · obtain ⟨fault, loop⟩ := @xvcLoop_outOfBounds jtag obj.tmsBuf obj.tdiBuf obj.length
        ⟨{ block with length := 32 }, kernel.garbage⟩ (not_le.mp short) fuel
      rw [zero] at returns
      change (match xvcLoop _ _ _ _ _ fuel 0 obj.length _ with | .error fault => _ | .ok (rv, run) => _) = _ at returns
      rw [loop] at returns
      cases returns
  · rintro ⟨short, d, slow⟩
    obtain ⟨fuel, last, loop⟩ := @xvcLoop_slow jtag obj.tmsBuf obj.tdiBuf obj.length 0
      ⟨{ block with length := 32 }, kernel.garbage⟩ long short d slow
    refine ⟨fuel, ⟨-110, last, none⟩, ?_, fun success => absurd success (by decide : (-110 : Int) ≠ 0)⟩
    rw [start, loop]
    rfl

/-- The call fails, or shifts all bits and returns, for every length up to 32 below 2^32. Above it the loop counter comes
    round: the loop ends only if a shift is too slow; and from 7 below 2^32 on so does the number of bytes. -/
theorem xvcIoctl_shifts_iff (jtag : Jtag) (kernel : XvcKernel) (obj : XvcIoc) (block : ShiftBlock) :
    (∃ fuel ended, xvcIoctl jtag kernel obj fuel block = .ok ended ∧ (ended.rv = 0 → Shifts jtag obj block ended)) ↔
      ¬ kernel.Admits obj ∨ obj.length.toNat + 32 ≤ 2 ^ 32 ∨
        (obj.length.toNat + 8 ≤ 2 ^ 32 ∧ ∃ d, completionLoopMax ≤ jtag.busy (block.transactions.length + d)) := by
  by_cases admits : kernel.Admits obj
  · rw [or_iff_right (not_not.mpr admits)]
    simp only [xvcIoctl_admitted admits]
    by_cases short : obj.length.toNat + 32 ≤ 2 ^ 32
    · exact iff_of_true (xvcShiftAll_short short) (.inl short)
    · rw [or_iff_right short]
      exact xvcShiftAll_wraps (not_le.mp short)
  · obtain ⟨ended, returns, error⟩ := @xvcIoctl_refused jtag kernel obj block admits 0
    exact iff_of_true ⟨0, ended, returns, fun success => absurd success error⟩ (.inl admits)

def silentJtag : Jtag := ⟨fun _ => false, fun _ => 0⟩

def idleBlock : ShiftBlock := ⟨0, 0, 0, 0, [], []⟩

def readyKernel : XvcKernel := ⟨0, true, 0, true, 0, 0, 0, fun _ => 0⟩

def longestShift : XvcIoc := ⟨1, 0xffffffff, fun _ => 0, fun _ => 0⟩

theorem longestShift_faults :
    ¬ ∃ fuel ended, xvcIoctl silentJtag readyKernel longestShift fuel idleBlock = .ok ended ∧
      (ended.rv = 0 → Shifts silentJtag longestShift idleBlock ended) := by
  rintro ⟨fuel, ended, returns, -⟩
  have admits : readyKernel.Admits longestShift := by decide
  obtain ⟨fault, loop⟩ := @xvcLoop_outOfBounds silentJtag longestShift.tmsBuf longestShift.tdiBuf longestShift.length
    ⟨{ idleBlock with length := 32 }, readyKernel.garbage⟩ (by decide) fuel
  rw [xvcIoctl_admitted admits] at returns
  unfold xvcShiftAll at returns
  have many : (32 : BitVec 32) ≤ longestShift.length := by decide
  dsimp only at returns
  rw [if_pos many, loop] at returns
  cases returns

end Ioctl

end CigCard.Xdma
