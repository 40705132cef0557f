import CigCard.Interaction.RelyGuarantee
import CigCard.LinkMargin.Sweep

namespace CigCard.LinkMargin

open Interaction ByteMemory Mailbox

/-- Serializer and deserializer on one bus: their registers and the byte that the last command returned.
    `written` is the history of the serializer's `RLMS95`. -/
structure Chips where
  regs : Byte → BitVec 16 → Byte
  answer : Byte
  written : List Byte

def Volatile (reg : BitVec 16) : Prop := reg = CNT0 ∨ reg = CTRL3

instance (reg : BitVec 16) : Decidable (Volatile reg) := inferInstanceAs (Decidable (reg = CNT0 ∨ reg = CTRL3))

def Chips.write (chips : Chips) (dev : Byte) (reg : BitVec 16) (value : Byte) : Chips where
  regs := fun otherDev otherReg => if otherDev = dev ∧ otherReg = reg then value else chips.regs otherDev otherReg
  answer := chips.answer
  written := if dev = SE ∧ reg = RLMS95 then chips.written ++ [value] else chips.written

/-- Every command succeeds; a register holds the value last written, but for the volatile ones. -/
def ChipAct : (call : Call) → Chips → call.Answer → Chips → Prop
  | .sendCmdToA53Sync (.read _ dev reg), chips, exit, after =>
    exit = Exit.ok ∧ ∃ answer, after = { chips with answer } ∧ (¬ Volatile reg → answer = chips.regs dev reg)
  | .sendCmdToA53Sync (.write _ dev reg value _), chips, exit, after => exit = Exit.ok ∧ after = chips.write dev reg value
  | .getCmdResult, chips, parsed, after => BitVec.ofNat 8 parsed.value = chips.answer ∧ after = chips

def chipWorld : World Call Call.Answer Chips where
  act := ChipAct
  env := fun _ _ => False

def amplitudeBits (value : Byte) : Byte := value &&& 0x3f

def startAmplitude (amplitudes : Amplitudes) (chips : Chips) : Byte :=
  seAmplitude ((chips.regs SE REG01 &&& 0xc) >>> 2) amplitudes.seTxAmpOrg

/-- The values that a sweep writes to the serializer's `RLMS95`, one in each round, and the last of them. -/
structure Descends (org : Byte) (writes : List Byte) (last : Byte) : Prop where
  decreasing : (writes.map amplitudeBits).Pairwise (· > ·)
  below : ∀ value ∈ writes, amplitudeBits value < org
  ends : writes.getLast? = some last

structure Swept (org : Byte) (earlier writes : List Byte) (last : Byte) (margin : Nat) (final : Chips) : Prop where
  written : final.written = earlier ++ [org, org &&& ~~~0x80] ++ writes ++ [0x80 ||| org]
  descends : Descends org writes last
  rounds : writes.length ≤ 63
  nonnegative : (amplitudeBits last).toNat ≤ org.toNat
  margin : margin = 10 * (org.toNat - (amplitudeBits last).toNat)
  restored : final.regs SE RLMS95 = 0x80 ||| org

theorem chipWorld_stable (assertion : Chips → Prop) : Stable chipWorld assertion := fun _ _ _ moved => moved.elim

structure Holds (rate now : Byte) (written : List Byte) (chips : Chips) : Prop where
  rate : chips.regs SE REG01 = rate
  now : chips.regs SE RLMS95 = now
  written : chips.written = written

def Call.Spares : Call → Prop
  | .sendCmdToA53Sync (.write _ dev reg _ _) => ¬ (dev = SE ∧ (reg = REG01 ∨ reg = RLMS95))
  | .sendCmdToA53Sync (.read _ _ _) | .getCmdResult => True

section
variable {rate now : Byte} {written : List Byte} {channel : Nat} {α : Type} {post : α → Chips → Prop}

theorem Holds.answer {chips : Chips} (holds : Holds rate now written chips) (answer : Byte) :
    Holds rate now written { chips with answer } :=
  ⟨holds.rate, holds.now, holds.written⟩

theorem Holds.write_other {chips : Chips} (holds : Holds rate now written chips) {dev : Byte} {reg : BitVec 16}
    (other : ¬ (dev = SE ∧ (reg = REG01 ∨ reg = RLMS95))) (value : Byte) :
    Holds rate now written (chips.write dev reg value) := by
  constructor
  · rw [← holds.rate]
    apply if_neg
    intro same
    exact other ⟨same.1.symm, .inl same.2.symm⟩
  · rw [← holds.now]
    apply if_neg
    intro same
    exact other ⟨same.1.symm, .inr same.2.symm⟩
  · rw [← holds.written]
    apply if_neg
    intro same
    exact other ⟨same.1, .inr same.2⟩

theorem Holds.write_amplitude {chips : Chips} (holds : Holds rate now written chips) (value : Byte) :
    Holds rate value (written ++ [value]) (chips.write SE RLMS95 value) := by
  constructor
  · rw [← holds.rate]
    simp [Chips.write, REG01, RLMS95]
  · simp [Chips.write]
  · rw [← holds.written]
    simp [Chips.write]

theorem Holds.keeps : Keeps chipWorld Unguarded Call.Spares (Holds rate now written) := by
  constructor
  · exact chipWorld_stable _
  · exact fun _ _ _ _ => trivial
  · intro call chips answer after spares holds acted
    cases call with
    | getCmdResult =>
      obtain ⟨-, rfl⟩ := acted
      exact holds
    | sendCmdToA53Sync request =>
      cases request with
      | read channel dev reg =>
        obtain ⟨-, byte, rfl, -⟩ := acted
        exact holds.answer byte
      | write channel dev reg value basis =>
        obtain ⟨-, rfl⟩ := acted
        exact holds.write_other spares value

theorem iicReg16Rd8_holds (dev : Byte) (reg : BitVec 16) (steady : ¬ Volatile reg) (value : Byte)
    (held : ∀ chips, Holds rate now written chips → chips.regs dev reg = value) {next : Reading → Margin α}
    (continues : ∀ parsed : Parsed, BitVec.ofNat 8 parsed.value = value →
      Triple chipWorld Unguarded (Holds rate now written) (next ⟨dev, reg, parsed⟩) post) :
    Triple chipWorld Unguarded (Holds rate now written) ((iicReg16Rd8 channel dev reg).bind next) post := by
  apply Triple.perform_bind (fun _ chips => chips.answer = value ∧ Holds rate now written chips) (chipWorld_stable _)
  · exact fun _ _ => trivial
  · intro chips exit after holds acted
    obtain ⟨-, byte, rfl, exact_⟩ := acted
    exact ⟨(exact_ steady).trans (held chips holds), holds.answer byte⟩
  · intro exit
    apply Triple.perform_bind (fun (parsed : Parsed) chips =>
        BitVec.ofNat 8 parsed.value = value ∧ Holds rate now written chips)
      (chipWorld_stable _)
    · exact fun _ _ => trivial
    · intro chips parsed after both acted
      obtain ⟨shown, holds⟩ := both
      obtain ⟨read, rfl⟩ := acted
      exact ⟨read.trans shown, holds⟩
    · exact fun parsed => .given fun read => continues parsed read

theorem writeAmplitude_holds (value : Byte) (basis : Option (Reading × Change)) {next : Unit → Margin α}
    (continues : Triple chipWorld Unguarded (Holds rate value (written ++ [value])) (next ()) post) :
    Triple chipWorld Unguarded (Holds rate now written) ((iicReg16Wr8 channel SE RLMS95 value basis).bind next) post := by
  apply Triple.perform_bind (fun _ => Holds rate value (written ++ [value])) (chipWorld_stable _)
  · exact fun _ _ => trivial
  · intro chips exit after holds acted
    obtain ⟨-, rfl⟩ := acted
    exact holds.write_amplitude value
  · exact fun _ => continues

end

theorem iicReg16Rd8_spares (channel : Nat) (dev : Byte) (reg : BitVec 16) :
    (iicReg16Rd8 channel dev reg).Only Call.Spares :=
  .bind (.perform trivial) fun _ => .bind (.perform trivial) fun _ => .pure _ _

theorem iicReg16Wr8_spares (channel : Nat) (dev : Byte) (reg : BitVec 16) (value : Byte)
    (basis : Option (Reading × Change)) (other : ¬ (dev = SE ∧ (reg = REG01 ∨ reg = RLMS95))) :
    (iicReg16Wr8 channel dev reg value basis).Only Call.Spares :=
  .bind (.perform other) fun _ => .pure _ _

theorem clearBoth_spares (channel : Nat) (reg : BitVec 16) (mask : Byte) (other : ¬ (reg = REG01 ∨ reg = RLMS95)) :
    (clearBoth channel reg mask).Only Call.Spares := by
  apply Program.Only.bind (iicReg16Rd8_spares ..)
  intro se
  apply Program.Only.bind (iicReg16Rd8_spares ..)
  intro de
  apply Program.Only.bind (iicReg16Wr8_spares _ _ _ _ _ fun same => other same.2)
  intro _
  exact iicReg16Wr8_spares _ _ _ _ _ fun same => other same.2

theorem globalAdapt_spares (channel : Nat) (change : Change) : (globalAdapt channel change).Only Call.Spares := by
  apply Program.Only.bind (iicReg16Rd8_spares ..)
  intro deRlms3
  exact iicReg16Wr8_spares _ _ _ _ _ (by decide)

theorem awaitLink_spares (channel remaining : Nat) (last : Byte × Byte) :
    (awaitLink channel remaining last).Only Call.Spares := by
  induction remaining generalizing last with
  | zero => exact .pure _ _
  | succ remaining ih =>
    apply Program.Only.bind (iicReg16Rd8_spares ..)
    intro deCnt0
    apply Program.Only.bind (iicReg16Rd8_spares ..)
    intro deCtrl3
    split
    · exact .pure _ _
    · exact ih _

theorem awaitLock_spares (channel remaining : Nat) : (awaitLock channel remaining).Only Call.Spares := by
  induction remaining with
  | zero => exact .pure _ _
  | succ remaining ih =>
    apply Program.Only.bind (iicReg16Rd8_spares ..)
    intro deCtrl3
    split
    · exact .pure _ _
    · exact ih

theorem amplitudeBits_toNat (value : Byte) : (amplitudeBits value).toNat = value.toNat % 64 := by
  rw [amplitudeBits, BitVec.toNat_and]
  exact Nat.and_two_pow_sub_one_eq_mod value.toNat 6

def lowered (now : Byte) : Byte := 0x80 ||| (amplitudeBits now - 1)

theorem amplitudeBits_below {now : Byte} (positive : amplitudeBits now ≠ 0) :
    (amplitudeBits now - 1).toNat + 1 = (amplitudeBits now).toNat := by
  bv_omega

theorem amplitudeBits_lowered {now : Byte} (positive : amplitudeBits now ≠ 0) :
    amplitudeBits (lowered now) = amplitudeBits now - 1 := by
  have below := amplitudeBits_below positive
  have manual (value : Byte) : amplitudeBits (0x80 ||| value) = amplitudeBits value := by
    rw [amplitudeBits, BitVec.and_comm, BitVec.and_or_distrib_left, BitVec.and_comm _ value]
    exact BitVec.zero_or
  apply BitVec.eq_of_toNat_eq
  rw [lowered, manual, amplitudeBits_toNat]
  rw [amplitudeBits_toNat] at below
  omega

theorem amplitudeBits_manual (org : Byte) : amplitudeBits (org &&& ~~~0x80) = amplitudeBits org := by
  rw [amplitudeBits, BitVec.and_assoc]
  rfl

section
variable {rate now : Byte} {written : List Byte} {channel : Nat} {α β : Type} {post : α → Chips → Prop}

theorem Holds.spared {program : Margin β} (only : program.Only Call.Spares) {next : β → Margin α}
    (continues : ∀ value, Triple chipWorld Unguarded (Holds rate now written) (next value) post) :
    Triple chipWorld Unguarded (Holds rate now written) (program.bind next) post :=
  .keeps_bind Holds.keeps only continues

theorem lowerAmplitude_holds {next : Byte × Byte → Margin α}
    (continues : ∀ deCnt0, Triple chipWorld Unguarded (Holds rate (lowered now) (written ++ [lowered now]))
      (next (deCnt0, amplitudeBits now - 1)) post) :
    Triple chipWorld Unguarded (Holds rate now written) ((lowerAmplitude channel).bind next) post := by
  simp only [lowerAmplitude, Program.bind_eq, Program.bind_assoc, Program.pure_eq, Program.pure_bind]
  apply iicReg16Rd8_holds SE RLMS95 (by decide) now fun chips holds => holds.now
  intro parsed shown
  have amplitude : (Reading.value ⟨SE, RLMS95, parsed⟩ &&& 0x3f) - 1 = amplitudeBits now - 1 := by
    rw [Reading.value, shown, amplitudeBits]
  have change : Change.lower.apply (Reading.value ⟨SE, RLMS95, parsed⟩) = lowered now := by
    rw [Change.apply, amplitude, lowered]
  rw [writeBack, change, amplitude]
  apply writeAmplitude_holds
  apply Holds.spared (globalAdapt_spares ..)
  intro _
  apply Holds.spared (globalAdapt_spares ..)
  intro _
  apply Holds.spared (awaitLock_spares ..)
  intro _
  apply Holds.spared (iicReg16Rd8_spares ..)
  intro _
  apply Holds.spared (iicReg16Rd8_spares ..)
  intro deCnt0
  exact continues deCnt0.value

end

theorem Descends.single {now : Byte} (positive : amplitudeBits now ≠ 0) :
    Descends (amplitudeBits now) [lowered now] (lowered now) := by
  have below := amplitudeBits_below positive
  constructor
  · exact List.pairwise_singleton _ _
  · intro value written
    rw [List.mem_singleton.mp written, amplitudeBits_lowered positive, BitVec.lt_def]
    omega
  · rfl

theorem Descends.cons {now last : Byte} {writes : List Byte} (positive : amplitudeBits now ≠ 0)
    (descends : Descends (amplitudeBits (lowered now)) writes last) :
    Descends (amplitudeBits now) (lowered now :: writes) last := by
  have below := amplitudeBits_below positive
  have smaller : amplitudeBits (lowered now) < amplitudeBits now := by
    rw [amplitudeBits_lowered positive, BitVec.lt_def]
    omega
  constructor
  · rw [List.map_cons, List.pairwise_cons]
    constructor
    · intro amplitude written
      obtain ⟨value, earlier, rfl⟩ := List.mem_map.mp written
      exact descends.below value earlier
    · exact descends.decreasing
  · intro value written
    cases List.mem_cons.mp written with
    | inl first => exact first ▸ smaller
    | inr later => exact BitVec.lt_trans (descends.below value later) smaller
  · rw [List.getLast?_cons, descends.ends]
    rfl

def SweepLeaves (rate now : Byte) (written : List Byte) (result : Option Byte) (chips : Chips) : Prop :=
  ∃ writes last, result = some (amplitudeBits last) ∧ Descends (amplitudeBits now) writes last ∧
    writes.length ≤ (amplitudeBits now).toNat ∧ Holds rate last (written ++ writes) chips

/-- By induction on the rounds. The field of the register is what the loop counts down. -/
theorem sweep_leaves (channel rounds : Nat) (rate now : Byte) (written : List Byte)
    (positive : amplitudeBits now ≠ 0) (enough : (amplitudeBits now).toNat ≤ rounds) :
    Triple chipWorld Unguarded (Holds rate now written) (sweep channel rounds) (SweepLeaves rate now written) := by
  induction rounds generalizing now written with
  | zero =>
    have zero : amplitudeBits now = 0 := BitVec.eq_of_toNat_eq (Nat.le_zero.mp enough)
    exact absurd zero positive
  | succ rounds ih =>
    have below := amplitudeBits_below positive
    have amplitude := amplitudeBits_lowered positive
    simp only [sweep, Program.bind_eq, Program.pure_eq]
    apply lowerAmplitude_holds
    intro deCnt0
    split
    next again =>
      have left : amplitudeBits (lowered now) ≠ 0 := by
        rw [amplitude]
        intro zero
        rw [zero] at again
        exact absurd again.2 (by decide : ¬ (0 : Byte) > 10)
      have shorter : (amplitudeBits (lowered now)).toNat ≤ rounds := by
        rw [amplitude]
        omega
      apply (ih (lowered now) (written ++ [lowered now]) left shorter).consequence fun _ holds => holds
      intro result chips leaves
      obtain ⟨writes, last, returned, descends, bounded, holds⟩ := leaves
      rw [amplitude] at bounded
      refine ⟨lowered now :: writes, last, returned, descends.cons positive, ?_, ?_⟩
      · rw [List.length_cons]
        omega
      · rw [List.append_assoc] at holds
        exact holds
    next =>
      apply Triple.pure
      · exact chipWorld_stable _
      · intro chips holds
        refine ⟨[lowered now], lowered now, ?_, .single positive, ?_, holds⟩
        · rw [amplitude]
        · rw [List.length_singleton]
          omega

/-- The initialisation writes the start amplitude and then turns the manual bit off. -/
theorem linkMarginInit_holds {rate now : Byte} {written : List Byte} {channel : Nat} {amplitudes : Amplitudes} {α : Type}
    {post : α → Chips → Prop} (org : Byte) (chosen : seAmplitude ((rate &&& 0xc) >>> 2) amplitudes.seTxAmpOrg = org)
    {next : Amplitudes → Margin α}
    (continues : ∀ deTxAmpOrg, Triple chipWorld Unguarded
      (Holds rate (org &&& ~~~0x80) (written ++ [org] ++ [org &&& ~~~0x80])) (next ⟨org, deTxAmpOrg⟩) post) :
    Triple chipWorld Unguarded (Holds rate now written) ((linkMarginInit channel amplitudes).bind next) post := by
  simp only [linkMarginInit, Program.bind_eq, Program.bind_assoc, Program.pure_eq, Program.pure_bind]
  apply Holds.spared (iicReg16Rd8_spares ..)
  intro deRate
  apply Holds.spared (iicReg16Wr8_spares _ _ _ _ _ (by decide))
  intro _
  apply iicReg16Rd8_holds SE REG01 (by decide) rate fun chips holds => holds.rate
  intro seRate shown
  have start : seAmplitude (rateCode ⟨SE, REG01, seRate⟩) amplitudes.seTxAmpOrg = org := by
    rw [rateCode, Reading.value, shown, chosen]
  rw [start]
  apply writeAmplitude_holds
  apply Holds.spared (clearBoth_spares _ _ _ (by decide))
  intro _
  apply Holds.spared (clearBoth_spares _ _ _ (by decide))
  intro _
  apply Holds.spared (clearBoth_spares _ _ _ (by decide))
  intro _
  simp only [clearBoth, Program.bind_eq, Program.bind_assoc]
  apply iicReg16Rd8_holds SE RLMS95 (by decide) org fun chips holds => holds.now
  intro se shown
  have cleared : (Change.clear 0x80).apply (Reading.value ⟨SE, RLMS95, se⟩) = org &&& ~~~0x80 := by
    rw [Change.apply, Reading.value, shown]
  apply Holds.spared (iicReg16Rd8_spares ..)
  intro de
  rw [writeBack, cleared]
  apply writeAmplitude_holds
  apply Holds.spared (iicReg16Wr8_spares _ _ _ _ _ (by decide))
  intro _
  apply Holds.spared (iicReg16Rd8_spares ..)
  intro _
  apply Holds.spared (iicReg16Rd8_spares ..)
  exact fun _ => continues _

/-- How a test ends: with the link refused before the sweep, or with the amplitude restored after it. -/
def Ends (org : Byte) (earlier : List Byte) (outcome : Outcome) (final : Chips) : Prop :=
  (outcome = .linkError ∧ final.written = earlier ++ [org, org &&& ~~~0x80]) ∨
    ∃ writes last margin, outcome = .margin margin ∧ Swept org earlier writes last margin final

theorem linkMargin_eq {org amplitude : Byte} (positive : amplitude.toNat ≤ org.toNat) :
    linkMargin org amplitude = 10 * (org.toNat - amplitude.toNat) := by
  have small : org.toNat < 256 := org.isLt
  have exact_ : ((org.toNat : Int) - amplitude.toNat) * 10 = ((10 * (org.toNat - amplitude.toNat) : Nat) : Int) := by
    omega
  rw [linkMargin, exact_, Int.emod_eq_of_lt (Int.natCast_nonneg _) (by omega), Int.toNat_natCast]

theorem Swept.of_sweep {rate org : Byte} {earlier writes : List Byte} {last : Byte} {final : Chips}
    (descends : Descends (amplitudeBits org) writes last) (bounded : writes.length ≤ (amplitudeBits org).toNat)
    (holds : Holds rate (0x80 ||| org) (earlier ++ [org] ++ [org &&& ~~~0x80] ++ writes ++ [0x80 ||| org]) final) :
    Swept org earlier writes last (linkMargin org (amplitudeBits last)) final := by
  have field := amplitudeBits_toNat org
  have small : org.toNat < 256 := org.isLt
  have written : last ∈ writes := List.mem_of_getLast? descends.ends
  have lower := descends.below last written
  rw [BitVec.lt_def] at lower
  constructor
  · rw [holds.written]
    simp only [List.append_assoc, List.cons_append, List.nil_append]
  · constructor
    · exact descends.decreasing
    · intro value wrote
      have below := descends.below value wrote
      rw [BitVec.lt_def] at below ⊢
      omega
    · exact descends.ends
  · omega
  · omega
  · apply linkMargin_eq
    omega
  · exact holds.now

theorem forwardLinkMargin_ends (channel rounds : Nat) (org rate : Byte) (garbage : Byte × Byte) (earlier : List Byte)
    (positive : amplitudeBits org ≠ 0) (enough : 63 ≤ rounds) :
    Triple chipWorld Unguarded (Holds rate (org &&& ~~~0x80) (earlier ++ [org] ++ [org &&& ~~~0x80]))
      (forwardLinkMargin channel rounds org garbage) (Ends org earlier) := by
  have field := amplitudeBits_toNat org
  have manual := amplitudeBits_manual org
  simp only [forwardLinkMargin, Program.bind_eq, Program.pure_eq]
  apply Holds.spared (awaitLink_spares ..)
  intro link
  split
  next refused =>
    apply Triple.pure
    · exact chipWorld_stable _
    · intro chips holds
      apply Or.inl
      constructor
      · rfl
      · rw [holds.written]
        simp only [List.append_assoc, List.cons_append, List.nil_append]
  next =>
    apply Triple.bind (SweepLeaves rate (org &&& ~~~0x80) (earlier ++ [org] ++ [org &&& ~~~0x80]))
    · apply sweep_leaves
      · rw [manual]
        exact positive
      · rw [manual]
        omega
    intro result
    apply Triple.exists_pre
    intro writes
    apply Triple.exists_pre
    intro last
    apply Triple.given
    intro returned
    subst returned
    rw [manual]
    apply Triple.given
    intro descends
    apply Triple.given
    intro bounded
    apply writeAmplitude_holds
    apply Holds.spared (globalAdapt_spares ..)
    intro _
    apply Holds.spared (globalAdapt_spares ..)
    intro _
    apply Triple.pure
    · exact chipWorld_stable _
    · intro final holds
      exact .inr ⟨writes, last, _, rfl, .of_sweep descends bounded holds⟩

theorem initThenForward_ends {channel rounds : Nat} {amplitudes : Amplitudes} {garbage : Byte × Byte} {start : Chips}
    (enough : 63 ≤ rounds) (positive : amplitudeBits (startAmplitude amplitudes start) ≠ 0) :
    Triple chipWorld Unguarded (Holds (start.regs SE REG01) (start.regs SE RLMS95) start.written)
      (initThenForward channel rounds amplitudes garbage) (Ends (startAmplitude amplitudes start) start.written) := by
  rw [initThenForward]
  apply linkMarginInit_holds _ rfl
  intro deTxAmpOrg
  exact forwardLinkMargin_ends _ _ _ _ _ _ positive enough

theorem chipWorld_total : chipWorld.Total := by
  intro call chips
  cases call with
  | getCmdResult =>
    refine ⟨⟨0, none, chips.answer.toNat⟩, chips, ?_, rfl⟩
    exact BitVec.ofNat_toNat _ _
  | sendCmdToA53Sync request =>
    cases request with
    | read channel dev reg => exact ⟨Exit.ok, _, rfl, chips.regs dev reg, rfl, fun _ => rfl⟩
    | write channel dev reg value basis => exact ⟨Exit.ok, _, rfl, rfl⟩

/-- The three rate codes that have a branch. -/
theorem startAmplitude_chosen (amplitudes : Amplitudes) (chips : Chips) (branch : chips.regs SE REG01 &&& 0xc ≠ 0xc) :
    startAmplitude amplitudes chips = 41 := by
  rw [startAmplitude]
  generalize chips.regs SE REG01 = rate at branch
  have codes : (rate &&& 0xc) >>> 2 = 0 ∨ (rate &&& 0xc) >>> 2 = 1 ∨ (rate &&& 0xc) >>> 2 = 2 := by
    have masked : (rate &&& 0xc).toNat ≤ 12 := by
      rw [BitVec.toNat_and]
      exact Nat.and_le_right
    generalize rate &&& 0xc = code at branch masked ⊢
    bv_omega
  obtain code | code | code := codes
  · rw [code]
    rfl
  · rw [code]
    rfl
  · rw [code]
    rfl

def showing {α : Type} : List Byte → Margin α → Chips → α × Chips
  | _, .pure value, chips => (value, chips)
  | readings, .call .getCmdResult rest, chips => showing readings (rest ⟨0, none, chips.answer.toNat⟩) chips
  | readings, .call (.sendCmdToA53Sync (.read _ dev reg)) rest, chips =>
    if Volatile reg then showing readings.tail (rest Exit.ok) { chips with answer := readings.headD 0 }
    else showing readings (rest Exit.ok) { chips with answer := chips.regs dev reg }
  | readings, .call (.sendCmdToA53Sync (.write _ dev reg value _)) rest, chips =>
    showing readings (rest Exit.ok) (chips.write dev reg value)

theorem showing_runs {α : Type} (readings : List Byte) (program : Margin α) (chips : Chips) :
    Runs chipWorld (program, chips) (.pure (showing readings program chips).1, (showing readings program chips).2) := by
  induction program generalizing readings chips with
  | pure value => exact .refl
  | call operation rest ih =>
    cases operation with
    | getCmdResult => exact .head (.act ⟨BitVec.ofNat_toNat _ _, rfl⟩) (ih _ readings chips)
    | sendCmdToA53Sync request =>
      cases request with
      | write channel dev reg value basis => exact .head (.act ⟨rfl, rfl⟩) (ih Exit.ok readings _)
      | read channel dev reg =>
        rw [showing]
        split
        next changes =>
          exact .head (.act ⟨rfl, readings.headD 0, rfl, fun steady => absurd changes steady⟩) (ih Exit.ok _ _)
        next => exact .head (.act ⟨rfl, chips.regs dev reg, rfl, fun _ => rfl⟩) (ih Exit.ok _ _)

deriving instance DecidableEq for Outcome

def coldChips (rate : Byte) : Chips where
  regs := fun dev reg => if dev = SE ∧ reg = REG01 then rate else 0
  answer := 0
  written := []

/-- Every run comes to its end, and whatever the counters show on the way it ends like this. -/
theorem link_margin_descends (channel rounds : Nat) (amplitudes : Amplitudes) (garbage : Byte × Byte) (start : Chips)
    (enough : 63 ≤ rounds) (positive : amplitudeBits (startAmplitude amplitudes start) ≠ 0) :
    (∃ outcome final, Runs chipWorld (initThenForward channel rounds amplitudes garbage, start) (.pure outcome, final)) ∧
      ∀ outcome final, Runs chipWorld (initThenForward channel rounds amplitudes garbage, start) (.pure outcome, final) →
        Ends (startAmplitude amplitudes start) start.written outcome final := by
  constructor
  · obtain ⟨outcome, final, run⟩ :=
      chipWorld_total.through (initThenForward channel rounds amplitudes garbage) .pure start
    rw [Program.bind_pure] at run
    exact ⟨outcome, final, run⟩
  · intro outcome final run
    exact (initThenForward_ends enough positive).reachable ⟨rfl, rfl, rfl⟩ run

theorem shortTest_descends :
    (showing [0, 0, 0, 0x80, 0x40, 0, 1] (initThenForward 0 63 ⟨0, 0⟩ (0, 0)) (coldChips 0)).1 = .margin 10 ∧
      Ends 41 [] (showing [0, 0, 0, 0x80, 0x40, 0, 1] (initThenForward 0 63 ⟨0, 0⟩ (0, 0)) (coldChips 0)).1
        (showing [0, 0, 0, 0x80, 0x40, 0, 1] (initThenForward 0 63 ⟨0, 0⟩ (0, 0)) (coldChips 0)).2 := by
  have positive : amplitudeBits (startAmplitude ⟨0, 0⟩ (coldChips 0)) ≠ 0 := by
    rw [startAmplitude_chosen _ _ (by decide)]
    decide
  exact ⟨by decide +kernel,
    (link_margin_descends 0 63 ⟨0, 0⟩ (0, 0) (coldChips 0) (by decide) positive).2 _ _ (showing_runs ..)⟩

/-- A link that stays down leaves the start amplitude without the manual bit. With the rate code 3 and nothing chosen
    before, the first round wraps to the highest amplitude. -/
theorem down_link_and_open_rate_fail :
    (∃ final, Runs chipWorld (initThenForward 0 63 ⟨0, 0⟩ (0, 0), coldChips 0) (.pure .linkError, final) ∧
      final.regs SE RLMS95 = 41 ∧ startAmplitude ⟨0, 0⟩ (coldChips 0) = 41) ∧
    ∃ final, Runs chipWorld (initThenForward 0 63 ⟨0, 0⟩ (0, 0), coldChips 0xc) (.pure (.margin 4294964746), final) ∧
      final.written = [0, 0, 0xff, 0x80] ∧ startAmplitude ⟨0, 0⟩ (coldChips 0xc) = 0 ∧ ¬ amplitudeBits 0xff < 0 := by
  constructor
  · have run := showing_runs [] (initThenForward 0 63 ⟨0, 0⟩ (0, 0)) (coldChips 0)
    have refused : (showing [] (initThenForward 0 63 ⟨0, 0⟩ (0, 0)) (coldChips 0)).1 = .linkError := by decide +kernel
    rw [refused] at run
    exact ⟨_, run, by decide +kernel, by decide⟩
  · have run := showing_runs [0, 0, 0, 0x80, 0x40, 0, 1] (initThenForward 0 63 ⟨0, 0⟩ (0, 0)) (coldChips 0xc)
    have wrapped : (showing [0, 0, 0, 0x80, 0x40, 0, 1] (initThenForward 0 63 ⟨0, 0⟩ (0, 0)) (coldChips 0xc)).1 =
        .margin 4294964746 := by decide +kernel
    rw [wrapped] at run
    exact ⟨_, run, by decide +kernel, by decide, by decide⟩

end CigCard.LinkMargin
