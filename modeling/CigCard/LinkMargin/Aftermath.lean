import CigCard.LinkMargin.Descent

namespace CigCard.LinkMargin

open Interaction ByteMemory Mailbox

abbrev Regs := Byte → BitVec 16 → Byte

def linkMarginComplete (channel : Nat) : Margin Unit := do
  let _ ← iicReg16Rd8 channel SE CNT0
  let _ ← iicReg16Rd8 channel DE CNT0
  pure ()

def linkMarginTest (channel rounds : Nat) (amplitudes : Amplitudes) (garbage : Byte × Byte) : Margin Outcome := do
  let outcome ← initThenForward channel rounds amplitudes garbage
  linkMarginComplete channel
  pure outcome

/-- One process after the other, each with its globals at zero and its own uninitialised variables. -/
def linkMarginTests (channel rounds : Nat) : List (Byte × Byte) → Margin (List Outcome)
  | [] => pure []
  | garbage :: later => do
    let outcome ← linkMarginTest channel rounds ⟨0, 0⟩ garbage
    let outcomes ← linkMarginTests channel rounds later
    pure (outcome :: outcomes)

def Regs.put (regs : Regs) (dev : Byte) (reg : BitVec 16) (value : Byte) : Regs := fun otherDev otherReg =>
  if otherDev = dev ∧ otherReg = reg then value else regs otherDev otherReg

def quietMask (reg : BitVec 16) : Byte :=
  if reg = RLMSA4 then 0x3f else if reg = RLMS4 then 0x1 else if reg = RLMS3 then 0x80 else 0

def Regs.quiet (regs : Regs) : Regs := fun dev reg =>
  if dev = SE ∨ dev = DE then regs dev reg &&& ~~~quietMask reg else regs dev reg

def Regs.seStart (regs : Regs) (amplitudes : Amplitudes) : Byte :=
  seAmplitude ((regs SE REG01 &&& 0xc) >>> 2) amplitudes.seTxAmpOrg

def Regs.deStart (regs : Regs) (amplitudes : Amplitudes) : Byte :=
  deAmplitude ((regs DE REG01 &&& 0xc) >>> 2) amplitudes.deTxAmpOrg

/-- The registers once the initialisation is through, with `value` in the serializer's `RLMS95`. -/
def Regs.prepared (regs : Regs) (amplitudes : Amplitudes) (value : Byte) : Regs :=
  (regs.quiet.put DE RLMS95 (regs.deStart amplitudes &&& ~~~0x80)).put SE RLMS95 value

def Regs.after (regs : Regs) (amplitudes : Amplitudes) : Outcome → Regs
  | .linkError => regs.prepared amplitudes (regs.seStart amplitudes &&& ~~~0x80)
  | .sweeping | .margin _ => regs.prepared amplitudes (0x80 ||| regs.seStart amplitudes)

def SetTo (regs : Regs) (chips : Chips) : Prop := chips.regs = regs

@[simp] theorem Regs.put_same (regs : Regs) (dev : Byte) (reg : BitVec 16) (value : Byte) :
    regs.put dev reg value dev reg = value := by
  simp [Regs.put]

theorem Regs.put_other (regs : Regs) {dev otherDev : Byte} {reg otherReg : BitVec 16} (value : Byte)
    (other : ¬ (otherDev = dev ∧ otherReg = reg)) : regs.put dev reg value otherDev otherReg = regs otherDev otherReg :=
  if_neg other

@[simp] theorem Regs.put_put (regs : Regs) (dev : Byte) (reg : BitVec 16) (first second : Byte) :
    (regs.put dev reg first).put dev reg second = regs.put dev reg second := by
  funext otherDev otherReg
  simp only [Regs.put]
  split
  · rfl
  · rfl

theorem Regs.put_self (regs : Regs) (dev : Byte) (reg : BitVec 16) : regs.put dev reg (regs dev reg) = regs := by
  funext otherDev otherReg
  simp only [Regs.put]
  split
  next same => rw [same.1, same.2]
  next => rfl

def Regs.clearBoth (regs : Regs) (reg : BitVec 16) (mask : Byte) : Regs :=
  (regs.put SE reg (regs SE reg &&& ~~~mask)).put DE reg (regs DE reg &&& ~~~mask)

theorem Regs.clearBoth_apply (regs : Regs) (reg : BitVec 16) (mask dev : Byte) (otherReg : BitVec 16) :
    regs.clearBoth reg mask dev otherReg =
      if (dev = SE ∨ dev = DE) ∧ otherReg = reg then regs dev otherReg &&& ~~~mask else regs dev otherReg := by
  simp only [Regs.clearBoth, Regs.put]
  grind

/-- The four registers are different ones, so that the order in which they are cleared does not show. -/
theorem Regs.clearBoth_prepared (regs : Regs) (se de : Byte) :
    (((((regs.put DE RLMS95 de).put SE RLMS95 se).clearBoth RLMSA4 0x3f).clearBoth RLMS4 0x1).clearBoth RLMS3
      0x80).clearBoth RLMS95 0x80 = (regs.quiet.put DE RLMS95 (de &&& ~~~0x80)).put SE RLMS95 (se &&& ~~~0x80) := by
  funext dev reg
  simp only [Regs.clearBoth_apply, Regs.put, Regs.quiet, quietMask]
  grind [SE, DE, RLMSA4, RLMS4, RLMS3, RLMS95]

theorem Change.clear_set (mask value : Byte) :
    (Change.clear mask).apply ((Change.set mask).apply value) = (Change.clear mask).apply value := by
  simp only [Change.apply]
  rw [BitVec.and_comm, BitVec.and_or_distrib_left, BitVec.not_and_self, BitVec.and_comm value]
  exact BitVec.or_zero

section
variable {regs : Regs} {channel : Nat} {α β : Type} {post : α → Chips → Prop}

theorem SetTo.read (dev : Byte) (reg : BitVec 16) {next : Reading → Margin α}
    (continues : ∀ reading : Reading, (¬ Volatile reg → reading.value = regs dev reg) →
      Triple chipWorld Unguarded (SetTo regs) (next reading) post) :
    Triple chipWorld Unguarded (SetTo regs) ((iicReg16Rd8 channel dev reg).bind next) post := by
  apply Triple.perform_bind (fun _ chips => (¬ Volatile reg → chips.answer = regs dev reg) ∧ SetTo regs chips)
    (chipWorld_stable _)
  · exact fun _ _ => trivial
  · intro chips exit after set acted
    obtain ⟨-, byte, rfl, exact_⟩ := acted
    constructor
    · intro steady
      rw [← set]
      exact exact_ steady
    · exact set
  · intro exit
    apply Triple.perform_bind (fun (parsed : Parsed) chips =>
        (¬ Volatile reg → BitVec.ofNat 8 parsed.value = regs dev reg) ∧ SetTo regs chips)
      (chipWorld_stable _)
    · exact fun _ _ => trivial
    · intro chips parsed after both acted
      obtain ⟨shown, set⟩ := both
      obtain ⟨read, rfl⟩ := acted
      exact ⟨fun steady => read.trans (shown steady), set⟩
    · exact fun parsed => .given fun read => continues ⟨dev, reg, parsed⟩ read

theorem SetTo.write (dev : Byte) (reg : BitVec 16) (value : Byte) (basis : Option (Reading × Change))
    {next : Unit → Margin α}
    (continues : Triple chipWorld Unguarded (SetTo (regs.put dev reg value)) (next ()) post) :
    Triple chipWorld Unguarded (SetTo regs) ((iicReg16Wr8 channel dev reg value basis).bind next) post := by
  apply Triple.perform_bind (fun _ => SetTo (regs.put dev reg value)) (chipWorld_stable _)
  · exact fun _ _ => trivial
  · intro chips exit after set acted
    obtain ⟨-, rfl⟩ := acted
    rw [SetTo, ← set]
    rfl
  · exact fun _ => continues

theorem SetTo.writeBack {reading : Reading} (dev : Byte) (reg : BitVec 16) (change : Change)
    (read : reading.value = regs dev reg) {next : Unit → Margin α}
    (continues : Triple chipWorld Unguarded (SetTo (regs.put dev reg (change.apply (regs dev reg)))) (next ()) post) :
    Triple chipWorld Unguarded (SetTo regs) ((writeBack channel dev reg reading change).bind next) post := by
  apply SetTo.write
  rw [read]
  exact continues

theorem SetTo.globalAdapt (change : Change) {next : Unit → Margin α}
    (continues : Triple chipWorld Unguarded (SetTo (regs.put DE RLMS3 (change.apply (regs DE RLMS3)))) (next ()) post) :
    Triple chipWorld Unguarded (SetTo regs) ((globalAdapt channel change).bind next) post := by
  simp only [LinkMargin.globalAdapt, Program.bind_eq, Program.bind_assoc]
  apply SetTo.read
  intro deRlms3 read
  exact SetTo.writeBack DE RLMS3 change (read (by decide)) continues

/-- Turning global adaptation on and off again leaves it as it was when it was off. -/
theorem SetTo.adapt {off : Byte} (adaptOff : regs DE RLMS3 = off &&& ~~~0x80) {next : Unit → Margin α}
    (continues : Triple chipWorld Unguarded (SetTo regs) (next ()) post) :
    Triple chipWorld Unguarded (SetTo regs)
      ((LinkMargin.globalAdapt channel (.set 0x80)).bind fun _ =>
        (LinkMargin.globalAdapt channel (.clear 0x80)).bind next) post := by
  apply SetTo.globalAdapt
  apply SetTo.globalAdapt
  have back : (Change.clear 0x80).apply ((Change.set 0x80).apply (regs DE RLMS3)) = regs DE RLMS3 := by
    rw [Change.clear_set, adaptOff, Change.apply, BitVec.and_assoc, BitVec.and_self]
  rw [Regs.put_same, Regs.put_put, back, Regs.put_self]
  exact continues

theorem SetTo.clearBoth (reg : BitVec 16) (mask : Byte) (steady : ¬ Volatile reg) {next : Unit → Margin α}
    (continues : Triple chipWorld Unguarded (SetTo (regs.clearBoth reg mask)) (next ()) post) :
    Triple chipWorld Unguarded (SetTo regs) ((clearBoth channel reg mask).bind next) post := by
  simp only [LinkMargin.clearBoth, Program.bind_eq, Program.bind_assoc]
  apply SetTo.read
  intro se seRead
  apply SetTo.read
  intro de deRead
  apply SetTo.writeBack SE reg (.clear mask) (seRead steady)
  have apart : ¬ (DE = SE ∧ reg = reg) := fun same => absurd same.1 (by decide)
  apply SetTo.writeBack DE reg (.clear mask)
  · rw [Regs.put_other _ _ apart]
    exact deRead steady
  · rw [Regs.put_other _ _ apart]
    exact continues

theorem SetTo.linkMarginInit (amplitudes : Amplitudes) {next : Amplitudes → Margin α}
    (continues : Triple chipWorld Unguarded
      (SetTo (regs.prepared amplitudes (regs.seStart amplitudes &&& ~~~0x80)))
      (next ⟨regs.seStart amplitudes, regs.deStart amplitudes⟩) post) :
    Triple chipWorld Unguarded (SetTo regs) ((linkMarginInit channel amplitudes).bind next) post := by
  simp only [LinkMargin.linkMarginInit, Program.bind_eq, Program.bind_assoc, Program.pure_eq, Program.pure_bind]
  apply SetTo.read
  intro deRate deRead
  have deChosen : deAmplitude (rateCode deRate) amplitudes.deTxAmpOrg = regs.deStart amplitudes := by
    rw [rateCode, deRead (by decide), Regs.deStart]
  rw [deChosen]
  apply SetTo.write
  apply SetTo.read
  intro seRate seRead
  have seChosen : seAmplitude (rateCode seRate) amplitudes.seTxAmpOrg = regs.seStart amplitudes := by
    rw [rateCode, seRead (by decide), Regs.seStart, Regs.put_other _ _ (by decide)]
  rw [seChosen]
  apply SetTo.write
  apply SetTo.clearBoth RLMSA4 0x3f (by decide)
  apply SetTo.clearBoth RLMS4 0x1 (by decide)
  apply SetTo.clearBoth RLMS3 0x80 (by decide)
  apply SetTo.clearBoth RLMS95 0x80 (by decide)
  rw [Regs.clearBoth_prepared]
  apply SetTo.read
  intro _ _
  apply SetTo.read
  intro _ _
  exact continues

end

def Call.Reads : Call → Prop
  | .sendCmdToA53Sync (.write _ _ _ _ _) => False
  | .sendCmdToA53Sync (.read _ _ _) | .getCmdResult => True

theorem SetTo.keeps (regs : Regs) : Keeps chipWorld Unguarded Call.Reads (SetTo regs) := by
  constructor
  · exact chipWorld_stable _
  · exact fun _ _ _ _ => trivial
  · intro call chips answer after reads set acted
    cases call with
    | getCmdResult =>
      obtain ⟨-, rfl⟩ := acted
      exact set
    | sendCmdToA53Sync request =>
      cases request with
      | read channel dev reg =>
        obtain ⟨-, byte, rfl, -⟩ := acted
        exact set
      | write => exact absurd reads id

theorem iicReg16Rd8_reads (channel : Nat) (dev : Byte) (reg : BitVec 16) :
    (iicReg16Rd8 channel dev reg).Only Call.Reads :=
  .bind (.perform trivial) fun _ => .bind (.perform trivial) fun _ => .pure _ _

theorem awaitLink_reads (channel remaining : Nat) (last : Byte × Byte) :
    (awaitLink channel remaining last).Only Call.Reads := by
  induction remaining generalizing last with
  | zero => exact .pure _ _
  | succ remaining ih =>
    apply Program.Only.bind (iicReg16Rd8_reads ..)
    intro deCnt0
    apply Program.Only.bind (iicReg16Rd8_reads ..)
    intro deCtrl3
    split
    · exact .pure _ _
    · exact ih _

theorem awaitLock_reads (channel remaining : Nat) : (awaitLock channel remaining).Only Call.Reads := by
  induction remaining with
  | zero => exact .pure _ _
  | succ remaining ih =>
    apply Program.Only.bind (iicReg16Rd8_reads ..)
    intro deCtrl3
    split
    · exact .pure _ _
    · exact ih

theorem linkMarginComplete_reads (channel : Nat) : (linkMarginComplete channel).Only Call.Reads :=
  .bind (iicReg16Rd8_reads ..) fun _ => .bind (iicReg16Rd8_reads ..) fun _ => .pure _ _

/-- The most rounds that a sweep makes from this value of `RLMS95` on; below zero the field wraps around. -/
def roundsLeft (now : Byte) : Nat := if amplitudeBits now = 0 then 64 else (amplitudeBits now).toNat

theorem roundsLeft_pos (now : Byte) : 0 < roundsLeft now := by
  rw [roundsLeft]
  split
  next => decide
  next positive => bv_omega

theorem roundsLeft_le (now : Byte) : roundsLeft now ≤ 64 := by
  rw [roundsLeft, amplitudeBits_toNat]
  split
  · exact Nat.le_refl _
  · omega

theorem roundsLeft_lowered (now : Byte) (again : amplitudeBits now - 1 > 10) :
    roundsLeft (lowered now) < roundsLeft now := by
  by_cases wraps : amplitudeBits now = 0
  · rw [lowered, roundsLeft, roundsLeft, wraps]
    decide
  · have below := amplitudeBits_below wraps
    have more : ¬ amplitudeBits now - 1 = 0 := by
      intro none
      rw [none] at again
      exact absurd again (by decide)
    rw [roundsLeft, roundsLeft, amplitudeBits_lowered wraps, if_neg wraps, if_neg more]
    omega

section
variable {regs : Regs} {amplitudes : Amplitudes} {channel : Nat} {α : Type} {post : α → Chips → Prop}

theorem Regs.prepared_adaptOff (value : Byte) :
    regs.prepared amplitudes value DE RLMS3 = regs DE RLMS3 &&& ~~~0x80 := by
  rw [Regs.prepared, Regs.put_other _ _ (by decide), Regs.put_other _ _ (by decide)]
  rfl

theorem SetTo.lowerAmplitude (now : Byte) {next : Byte × Byte → Margin α}
    (continues : ∀ deCnt0, Triple chipWorld Unguarded (SetTo (regs.prepared amplitudes (lowered now)))
      (next (deCnt0, amplitudeBits now - 1)) post) :
    Triple chipWorld Unguarded (SetTo (regs.prepared amplitudes now)) ((lowerAmplitude channel).bind next) post := by
  simp only [LinkMargin.lowerAmplitude, Program.bind_eq, Program.bind_assoc, Program.pure_eq, Program.pure_bind]
  apply SetTo.read
  intro seRlms95 read
  have found : seRlms95.value = now := by
    rw [read (by decide), Regs.prepared, Regs.put_same]
  have change : Change.lower.apply seRlms95.value = lowered now := by
    rw [found]
    rfl
  rw [found, LinkMargin.writeBack, change]
  apply SetTo.write
  have put : (regs.prepared amplitudes now).put SE RLMS95 (lowered now) = regs.prepared amplitudes (lowered now) :=
    Regs.put_put ..
  rw [put]
  apply SetTo.adapt (Regs.prepared_adaptOff _)
  apply Triple.keeps_bind (SetTo.keeps _) (awaitLock_reads ..)
  intro _
  apply Triple.keeps_bind (SetTo.keeps _) (iicReg16Rd8_reads ..)
  intro _
  apply Triple.keeps_bind (SetTo.keeps _) (iicReg16Rd8_reads ..)
  intro deCnt0
  exact continues deCnt0.value

/-- By induction on the rounds, which the amplitude in the register bounds. -/
theorem SetTo.sweep (rounds : Nat) (now : Byte) (enough : roundsLeft now ≤ rounds) :
    Triple chipWorld Unguarded (SetTo (regs.prepared amplitudes now)) (sweep channel rounds) fun result chips =>
      ∃ seTxAmp last, result = some seTxAmp ∧ SetTo (regs.prepared amplitudes last) chips := by
  induction rounds generalizing now with
  | zero =>
    have left := roundsLeft_pos now
    omega
  | succ rounds ih =>
    simp only [LinkMargin.sweep, Program.bind_eq, Program.pure_eq]
    apply SetTo.lowerAmplitude
    intro deCnt0
    split
    next again =>
      have fewer := roundsLeft_lowered now again.2
      exact ih (lowered now) (by omega)
    next =>
      apply Triple.pure
      · exact chipWorld_stable _
      · exact fun chips set => ⟨_, _, rfl, set⟩

def Finished (regs : Regs) (amplitudes : Amplitudes) (outcome : Outcome) (chips : Chips) : Prop :=
  outcome ≠ .sweeping ∧ SetTo (regs.after amplitudes outcome) chips

theorem SetTo.forwardLinkMargin (rounds : Nat) (garbage : Byte × Byte) (enough : 64 ≤ rounds) :
    Triple chipWorld Unguarded (SetTo (regs.prepared amplitudes (regs.seStart amplitudes &&& ~~~0x80)))
      (forwardLinkMargin channel rounds (regs.seStart amplitudes) garbage) (Finished regs amplitudes) := by
  simp only [LinkMargin.forwardLinkMargin, Program.bind_eq, Program.pure_eq]
  apply Triple.keeps_bind (SetTo.keeps _) (awaitLink_reads ..)
  intro link
  split
  next refused =>
    apply Triple.pure
    · exact chipWorld_stable _
    · exact fun chips set => ⟨Outcome.noConfusion, set⟩
  next =>
    apply Triple.bind _ (SetTo.sweep rounds _ ((roundsLeft_le _).trans enough))
    intro result
    apply Triple.exists_pre
    intro seTxAmp
    apply Triple.exists_pre
    intro last
    apply Triple.given
    intro returned
    subst returned
    apply SetTo.write
    have put : (regs.prepared amplitudes last).put SE RLMS95 (0x80 ||| regs.seStart amplitudes) =
        regs.after amplitudes (.margin 0) := Regs.put_put ..
    rw [put]
    apply SetTo.adapt (Regs.prepared_adaptOff _)
    apply Triple.pure
    · exact chipWorld_stable _
    · exact fun chips set => ⟨Outcome.noConfusion, set⟩

theorem SetTo.linkMarginTest (rounds : Nat) (garbage : Byte × Byte) (enough : 64 ≤ rounds) :
    Triple chipWorld Unguarded (SetTo regs) (linkMarginTest channel rounds amplitudes garbage)
      (Finished regs amplitudes) := by
  simp only [LinkMargin.linkMarginTest, initThenForward, Program.bind_eq, Program.bind_assoc, Program.pure_eq]
  apply SetTo.linkMarginInit
  apply Triple.bind _ (SetTo.forwardLinkMargin rounds garbage enough)
  intro outcome
  apply Triple.given
  intro finished
  apply Triple.keeps_bind (SetTo.keeps _) (linkMarginComplete_reads channel)
  intro _
  apply Triple.pure
  · exact chipWorld_stable _
  · exact fun chips set => ⟨finished, set⟩

end

theorem quietMask_rate : ~~~quietMask REG01 = BitVec.allOnes 8 := by decide

theorem quietMask_amplitude : ~~~quietMask RLMS95 = BitVec.allOnes 8 := by decide

theorem Regs.quiet_quiet (regs : Regs) : regs.quiet.quiet = regs.quiet := by
  funext dev reg
  simp only [Regs.quiet]
  split
  · rw [BitVec.and_assoc, BitVec.and_self]
  · rfl

theorem Regs.quiet_put (regs : Regs) (dev value : Byte) :
    (regs.put dev RLMS95 value).quiet = regs.quiet.put dev RLMS95 value := by
  funext otherDev reg
  simp only [Regs.quiet, Regs.put]
  by_cases same : otherDev = dev ∧ reg = RLMS95
  · rw [if_pos same, if_pos same, same.2, quietMask_amplitude, BitVec.and_allOnes, ite_self]
  · rw [if_neg same, if_neg same]

theorem Regs.prepared_rate (regs : Regs) (amplitudes : Amplitudes) (value dev : Byte) :
    regs.prepared amplitudes value dev REG01 = regs dev REG01 := by
  have other (chip : Byte) : ¬ (dev = chip ∧ REG01 = RLMS95) := fun same => absurd same.2 (by decide)
  rw [Regs.prepared, Regs.put_other _ _ (other SE), Regs.put_other _ _ (other DE), Regs.quiet, quietMask_rate,
    BitVec.and_allOnes, ite_self]

theorem Regs.prepared_prepared (regs : Regs) (first second : Amplitudes) (before value : Byte) :
    (regs.prepared first before).prepared second value = regs.prepared second value := by
  have rate := regs.prepared_rate first before DE
  have chosen : (regs.prepared first before).deStart second = regs.deStart second := by
    rw [Regs.deStart, rate, Regs.deStart]
  rw [Regs.prepared, chosen, Regs.prepared, Regs.quiet_put, Regs.quiet_put, Regs.quiet_quiet, Regs.prepared]
  funext dev reg
  simp only [Regs.put]
  split
  · rfl
  · split
    · rfl
    · rfl

theorem Regs.after_prepared (regs : Regs) (amplitudes : Amplitudes) (outcome : Outcome) :
    ∃ value, regs.after amplitudes outcome = regs.prepared amplitudes value := by
  cases outcome with
  | linkError => exact ⟨_, rfl⟩
  | sweeping => exact ⟨_, rfl⟩
  | margin linkMargin => exact ⟨_, rfl⟩

/-- A second test leaves what it would have left without the first. -/
theorem Regs.after_after (regs : Regs) (first second : Amplitudes) (before outcome : Outcome) :
    (regs.after first before).after second outcome = regs.after second outcome := by
  obtain ⟨value, left⟩ := regs.after_prepared first before
  have chosen : (regs.prepared first value).seStart second = regs.seStart second := by
    rw [Regs.seStart, Regs.prepared_rate, Regs.seStart]
  rw [left]
  cases outcome with
  | linkError => rw [Regs.after, chosen, Regs.prepared_prepared, Regs.after]
  | sweeping => rw [Regs.after, chosen, Regs.prepared_prepared, Regs.after]
  | margin linkMargin => rw [Regs.after, chosen, Regs.prepared_prepared, Regs.after]

/-- The last test alone decides. -/
def Regs.afterAll (regs : Regs) (outcomes : List Outcome) : Regs :=
  match outcomes.getLast? with
  | none => regs
  | some outcome => regs.after ⟨0, 0⟩ outcome

theorem Regs.afterAll_cons (regs : Regs) (outcome : Outcome) (later : List Outcome) :
    (regs.after ⟨0, 0⟩ outcome).afterAll later = regs.afterAll (outcome :: later) := by
  rw [Regs.afterAll, Regs.afterAll, List.getLast?_cons]
  cases later.getLast? with
  | none => rfl
  | some last => exact Regs.after_after ..

def FinishedAll (regs : Regs) (garbages : List (Byte × Byte)) (outcomes : List Outcome) (chips : Chips) : Prop :=
  (outcomes.length = garbages.length ∧ Outcome.sweeping ∉ outcomes) ∧ SetTo (regs.afterAll outcomes) chips

theorem SetTo.linkMarginTests {regs : Regs} {channel : Nat} (rounds : Nat) (garbages : List (Byte × Byte))
    (enough : 64 ≤ rounds) :
    Triple chipWorld Unguarded (SetTo regs) (linkMarginTests channel rounds garbages) (FinishedAll regs garbages) := by
  induction garbages generalizing regs with
  | nil =>
    apply Triple.pure
    · exact chipWorld_stable _
    · exact fun chips set => ⟨⟨rfl, List.not_mem_nil⟩, set⟩
  | cons garbage later ih =>
    simp only [LinkMargin.linkMarginTests, Program.bind_eq, Program.pure_eq]
    apply Triple.bind _ (SetTo.linkMarginTest rounds garbage enough)
    intro outcome
    apply Triple.given
    intro finished
    apply Triple.bind _ ih
    intro outcomes
    apply Triple.given
    intro others
    apply Triple.pure
    · exact chipWorld_stable _
    · intro chips set
      rw [Regs.afterAll_cons] at set
      refine ⟨⟨?_, ?_⟩, set⟩
      · rw [List.length_cons, List.length_cons, others.1]
      · intro found
        rcases List.mem_cons.mp found with same | found
        · exact finished same.symm
        · exact others.2 found

def Adjusted (dev : Byte) (reg : BitVec 16) : Prop :=
  (dev = SE ∨ dev = DE) ∧ (reg = RLMS95 ∨ reg = RLMSA4 ∨ reg = RLMS4 ∨ reg = RLMS3)

instance (dev : Byte) (reg : BitVec 16) : Decidable (Adjusted dev reg) := inferInstanceAs (Decidable (_ ∧ _))

def Call.Adjusts : Call → Prop
  | .sendCmdToA53Sync (.write _ dev reg _ _) => Adjusted dev reg
  | .sendCmdToA53Sync (.read _ _ _) | .getCmdResult => True

def Untouched (regs : Regs) (chips : Chips) : Prop :=
  ∀ dev reg, ¬ Adjusted dev reg → chips.regs dev reg = regs dev reg

theorem Untouched.keeps (regs : Regs) :
    Keeps chipWorld (fun _ => Untouched regs) Call.Adjusts (Untouched regs) := by
  constructor
  · exact chipWorld_stable _
  · exact fun _ _ _ untouched => untouched
  · intro call chips answer after adjusts untouched acted
    cases call with
    | getCmdResult =>
      obtain ⟨-, rfl⟩ := acted
      exact untouched
    | sendCmdToA53Sync request =>
      cases request with
      | read channel dev reg =>
        obtain ⟨-, byte, rfl, -⟩ := acted
        exact untouched
      | write channel dev reg value basis =>
        obtain ⟨-, rfl⟩ := acted
        intro otherDev otherReg other
        rw [← untouched otherDev otherReg other]
        apply if_neg
        intro same
        rw [same.1, same.2] at other
        exact other adjusts

section
variable (channel : Nat)

theorem Call.Reads.adjusts (call : Call) (reads : call.Reads) : call.Adjusts := by
  cases call with
  | getCmdResult => trivial
  | sendCmdToA53Sync request =>
    cases request with
    | read => trivial
    | write => exact absurd reads id

theorem iicReg16Rd8_adjusts (dev : Byte) (reg : BitVec 16) : (iicReg16Rd8 channel dev reg).Only Call.Adjusts :=
  (iicReg16Rd8_reads channel dev reg).mono Call.Reads.adjusts

theorem iicReg16Wr8_adjusts {dev : Byte} {reg : BitVec 16} (value : Byte) (basis : Option (Reading × Change))
    (adjusted : Adjusted dev reg) : (iicReg16Wr8 channel dev reg value basis).Only Call.Adjusts :=
  .bind (.perform adjusted) fun _ => .pure _ _

theorem clearBoth_adjusts {reg : BitVec 16} (mask : Byte) (se : Adjusted SE reg) (de : Adjusted DE reg) :
    (clearBoth channel reg mask).Only Call.Adjusts := by
  apply Program.Only.bind (iicReg16Rd8_adjusts ..)
  intro seRead
  apply Program.Only.bind (iicReg16Rd8_adjusts ..)
  intro deRead
  apply Program.Only.bind (iicReg16Wr8_adjusts _ _ _ se)
  intro _
  exact iicReg16Wr8_adjusts _ _ _ de

theorem globalAdapt_adjusts (change : Change) : (globalAdapt channel change).Only Call.Adjusts := by
  apply Program.Only.bind (iicReg16Rd8_adjusts ..)
  intro deRlms3
  exact iicReg16Wr8_adjusts _ _ _ (by decide)

theorem linkMarginInit_adjusts (amplitudes : Amplitudes) : (linkMarginInit channel amplitudes).Only Call.Adjusts := by
  apply Program.Only.bind (iicReg16Rd8_adjusts ..)
  intro deRate
  apply Program.Only.bind (iicReg16Wr8_adjusts _ _ _ (by decide))
  intro _
  apply Program.Only.bind (iicReg16Rd8_adjusts ..)
  intro seRate
  apply Program.Only.bind (iicReg16Wr8_adjusts _ _ _ (by decide))
  intro _
  apply Program.Only.bind (clearBoth_adjusts _ _ (by decide) (by decide))
  intro _
  apply Program.Only.bind (clearBoth_adjusts _ _ (by decide) (by decide))
  intro _
  apply Program.Only.bind (clearBoth_adjusts _ _ (by decide) (by decide))
  intro _
  apply Program.Only.bind (clearBoth_adjusts _ _ (by decide) (by decide))
  intro _
  apply Program.Only.bind (iicReg16Rd8_adjusts ..)
  intro _
  apply Program.Only.bind (iicReg16Rd8_adjusts ..)
  exact fun _ => .pure _ _

theorem lowerAmplitude_adjusts : (lowerAmplitude channel).Only Call.Adjusts := by
  apply Program.Only.bind (iicReg16Rd8_adjusts ..)
  intro seRlms95
  apply Program.Only.bind (iicReg16Wr8_adjusts _ _ _ (by decide))
  intro _
  apply Program.Only.bind (globalAdapt_adjusts ..)
  intro _
  apply Program.Only.bind (globalAdapt_adjusts ..)
  intro _
  apply Program.Only.bind ((awaitLock_reads ..).mono Call.Reads.adjusts)
  intro _
  apply Program.Only.bind (iicReg16Rd8_adjusts ..)
  intro _
  apply Program.Only.bind (iicReg16Rd8_adjusts ..)
  exact fun _ => .pure _ _

theorem sweep_adjusts (rounds : Nat) : (sweep channel rounds).Only Call.Adjusts := by
  induction rounds with
  | zero => exact .pure _ _
  | succ rounds ih =>
    apply Program.Only.bind (lowerAmplitude_adjusts channel)
    intro result
    dsimp only
    split
    · exact ih
    · exact .pure _ _

theorem forwardLinkMargin_adjusts (rounds : Nat) (seTxAmpOrg : Byte) (garbage : Byte × Byte) :
    (forwardLinkMargin channel rounds seTxAmpOrg garbage).Only Call.Adjusts := by
  apply Program.Only.bind ((awaitLink_reads ..).mono Call.Reads.adjusts)
  intro link
  dsimp only
  split
  · exact .pure _ _
  · apply Program.Only.bind (sweep_adjusts ..)
    intro result
    cases result with
    | none => exact .pure _ _
    | some seTxAmp =>
      apply Program.Only.bind (iicReg16Wr8_adjusts _ _ _ (by decide))
      intro _
      apply Program.Only.bind (globalAdapt_adjusts ..)
      intro _
      apply Program.Only.bind (globalAdapt_adjusts ..)
      exact fun _ => .pure _ _

theorem linkMarginTest_adjusts (rounds : Nat) (amplitudes : Amplitudes) (garbage : Byte × Byte) :
    (linkMarginTest channel rounds amplitudes garbage).Only Call.Adjusts := by
  apply Program.Only.bind
  · apply Program.Only.bind (linkMarginInit_adjusts ..)
    intro chosen
    exact forwardLinkMargin_adjusts ..
  · intro outcome
    apply Program.Only.bind ((linkMarginComplete_reads ..).mono Call.Reads.adjusts)
    exact fun _ => .pure _ _

theorem linkMarginTests_adjusts (rounds : Nat) (garbages : List (Byte × Byte)) :
    (linkMarginTests channel rounds garbages).Only Call.Adjusts := by
  induction garbages with
  | nil => exact .pure _ _
  | cons garbage later ih =>
    apply Program.Only.bind (linkMarginTest_adjusts ..)
    intro outcome
    apply Program.Only.bind ih
    exact fun _ => .pure _ _

end

/-- Every row of tests comes to its end. The last outcome decides what is left, and on the way there no other
    register than the eight differs from what it was. -/
theorem link_margin_tests_leave (channel rounds : Nat) (garbages : List (Byte × Byte)) (start : Chips)
    (enough : 64 ≤ rounds) :
    (∃ outcomes final, Runs chipWorld (linkMarginTests channel rounds garbages, start) (.pure outcomes, final)) ∧
      (∀ outcomes final, Runs chipWorld (linkMarginTests channel rounds garbages, start) (.pure outcomes, final) →
        outcomes.length = garbages.length ∧ Outcome.sweeping ∉ outcomes ∧
          final.regs = Regs.afterAll start.regs outcomes) ∧
      ∀ program now, Runs chipWorld (linkMarginTests channel rounds garbages, start) (program, now) →
        ∀ dev reg, ¬ Adjusted dev reg → now.regs dev reg = start.regs dev reg := by
  constructor
  · obtain ⟨outcomes, final, run⟩ := chipWorld_total.through (linkMarginTests channel rounds garbages) .pure start
    rw [Program.bind_pure] at run
    exact ⟨outcomes, final, run⟩
  constructor
  · intro outcomes final run
    have finished := (SetTo.linkMarginTests rounds garbages enough).reachable (rfl : SetTo start.regs start) run
    obtain ⟨⟨length, ended⟩, left⟩ := finished
    exact ⟨length, ended, left⟩
  · intro program now run
    have untouched : Untouched start.regs start := fun _ _ _ => rfl
    have kept := (Triple.keeps (Untouched.keeps start.regs) (linkMarginTests_adjusts channel rounds garbages)).reachable
      untouched run
    cases program with
    | pure outcomes => exact kept
    | call operation rest => exact kept

/-- A test of a good link and one of a link that is down. -/
theorem twoTests_leave :
    (showing [0, 0, 0, 0x80, 0x40, 0, 1] (linkMarginTests 0 64 [(0, 0), (0, 0)]) (coldChips 0)).1 =
        [.margin 10, .linkError] ∧
      (showing [0, 0, 0, 0x80, 0x40, 0, 1] (linkMarginTests 0 64 [(0, 0), (0, 0)]) (coldChips 0)).2.regs =
        Regs.afterAll (coldChips 0).regs [.margin 10, .linkError] := by
  have outcomes : (showing [0, 0, 0, 0x80, 0x40, 0, 1] (linkMarginTests 0 64 [(0, 0), (0, 0)]) (coldChips 0)).1 =
      [.margin 10, .linkError] := by decide +kernel
  constructor
  · exact outcomes
  · rw [← outcomes]
    exact ((link_margin_tests_leave 0 64 [(0, 0), (0, 0)] (coldChips 0) (by decide)).2.1 _ _ (showing_runs ..)).2.2

end CigCard.LinkMargin
