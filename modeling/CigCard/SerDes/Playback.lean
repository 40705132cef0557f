import CigCard.SerDes.ElementTable

namespace CigCard.SerDes

open ByteMemory Mailbox

/-- Once an element has been supported, all later ones are. -/
def Orderly (elems : List DataElement) : Prop := elems.Pairwise fun earlier later => earlier.Supported → later.Supported

def Narrow (elems : List DataElement) : Prop := ∀ elem ∈ elems, elem.bits = 0x08 → elem.reg.toNat < 0x100

def sentWrites (channel : BitVec 32) (cmd : List Byte) (elems : List DataElement) : List I2cWrite :=
  ((playElements channel cmd elems).filterMap BusAction.text).filterMap parseWrite

section
variable {channel : BitVec 32} {cmd : List Byte} {elem : DataElement} {elems : List DataElement}

theorem sentWrites_cons : sentWrites channel cmd (elem :: elems) =
    (parseWrite (nextCmd channel cmd elem)).toList ++ sentWrites channel (nextCmd channel cmd elem) elems := by
  have texts : (playElements channel cmd (elem :: elems)).filterMap BusAction.text = nextCmd channel cmd elem ::
      (playElements channel (nextCmd channel cmd elem) elems).filterMap BusAction.text := rfl
  rw [sentWrites, texts, List.filterMap_cons, sentWrites]
  cases parseWrite (nextCmd channel cmd elem) with
  | none => rfl
  | some write => rfl

theorem tableWrites_supported (supported : elem.Supported) :
    tableWrites channel (elem :: elems) = elem.write channel :: tableWrites channel elems := by
  rw [tableWrites, List.filter_cons, if_pos (decide_eq_true supported), List.map_cons, tableWrites]

theorem tableWrites_other (other : ¬ elem.Supported) : tableWrites channel (elem :: elems) = tableWrites channel elems := by
  rw [tableWrites, List.filter_cons, if_neg (by simpa using other), tableWrites]

theorem orderly_supported (supported : elem.Supported) :
    Orderly (elem :: elems) ↔ (∀ later ∈ elems, later.Supported) ∧ Orderly elems := by
  rw [Orderly, List.pairwise_cons, Orderly]
  simp only [supported, true_implies]

theorem orderly_other (other : ¬ elem.Supported) : Orderly (elem :: elems) ↔ Orderly elems := by
  rw [Orderly, List.pairwise_cons, Orderly]
  simp only [other, false_implies, implies_true, true_and]

theorem narrow_cons : Narrow (elem :: elems) ↔ (elem.bits = 0x08 → elem.reg.toNat < 0x100) ∧ Narrow elems :=
  List.forall_mem_cons

/-- A supported element is sent, and rightly unless its register number is cut to a byte. -/
theorem nextCmd_supported (channel : BitVec 32) (cmd : List Byte) (supported : elem.Supported) :
    ∃ write, parseWrite (nextCmd channel cmd elem) = some write ∧
      (write = elem.write channel ↔ (elem.bits = 0x08 → elem.reg.toNat < 0x100)) := by
  rw [parseWrite_nextCmd]
  rcases supported with wide | narrow
  · have other : elem.bits ≠ 0x08 := by
      rw [wide]
      decide
    rw [if_pos wide]
    exact ⟨_, rfl, fun _ eight => absurd eight other, fun _ => rfl⟩
  · have other : elem.bits ≠ 0x10 := by
      rw [narrow]
      decide
    have cut : ({ elem.write channel with reg := elem.reg.toNat % 256 } : I2cWrite) = elem.write channel ↔
        (elem.bits = 0x08 → elem.reg.toNat < 0x100) := by
      simp only [DataElement.write, I2cWrite.mk.injEq, true_and, and_true, narrow, true_implies]
      omega
    rw [if_neg other, if_pos narrow]
    exact ⟨_, rfl, cut⟩

theorem nextCmd_other (channel : BitVec 32) (cmd : List Byte) (other : ¬ elem.Supported) :
    parseWrite (nextCmd channel cmd elem) = parseWrite cmd := by
  rw [DataElement.Supported, not_or] at other
  rw [parseWrite_nextCmd, if_neg other.1, if_neg other.2]

/-- Every supported element is sent, so the code never sends too few writes. -/
theorem tableWrites_le (channel : BitVec 32) (cmd : List Byte) (elems : List DataElement) :
    (tableWrites channel elems).length ≤ (sentWrites channel cmd elems).length := by
  induction elems generalizing cmd with
  | nil => exact Nat.le_refl _
  | cons elem elems ih =>
    have rest := ih (nextCmd channel cmd elem)
    rw [sentWrites_cons, List.length_append]
    by_cases supported : elem.Supported
    · obtain ⟨write, sent, -⟩ := nextCmd_supported channel cmd supported
      rw [tableWrites_supported supported, sent]
      simp only [List.length_cons, Option.toList_some, List.length_nil]
      omega
    · rw [tableWrites_other supported]
      omega

/-- The loop sends the writes of the table if and only if nothing is repeated and no register is cut. -/
theorem sentWrites_iff (channel : BitVec 32) (cmd : List Byte) (elems : List DataElement) :
    sentWrites channel cmd elems = tableWrites channel elems ↔
      ((parseWrite cmd).isSome → ∀ elem ∈ elems, elem.Supported) ∧ Orderly elems ∧ Narrow elems := by
  induction elems generalizing cmd with
  | nil => simp [sentWrites, playElements, tableWrites, Orderly, Narrow]
  | cons elem elems ih =>
    by_cases supported : elem.Supported
    · obtain ⟨write, sent, exact_⟩ := nextCmd_supported channel cmd supported
      have rest := ih (nextCmd channel cmd elem)
      rw [sent, Option.isSome_some] at rest
      rw [sentWrites_cons, sent, Option.toList_some, List.cons_append, List.nil_append, tableWrites_supported supported,
        List.cons.injEq, exact_, rest, orderly_supported supported, narrow_cons, List.forall_mem_cons]
      simp only [supported, true_and, true_implies]
      constructor
      · intro held
        obtain ⟨fits, later, orderly, narrow⟩ := held
        exact ⟨fun _ => later, ⟨later, orderly⟩, fits, narrow⟩
      · intro held
        obtain ⟨-, ⟨later, orderly⟩, fits, narrow⟩ := held
        exact ⟨fits, later, orderly, narrow⟩
    · have same := nextCmd_other channel cmd supported
      have rest := ih (nextCmd channel cmd elem)
      have narrow_free : elem.bits = 0x08 → elem.reg.toNat < 0x100 := fun eight => absurd (.inr eight) supported
      rw [same] at rest
      rw [sentWrites_cons, same, tableWrites_other supported, orderly_other supported, narrow_cons, List.forall_mem_cons]
      cases held : parseWrite cmd with
      | none =>
        rw [held] at rest
        rw [Option.toList_none, List.nil_append, rest]
        simp only [Option.isSome_none, Bool.false_eq_true, false_implies, true_and, and_iff_right narrow_free]
      | some write =>
        have longer := tableWrites_le channel (nextCmd channel cmd elem) elems
        constructor
        · intro equal
          have lengths := congrArg List.length equal
          simp only [Option.toList_some, List.cons_append, List.nil_append, List.length_cons] at lengths
          omega
        · intro claimed
          exact absurd (claimed.1 rfl).1 supported

theorem tablePlayed_iff_sentWrites (channel : BitVec 32) (elems : List DataElement) :
    TablePlayed channel elems ↔ sentWrites channel (detectText channel) elems = tableWrites channel elems := by
  have texts : (elementChannelProcess channel elems).filterMap BusAction.text = detectText channel ::
      ((playElements channel (detectText channel) elems).filterMap BusAction.text ++ [detectText channel]) := by
    rw [elementChannelProcess, List.filterMap_cons, BusAction.text, List.filterMap_append]
    rfl
  constructor
  · intro played
    obtain ⟨middle, between, writes⟩ := played
    rw [texts, List.cons.injEq, List.append_left_inj] at between
    rw [sentWrites, between.2]
    exact writes
  · exact fun sent => ⟨_, texts, sent⟩

end

/-- Exactly the tables that play back as they say. -/
theorem table_played_iff (channel : BitVec 32) (elems : List DataElement) :
    TablePlayed channel elems ↔ Orderly elems ∧ Narrow elems := by
  rw [tablePlayed_iff_sentWrites, sentWrites_iff, parseWrite_detectText]
  simp

/-- The second element is not to be written, yet the first one goes out again. -/
theorem other_width_repeats : ¬ TablePlayed 1 [⟨0x80, 0x10, 0x21, 0x10, 0⟩, ⟨0x90, 0x13, 0, 0, 100⟩] := by
  rw [tablePlayed_iff_sentWrites, sentWrites_iff]
  intro held
  have orderly := held.2.1
  revert orderly
  simp [Orderly, DataElement.Supported]

end CigCard.SerDes
