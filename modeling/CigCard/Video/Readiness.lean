import CigCard.Interaction.RelyGuarantee
import CigCard.Video.SendFrame

namespace CigCard.Video

open Interaction

inductive RegOutcome where
  | openFails (errno : Nat)
  | mmapFails
  | reads (value : BitVec 32)

/-- The `int` that `reg_rw` returns: the device's values and its own error codes share it. -/
def RegOutcome.result : RegOutcome → Int
  | .openFails errno => -errno
  | .mmapFails => 1
  | .reads value => value.toInt

def RegOutcome.Ready : RegOutcome → Prop
  | .reads value => value ≠ 3
  | .openFails _ | .mmapFails => False

def RegOutcome.Fails : RegOutcome → Prop
  | .reads _ => False
  | .openFails _ | .mmapFails => True

theorem RegOutcome.result_ne_three (outcome : RegOutcome) : outcome.result ≠ 3 ↔ outcome.Ready ∨ outcome.Fails := by
  cases outcome with
  | openFails errno =>
    simp only [RegOutcome.result, RegOutcome.Ready, RegOutcome.Fails, or_true, iff_true]
    omega
  | mmapFails => simp [RegOutcome.result, RegOutcome.Fails]
  | reads value =>
    have three : (3 : BitVec 32).toInt = 3 := by decide
    simp only [RegOutcome.result, RegOutcome.Ready, RegOutcome.Fails, or_false]
    rw [← three, ne_eq, BitVec.toInt_inj]

theorem RegOutcome.Ready.not_fails {outcome : RegOutcome} (ready : outcome.Ready) : ¬ outcome.Fails := by
  cases outcome with
  | openFails errno => exact ready.elim
  | mmapFails => exact ready.elim
  | reads value => exact id

/-- The register accesses go as `outcomes` says, one after the other; the state counts them. -/
def RegisterAct (outcomes : Nat → RegOutcome) (count : Int) : (call : Call) → Nat → call.Answer → Nat → Prop
  | .regRw _ _ _, accesses, answer, after => answer = (outcomes accesses).result ∧ after = accesses + 1
  | .stackWord, accesses, answer, after => answer = count ∧ after = accesses
  | .sendOneFrame _, accesses, _, after | .openDevice, accesses, _, after | .printSeq _, accesses, _, after
  | .lseek _, accesses, _, after | .write _, accesses, _, after | .apertureWrite _ _ _, accesses, _, after =>
    after = accesses

def registers (outcomes : Nat → RegOutcome) (count : Int) : World Call Call.Answer Nat where
  act := RegisterAct outcomes count
  env := fun _ _ => False

/-- The `k`-th read of the waited register; the reads of 0x100c4 come in between. -/
def waited (outcomes : Nat → RegOutcome) (k : Nat) : RegOutcome := outcomes (2 * k)

structure FirstReady (outcomes : Nat → RegOutcome) (k : Nat) : Prop where
  ready : (waited outcomes k).Ready
  first : ∀ j < k, ¬ (waited outcomes j).Ready

/-- `wait_fpga_ready` returns right after the first access that read a value other than 3, and does
    return there. -/
structure ReturnsWhenReady (outcomes : Nat → RegOutcome) (count : Int) : Prop where
  after : ∀ waitAddr rounds accesses,
    Runs (registers outcomes count) (waitFpgaReady waitAddr rounds, 0) (.pure true, accesses) →
      ∃ k, FirstReady outcomes k ∧ accesses = 2 * (k + 1)
  returns : ∀ waitAddr rounds k, FirstReady outcomes k → k < rounds →
    ∃ accesses, Runs (registers outcomes count) (waitFpgaReady waitAddr rounds, 0) (.pure true, accesses)

section
variable {outcomes : Nat → RegOutcome} {count : Int}

theorem registers_stable (assertion : Nat → Prop) : Stable (registers outcomes count) assertion :=
  fun _ _ _ moved => absurd moved id

theorem registers_total : (registers outcomes count).Total := by
  intro call accesses
  cases call with
  | sendOneFrame buffer => exact ⟨(), accesses, rfl⟩
  | openDevice => exact ⟨true, accesses, rfl⟩
  | printSeq sendCount => exact ⟨(), accesses, rfl⟩
  | stackWord => exact ⟨count, accesses, rfl, rfl⟩
  | regRw addr write value => exact ⟨(outcomes accesses).result, accesses + 1, rfl, rfl⟩
  | lseek offset => exact ⟨(0 : Int), accesses, rfl⟩
  | write bytes => exact ⟨(0 : Int), accesses, rfl⟩
  | apertureWrite bytes epAddr aperture => exact ⟨⟨0, 0, 0⟩, accesses, rfl⟩

inductive WaitEnds (outcomes : Nat → RegOutcome) (count : Int) (k rounds : Nat) : Bool → Nat → Prop where
  | stops (j accesses : Nat) : count ≠ 3 → k ≤ j → j < k + rounds → (waited outcomes j).result ≠ 3 →
      (∀ i, k ≤ i → i < j → (waited outcomes i).result = 3) → accesses = 2 * (j + 1) →
      WaitEnds outcomes count k rounds true accesses
  | goesOn (accesses : Nat) : (count = 3 ∨ ∀ i, k ≤ i → i < k + rounds → (waited outcomes i).result = 3) →
      WaitEnds outcomes count k rounds false accesses

theorem WaitEnds.previous {k rounds accesses : Nat} {returned : Bool} (three : (waited outcomes k).result = 3)
    (ends : WaitEnds outcomes count (k + 1) rounds returned accesses) :
    WaitEnds outcomes count k (rounds + 1) returned accesses := by
  cases ends with
  | stops j _ unlucky above below stop first place =>
    apply WaitEnds.stops j _ unlucky (by omega) (by omega) stop _ place
    intro i from_ before
    by_cases here : i = k
    · rw [here]
      exact three
    · exact first i (by omega) before
  | goesOn _ never =>
    apply WaitEnds.goesOn
    apply never.imp_right
    intro all i from_ before
    by_cases here : i = k
    · rw [here]
      exact three
    · exact all i (by omega) (by omega)

theorem pollReady_ends (waitAddr rounds k : Nat) :
    Triple (registers outcomes count) Unguarded (fun accesses => accesses = 2 * k) (pollReady waitAddr count rounds)
      (WaitEnds outcomes count k rounds) := by
  induction rounds generalizing k with
  | zero =>
    apply Triple.pure
    · exact registers_stable _
    · exact fun accesses _ => .goesOn accesses (.inr fun i above below => by omega)
  | succ rounds ih =>
    apply Triple.perform_bind (fun readValue accesses => readValue = (waited outcomes k).result ∧ accesses = 2 * k + 1)
      (registers_stable _)
    · exact fun _ _ => trivial
    · intro accesses readValue after same acted
      obtain ⟨value, next⟩ := acted
      rw [same] at value next
      exact ⟨value, next⟩
    · intro readValue
      apply Triple.given
      intro value
      apply Triple.perform_bind (fun _ accesses => accesses = 2 * (k + 1)) (registers_stable _)
      · exact fun _ _ => trivial
      · intro accesses fsync after same acted
        obtain ⟨-, next⟩ := acted
        omega
      · intro fsync
        by_cases three : readValue = 3
        · rw [if_pos three]
          apply (ih (k + 1)).consequence (fun _ same => same)
          intro returned accesses ends
          exact ends.previous (value.symm.trans three)
        · rw [if_neg three]
          by_cases unlucky : count = 3
          · rw [if_pos unlucky]
            apply (ih (k + 1)).consequence (fun _ same => same)
            intro returned accesses ends
            cases ends with
            | stops j _ lucky => exact absurd unlucky lucky
            | goesOn => exact .goesOn accesses (.inl unlucky)
          · rw [if_neg unlucky]
            apply Triple.pure
            · exact registers_stable _
            · intro accesses place
              rw [value] at three
              exact .stops k accesses unlucky (Nat.le_refl k) (by omega) three (fun i above below => by omega) place

theorem waitFpgaReady_ends (waitAddr rounds : Nat) :
    Triple (registers outcomes count) Unguarded (fun accesses => accesses = 0) (waitFpgaReady waitAddr rounds)
      (WaitEnds outcomes count 0 rounds) := by
  apply Triple.perform_bind (fun word accesses => word = count ∧ accesses = 0) (registers_stable _)
  · exact fun _ _ => trivial
  · intro accesses word after same acted
    exact ⟨acted.1, acted.2.trans same⟩
  · intro word
    apply Triple.given
    intro content
    rw [content]
    exact pollReady_ends waitAddr rounds 0

theorem waitFpgaReady_run_ends (outcomes : Nat → RegOutcome) (count : Int) (waitAddr rounds : Nat) : ∃ returned accesses,
    Runs (registers outcomes count) (waitFpgaReady waitAddr rounds, 0) (.pure returned, accesses) ∧
      WaitEnds outcomes count 0 rounds returned accesses := by
  obtain ⟨returned, accesses, run⟩ := registers_total.through (waitFpgaReady waitAddr rounds) .pure 0
  rw [Program.bind_pure] at run
  exact ⟨returned, accesses, run, (waitFpgaReady_ends waitAddr rounds).reachable rfl run⟩

theorem WaitEnds.of_true {rounds accesses : Nat} (ends : WaitEnds outcomes count 0 rounds true accesses) :
    count ≠ 3 ∧ ∃ j < rounds, (waited outcomes j).result ≠ 3 ∧ (∀ i < j, (waited outcomes i).result = 3) ∧
      accesses = 2 * (j + 1) := by
  cases ends with
  | stops j _ lucky above below stop first place =>
    exact ⟨lucky, j, by omega, stop, fun i before => first i (Nat.zero_le i) before, place⟩

theorem WaitEnds.of_false {rounds accesses : Nat} (ends : WaitEnds outcomes count 0 rounds false accesses) :
    count = 3 ∨ ∀ i < rounds, (waited outcomes i).result = 3 := by
  cases ends with
  | goesOn _ never => exact never.imp_right fun all i before => all i (Nat.zero_le i) (by omega)

theorem firstReady_of_ready {k : Nat} (ready : (waited outcomes k).Ready) : ∃ j, FirstReady outcomes j := by
  classical
  have some_ready : ∃ j, (waited outcomes j).Ready := ⟨k, ready⟩
  exact ⟨Nat.find some_ready, Nat.find_spec some_ready, fun j before => Nat.find_min some_ready before⟩

end

/-- The local counter does not hold 3, and no access fails before the register has been read as ready;
    or it holds 3 and the register never is. -/
def WaitSound (outcomes : Nat → RegOutcome) (count : Int) : Prop :=
  (count ≠ 3 ∧ ∀ k, (waited outcomes k).Fails → ∃ j < k, (waited outcomes j).Ready) ∨
    (count = 3 ∧ ∀ k, ¬ (waited outcomes k).Ready)

section
variable {outcomes : Nat → RegOutcome} {count : Int}

theorem WaitSound.returns (sound : WaitSound outcomes count) : ReturnsWhenReady outcomes count := by
  constructor
  · intro waitAddr rounds accesses run
    obtain ⟨lucky, j, -, stop, first, place⟩ := ((waitFpgaReady_ends waitAddr rounds).reachable rfl run).of_true
    apply Exists.intro j
    apply And.intro _ place
    have none_before : ∀ i < j, ¬ (waited outcomes i).Ready :=
      fun i before ready => (RegOutcome.result_ne_three _).mpr (.inl ready) (first i before)
    rcases sound with ⟨-, guarded⟩ | ⟨unlucky, -⟩
    · rcases (RegOutcome.result_ne_three _).mp stop with ready | fails
      · exact ⟨ready, none_before⟩
      · obtain ⟨i, before, ready⟩ := guarded j fails
        exact absurd ready (none_before i before)
    · exact absurd unlucky lucky
  · intro waitAddr rounds k first within
    obtain ⟨returned, accesses, run, ends⟩ := waitFpgaReady_run_ends outcomes count waitAddr rounds
    cases returned with
    | true => exact ⟨accesses, run⟩
    | false =>
      rcases sound with ⟨lucky, -⟩ | ⟨-, never⟩
      · rcases ends.of_false with unlucky | all
        · exact absurd unlucky lucky
        · exact absurd (all k within) ((RegOutcome.result_ne_three _).mpr (.inl first.ready))
      · exact absurd first.ready (never k)

theorem ReturnsWhenReady.sound (returns : ReturnsWhenReady outcomes count) : WaitSound outcomes count := by
  by_cases unlucky : count = 3
  · apply Or.inr
    apply And.intro unlucky
    intro k ready
    obtain ⟨j, first⟩ := firstReady_of_ready ready
    obtain ⟨accesses, run⟩ := returns.returns 0 (j + 1) j first (Nat.lt_succ_self j)
    exact ((waitFpgaReady_ends 0 (j + 1)).reachable rfl run).of_true.1 unlucky
  · apply Or.inl
    apply And.intro unlucky
    intro k fails
    have stop := (RegOutcome.result_ne_three _).mpr (.inr fails)
    obtain ⟨returned, accesses, run, ends⟩ := waitFpgaReady_run_ends outcomes count 0 (k + 1)
    cases returned with
    | true =>
      obtain ⟨-, j, within, -, -, place⟩ := ends.of_true
      obtain ⟨i, first, same⟩ := returns.after 0 (k + 1) accesses run
      have here : i = j := by omega
      rw [here] at first
      rcases Nat.lt_or_eq_of_le (Nat.lt_succ_iff.mp within) with before | last
      · exact ⟨j, before, first.ready⟩
      · rw [← last] at fails
        exact absurd fails first.ready.not_fails
    | false =>
      rcases ends.of_false with three | all
      · exact absurd three unlucky
      · exact absurd (all k (Nat.lt_succ_self k)) stop

end

/-- The wait is for the first ready read in exactly these cases. -/
theorem returns_when_ready_iff (outcomes : Nat → RegOutcome) (count : Int) :
    ReturnsWhenReady outcomes count ↔
      (count ≠ 3 ∧ ∀ k, (waited outcomes k).Fails → ∃ j < k, (waited outcomes j).Ready) ∨
        (count = 3 ∧ ∀ k, ¬ (waited outcomes k).Ready) :=
  ⟨ReturnsWhenReady.sound, WaitSound.returns⟩

/-- `EMFILE`, which comes back as -24 and not as 3. -/
theorem open_failure_ends_wait : ¬ ReturnsWhenReady (fun _ => .openFails 24) 0 := by
  intro returns
  rcases returns.sound with ⟨-, guarded⟩ | ⟨three, -⟩
  · obtain ⟨j, before, -⟩ := guarded 0 trivial
    omega
  · exact absurd three (by decide)

end CigCard.Video
