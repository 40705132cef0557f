import CigCard.Xdma.CallAccounts
import CigCard.Xdma.VectoredWrite

namespace CigCard.Xdma

section Rounds

variable {cfg : EngineConfig} {needUnmap dmaMapped flushes : Bool} {p : Ptr} {a final : Accounts} {outcomes : List Outcome}

def EndsMarked (p : Ptr) (outcomes : List Outcome) (final : Accounts) : Prop :=
  outcomes ≠ [] ∧ .notQueued ∉ outcomes ∧ (final.engine.tfer p).lastInRequest = true

instance (p : Ptr) (outcomes : List Outcome) (final : Accounts) : Decidable (EndsMarked p outcomes final) :=
  inferInstanceAs (Decidable (_ ∧ _ ∧ _))

theorem settleTransfer_tfer : (settleTransfer needUnmap p a).engine.tfer p = a.engine.tfer p := by
  rw [settleTransfer_engine]
  rfl

theorem settleTransfer_more (more : (a.engine.tfer p).lastInRequest = false) :
    (settleTransfer needUnmap p a).nents = a.nents ∧ (settleTransfer needUnmap p a).calls = a.calls := by
  unfold settleTransfer transferDestroy
  dsimp only
  rw [if_neg (by simp [more])]
  exact ⟨rfl, rfl⟩

theorem settleTransfer_last (last : (a.engine.tfer p).lastInRequest = true) (mapped : a.nents ≠ 0) :
    (settleTransfer true p a).nents = 0 ∧ (settleTransfer true p a).calls = a.calls ++ [.unmap a.nents] := by
  unfold settleTransfer transferDestroy
  dsimp only
  rw [if_pos ⟨last, rfl, mapped⟩]
  exact ⟨rfl, rfl⟩

/-- The rounds unmap the list once, with the entries that are left after merging, or not at all. -/
theorem Rounds.calls_eq (rounds : Rounds true p a outcomes final) (mapped : a.nents ≠ 0) :
    if EndsMarked p outcomes final then final.nents = 0 ∧ final.calls = a.calls ++ [.unmap a.nents]
    else final.nents = a.nents ∧ final.calls = a.calls := by
  induction rounds with
  | done a => exact ⟨rfl, rfl⟩
  | refused builds =>
    rw [if_neg fun ends => ends.2.1 (List.mem_singleton_self _)]
    exact ⟨builds.nents, builds.calls⟩
  | @ended a built builds outcome queued =>
    rw [← builds.nents, ← builds.calls]
    split
    · next ends =>
      have last := ends.2.2
      rw [settleTransfer_tfer] at last
      exact settleTransfer_last last (builds.nents.trans_ne mapped)
    · next more =>
      apply settleTransfer_more
      apply Bool.eq_false_iff.mpr
      intro last
      refine more ⟨List.cons_ne_nil _ _, fun refused => queued (List.mem_singleton.mp refused).symm, ?_⟩
      rw [settleTransfer_tfer]
      exact last
  | @next a built final outcomes builds more rest ih =>
    obtain ⟨nents, calls⟩ := @settleTransfer_more true p built more
    have same : EndsMarked p (.completed :: outcomes) final ↔ EndsMarked p outcomes final := by
      unfold EndsMarked
      cases rest with
      | done => simp [settleTransfer_tfer, more]
      | refused => simp
      | ended => simp
      | next => simp
    rw [nents, calls, builds.nents, builds.calls] at ih
    simp only [same]
    exact ih mapped

theorem Rounds.calls_kept (rounds : Rounds false p a outcomes final) : final.calls = a.calls := by
  induction rounds with
  | done a => rfl
  | refused builds => exact builds.calls
  | ended builds outcome queued =>
    rw [← builds.calls]
    unfold settleTransfer transferDestroy
    dsimp only
    rw [if_neg (by simp)]
  | next builds more rest ih =>
    rw [ih, (settleTransfer_more more).2, builds.calls]

end Rounds

section Ends

variable {cfg : EngineConfig} {dmaMapped flushes : Bool} {p : Ptr} {a final : Accounts} {outcomes : List Outcome}

/-- The transfer that ends a request of `pieces` pieces is settled: so many transfers reach its end, each but the first
    having the whole ring, and none is refused. -/
def SubmitEnds (cfg : EngineConfig) (e : Engine) (pieces : Nat) (outcomes : List Outcome) : Prop :=
  outcomes ≠ [] ∧ .notQueued ∉ outcomes ∧ pieces ≤ cfg.descMax - e.descIdx + (outcomes.length - 1) * cfg.descMax

instance (cfg : EngineConfig) (e : Engine) (pieces : Nat) (outcomes : List Outcome) :
    Decidable (SubmitEnds cfg e pieces outcomes) := inferInstanceAs (Decidable (_ ∧ _ ∧ _))

theorem transferInit_last_iff {req : Request} (cursor : a.engine.descIdx < cfg.descMax) :
    ((transferInit cfg p false a.engine req).1.tfer p).lastInRequest = true ↔
      req.remaining.length ≤ cfg.descMax - a.engine.descIdx := by
  rw [(transferInit_spec cfg p false a.engine req).lastInRequest, decide_eq_true_iff]
  rcases nextDescNum_cases a.engine req cursor with ⟨short, whole⟩ | ⟨long, upTo⟩
  · exact iff_of_true whole.symm short
  · rw [upTo]
    omega

theorem submitRounds_single {req : Request} {outcome : Outcome}
    (runs : submitRounds cfg flushes dmaMapped p [outcome] a req = some final) :
    final.engine.tfer p = (transferInit cfg p false a.engine req).1.tfer p := by
  obtain ⟨-, round⟩ := submitRounds_cons runs
  cases round with
  | refused same => rw [same]
  | ended _ _ same =>
    rw [same]
    exact settleTransfer_tfer
  | next _ rest =>
    unfold submitRounds at rest
    split at rest
    · cases rest
      exact settleTransfer_tfer
    · cases rest

/-- A call with more transfers goes on after the first, which has completed. -/
theorem submitRounds_more {req : Request} {outcome second : Outcome}
    (runs : submitRounds cfg flushes dmaMapped p (outcome :: second :: outcomes) a req = some final) :
    (transferInit cfg p false a.engine req).2.remaining ≠ [] ∧
      submitRounds cfg flushes dmaMapped p (second :: outcomes)
        (settleTransfer (!dmaMapped) p { a with engine := (transferInit cfg p false a.engine req).1 })
        (transferInit cfg p false a.engine req).2 = some final := by
  obtain ⟨-, round⟩ := submitRounds_cons runs
  cases round with
  | next _ rest =>
    refine ⟨fun done => ?_, rest⟩
    obtain ⟨none, -⟩ := submitRounds_done done rest
    cases none

theorem submitRounds_last_iff {req : Request} (cursor : a.engine.descIdx < cfg.descMax) (made : outcomes ≠ [])
    (runs : submitRounds cfg flushes dmaMapped p outcomes a req = some final) :
    (final.engine.tfer p).lastInRequest = true ↔
      req.remaining.length ≤ cfg.descMax - a.engine.descIdx + (outcomes.length - 1) * cfg.descMax := by
  induction outcomes generalizing a req with
  | nil => exact absurd rfl made
  | cons outcome outcomes ih =>
    cases outcomes with
    | nil =>
      rw [submitRounds_single runs, transferInit_last_iff cursor]
      simp
    | cons second outcomes =>
      obtain ⟨more, rest⟩ := submitRounds_more runs
      have init := transferInit_spec cfg p false a.engine req
      have left := List.length_pos_of_ne_nil more
      rw [init.remaining, List.length_drop] at left
      rcases nextDescNum_cases a.engine req cursor with ⟨-, whole⟩ | ⟨long, upTo⟩
      · omega
      · have wrapped : (transferInit cfg p false a.engine req).1.descIdx = 0 := by
          rw [init.descIdx, upTo, Nat.add_sub_cancel' cursor.le, Nat.mod_self]
        have start : (settleTransfer (!dmaMapped) p
            { a with engine := (transferInit cfg p false a.engine req).1 }).engine.descIdx = 0 := by
          rw [settleTransfer_engine]
          exact wrapped
        rw [ih (by rw [start]; exact cfg.descMax_pos) (List.cons_ne_nil _ _) rest, start, init.remaining,
          List.length_drop, upTo]
        simp only [List.length_cons, Nat.add_sub_cancel, Nat.sub_zero, Nat.succ_mul]
        omega

def apertureAfter (cfg : EngineConfig) (w : Window) (sgMax : Nat) : Nat → Nat → ApertureRequest → ApertureRequest
  | 0, _, req => req
  | n + 1, descIdx, req =>
    let built := buildTransfer w sgMax (cfg.descMax - descIdx) req
    apertureAfter cfg w sgMax n ((descIdx + built.passes.length) % cfg.descMax) (req.advance built)

def ApertureEnds (cfg : EngineConfig) (w : Window) (e : Engine) (sgt : MappedSg) (outcomes : List Outcome) : Prop :=
  outcomes ≠ [] ∧ .notQueued ∉ outcomes ∧
    (apertureAfter cfg w sgt.entries.length outcomes.length e.descIdx (apertureRequest sgt)).offset =
      (apertureRequest sgt).totalLen

instance (cfg : EngineConfig) (w : Window) (e : Engine) (sgt : MappedSg) (outcomes : List Outcome) :
    Decidable (ApertureEnds cfg w e sgt outcomes) := inferInstanceAs (Decidable (_ ∧ _ ∧ _))

theorem apertureRounds_single {w : Window} {sgMax : Nat} {req : ApertureRequest} {outcome : Outcome}
    (runs : apertureRounds cfg dmaMapped w sgMax p [outcome] a req = some final) :
    final.engine.tfer p =
      (apertureInit cfg p a.engine req (buildTransfer w sgMax (cfg.descMax - a.engine.descIdx) req)).tfer p := by
  obtain ⟨-, round⟩ := apertureRounds_cons runs rfl
  cases round with
  | refused same => rw [same]
  | ended _ _ same =>
    rw [same]
    exact settleTransfer_tfer
  | next _ rest =>
    unfold apertureRounds at rest
    split at rest
    · cases rest
    · cases rest
      exact settleTransfer_tfer

theorem apertureRounds_more {w : Window} {sgMax : Nat} {req : ApertureRequest} {outcome second : Outcome}
    (runs : apertureRounds cfg dmaMapped w sgMax p (outcome :: second :: outcomes) a req = some final) :
    apertureRounds cfg dmaMapped w sgMax p (second :: outcomes)
      (settleTransfer (!dmaMapped) p
        { a with engine := apertureInit cfg p a.engine req (buildTransfer w sgMax (cfg.descMax - a.engine.descIdx) req) })
      (req.advance (buildTransfer w sgMax (cfg.descMax - a.engine.descIdx) req)) = some final := by
  obtain ⟨-, round⟩ := apertureRounds_cons runs rfl
  cases round with
  | next _ rest => exact rest

theorem apertureRounds_last_iff {w : Window} {sgMax : Nat} {req : ApertureRequest} (made : outcomes ≠ [])
    (runs : apertureRounds cfg dmaMapped w sgMax p outcomes a req = some final) :
    (final.engine.tfer p).lastInRequest = true ↔
      (apertureAfter cfg w sgMax outcomes.length a.engine.descIdx req).offset = req.totalLen := by
  induction outcomes generalizing a req with
  | nil => exact absurd rfl made
  | cons outcome outcomes ih =>
    cases outcomes with
    | nil =>
      rw [apertureRounds_single runs, apertureInit_last, decide_eq_true_iff]
      rfl
    | cons second outcomes =>
      rw [ih (List.cons_ne_nil _ _) (apertureRounds_more runs), settleTransfer_engine]
      rfl

end Ends

section Undone

variable {b : Build} {cfg : EngineConfig} {flushes dmaMapped oom : Bool} {origNents : Nat} {outcomes : List Outcome}
  {e : Engine} {sgt : MappedSg} {p : Ptr} {a last : Accounts}

def undone : List DmaCall → Bool
  | [] => true
  | .map nents :: .unmap back :: calls => decide (back = nents) && undone calls
  | _ => false

theorem Rounds.undone_iff (rounds : Rounds (!dmaMapped) p (mappedAccounts dmaMapped origNents e sgt) outcomes last) :
    undone (unmapSgl dmaMapped origNents last).calls = true ↔
      dmaMapped = true ∨ sgt.entries.length = origNents ∨ ¬ EndsMarked p outcomes last := by
  cases dmaMapped with
  | true =>
    have calls := rounds.calls_kept
    have kept : (unmapSgl true origNents last).calls = [] := by
      unfold unmapSgl
      rw [if_neg (by simp), calls]
      rfl
    rw [kept]
    exact iff_of_true rfl (.inl rfl)
  | false =>
    have some : sgt.entries.length ≠ 0 := (List.length_pos_of_ne_nil sgt.mapped).ne'
    have calls := rounds.calls_eq some
    unfold unmapSgl
    by_cases ends : EndsMarked p outcomes last
    · -- `transfer_destroy` has set `sgt->nents` to 0
      rw [if_pos ends] at calls
      obtain ⟨nents, calls⟩ := calls
      rw [if_neg (by simp [nents]), calls]
      simp [mappedAccounts, undone, ends]
    · rw [if_neg ends] at calls
      obtain ⟨nents, calls⟩ := calls
      have left : last.nents ≠ 0 := by
        rw [nents]
        exact some
      rw [if_pos ⟨rfl, left⟩, calls]
      simp [mappedAccounts, undone, ends]

theorem submitRounds_ends_iff {req : Request} (cursor : a.engine.descIdx < cfg.descMax)
    (runs : submitRounds cfg flushes dmaMapped p outcomes a req = some last) :
    EndsMarked p outcomes last ↔ SubmitEnds cfg a.engine req.remaining.length outcomes := by
  apply and_congr_right
  intro made
  rw [submitRounds_last_iff cursor made runs]

theorem apertureRounds_ends_iff {w : Window} (same : a.engine = e)
    (runs : apertureRounds cfg dmaMapped w sgt.entries.length p outcomes a (apertureRequest sgt) = some last) :
    EndsMarked p outcomes last ↔ ApertureEnds cfg w e sgt outcomes := by
  apply and_congr_right
  intro made
  rw [apertureRounds_last_iff made runs, same]

/-- A call that returns has undone its mapping as it was made if and only if the list came mapped, the DMA layer merged
    none of its entries, or no transfer that ends the request was settled. -/
theorem call_unmaps_iff (b : Build) (cfg : EngineConfig) (dmaMapped oom : Bool) (origNents : Nat)
    (outcomes : List Outcome) (e : Engine) (cursor : e.descIdx < cfg.descMax) (sgt : MappedSg) (epAddr : BitVec 64) :
    (∀ flushes final, submitAccounts b cfg flushes dmaMapped oom origNents outcomes e sgt epAddr = some final →
      (undone final.calls = true ↔ dmaMapped = true ∨ sgt.entries.length = origNents ∨
        ¬ SubmitEnds cfg e (sgt.pieceCount b) outcomes)) ∧
    (∀ aperture final, apertureAccounts b cfg dmaMapped oom origNents outcomes e epAddr aperture sgt = some final →
      (undone final.calls = true ↔ dmaMapped = true ∨ sgt.entries.length = origNents ∨
        ¬ ApertureEnds cfg (apertureWindow b epAddr aperture) e sgt outcomes)) := by
  constructor
  · intro flushes final runs
    obtain ⟨last, rfl, ⟨rfl, rfl⟩ | ⟨req, init, rounds⟩⟩ := submitAccounts_cases runs
    · rw [Rounds.undone_iff (@Rounds.done _ ⟨0, 0⟩ _)]
      simp [EndsMarked, SubmitEnds]
    · have ends := submitRounds_ends_iff cursor rounds
      rw [xdmaInitRequest_req init] at ends
      change _ ↔ SubmitEnds cfg e (sgt.pieces b).length outcomes at ends
      rw [sgt.pieces_length] at ends
      rw [(submitRounds_rounds cursor rounds).undone_iff, ends]
  · intro aperture final runs
    obtain ⟨last, rfl, ⟨rfl, rfl⟩ | rounds⟩ := apertureAccounts_cases runs
    · rw [Rounds.undone_iff (@Rounds.done _ ⟨0, 0⟩ _)]
      simp [EndsMarked, ApertureEnds]
    · rw [(apertureRounds_rounds rounds).undone_iff, apertureRounds_ends_iff rfl rounds]
      rfl

theorem shortList_unmaps :
    (∃ final, submitAccounts usualBuild mmEngine false false false 2 [.completed] idleDriver.engine shortList 0x40 =
      some final ∧ undone final.calls = true) ∧
    (∃ final, apertureAccounts usualBuild mmEngine false false 2 [.failed] idleDriver.engine 0x40 4096 shortList =
      some final ∧ undone final.calls = true) := by
  have both := call_unmaps_iff usualBuild mmEngine false false 2 [.failed] idleDriver.engine (by decide) shortList 0x40
  have submits := call_unmaps_iff usualBuild mmEngine false false 2 [.completed] idleDriver.engine (by decide) shortList
    0x40
  have completes := shortList_accounts .completed _ rfl
  have apertures : (apertureAccounts usualBuild mmEngine false false 2 [.failed] idleDriver.engine 0x40 4096
    shortList).isSome = true := by decide +kernel
  obtain ⟨final, runs⟩ := Option.isSome_iff_exists.mp apertures
  exact ⟨⟨_, completes, (submits.1 false _ completes).mpr (.inr (.inl rfl))⟩,
    ⟨final, runs, (both.2 4096 _ runs).mpr (.inr (.inl rfl))⟩⟩

def mergedList : MappedSg := ⟨[⟨0x2000, 8192⟩], by decide, by decide⟩

/-- The list is mapped with two entries, and unmapped with one. -/
theorem mergedList_unmaps :
    ∃ final, submitAccounts usualBuild mmEngine false false false 2 [.completed] idleDriver.engine mergedList 0x40 =
      some final ∧ final.calls = [.map 2, .unmap 1] ∧ undone final.calls = false := by
  have fits : TableFits usualBuild mergedList := by
    constructor
    · decide
    · decide
  have whole : mergedList.pieces usualBuild = [⟨0x2000, 8192⟩] := by
    change splitEntry usualBuild 0x2000 8192 ++ [] = _
    rw [splitEntry]
    rfl
  have init : xdmaInitRequest usualBuild false mergedList 0x40 = .ok (some ⟨[⟨0x2000, 8192⟩], 0, 0x40⟩) := by
    rw [xdmaInitRequest_fits fits, whole]
    rfl
  have runs : submitAccounts usualBuild mmEngine false false false 2 [.completed] idleDriver.engine mergedList 0x40 =
      (submitRounds mmEngine false false ⟨0, 0⟩ [.completed] (mappedAccounts false 2 idleDriver.engine mergedList)
        ⟨[⟨0x2000, 8192⟩], 0, 0x40⟩).map (unmapSgl false 2) := by
    unfold submitAccounts
    rw [init]
  exact ⟨_, runs.trans rfl, rfl, rfl⟩

end Undone

end CigCard.Xdma
