import CigCard.Xdma.ApertureHost

namespace CigCard.Xdma

inductive DmaCall where
  | map (nents : Nat)
  | unmap (nents : Nat)
deriving DecidableEq

structure Accounts where
  engine : Engine
  nents : Nat
  calls : List DmaCall

def transferDestroy (needUnmap : Bool) (p : Ptr) (a : Accounts) : Accounts :=
  let t := a.engine.tfer p
  let a := { a with engine := { a.engine with ring := xdmaDescDone t a.engine.ring } }
  if t.lastInRequest ∧ needUnmap ∧ a.nents ≠ 0 then { a with nents := 0, calls := a.calls ++ [.unmap a.nents] }
  else a

def settleTransfer (needUnmap : Bool) (p : Ptr) (a : Accounts) : Accounts :=
  transferDestroy needUnmap p
    { a with engine := { a.engine with descUsed := a.engine.descUsed - (a.engine.tfer p).descNum } }

def unmapSgl (dmaMapped : Bool) (origNents : Nat) (a : Accounts) : Accounts :=
  if dmaMapped = false ∧ a.nents ≠ 0 then { a with nents := 0, calls := a.calls ++ [.unmap origNents] } else a

/-- The loop of `xdma_xfer_submit`. There is an outcome for each of its transfers in turn; `none` says that there is one
    missing or one too many. `flushes` is a C2H streaming engine with `eop_flush`, which ends a request with a packet. -/
def submitRounds (cfg : EngineConfig) (flushes dmaMapped : Bool) (p : Ptr) :
    List Outcome → Accounts → Request → Option Accounts
  | [], a, req => if req.remaining = [] then some a else none
  | outcome :: outcomes, a, req =>
    if req.remaining = [] then none
    else
      let next := transferInit cfg p false a.engine req
      let a := { a with engine := next.1 }
      match outcome with
      | .notQueued => if outcomes = [] then some a else none
      | .failed | .timedOut => if outcomes = [] then some (settleTransfer (!dmaMapped) p a) else none
      | .completed =>
        if flushes then if outcomes = [] then some (settleTransfer (!dmaMapped) p a) else none
        else submitRounds cfg flushes dmaMapped p outcomes (settleTransfer (!dmaMapped) p a) next.2

def mappedAccounts (dmaMapped : Bool) (origNents : Nat) (e : Engine) (sgt : MappedSg) : Accounts :=
  ⟨e, sgt.entries.length, if dmaMapped then [] else [.map origNents]⟩

def submitAccounts (b : Build) (cfg : EngineConfig) (flushes dmaMapped oom : Bool) (origNents : Nat)
    (outcomes : List Outcome) (e : Engine) (sgt : MappedSg) (epAddr : BitVec 64) : Option Accounts :=
  let a := mappedAccounts dmaMapped origNents e sgt
  match xdmaInitRequest b oom sgt epAddr with
  | .error _ => none
  | .ok none => if outcomes = [] then some (unmapSgl dmaMapped origNents a) else none
  | .ok (some req) => (submitRounds cfg flushes dmaMapped ⟨0, 0⟩ outcomes a req).map (unmapSgl dmaMapped origNents)

/-- The loop of `xdma_xfer_aperture`. A transfer of no descriptors is a fault. -/
def apertureRounds (cfg : EngineConfig) (dmaMapped : Bool) (w : Window) (sgMax : Nat) (p : Ptr) :
    List Outcome → Accounts → ApertureRequest → Option Accounts
  | [], a, req => if req.offset < req.totalLen then none else some a
  | outcome :: outcomes, a, req =>
    if req.offset < req.totalLen then
      let built := buildTransfer w sgMax (cfg.descMax - a.engine.descIdx) req
      if built.passes = [] then none
      else
        let a := { a with engine := apertureInit cfg p a.engine req built }
        match outcome with
        | .notQueued => if outcomes = [] then some a else none
        | .failed | .timedOut => if outcomes = [] then some (settleTransfer (!dmaMapped) p a) else none
        | .completed =>
          apertureRounds cfg dmaMapped w sgMax p outcomes (settleTransfer (!dmaMapped) p a) (req.advance built)
    else none

def apertureAccounts (b : Build) (cfg : EngineConfig) (dmaMapped oom : Bool) (origNents : Nat) (outcomes : List Outcome)
    (e : Engine) (epAddr : BitVec 64) (aperture : BitVec 32) (sgt : MappedSg) : Option Accounts :=
  let a := mappedAccounts dmaMapped origNents e sgt
  if oom then if outcomes = [] then some (unmapSgl dmaMapped origNents a) else none
  else
    (apertureRounds cfg dmaMapped (apertureWindow b epAddr aperture) sgt.entries.length ⟨0, 0⟩ outcomes a
      (apertureRequest sgt)).map (unmapSgl dmaMapped origNents)

section Rounds

variable {cfg : EngineConfig} {needUnmap dmaMapped flushes : Bool} {p : Ptr} {a built final : Accounts}
  {outcomes : List Outcome}

structure TransferBuilt (p : Ptr) (a built : Accounts) : Prop where
  some : 0 < (built.engine.tfer p).descNum
  descUsed : built.engine.descUsed = a.engine.descUsed + (built.engine.tfer p).descNum
  nents : built.nents = a.nents
  calls : built.calls = a.calls

/-- The rounds of a call: each transfer is built, and, unless it is refused, settled. One that ends the request, or that
    does not complete, is the last. -/
inductive Rounds (needUnmap : Bool) (p : Ptr) : Accounts → List Outcome → Accounts → Prop where
  | done (a : Accounts) : Rounds needUnmap p a [] a
  | refused {a built : Accounts} (builds : TransferBuilt p a built) : Rounds needUnmap p a [.notQueued] built
  | ended {a built : Accounts} (builds : TransferBuilt p a built) (outcome : Outcome) (queued : outcome ≠ .notQueued) :
    Rounds needUnmap p a [outcome] (settleTransfer needUnmap p built)
  | next {a built final : Accounts} {outcomes : List Outcome} (builds : TransferBuilt p a built)
    (more : (built.engine.tfer p).lastInRequest = false)
    (rest : Rounds needUnmap p (settleTransfer needUnmap p built) outcomes final) :
    Rounds needUnmap p a (.completed :: outcomes) final

theorem settleTransfer_engine :
    (settleTransfer needUnmap p a).engine = retireTransfer p a.engine := by
  unfold settleTransfer transferDestroy
  dsimp only
  split
  · rfl
  · rfl

theorem unmapSgl_engine (origNents : Nat) : (unmapSgl dmaMapped origNents a).engine = a.engine := by
  unfold unmapSgl
  split
  · rfl
  · rfl

theorem TransferBuilt.settled_descUsed (builds : TransferBuilt p a built) :
    (settleTransfer needUnmap p built).engine.descUsed = a.engine.descUsed := by
  have used := builds.descUsed
  rw [settleTransfer_engine]
  change built.engine.descUsed - _ = _
  omega

/-- The descriptors of a refused transfer, and of no other, stay counted. -/
theorem Rounds.descUsed_iff (rounds : Rounds needUnmap p a outcomes final) :
    final.engine.descUsed = a.engine.descUsed ↔ .notQueued ∉ outcomes := by
  induction rounds with
  | done a => exact iff_of_true rfl (List.not_mem_nil)
  | refused builds =>
    have used := builds.descUsed
    have some := builds.some
    exact iff_of_false (by omega) (fun fine => fine (List.mem_singleton_self _))
  | ended builds outcome queued =>
    exact iff_of_true builds.settled_descUsed fun refused => queued (List.mem_singleton.mp refused).symm
  | next builds more rest ih =>
    rw [← builds.settled_descUsed, ih, List.mem_cons, not_or]
    exact (and_iff_right (by decide)).symm

theorem submitRounds_done {req : Request} (done : req.remaining = [])
    (runs : submitRounds cfg flushes dmaMapped p outcomes a req = some final) : outcomes = [] ∧ final = a := by
  cases outcomes with
  | nil =>
    rw [submitRounds, if_pos done] at runs
    cases runs
    exact ⟨rfl, rfl⟩
  | cons outcome outcomes =>
    rw [submitRounds, if_pos done] at runs
    cases runs

theorem apertureRounds_done {w : Window} {sgMax : Nat} {req : ApertureRequest} (done : req.totalLen ≤ req.offset)
    (runs : apertureRounds cfg dmaMapped w sgMax p outcomes a req = some final) : outcomes = [] ∧ final = a := by
  have ended : ¬ req.offset < req.totalLen := Nat.not_lt_of_le done
  cases outcomes with
  | nil =>
    rw [apertureRounds, if_neg ended] at runs
    cases runs
    exact ⟨rfl, rfl⟩
  | cons outcome outcomes =>
    rw [apertureRounds, if_neg ended] at runs
    cases runs

theorem apertureInit_descNum {e : Engine} {req : ApertureRequest} (made : Built) :
    ((apertureInit cfg p e req made).tfer p).descNum = made.passes.length := by
  simp [apertureInit, Engine.setTransfer]

theorem apertureInit_last {e : Engine} {req : ApertureRequest} (made : Built) :
    ((apertureInit cfg p e req made).tfer p).lastInRequest = decide (made.cursor.offset = req.totalLen) := by
  simp [apertureInit, Engine.setTransfer]

/-- How a round goes on once its transfer is built: the transfer is refused, or it is settled. Then the call ends, or
    there are more rounds. -/
inductive RoundGoes (needUnmap flushes : Bool) (p : Ptr) (built final : Accounts) (more : List Outcome → Prop) :
    Outcome → List Outcome → Prop where
  | refused (same : final = built) : RoundGoes needUnmap flushes p built final more .notQueued []
  | ended {outcome : Outcome} (queued : outcome ≠ .notQueued) (stops : outcome = .completed → flushes = true)
    (same : final = settleTransfer needUnmap p built) : RoundGoes needUnmap flushes p built final more outcome []
  | next {outcomes : List Outcome} (goes : flushes = false) (rest : more outcomes) :
    RoundGoes needUnmap flushes p built final more .completed outcomes

theorem submitRounds_cons {req : Request} {outcome : Outcome}
    (runs : submitRounds cfg flushes dmaMapped p (outcome :: outcomes) a req = some final) :
    req.remaining ≠ [] ∧
      RoundGoes (!dmaMapped) flushes p { a with engine := (transferInit cfg p false a.engine req).1 } final
        (fun outcomes => submitRounds cfg flushes dmaMapped p outcomes
          (settleTransfer (!dmaMapped) p { a with engine := (transferInit cfg p false a.engine req).1 })
          (transferInit cfg p false a.engine req).2 = some final) outcome outcomes := by
  unfold submitRounds at runs
  split at runs
  · cases runs
  · next left =>
    refine ⟨left, ?_⟩
    dsimp only at runs
    cases outcome with
    | notQueued =>
      obtain ⟨rfl, same⟩ := Option.ite_none_right_eq_some.mp runs
      exact .refused (Option.some.inj same).symm
    | failed =>
      obtain ⟨rfl, same⟩ := Option.ite_none_right_eq_some.mp runs
      exact .ended (by decide) (fun done => by cases done) (Option.some.inj same).symm
    | timedOut =>
      obtain ⟨rfl, same⟩ := Option.ite_none_right_eq_some.mp runs
      exact .ended (by decide) (fun done => by cases done) (Option.some.inj same).symm
    | completed =>
      cases flushes with
      | true =>
        obtain ⟨rfl, same⟩ := Option.ite_none_right_eq_some.mp runs
        exact .ended (by decide) (fun _ => rfl) (Option.some.inj same).symm
      | false => exact .next rfl runs

theorem apertureRounds_cons {w : Window} {sgMax : Nat} {req : ApertureRequest} {outcome : Outcome} {made : Built}
    (runs : apertureRounds cfg dmaMapped w sgMax p (outcome :: outcomes) a req = some final)
    (builds : buildTransfer w sgMax (cfg.descMax - a.engine.descIdx) req = made) :
    made.passes ≠ [] ∧
      RoundGoes (!dmaMapped) false p { a with engine := apertureInit cfg p a.engine req made } final
        (fun outcomes => apertureRounds cfg dmaMapped w sgMax p outcomes
          (settleTransfer (!dmaMapped) p { a with engine := apertureInit cfg p a.engine req made })
          (req.advance made) = some final) outcome outcomes := by
  unfold apertureRounds at runs
  rw [builds] at runs
  split at runs
  · dsimp only at runs
    split at runs
    · cases runs
    · next something =>
      refine ⟨something, ?_⟩
      cases outcome with
      | notQueued =>
        obtain ⟨rfl, same⟩ := Option.ite_none_right_eq_some.mp runs
        exact .refused (Option.some.inj same).symm
      | failed =>
        obtain ⟨rfl, same⟩ := Option.ite_none_right_eq_some.mp runs
        exact .ended (by decide) (fun done => by cases done) (Option.some.inj same).symm
      | timedOut =>
        obtain ⟨rfl, same⟩ := Option.ite_none_right_eq_some.mp runs
        exact .ended (by decide) (fun done => by cases done) (Option.some.inj same).symm
      | completed => exact .next rfl runs
  · cases runs

theorem RoundGoes.rounds {more : List Outcome → Prop} {outcome : Outcome} (builds : TransferBuilt p a built)
    (round : RoundGoes needUnmap flushes p built final more outcome outcomes)
    (goes : more outcomes → Rounds needUnmap p a (.completed :: outcomes) final) :
    Rounds needUnmap p a (outcome :: outcomes) final := by
  cases round with
  | refused same =>
    rw [same]
    exact .refused builds
  | ended queued _ same =>
    rw [same]
    exact .ended builds _ queued
  | next _ rest => exact goes rest

theorem submitRounds_rounds {req : Request} (cursor : a.engine.descIdx < cfg.descMax)
    (runs : submitRounds cfg flushes dmaMapped p outcomes a req = some final) :
    Rounds (!dmaMapped) p a outcomes final := by
  induction outcomes generalizing a req with
  | nil =>
    unfold submitRounds at runs
    split at runs
    · cases runs
      exact .done _
    · cases runs
  | cons outcome outcomes ih =>
    obtain ⟨left, round⟩ := submitRounds_cons runs
    have init := transferInit_spec cfg p false a.engine req
    have builds : TransferBuilt p a { a with engine := (transferInit cfg p false a.engine req).1 } := by
      refine ⟨?_, ?_, rfl, rfl⟩
      · rw [init.descNum]
        exact nextDescNum_pos _ _ cursor left
      · rw [init.descNum]
        rfl
    apply round.rounds builds
    intro rest
    have last := init.lastInRequest
    have remains := init.remaining
    by_cases done : req.remaining.length = nextDescNum cfg a.engine req
    · rw [← done, List.drop_length] at remains
      obtain ⟨rfl, rfl⟩ := submitRounds_done remains rest
      exact .ended builds _ (by decide)
    · refine .next builds (last.trans (decide_eq_false done)) (ih ?_ rest)
      rw [settleTransfer_engine]
      change (transferInit cfg p false a.engine req).1.descIdx < cfg.descMax
      rw [init.descIdx]
      exact Nat.mod_lt _ cfg.descMax_pos

theorem apertureRounds_rounds {w : Window} {sgMax : Nat} {req : ApertureRequest}
    (runs : apertureRounds cfg dmaMapped w sgMax p outcomes a req = some final) :
    Rounds (!dmaMapped) p a outcomes final := by
  induction outcomes generalizing a req with
  | nil =>
    unfold apertureRounds at runs
    split at runs
    · cases runs
    · cases runs
      exact .done _
  | cons outcome outcomes ih =>
    obtain ⟨made, same⟩ : ∃ made, buildTransfer w sgMax (cfg.descMax - a.engine.descIdx) req = made := ⟨_, rfl⟩
    obtain ⟨something, round⟩ := apertureRounds_cons runs same
    have builds : TransferBuilt p a { a with engine := apertureInit cfg p a.engine req made } := by
      refine ⟨?_, ?_, rfl, rfl⟩
      · rw [apertureInit_descNum]
        exact List.length_pos_of_ne_nil something
      · rw [apertureInit_descNum]
        rfl
    apply round.rounds builds
    intro rest
    by_cases last : made.cursor.offset = req.totalLen
    · obtain ⟨rfl, rfl⟩ := apertureRounds_done last.ge rest
      exact .ended builds _ (by decide)
    · exact .next builds ((apertureInit_last _).trans (decide_eq_false last)) (ih rest)

/-- The rounds are those of the loop that shows what is moved. -/
theorem submitRounds_submitLoop {req : Request} {outcome : Nat → Outcome} {k done fuel : Nat}
    (runs : submitRounds cfg false dmaMapped p outcomes a req = some final)
    (answers : ∀ i result, outcomes[i]? = some result → outcome (k + i) = result) (enough : outcomes.length < fuel) :
    ∃ s, submitLoop cfg outcome p fuel k done a.engine req = .ok s ∧
      s.transfers.map BuiltTransfer.outcome = outcomes := by
  induction outcomes generalizing a req k done fuel with
  | nil =>
    obtain ⟨fuel, rfl⟩ := Nat.exists_eq_add_one_of_ne_zero enough.ne'
    unfold submitRounds at runs
    split at runs
    · next ended => exact ⟨_, if_pos ended, rfl⟩
    · cases runs
  | cons result outcomes ih =>
    obtain ⟨fuel, rfl⟩ := Nat.exists_eq_add_one_of_ne_zero (Nat.ne_zero_of_lt enough)
    have first := answers 0 result rfl
    rw [Nat.add_zero] at first
    obtain ⟨left, round⟩ := submitRounds_cons runs
    rw [submitLoop, if_neg left]
    simp only [first]
    cases round with
    | refused _ => exact ⟨_, rfl, rfl⟩
    | ended queued stops _ =>
      cases result with
      | notQueued => exact absurd rfl queued
      | failed => exact ⟨_, rfl, rfl⟩
      | timedOut => exact ⟨_, rfl, rfl⟩
      | completed => cases stops rfl
    | next _ rest =>
      have later : ∀ i result, outcomes[i]? = some result → outcome (k + 1 + i) = result := by
        intro i result place
        rw [Nat.add_assoc, Nat.add_comm 1]
        exact answers (i + 1) result place
      obtain ⟨s, loop, outcomes_eq⟩ := @ih _ _ (k + 1)
        (done + ((transferInit cfg p false a.engine req).1.tfer p).len) fuel rest later (Nat.lt_of_succ_lt_succ enough)
      rw [settleTransfer_engine] at loop
      dsimp only at loop ⊢
      rw [loop]
      exact ⟨_, rfl, congrArg (Outcome.completed :: ·) outcomes_eq⟩

end Rounds

section Calls

variable {b : Build} {cfg : EngineConfig} {flushes dmaMapped oom : Bool} {origNents : Nat} {outcomes : List Outcome}
  {e : Engine} {sgt : MappedSg} {final : Accounts}

/-- A call that returns had nothing to do or has made its rounds, and has come to the label `unmap_sgl`. -/
theorem submitAccounts_cases {epAddr : BitVec 64}
    (runs : submitAccounts b cfg flushes dmaMapped oom origNents outcomes e sgt epAddr = some final) :
    ∃ last, final = unmapSgl dmaMapped origNents last ∧
      ((outcomes = [] ∧ last = mappedAccounts dmaMapped origNents e sgt) ∨
        ∃ req, xdmaInitRequest b oom sgt epAddr = .ok (some req) ∧
          submitRounds cfg flushes dmaMapped ⟨0, 0⟩ outcomes (mappedAccounts dmaMapped origNents e sgt) req =
            some last) := by
  unfold submitAccounts at runs
  dsimp only at runs
  split at runs
  · cases runs
  · obtain ⟨rfl, same⟩ := Option.ite_none_right_eq_some.mp runs
    exact ⟨_, (Option.some.inj same).symm, .inl ⟨rfl, rfl⟩⟩
  · next req init =>
    obtain ⟨last, rounds, rfl⟩ := Option.map_eq_some_iff.mp runs
    exact ⟨last, rfl, .inr ⟨req, init, rounds⟩⟩

theorem apertureAccounts_cases {epAddr : BitVec 64} {aperture : BitVec 32}
    (runs : apertureAccounts b cfg dmaMapped oom origNents outcomes e epAddr aperture sgt = some final) :
    ∃ last, final = unmapSgl dmaMapped origNents last ∧
      ((outcomes = [] ∧ last = mappedAccounts dmaMapped origNents e sgt) ∨
        apertureRounds cfg dmaMapped (apertureWindow b epAddr aperture) sgt.entries.length ⟨0, 0⟩ outcomes
          (mappedAccounts dmaMapped origNents e sgt) (apertureRequest sgt) = some last) := by
  unfold apertureAccounts at runs
  dsimp only at runs
  split at runs
  · obtain ⟨rfl, same⟩ := Option.ite_none_right_eq_some.mp runs
    exact ⟨_, (Option.some.inj same).symm, .inl ⟨rfl, rfl⟩⟩
  · obtain ⟨last, rounds, rfl⟩ := Option.map_eq_some_iff.mp runs
    exact ⟨last, rfl, .inr rounds⟩

theorem submitAccounts_rounds {epAddr : BitVec 64} (cursor : e.descIdx < cfg.descMax)
    (runs : submitAccounts b cfg flushes dmaMapped oom origNents outcomes e sgt epAddr = some final) :
    ∃ last, Rounds (!dmaMapped) ⟨0, 0⟩ (mappedAccounts dmaMapped origNents e sgt) outcomes last ∧
      final = unmapSgl dmaMapped origNents last := by
  obtain ⟨last, ends, ⟨rfl, rfl⟩ | ⟨req, -, rounds⟩⟩ := submitAccounts_cases runs
  · exact ⟨_, .done _, ends⟩
  · exact ⟨last, submitRounds_rounds cursor rounds, ends⟩

theorem apertureAccounts_rounds {epAddr : BitVec 64} {aperture : BitVec 32}
    (runs : apertureAccounts b cfg dmaMapped oom origNents outcomes e epAddr aperture sgt = some final) :
    ∃ last, Rounds (!dmaMapped) ⟨0, 0⟩ (mappedAccounts dmaMapped origNents e sgt) outcomes last ∧
      final = unmapSgl dmaMapped origNents last := by
  obtain ⟨last, ends, ⟨rfl, rfl⟩ | rounds⟩ := apertureAccounts_cases runs
  · exact ⟨_, .done _, ends⟩
  · exact ⟨last, apertureRounds_rounds rounds, ends⟩

/-- `desc_used` is what it was before the call if and only if no transfer of the call was refused. -/
theorem call_descUsed_iff (b : Build) (cfg : EngineConfig) (dmaMapped oom : Bool) (origNents : Nat)
    (outcomes : List Outcome) (e : Engine) (cursor : e.descIdx < cfg.descMax) (sgt : MappedSg) (epAddr : BitVec 64) :
    (∀ flushes final, submitAccounts b cfg flushes dmaMapped oom origNents outcomes e sgt epAddr = some final →
      (final.engine.descUsed = e.descUsed ↔ .notQueued ∉ outcomes)) ∧
    (∀ aperture final, apertureAccounts b cfg dmaMapped oom origNents outcomes e epAddr aperture sgt = some final →
      (final.engine.descUsed = e.descUsed ↔ .notQueued ∉ outcomes)) := by
  constructor
  · intro flushes final runs
    obtain ⟨last, rounds, rfl⟩ := submitAccounts_rounds cursor runs
    rw [unmapSgl_engine]
    exact rounds.descUsed_iff
  · intro aperture final runs
    obtain ⟨last, rounds, rfl⟩ := apertureAccounts_rounds runs
    rw [unmapSgl_engine]
    exact rounds.descUsed_iff

theorem shortList_pieces : shortList.pieces usualBuild = [⟨0x2000, 5000⟩] := by
  have empty : splitEntry usualBuild 0x1000 0 = [] := by
    rw [splitEntry]
    rfl
  have whole : splitEntry usualBuild 0x2000 5000 = [⟨0x2000, 5000⟩] := by
    rw [splitEntry]
    rfl
  change splitEntry usualBuild 0x1000 0 ++ (splitEntry usualBuild 0x2000 5000 ++ []) = _
  rw [empty, whole]
  rfl

theorem shortList_request :
    xdmaInitRequest usualBuild false shortList 0x40 = .ok (some ⟨[⟨0x2000, 5000⟩], 0, 0x40⟩) := by
  have fits : TableFits usualBuild shortList := by
    constructor
    · decide
    · decide
  rw [xdmaInitRequest_fits fits, shortList_pieces]
  rfl

theorem shortList_accounts (outcome : Outcome) (last : Accounts)
    (rounds : submitRounds mmEngine false false ⟨0, 0⟩ [outcome] (mappedAccounts false 2 idleDriver.engine shortList)
      ⟨[⟨0x2000, 5000⟩], 0, 0x40⟩ = some last) :
    submitAccounts usualBuild mmEngine false false false 2 [outcome] idleDriver.engine shortList 0x40 =
      some (unmapSgl false 2 last) := by
  unfold submitAccounts
  rw [shortList_request]
  dsimp only
  rw [rounds]
  rfl

theorem shortList_descUsed :
    (∃ final, submitAccounts usualBuild mmEngine false false false 2 [.failed] idleDriver.engine shortList 0x40 = some final ∧
      final.engine.descUsed = idleDriver.engine.descUsed) ∧
    (∃ final, apertureAccounts usualBuild mmEngine false false 2 [.failed] idleDriver.engine 0x40 4096 shortList = some final ∧
      final.engine.descUsed = idleDriver.engine.descUsed) := by
  have both := call_descUsed_iff usualBuild mmEngine false false 2 [.failed] idleDriver.engine (by decide) shortList 0x40
  have submits := shortList_accounts .failed _ rfl
  have apertures : (apertureAccounts usualBuild mmEngine false false 2 [.failed] idleDriver.engine 0x40 4096
    shortList).isSome = true := by decide +kernel
  obtain ⟨final, runs⟩ := Option.isSome_iff_exists.mp apertures
  exact ⟨⟨_, submits, (both.1 false _ submits).mpr (by decide)⟩, ⟨final, runs, (both.2 4096 _ runs).mpr (by decide)⟩⟩

/-- The one descriptor of a transfer that is refused stays counted. -/
theorem refused_descUsed :
    ∃ final, submitAccounts usualBuild mmEngine false false false 2 [.notQueued] idleDriver.engine shortList 0x40 =
      some final ∧ final.engine.descUsed ≠ idleDriver.engine.descUsed :=
  ⟨_, shortList_accounts .notQueued _ rfl, by decide⟩

end Calls

end CigCard.Xdma
