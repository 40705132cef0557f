import CigCard.Xdma.VectoredWrite

namespace CigCard.Xdma

/-- The elements of `req->tfer` that `xdma_xfer_submit_nowait` has called `transfer_init` on, and whether it has queued
    the whole request. -/
structure SlotUse where
  used : List Nat
  queued : Bool
  engine : Engine

/-- The loop of `xdma_xfer_submit_nowait` on an engine that may refuse a transfer, the device being offline. There are
    `left` elements of `req->tfer` from number `tferIdx` on. -/
def nowaitSlots (cfg : EngineConfig) (block : Nat) (hw : Nat → Hardware) (offline : Nat → Bool) :
    Nat → Nat → Engine → Request → Except Fault SlotUse
  | 0, _, e, req => if req.remaining = [] then .ok ⟨[], true, e⟩ else .error .overrun
  | left + 1, tferIdx, e, req =>
    if req.remaining = [] then .ok ⟨[], true, e⟩
    else
      let next := transferInit cfg ⟨block, tferIdx⟩ true e req
      match if offline tferIdx then none else transferQueue (hw tferIdx) ⟨block, tferIdx⟩ next.1 with
      | none => .ok ⟨[tferIdx], false, next.1⟩
      | some e => do
        let rest ← nowaitSlots cfg block hw offline left (tferIdx + 1) e next.2
        return { rest with used := tferIdx :: rest.used }

/-- The loop of `xdma_xfer_completion`: the elements of `req->tfer` that it visits. -/
def completionVisits (tfer : Nat → Transfer) : Nat → Nat → Int → Except Fault (List Nat)
  | 0, _, nents => if nents = 0 then .ok [] else .error .overrun
  | left + 1, tferIdx, nents =>
    if nents = 0 then .ok []
    else if (tfer tferIdx).state = .completed then do
      let rest ← completionVisits tfer left (tferIdx + 1) (nents - (tfer tferIdx).descNum)
      return tferIdx :: rest
    else .ok [tferIdx]

inductive EngineEvent where
  | service (hw : Hardware) (descWriteback : BitVec 32)
  | init (p : Ptr) (cb : Bool) (req : Request)
  | queue (hw : Hardware) (p : Ptr)
  | abort (p : Ptr)

def EngineEvent.apply (cfg : EngineConfig) (e : Engine) : EngineEvent → Engine
  | service hw descWriteback => engineService cfg hw descWriteback e
  | init p cb req => (transferInit cfg p cb e req).1
  | queue hw p => (transferQueue hw p e).getD e
  | abort p => transferAbort p e

def EngineEvent.Elsewhere (block : Nat) : EngineEvent → Prop
  | service _ _ => True
  | init p _ _ => p.block ≠ block
  | queue _ p => p.block ≠ block
  | abort p => p.block ≠ block

section Slots

variable {cfg : EngineConfig} {block : Nat} {hw : Nat → Hardware} {offline : Nat → Bool} {e : Engine} {req : Request}

theorem transferAbort_descNum (p q : Ptr) : ((transferAbort p e).tfer q).descNum = (e.tfer q).descNum := by
  have marked : ∀ off : Engine, off.tfer = e.tfer →
      ((if (off.tfer p).state = .submitted then off.setTransfer p { off.tfer p with state := .aborted } else off).tfer
        q).descNum = (e.tfer q).descNum := by
    intro off kept
    split
    · by_cases here : q = p
      · simp only [Engine.setTransfer, here, if_true, kept]
      · simp only [Engine.setTransfer, here, if_false, kept]
    · rw [kept]
  apply marked
  split
  · split
    · rfl
    · rfl
  · rfl

theorem EngineEvent.apply_descNum {event : EngineEvent} (elsewhere : event.Elsewhere block) (e : Engine) (k : Nat) :
    ((event.apply cfg e).tfer ⟨block, k⟩).descNum = (e.tfer ⟨block, k⟩).descNum := by
  cases event with
  | service hw descWriteback =>
    obtain ⟨done, serviced⟩ := @engineService_serviced cfg hw e descWriteback
    exact (serviced.shape _).descNum
  | init p cb req =>
    have other : (⟨block, k⟩ : Ptr) ≠ p := fun same => elsewhere (congrArg Ptr.block same).symm
    exact congrArg Transfer.descNum ((transferInit_spec cfg p cb e req).others _ other)
  | queue hw p =>
    change (((transferQueue hw p e).getD e).tfer ⟨block, k⟩).descNum = _
    cases queued : transferQueue hw p e with
    | none => rfl
    | some next => exact (transferQueue_shape queued _).descNum
  | abort p => exact transferAbort_descNum p ⟨block, k⟩

theorem after_descNum {events : List EngineEvent} (elsewhere : ∀ event ∈ events, event.Elsewhere block) (e : Engine)
    (k : Nat) : ((events.foldl (EngineEvent.apply cfg) e).tfer ⟨block, k⟩).descNum = (e.tfer ⟨block, k⟩).descNum := by
  induction events generalizing e with
  | nil => rfl
  | cons event events ih =>
    obtain ⟨here, later⟩ := List.forall_mem_cons.mp elsewhere
    rw [List.foldl_cons, ih later, EngineEvent.apply_descNum here]

theorem transferQueue_open {next : Engine} {hw : Hardware} {p : Ptr} (queued : transferQueue hw p e = some next) :
    next.shutdownRequest = false := by
  have accepting := (transferQueue_spec queued).1
  unfold transferQueue at queued
  rw [if_neg (Bool.eq_false_iff.mp accepting)] at queued
  dsimp only at queued
  split at queued
  · cases queued
    generalize started : engineStart hw _ = start
    cases start with
    | none => exact accepting
    | some running =>
      unfold engineStart at started
      split at started
      · cases started
      · split at started
        · cases started
        · cases started
          rfl
  · cases queued
    exact accepting

structure SlotQueued (cfg : EngineConfig) (block tferIdx : Nat) (e : Engine) (req : Request) (next : Engine) : Prop where
  descIdx : next.descIdx = (e.descIdx + nextDescNum cfg e req) % cfg.descMax
  accepting : next.shutdownRequest = false
  descNum : (next.tfer ⟨block, tferIdx⟩).descNum = nextDescNum cfg e req
  others : ∀ q, q ≠ ⟨block, tferIdx⟩ → next.tfer q = e.tfer q

theorem nowaitSlots_nil (done : req.remaining = []) (left tferIdx : Nat) :
    nowaitSlots cfg block hw offline left tferIdx e req = .ok ⟨[], true, e⟩ := by
  cases left with
  | zero => exact if_pos done
  | succ left => exact if_pos done

theorem nowaitSlots_refused (more : req.remaining ≠ []) (left : Nat) {tferIdx : Nat}
    (refused : offline tferIdx = true ∨ e.shutdownRequest = true) :
    ∃ idle, nowaitSlots cfg block hw offline (left + 1) tferIdx e req = .ok ⟨[tferIdx], false, idle⟩ := by
  refine ⟨(transferInit cfg ⟨block, tferIdx⟩ true e req).1, ?_⟩
  rw [nowaitSlots, if_neg more]
  rcases refused with away | closed
  · simp only [away, if_true]
  · have rejected : transferQueue (hw tferIdx) ⟨block, tferIdx⟩ (transferInit cfg ⟨block, tferIdx⟩ true e req).1 = none :=
      if_pos closed
    simp only [rejected, ite_self]

theorem nowaitSlots_queued (more : req.remaining ≠ []) (left : Nat) {tferIdx : Nat}
    (present : offline tferIdx = false) (accepting : e.shutdownRequest = false) :
    ∃ next, SlotQueued cfg block tferIdx e req next ∧
      nowaitSlots cfg block hw offline (left + 1) tferIdx e req =
        (nowaitSlots cfg block hw offline left (tferIdx + 1) next
            (transferInit cfg ⟨block, tferIdx⟩ true e req).2).map
          fun rest => { rest with used := tferIdx :: rest.used } := by
  have init := transferInit_spec cfg ⟨block, tferIdx⟩ true e req
  cases result : transferQueue (hw tferIdx) ⟨block, tferIdx⟩ (transferInit cfg ⟨block, tferIdx⟩ true e req).1 with
  | none =>
    have closed := transferQueue_rejected result
    change e.shutdownRequest = true at closed
    rw [accepting] at closed
    cases closed
  | some next =>
    refine ⟨next, ⟨?_, transferQueue_open result, ?_, ?_⟩, ?_⟩
    · rw [(transferQueue_spec result).2.2.2.2.2.2, init.descIdx]
    · rw [(transferQueue_shape result _).descNum, init.descNum]
    · intro q other
      rw [(transferQueue_spec result).2.2.1]
      exact (if_neg other).trans (init.others q other)
    · rw [nowaitSlots, if_neg more]
      simp only [present, result, Bool.false_eq_true, if_false]
      cases nowaitSlots cfg block hw offline left (tferIdx + 1) next (transferInit cfg ⟨block, tferIdx⟩ true e req).2 with
      | error fault => rfl
      | ok rest => rfl

theorem completionVisits_one {tfer : Nat → Transfer} {nents : Nat} (some_left : 0 < nents)
    (whole : (tfer 0).descNum = nents) : completionVisits tfer 2 0 nents = .ok [0] := by
  rw [completionVisits, if_neg (by omega)]
  split
  · have none_left : (nents : Int) - (tfer 0).descNum = 0 := by omega
    rw [none_left]
    rfl
  · rfl

theorem completionVisits_two_iff {tfer : Nat → Transfer} {nents : Nat} (second : 0 < (tfer 1).descNum)
    (whole : (tfer 0).descNum + (tfer 1).descNum = nents) :
    completionVisits tfer 2 0 nents = .ok [0, 1] ↔ (tfer 0).state = .completed := by
  rw [completionVisits, if_neg (by omega)]
  split
  · next completed =>
    apply iff_of_true _ completed
    have left : (nents : Int) - (tfer 0).descNum = (tfer 1).descNum := by omega
    rw [left, completionVisits, if_neg (by omega)]
    split
    · rw [Nat.zero_add, Int.sub_self]
      rfl
    · rfl
  · next failed =>
    apply iff_of_false _ failed
    intro same
    cases same

/-- For one request: the two elements of `req->tfer` are enough, and if all of the request has been queued, its
    completion visits the elements that were used. `events` are what goes on in between. -/
def SlotsFit (cfg : EngineConfig) (block : Nat) (hw : Nat → Hardware) (offline : Nat → Bool) (events : List EngineEvent)
    (e : Engine) (req : Request) : Prop :=
  ∃ r, nowaitSlots cfg block hw offline 2 0 e req = .ok r ∧
    (r.queued = true →
      completionVisits (fun k => (events.foldl (EngineEvent.apply cfg) r.engine).tfer ⟨block, k⟩) 2 0 req.sdesc.length =
        .ok r.used)

/-- The request ends before the end of the ring is met a second time, or one of its first two transfers is refused. -/
def TwoTransfersDo (cfg : EngineConfig) (offline : Nat → Bool) (e : Engine) (req : Request) : Prop :=
  req.sdesc.length ≤ cfg.descMax - e.descIdx + cfg.descMax ∨ e.shutdownRequest = true ∨ offline 0 = true ∨ offline 1 = true

instance (cfg : EngineConfig) (offline : Nat → Bool) (e : Engine) (req : Request) :
    Decidable (TwoTransfersDo cfg offline e req) := inferInstanceAs (Decidable (_ ∨ _ ∨ _ ∨ _))

/-- Where the end of the ring cuts the request, its first transfer has completed by the time of its completion. -/
def FirstCompletes (cfg : EngineConfig) (block : Nat) (hw : Nat → Hardware) (offline : Nat → Bool)
    (events : List EngineEvent) (e : Engine) (req : Request) : Prop :=
  cfg.descMax - e.descIdx < req.sdesc.length →
    ∀ r, nowaitSlots cfg block hw offline 2 0 e req = .ok r → r.queued = true →
      ((events.foldl (EngineEvent.apply cfg) r.engine).tfer ⟨block, 0⟩).state = .completed

theorem slotsFit_of_refused {events : List EngineEvent} {r : SlotUse} (enough : TwoTransfersDo cfg offline e req)
    (runs : nowaitSlots cfg block hw offline 2 0 e req = .ok r) (refused : r.queued = false) :
    SlotsFit cfg block hw offline events e req ↔
      TwoTransfersDo cfg offline e req ∧ FirstCompletes cfg block hw offline events e req := by
  apply iff_of_true
  · refine ⟨r, runs, fun queued => ?_⟩
    rw [refused] at queued
    cases queued
  · refine ⟨enough, fun _ other same queued => ?_⟩
    rw [runs] at same
    cases same
    rw [refused] at queued
    cases queued

theorem slotsFit_iff_visits {events : List EngineEvent} {r : SlotUse}
    (runs : nowaitSlots cfg block hw offline 2 0 e req = .ok r) (queued : r.queued = true) :
    SlotsFit cfg block hw offline events e req ↔
      completionVisits (fun k => (events.foldl (EngineEvent.apply cfg) r.engine).tfer ⟨block, k⟩) 2 0 req.sdesc.length =
        .ok r.used := by
  constructor
  · rintro ⟨other, same, visits⟩
    rw [runs] at same
    cases same
    exact visits queued
  · intro visits
    exact ⟨r, runs, fun _ => visits⟩

theorem nowaitSlots_one (start : req.remaining = req.sdesc) (more : req.remaining ≠ [])
    (present : offline 0 = false) (accepting : e.shutdownRequest = false)
    (whole : nextDescNum cfg e req = req.remaining.length) :
    ∃ next, (next.tfer ⟨block, 0⟩).descNum = req.sdesc.length ∧
      nowaitSlots cfg block hw offline 2 0 e req = .ok ⟨[0], true, next⟩ := by
  obtain ⟨next, slot, step⟩ := @nowaitSlots_queued cfg block hw offline e req more 1 0 present accepting
  have init := transferInit_spec cfg ⟨block, 0⟩ true e req
  have done : (transferInit cfg ⟨block, 0⟩ true e req).2.remaining = [] := by
    rw [init.remaining, whole, List.drop_length]
  refine ⟨next, ?_, ?_⟩
  · rw [slot.descNum, whole, start]
  · rw [step, nowaitSlots_nil done]
    rfl

/-- What the loop does with the second element, where the first transfer has gone up to the end of the ring. -/
theorem nowaitSlots_two (start : req.remaining = req.sdesc) (cursor : e.descIdx < cfg.descMax)
    (present : offline 0 = false) (accepting : e.shutdownRequest = false)
    (long : cfg.descMax - e.descIdx < req.sdesc.length) :
    (offline 1 = true ∧ ∃ idle, nowaitSlots cfg block hw offline 2 0 e req = .ok ⟨[0, 1], false, idle⟩) ∨
      (offline 1 = false ∧ req.sdesc.length ≤ cfg.descMax - e.descIdx + cfg.descMax ∧
        ∃ last, 0 < (last.tfer ⟨block, 1⟩).descNum ∧
          (last.tfer ⟨block, 0⟩).descNum + (last.tfer ⟨block, 1⟩).descNum = req.sdesc.length ∧
          nowaitSlots cfg block hw offline 2 0 e req = .ok ⟨[0, 1], true, last⟩) ∨
      (offline 1 = false ∧ cfg.descMax - e.descIdx + cfg.descMax < req.sdesc.length ∧
        nowaitSlots cfg block hw offline 2 0 e req = .error .overrun) := by
  rw [← start] at long
  have more : req.remaining ≠ [] := List.ne_nil_of_length_pos (by omega)
  have upTo : nextDescNum cfg e req = cfg.descMax - e.descIdx := by
    rcases nextDescNum_cases e req cursor with ⟨short, -⟩ | ⟨-, upTo⟩
    · omega
    · exact upTo
  obtain ⟨next, slot, step⟩ := @nowaitSlots_queued cfg block hw offline e req more 1 0 present accepting
  obtain ⟨rest, rest_eq⟩ : ∃ rest, (transferInit cfg ⟨block, 0⟩ true e req).2 = rest := ⟨_, rfl⟩
  have left : rest.remaining.length = req.remaining.length - (cfg.descMax - e.descIdx) := by
    rw [← rest_eq, (transferInit_spec cfg ⟨block, 0⟩ true e req).remaining, List.length_drop, upTo]
  have rest_more : rest.remaining ≠ [] := List.ne_nil_of_length_pos (by omega)
  have wrapped : next.descIdx = 0 := by rw [slot.descIdx, upTo, Nat.add_sub_cancel' cursor.le, Nat.mod_self]
  rw [step, rest_eq]
  by_cases present_next : offline 1 = true
  · obtain ⟨idle, refused⟩ := @nowaitSlots_refused cfg block hw offline next rest rest_more 0 1 (.inl present_next)
    refine .inl ⟨present_next, idle, ?_⟩
    rw [refused]
    rfl
  · have present_next := Bool.eq_false_iff.mpr present_next
    obtain ⟨last, second, step_next⟩ :=
      @nowaitSlots_queued cfg block hw offline next rest rest_more 0 1 present_next slot.accepting
    have first : (last.tfer ⟨block, 0⟩).descNum = cfg.descMax - e.descIdx := by
      rw [second.others _ (by simp), slot.descNum, upTo]
    have remains := (transferInit_spec cfg ⟨block, 1⟩ true next rest).remaining
    rw [step_next, ← start]
    rcases @nextDescNum_cases cfg next rest (by omega) with ⟨short, whole⟩ | ⟨long_rest, upTo_rest⟩
    · rw [whole, List.drop_length] at remains
      refine .inr (.inl ⟨present_next, by omega, last, ?_, ?_, ?_⟩)
      · rw [second.descNum]
        omega
      · rw [second.descNum]
        omega
      · rw [nowaitSlots_nil remains]
        rfl
    · refine .inr (.inr ⟨present_next, by omega, ?_⟩)
      have more_still : (transferInit cfg ⟨block, 1⟩ true next rest).2.remaining ≠ [] := by
        apply List.ne_nil_of_length_pos
        rw [remains, List.length_drop]
        omega
      rw [nowaitSlots, if_neg more_still]
      rfl

/-- The slots of a request fit it, and its completion visits those that were used, if and only if no third transfer is
    needed and the first of two has completed. -/
theorem slotsFit_iff (b : Build) (cfg : EngineConfig) (oom : Bool) (sgt : MappedSg) (epAddr : BitVec 64) (block : Nat)
    (hw : Nat → Hardware) (offline : Nat → Bool) (e : Engine) (cursor : e.descIdx < cfg.descMax) (req : Request)
    (init : xdmaInitRequest b oom sgt epAddr = .ok (some req)) (events : List EngineEvent)
    (elsewhere : ∀ event ∈ events, event.Elsewhere block) :
    SlotsFit cfg block hw offline events e req ↔
      TwoTransfersDo cfg offline e req ∧ FirstCompletes cfg block hw offline events e req := by
  have start : req.remaining = req.sdesc := by
    cases xdmaInitRequest_req init
    rfl
  by_cases none : req.remaining = []
  · have empty : req.sdesc.length = 0 := by rw [← start, none]; rfl
    rw [slotsFit_iff_visits (nowaitSlots_nil none 2 0) rfl, empty]
    apply iff_of_true rfl
    exact ⟨.inl (by omega), fun long => by omega⟩
  · by_cases refused : offline 0 = true ∨ e.shutdownRequest = true
    · obtain ⟨idle, runs⟩ := @nowaitSlots_refused cfg block hw offline e req none 1 0 refused
      have enough : TwoTransfersDo cfg offline e req :=
        .inr (refused.elim (fun away => .inr (.inl away)) .inl)
      exact slotsFit_of_refused enough runs rfl
    · obtain ⟨present, accepting⟩ := not_or.mp refused
      have present := Bool.eq_false_iff.mpr present
      have accepting := Bool.eq_false_iff.mpr accepting
      by_cases long : cfg.descMax - e.descIdx < req.sdesc.length
      · rcases @nowaitSlots_two cfg block hw offline e req start cursor present accepting long with
          ⟨away, idle, runs⟩ | ⟨-, enough, last, second, whole, runs⟩ | ⟨present_next, longer, overrun⟩
        · exact slotsFit_of_refused (.inr (.inr (.inr away))) runs rfl
        · rw [slotsFit_iff_visits runs rfl]
          have kept := fun k => @after_descNum cfg block events elsewhere last k
          rw [completionVisits_two_iff (by rw [kept]; exact second) (by rw [kept, kept]; exact whole)]
          constructor
          · intro completed
            refine ⟨.inl enough, fun _ r same _ => ?_⟩
            rw [runs] at same
            cases same
            exact completed
          · intro both
            exact both.2 long _ runs rfl
        · apply iff_of_false
          · rintro ⟨r, runs, -⟩
            rw [overrun] at runs
            cases runs
          · rintro ⟨enough | closed | away | away, -⟩
            · omega
            · rw [accepting] at closed
              cases closed
            · rw [present] at away
              cases away
            · rw [present_next] at away
              cases away
      · have whole : nextDescNum cfg e req = req.remaining.length := by
          rcases nextDescNum_cases e req cursor with ⟨-, whole⟩ | ⟨more, -⟩
          · exact whole
          · rw [start] at more
            exact absurd more long
        obtain ⟨next, descNum, runs⟩ :=
          @nowaitSlots_one cfg block hw offline e req start none present accepting whole
        rw [slotsFit_iff_visits runs rfl]
        apply iff_of_true
        · apply completionVisits_one
          · rw [← start]
            exact List.length_pos_of_ne_nil none
          · rw [after_descNum elsewhere, descNum]
        · exact ⟨.inl (by omega), fun exceeds => absurd exceeds long⟩

theorem shortList_fits_slots :
    SlotsFit mmEngine 0 (fun _ => reads xdmaStatBusy 0) (fun _ => false) [.service (reads 0 1) 0] idleDriver.engine
      ⟨shortList.pieces usualBuild, 0, 0⟩ := by
  have fits : TableFits usualBuild shortList := by
    constructor
    · decide
    · decide
  have length : (shortList.pieces usualBuild).length = 1 := by
    rw [MappedSg.pieces_length]
    decide
  apply (slotsFit_iff usualBuild mmEngine false shortList 0 0 (fun _ => reads xdmaStatBusy 0) (fun _ => false)
    idleDriver.engine (by decide) ⟨shortList.pieces usualBuild, 0, 0⟩ (xdmaInitRequest_fits fits)
    [.service (reads 0 1) 0] (List.forall_mem_singleton.mpr trivial)).mpr
  constructor
  · left
    change (shortList.pieces usualBuild).length ≤ _
    rw [length]
    decide
  · intro long
    change _ < (shortList.pieces usualBuild).length at long
    rw [length] at long
    exact absurd long (by decide)

def scatteredPages : MappedSg where
  entries := (List.range 2050).map fun k => ⟨BitVec.ofNat 64 (k * 8192), 4096⟩
  mapped := by simp
  nents_lt := by
    rw [List.length_map, List.length_range]
    decide

/-- From the last descriptor of the ring on, it takes three transfers. -/
theorem scatteredPages_three_transfers :
    ∃ req, xdmaInitRequest usualBuild false scatteredPages 0 = .ok (some req) ∧
      ¬ SlotsFit mmEngine 0 (fun _ => reads xdmaStatBusy 0) (fun _ => false) []
        { idleDriver.engine with descIdx := 2047 } req := by
  have count : scatteredPages.pieceCount usualBuild = 2050 := by decide +kernel
  have extra : scatteredPages.max usualBuild = 2050 := by decide +kernel
  have fits : TableFits usualBuild scatteredPages := by
    unfold TableFits
    rw [count, extra]
    decide
  refine ⟨_, xdmaInitRequest_fits fits, ?_⟩
  have length : (scatteredPages.pieces usualBuild).length = 2050 := by rw [MappedSg.pieces_length, count]
  rintro ⟨r, runs, -⟩
  rcases @nowaitSlots_two mmEngine 0 (fun _ => reads xdmaStatBusy 0) (fun _ => false)
      { idleDriver.engine with descIdx := 2047 } ⟨scatteredPages.pieces usualBuild, 0, 0⟩ rfl (by decide) rfl rfl
      (by dsimp only; rw [length]; decide) with ⟨away, -⟩ | ⟨-, enough, -⟩ | ⟨-, -, overrun⟩
  · cases away
  · dsimp only at enough
    rw [length] at enough
    exact absurd enough (by decide)
  · change nowaitSlots _ _ _ _ _ _ _ ⟨scatteredPages.pieces usualBuild, 0, 0⟩ = _ at runs
    rw [overrun] at runs
    cases runs

end Slots

end CigCard.Xdma
