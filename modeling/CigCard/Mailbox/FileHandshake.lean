import CigCard.Mailbox.FileDownload
import CigCard.Mailbox.Handshake

namespace CigCard.Mailbox

open Interaction ByteMemory

def Access.Modifies : Access → Prop
  | .load32 _ => False
  | .store32 addr value => addr ≠ interruptReg ∨ value % 2 ^ 32 ≠ 0
  | .store8 _ _ => True

theorem fileStores_spare : SparesDoor FileResponse.stores := by
  intro response piece member
  rw [List.mem_singleton.mp member]
  simp only [interruptReg, resultReg]
  omega

def SawRing (rings : List Ring) (number tag : Nat) (seen : List (Nat × Byte)) : Prop :=
  tag = number ∧ ∃ ring, rings[number - 1]? = some ring ∧ SeenIn ring.memory seen

/-- The A53 takes the doorbells in order, each once, and sees each as it was rung. -/
structure InOrder (card : Card FileResponse) : Prop where
  served : ∀ k job, card.served[k]? = some job → SawRing card.rings (k + 1) job.ring job.seen
  current : ∀ tag seen, card.a53.InHand tag seen → SawRing card.rings (card.served.length + 1) tag seen
  served_le : card.served.length ≤ card.rings.length
  rings_le : card.rings.length ≤ card.served.length + 1

def handshake (access : Access) (card : Card FileResponse) : Prop :=
  InOrder card ∧ (access.Modifies → card.awaiting = false)

structure Acknowledged (rings : List Ring) (served : List (Job FileResponse)) : Prop where
  each : ∀ k job, served[k]? = some job → SawRing rings (k + 1) job.ring job.seen
  length : served.length = rings.length
  status : ∀ job ∈ served, job.response.status = 0

structure Between (rings : List Ring) (served : List (Job FileResponse)) (card : Card FileResponse) : Prop where
  rings : card.rings = rings
  served : card.served = served
  quiet : card.Quiet
  calm : card.awaiting = false

section
variable {rings : List Ring} {served : List (Job FileResponse)}

theorem SawRing.append {number tag : Nat} {seen : List (Nat × Byte)} (saw : SawRing rings number tag seen)
    (more : List Ring) : SawRing (rings ++ more) number tag seen := by
  obtain ⟨same, ring, found, agree⟩ := saw
  refine ⟨same, ring, ?_, agree⟩
  rw [List.getElem?_append_left (List.getElem?_eq_some_iff.mp found).1, found]

theorem Between.inOrder {card : Card FileResponse} (between : Between rings served card)
    (acknowledged : Acknowledged rings served) : InOrder card := by
  have length := acknowledged.length
  refine ⟨?_, ?_, ?_, ?_⟩
  · rw [between.rings, between.served]
    exact acknowledged.each
  · intro tag seen busy
    have idle := between.quiet.1
    rcases busy with busy | ⟨response, pending, busy⟩ <;> simp [idle] at busy
  · rw [between.rings, between.served]
    omega
  · rw [between.rings, between.served]
    omega

theorem Between.keeps (acknowledged : Acknowledged rings served) :
    Keeps fileWorld handshake Access.Plain (Between rings served) where
  stable _ _ between moved := absurd moved between.quiet.stuck
  guarded _ _ _ between := ⟨between.inOrder acknowledged, fun _ => between.calm⟩
  acts := by
    intro access s answer t plain between acted
    refine ⟨(acted.rings_eq plain).trans between.rings, acted.served_eq.trans between.served,
      between.quiet.act plain acted, acted.awaiting_eq plain between.calm⟩

/-- One doorbell beyond the acknowledged ones: not yet picked up, in hand, or served. -/
inductive Engaged (tag : Nat) (window : Memory) (earlier : List (Job FileResponse)) (card : Card FileResponse) :
    Prop where
  | ahead : card.a53 = .idle → card.served = earlier → Engaged tag window earlier card
  | busy (seen : List (Nat × Byte)) : card.a53.InHand tag seen → SeenIn window seen → card.served = earlier →
      Engaged tag window earlier card
  | done (job : Job FileResponse) : card.a53 = .idle → job.ring = tag → SeenIn window job.seen →
      card.served = earlier ++ [job] → Engaged tag window earlier card

theorem Outstanding.engaged {tag : Nat} {window : Memory} {card : Card FileResponse}
    (outstanding : Outstanding FileResponse.stores tag window served card) : Engaged tag window served card := by
  cases outstanding with
  | rung idle memory earlier => exact .ahead idle earlier
  | working seen busy memory agree earlier => exact .busy seen (.inl busy) agree earlier
  | answering seen response done pending busy split memory agree earlier =>
    exact .busy seen (.inr ⟨response, pending, busy⟩) agree earlier
  | answered job idle own agree memory earlier => exact .done job idle own agree earlier

theorem Acknowledged.snoc {ring : Ring} {job : Job FileResponse} (acknowledged : Acknowledged rings served)
    (own : job.ring = rings.length + 1) (agree : SeenIn ring.memory job.seen) (k : Nat) (later : Job FileResponse)
    (found : (served ++ [job])[k]? = some later) : SawRing (rings ++ [ring]) (k + 1) later.ring later.seen := by
  have length := acknowledged.length
  rcases Nat.lt_trichotomy k served.length with old | rfl | beyond
  · rw [List.getElem?_append_left old] at found
    exact (acknowledged.each k later found).append [ring]
  · rw [List.getElem?_concat_length, Option.some.injEq] at found
    subst found
    refine ⟨by rw [own, length], ring, ?_, agree⟩
    rw [Nat.add_sub_cancel, length, List.getElem?_concat_length]
  · rw [List.getElem?_eq_none (by simp; omega)] at found
    cases found

theorem Engaged.inOrder {card : Card FileResponse} {ring : Ring} (acknowledged : Acknowledged rings served)
    (same : card.rings = rings ++ [ring]) (engaged : Engaged (rings.length + 1) ring.memory served card) :
    InOrder card := by
  have length := acknowledged.length
  have idle_free : ∀ tag seen, card.a53 = .idle → ¬ card.a53.InHand tag seen := by
    intro tag seen idle busy
    rcases busy with busy | ⟨response, pending, busy⟩ <;> simp [idle] at busy
  have earlier : ∀ k job, served[k]? = some job → SawRing card.rings (k + 1) job.ring job.seen := by
    intro k job found
    rw [same]
    exact (acknowledged.each k job found).append [ring]
  have more : card.rings.length = rings.length + 1 := by simp [same]
  cases engaged with
  | ahead idle before =>
    rw [← before] at earlier length
    exact ⟨earlier, fun tag seen busy => absurd busy (idle_free tag seen idle), by omega, by omega⟩
  | busy seen inHand agree before =>
    rw [← before] at earlier length
    refine ⟨earlier, ?_, by omega, by omega⟩
    intro tag seen' inHand'
    obtain ⟨rfl, rfl⟩ : tag = rings.length + 1 ∧ seen' = seen := by
      rcases inHand with busy | ⟨_, _, busy⟩ <;> rcases inHand' with busy' | ⟨_, _, busy'⟩ <;> simp_all
    refine ⟨by rw [length], ring, ?_, agree⟩
    rw [Nat.add_sub_cancel, same, length, List.getElem?_concat_length]
  | done job idle own agree before =>
    have longer : card.served.length = served.length + 1 := by simp [before]
    refine ⟨?_, fun tag seen busy => absurd busy (idle_free tag seen idle), by omega, by omega⟩
    rw [before, same]
    exact acknowledged.snoc own agree

/-- After the host has given up or stopped on an error: the doorbell is down and stays down. -/
structure Abandoned (rings : List Ring) (ring : Ring) (served : List (Job FileResponse))
    (card : Card FileResponse) : Prop where
  rung : card.rings = rings ++ [ring]
  engaged : Engaged (rings.length + 1) ring.memory served card
  down : card.door = 0
  spares : ∀ tag seen response pending, card.a53 = .answering tag seen response pending →
    AwayFrom interruptReg 4 pending

theorem Abandoned.stable {ring : Ring} : Stable fileWorld (Abandoned rings ring served) := by
  intro before after abandoned moved
  obtain ⟨same, engaged, down, spares⟩ := abandoned
  have inHand : ∀ tag seen, before.a53.InHand tag seen →
      tag = rings.length + 1 ∧ SeenIn ring.memory seen ∧ before.served = served := by
    intro tag seen held
    cases engaged with
    | ahead idle _ => rcases held with busy | ⟨_, _, busy⟩ <;> simp [idle] at busy
    | done _ idle _ _ _ => rcases held with busy | ⟨_, _, busy⟩ <;> simp [idle] at busy
    | busy seen' held' agree earlier =>
      obtain ⟨rfl, rfl⟩ : tag = rings.length + 1 ∧ seen = seen' := by
        rcases held with busy | ⟨_, _, busy⟩ <;> rcases held' with busy' | ⟨_, _, busy'⟩ <;> simp_all
      exact ⟨rfl, agree, earlier⟩
  cases moved with
  | pickUp idle rung => exact absurd down rung
  | look tag seen addr busy rung => exact absurd down rung
  | answer tag seen response busy =>
    obtain ⟨rfl, agree, earlier⟩ := inHand tag seen (.inl busy)
    refine ⟨same, .busy seen (.inr ⟨_, _, rfl⟩) agree earlier, down, ?_⟩
    intro _ _ _ _ returned
    cases returned
    exact fileStores_spare response
  | put tag seen response addr bytes pending busy =>
    obtain ⟨rfl, agree, earlier⟩ := inHand tag seen (.inr ⟨_, _, busy⟩)
    have away := spares _ _ _ _ busy
    refine ⟨same, .busy seen (.inr ⟨_, _, rfl⟩) agree earlier, ?_, ?_⟩
    · rw [Card.door, load32_store_disjoint _ _ _ _ (away _ (List.mem_cons_self ..))]
      exact down
    · intro _ _ _ _ returned piece member
      cases returned
      exact away piece (List.mem_cons_of_mem _ member)
  | finish tag seen response busy =>
    obtain ⟨rfl, agree, earlier⟩ := inHand tag seen (.inr ⟨_, _, busy⟩)
    refine ⟨same, .done ⟨_, seen, response⟩ rfl rfl agree (by rw [earlier]), by simp [Card.door], by simp⟩

theorem Outstanding.abandoned {card : Card FileResponse} {ring : Ring} (same : card.rings = rings ++ [ring])
    (outstanding : Outstanding FileResponse.stores (rings.length + 1) ring.memory served card) :
    Abandoned rings ring served (card.hostStore32 interruptReg 0) := by
  rw [hostStore32_clear]
  refine ⟨same, ?_, by simp [Card.door], ?_⟩
  · cases outstanding.engaged with
    | ahead idle earlier => exact .ahead idle earlier
    | busy seen held agree earlier => exact .busy seen held agree earlier
    | done job idle own agree earlier => exact .done job idle own agree earlier
  · intro tag seen response pending busy
    cases outstanding with
    | rung idle _ _ => simp [idle] at busy
    | working _ working _ _ _ => simp [working] at busy
    | answered _ idle _ _ _ _ => simp [idle] at busy
    | answering seen' response' done pending' busy' split _ _ _ =>
      obtain ⟨rfl, rfl⟩ : response' = response ∧ pending' = pending := by simp_all
      intro piece member
      exact fileStores_spare response' piece (by rw [split]; exact List.mem_append_right _ member)

def Stopped (card : Card FileResponse) : Prop :=
  (∃ rings served, Acknowledged rings served ∧ Between rings served card) ∨
    ∃ rings ring served, Acknowledged rings served ∧ Abandoned rings ring served card

theorem Stopped.stable : Stable fileWorld Stopped := by
  intro before after stopped moved
  rcases stopped with ⟨rings, served, acknowledged, between⟩ | ⟨rings, ring, served, acknowledged, abandoned⟩
  · exact absurd moved between.quiet.stuck
  · exact .inr ⟨rings, ring, served, acknowledged, Abandoned.stable before after abandoned moved⟩

theorem Stopped.inOrder {card : Card FileResponse} (stopped : Stopped card) : InOrder card := by
  rcases stopped with ⟨rings, served, acknowledged, between⟩ | ⟨rings, ring, served, acknowledged, abandoned⟩
  · exact between.inOrder acknowledged
  · exact abandoned.engaged.inOrder acknowledged abandoned.rung

def ChunkAnswered (rings : List Ring) (served : List (Job FileResponse)) (out : Except Failure Download)
    (card : Card FileResponse) : Prop :=
  match out with
  | .ok download => download.loopCount < 100000 ∧ ∃ ring job, Acknowledged (rings ++ [ring]) (served ++ [job]) ∧
      Between (rings ++ [ring]) (served ++ [job]) card
  | .error _ => Stopped card

section
variable {ring : Ring}

abbrev Pending (rings : List Ring) (ring : Ring) (served : List (Job FileResponse)) : Card FileResponse → Prop :=
  Waiting FileResponse.stores True (rings ++ [ring]) ring.memory served

abbrev Done (rings : List Ring) (ring : Ring) (served : List (Job FileResponse)) : Card FileResponse → Prop :=
  Cleared FileResponse.stores True (rings ++ [ring]) ring.memory served

theorem Pending.outstanding {card : Card FileResponse} (pending : Pending rings ring served card) :
    Outstanding FileResponse.stores (rings.length + 1) ring.memory served card := by
  have outstanding := pending.2 trivial
  rwa [List.length_append, List.length_singleton] at outstanding

theorem Done.settled {card : Card FileResponse} (done : Done rings ring served card) :
    Settled FileResponse.stores (rings.length + 1) ring.memory served card := by
  have settled := done.2.2 trivial
  rwa [List.length_append, List.length_singleton] at settled

theorem Done.abandoned {card : Card FileResponse} (done : Done rings ring served card) :
    Abandoned rings ring served card := by
  obtain ⟨idle, job, own, agree, memory, earlier⟩ := done.settled
  exact ⟨done.1, .done job idle own agree earlier, done.settled.quiet.2, by simp [idle]⟩

theorem status_stored (response : FileResponse) (window : Memory) :
    load32 (store32 (putAll window response.stores) interruptReg 0) resultReg = response.status.toNat := by
  have bound : response.status.toNat < 4294967296 := response.status.isLt
  have four : 256 ^ 4 = 4294967296 := by decide
  rw [load32_store32_disjoint _ _ _ _ (by simp [interruptReg, resultReg])]
  have stored := number_store_same window resultReg 4 4 response.status.toNat (by decide)
  rw [four, Nat.mod_eq_of_lt bound] at stored
  exact stored

theorem Done.acknowledged {card : Card FileResponse} (acknowledged : Acknowledged rings served)
    (done : Done rings ring served card) (zero : load32 card.memory resultReg = 0) :
    ∃ job, Acknowledged (rings ++ [ring]) (served ++ [job]) ∧ Between (rings ++ [ring]) (served ++ [job]) card := by
  obtain ⟨idle, job, own, agree, memory, earlier⟩ := done.settled
  rw [memory, status_stored] at zero
  refine ⟨job, ⟨acknowledged.snoc own agree, by simp [acknowledged.length], ?_⟩, done.1, earlier,
    done.settled.quiet, done.2.1⟩
  intro other member
  rcases List.mem_append.mp member with before | last
  · exact acknowledged.status other before
  · rw [List.mem_singleton.mp last]
    exact BitVec.eq_of_toNat_eq zero

theorem readStatus_triple (acknowledged : Acknowledged rings served) (download : Download) (loopCount : Nat)
    (fresh : loopCount < 100000) :
    Triple fileWorld handshake (Done rings ring served) ((xdmaRegRead resultReg).bind fun result =>
        if result ≠ 0 then pure (.error .resultError) else pure (.ok { download with loopCount, result }))
      (ChunkAnswered rings served) := by
  apply Triple.perform_bind (fun value s => Done rings ring served s ∧ value = load32 s.memory resultReg)
    Cleared.stable
  · exact fun s done => ⟨(Done.abandoned done).engaged.inOrder acknowledged done.1, False.elim⟩
  · intro s value t done acted
    obtain ⟨rfl, rfl⟩ := acted
    exact ⟨done.hostLoad resultReg, by simp⟩
  · intro value
    have stable : Stable fileWorld fun s => Done rings ring served s ∧ value = load32 s.memory resultReg :=
      fun before after held moved => absurd moved (Done.settled held.1).quiet.stuck
    by_cases zero : value = 0
    · rw [if_neg (not_not_intro zero)]
      refine .pure stable ?_
      intro s holds
      obtain ⟨done, rfl⟩ := holds
      obtain ⟨job, after⟩ := Done.acknowledged acknowledged done zero
      exact ⟨fresh, ring, job, after⟩
    · rw [if_pos zero]
      refine .pure stable fun s held => ?_
      exact .inr ⟨rings, ring, served, acknowledged, Done.abandoned held.1⟩

theorem Pending.inOrder {card : Card FileResponse} (acknowledged : Acknowledged rings served)
    (pending : Pending rings ring served card) : InOrder card :=
  (Pending.outstanding pending).engaged.inOrder acknowledged pending.1

theorem giveUp_triple (acknowledged : Acknowledged rings served) :
    Triple fileWorld handshake (Pending rings ring served)
      ((xdmaRegWrite interruptReg 0x0).bind fun _ => pure (.error .timeout)) (ChunkAnswered rings served) := by
  apply Triple.perform_bind (fun _ => Stopped) Waiting.stable
  · exact fun s pending => ⟨Pending.inOrder acknowledged pending, by simp [Access.Modifies]⟩
  · intro s answer t pending acted
    obtain rfl := acted
    exact .inr ⟨rings, ring, served, acknowledged, (Pending.outstanding pending).abandoned pending.1⟩
  · exact fun _ => .pure Stopped.stable fun _ stopped => stopped

theorem awaitResult_triple (acknowledged : Acknowledged rings served)
    (rang : load32 ring.memory interruptReg ≠ 0) (download : Download) (fresh : download.loopCount < 100000) :
    Triple fileWorld handshake (Pending rings ring served) (awaitResult download)
      (ChunkAnswered rings served) := by
  have polls : ∀ s, Pending rings ring served s → handshake (.load32 interruptReg) s :=
    fun s pending => ⟨Pending.inOrder acknowledged pending, False.elim⟩
  apply Triple.bind _ (awaitClear_triple fileStores_spare rang polls (100000 - download.loopCount)
    download.loopCount download.result (.inr (by omega)))
  intro out
  change Triple _ _ _ (if out.1 = 100000 ∧ out.2 ≠ 0 then _ else _) _
  by_cases zero : out.2 = 0
  · rw [if_neg (by simp [zero])]
    intro s ends
    obtain ⟨early, done⟩ := ends.1 zero
    exact readStatus_triple acknowledged download out.1 (by omega) s done
  · intro s ends
    obtain ⟨late, pending⟩ := ends.2 zero
    rw [if_pos ⟨by omega, zero⟩]
    exact giveUp_triple acknowledged s pending

theorem writeChunk_handshake (acknowledged : Acknowledged rings served) (i length sync : Nat)
    (short : length ≤ uDataLen) (download : Download) (fresh : download.loopCount < 100000) :
    Triple fileWorld handshake (Between rings served) (writeChunk i length sync download)
      (ChunkAnswered rings served) := by
  have keeps := Between.keeps acknowledged
  have reach : 120 + uDataLen ≤ interruptReg := by decide
  have data : (xdmaMemcpyWrite 120 (load download.buffer 0 length)).Only Access.Plain := by
    apply xdmaMemcpyWrite_plain
    rw [load_length]
    omega
  apply Triple.keeps_bind keeps (xdmaRegWrite_plain _ _ (by decide))
  intro
  apply Triple.keeps_bind keeps (xdmaRegWrite_plain _ _ (by decide))
  intro
  apply Triple.keeps_bind keeps (xdmaRegRead_plain _)
  intro
  apply Triple.keeps_bind keeps (xdmaRegWrite_plain _ _ (by decide))
  intro
  apply Triple.keeps_bind keeps (xdmaRegWrite_plain _ _ (by decide))
  intro
  apply Triple.keeps_bind keeps (xdmaRegRead_plain _)
  intro
  apply Triple.keeps_bind keeps data
  intro
  apply Triple.keeps_bind keeps (xdmaRegWrite_plain _ _ (by decide))
  intro
  apply Triple.perform_bind (fun _ s => ∃ ring : Ring, load32 ring.memory interruptReg ≠ 0 ∧
    Pending rings ring served s) keeps.stable
  · exact fun s between => ⟨between.inOrder acknowledged, fun _ => between.calm⟩
  · intro s answer t between acted
    obtain rfl := acted
    rw [hostStore32_ring]
    refine ⟨⟨store32 s.memory interruptReg 1, s.a53.isIdle⟩, by simp, by rw [between.rings], fun _ => ?_⟩
    exact .rung between.quiet.1 rfl between.served
  · exact fun _ => .exists_pre fun ring => .given fun rang => awaitResult_triple acknowledged rang download fresh

theorem sendChunk_handshake (file : HostFile) (acknowledged : Acknowledged rings served) (i length sync : Nat)
    (short : length ≤ uDataLen) (download : Download) (fresh : download.loopCount < 100000) :
    Triple fileWorld handshake (Between rings served) (sendChunk file i length sync download)
      (ChunkAnswered rings served) := by
  rw [sendChunk]
  split
  · split
    · refine .pure (Between.keeps acknowledged).stable fun s between => ?_
      exact .inl ⟨rings, served, acknowledged, between⟩
    · exact writeChunk_handshake acknowledged i length sync short _ fresh
  · exact writeChunk_handshake acknowledged i length sync short _ fresh

end

/-- The full chunks: `loop_count` has not run out after any of them. -/
theorem sendFullChunks_handshake (file : HostFile) (remaining i : Nat) (acknowledged : Acknowledged rings served)
    (download : Download) (fresh : download.loopCount < 100000) :
    Triple fileWorld handshake (Between rings served) (sendFullChunks file remaining i download)
      (fun out card => match out with
        | .ok download => download.loopCount < 100000 ∧ ∃ rings' served', rings'.length = rings.length + remaining ∧
            Acknowledged rings' served' ∧ Between rings' served' card
        | .error _ => Stopped card) := by
  induction remaining generalizing rings served i download with
  | zero =>
    refine .pure (Between.keeps acknowledged).stable fun s between => ?_
    exact ⟨fresh, rings, served, rfl, acknowledged, between⟩
  | succ remaining ih =>
    apply Triple.bind _ (sendChunk_handshake file acknowledged i uDataLen 0 (Nat.le_refl _) download fresh)
    intro out
    cases out with
    | error failure => exact .pure Stopped.stable fun _ stopped => stopped
    | ok download =>
      intro s holds
      obtain ⟨fresh, ring, job, acknowledged, between⟩ := holds
      apply (ih (i + 1) acknowledged download fresh s between).mono (fun _ _ h => h)
      intro out t ends
      cases out with
      | error failure => exact ends
      | ok download =>
        obtain ⟨fresh, rings', served', length, rest⟩ := ends
        refine ⟨fresh, rings', served', ?_, rest⟩
        rw [length, List.length_append, List.length_singleton]
        omega

structure Delivered (chunks : Nat) (card : Card FileResponse) : Prop where
  rings : card.rings.length = chunks
  served : card.served.length = chunks
  status : ∀ job ∈ card.served, job.response.status = 0

def FileHandled (file : HostFile) (out : Except Failure Unit) (card : Card FileResponse) : Prop :=
  InOrder card ∧ (out = .ok () → Delivered (file.fullChunks + 1) card)

theorem sendOpenFile_handshake (file : HostFile) (buffer : Memory) :
    Triple fileWorld handshake (Between [] []) (sendOpenFile file buffer) (FileHandled file) := by
  have none_yet : Acknowledged [] [] := ⟨by simp, rfl, by simp⟩
  have keeps := Between.keeps none_yet
  have path_fits : 0 + 4 + file.psPath.length ≤ interruptReg := by
    have named := file.named
    simp only [HostFile.psPath, List.length_append, List.length_cons, List.length_nil, interruptReg]
    omega
  have fails : ∀ failure, Triple fileWorld handshake Stopped (.pure (.error failure)) (FileHandled file) :=
    fun failure => .pure Stopped.stable fun s stopped => ⟨stopped.inOrder, by simp⟩
  apply Triple.keeps_bind keeps (xdmaRegWrite_plain _ _ (by decide))
  intro
  apply Triple.keeps_bind keeps (writeWords_plain 4 0 file.psPath path_fits (by decide))
  intro
  apply Triple.keeps_bind keeps (xdmaRegWrite_plain _ _ (by decide))
  intro
  apply Triple.keeps_bind keeps (xdmaRegRead_plain _)
  intro
  apply Triple.bind _ (sendFullChunks_handshake file file.fullChunks 0 none_yet ⟨buffer, 0, 0, 0⟩ (Nat.zero_lt_succ _))
  intro out
  cases out with
  | error failure => exact fails failure
  | ok download =>
    intro s holds
    obtain ⟨fresh, rings, served, length, acknowledged, between⟩ := holds
    have short : file.fileSize % uDataLen ≤ uDataLen := file.chunkLength_last ▸ file.chunkLength_le _
    have chunk := sendChunk_handshake file acknowledged file.fullChunks _ 1 short download fresh
    refine Triple.bind _ chunk (fun out => ?_) s between
    cases out with
    | error failure => exact fails failure
    | ok download =>
      intro t holds
      obtain ⟨-, ring, job, acknowledged, between⟩ := holds
      refine Triple.pure (Between.keeps acknowledged).stable (fun u between => ?_) t between
      have count : (rings ++ [ring]).length = file.fullChunks + 1 := by simp [length]
      refine ⟨between.inOrder acknowledged, fun _ => ⟨?_, ?_, ?_⟩⟩
      · rw [between.rings, count]
      · rw [between.served, acknowledged.length, count]
      · rw [between.served]
        exact acknowledged.status

theorem sendOpenFile_handles (file : HostFile) (buffer : Memory) {start final : Card FileResponse}
    {last : Host (Except Failure Unit)} (between : Between [] [] start)
    (run : Runs fileWorld (sendOpenFile file buffer, start) (last, final)) :
    InOrder final ∧ (∀ access next, last = .call access next → access.Modifies → final.awaiting = false) ∧
      (last = .pure (.ok ()) → Delivered (file.fullChunks + 1) final) := by
  have reached := (sendOpenFile_handshake file buffer).reachable between run
  cases last with
  | pure out =>
    refine ⟨reached.1, by simp, ?_⟩
    intro returned
    cases returned
    exact reached.2 rfl
  | call access next =>
    refine ⟨reached.1, ?_, by simp⟩
    intro _ _ returned
    cases returned
    exact reached.2

end

end CigCard.Mailbox
