import CigCard.Mailbox.FileDownload
import CigCard.Interaction.RelyGuarantee

namespace CigCard.Mailbox

open Interaction ByteMemory

/-- The window after header and data of a chunk, written in the order of the code. -/
def chunkWindow (window : Memory) (offset length sync sum : Nat) (data : List Byte) : Memory :=
  store (store32 (store32 (store32 (store32 window 104 offset) 108 length) 110 sync) 111 (sum % 256)) 120 data

section
variable (window : Memory) (offset length sync sum : Nat) (data : List Byte)

theorem chunkWindow_total : load32 (chunkWindow window offset length sync sum data) 100 = load32 window 100 := by
  unfold chunkWindow
  rw [load32_store_disjoint _ _ _ _ (by omega), load32_store32_disjoint _ _ _ _ (by omega),
    load32_store32_disjoint _ _ _ _ (by omega), load32_store32_disjoint _ _ _ _ (by omega),
    load32_store32_disjoint _ _ _ _ (by omega)]

theorem chunkWindow_offset :
    load32 (chunkWindow window offset length sync sum data) 104 = offset % 2 ^ 32 := by
  unfold chunkWindow
  rw [load32_store_disjoint _ _ _ _ (by omega), load32_store32_disjoint _ _ _ _ (by omega),
    load32_store32_disjoint _ _ _ _ (by omega), load32_store32_disjoint _ _ _ _ (by omega), load32_store32]

/-- The store at 110 cuts the upper half of the one at 108 off. -/
theorem chunkWindow_length :
    number (chunkWindow window offset length sync sum data) 108 2 = length % 65536 := by
  have two : 256 ^ 2 = 65536 := by decide
  unfold chunkWindow
  rw [number_store_disjoint _ _ _ _ _ (by omega), store32, number_store_disjoint _ _ _ _ _ (by simp),
    store32, number_store_disjoint _ _ _ _ _ (by simp), store32, number_store_same _ _ _ _ _ (by decide), two]

theorem chunkWindow_sync :
    number (chunkWindow window offset length sync sum data) 110 1 = sync % 256 := by
  have one : 256 ^ 1 = 256 := by decide
  unfold chunkWindow
  rw [number_store_disjoint _ _ _ _ _ (by omega), store32, number_store_disjoint _ _ _ _ _ (by simp),
    store32, number_store_same _ _ _ _ _ (by decide), one]

theorem chunkWindow_sum :
    number (chunkWindow window offset length sync sum data) 111 1 = sum % 256 := by
  unfold chunkWindow
  rw [number_store_disjoint _ _ _ _ _ (by omega), store32, number_store_same _ _ _ _ _ (by decide),
    Nat.pow_one, Nat.mod_mod]

theorem chunkWindow_data :
    load (chunkWindow window offset length sync sum data) 120 data.length = data := load_store_same _ _ _

end

def byteSum (bytes : List Byte) : Nat := (bytes.map BitVec.toNat).sum

theorem foldl_byteSum (bytes : List Byte) (start : Nat) :
    bytes.foldl (fun sum byte => (sum + byte.toNat) % 2 ^ 32) start % 256 = (start + byteSum bytes) % 256 := by
  induction bytes generalizing start with
  | nil => simp [byteSum]
  | cons byte bytes ih =>
    have cut : (start + byte.toNat) % 2 ^ 32 % 256 = (start + byte.toNat) % 256 :=
      Nat.mod_mod_of_dvd _ (by decide)
    rw [List.foldl_cons, ih, Nat.add_mod, cut, ← Nat.add_mod]
    simp [byteSum, Nat.add_assoc]

theorem checksum_store (buffer : Memory) (bytes : List Byte) :
    checksum (store buffer 0 bytes) bytes.length % 256 = byteSum bytes % 256 := by
  rw [checksum, load_store_same, foldl_byteSum, Nat.zero_add]

/-- What the A53 must find in the window at the `k`-th doorbell, counting from 0. -/
structure HoldsChunk (file : HostFile) (k : Nat) (window : Memory) : Prop where
  within : k ≤ file.fullChunks
  total : load32 window 100 = file.fileSize
  offset : load32 window 104 = k * uDataLen
  length : number window 108 2 = (file.slice k).length
  sync : number window 110 1 = if k = file.fullChunks then 1 else 0
  sum : number window 111 1 = byteSum (file.slice k) % 256
  data : load window 120 (file.slice k).length = file.slice k

theorem HoldsChunk.agree {file : HostFile} {k : Nat} {left right : Memory} (holds : HoldsChunk file k right)
    (agree : Agree left right 0 interruptReg) : HoldsChunk file k left := by
  have length_le : (file.slice k).length ≤ uDataLen :=
    Nat.le_trans (List.length_take_le _ _) (file.chunkLength_le k)
  have numbers : ∀ address count, address + count ≤ interruptReg →
      number left address count = number right address count := by
    intro address count below
    rw [number, number, agree.load (Nat.zero_le _) below]
  have reach : 120 + uDataLen ≤ interruptReg := by decide
  refine ⟨holds.within, ?_, ?_, ?_, ?_, ?_, ?_⟩
  · exact (numbers 100 4 (by decide)).trans holds.total
  · exact (numbers 104 4 (by decide)).trans holds.offset
  · exact (numbers 108 2 (by decide)).trans holds.length
  · exact (numbers 110 1 (by decide)).trans holds.sync
  · exact (numbers 111 1 (by decide)).trans holds.sum
  · exact (agree.load (Nat.zero_le _) (by omega)).trans holds.data

def HostFile.Addressable (file : HostFile) : Prop := file.fullChunks * uDataLen < 2 ^ 31

section
variable (file : HostFile)

theorem HostFile.offset_le {k : Nat} (within : k ≤ file.fullChunks) :
    k * uDataLen + file.chunkLength k ≤ file.fileSize := by
  have whole := Nat.div_add_mod file.fileSize uDataLen
  have steps : uDataLen * (file.fileSize / uDataLen) = file.fullChunks * uDataLen := Nat.mul_comm _ _
  rcases Nat.lt_or_eq_of_le within with before | last
  · have next : (k + 1) * uDataLen ≤ file.fullChunks * uDataLen := Nat.mul_le_mul_right _ before
    rw [file.chunkLength_full before]
    rw [Nat.add_mul, Nat.one_mul] at next
    omega
  · rw [last, file.chunkLength_last]
    omega

theorem HostFile.slice_length {k : Nat} (within : k ≤ file.fullChunks) :
    (file.slice k).length = file.chunkLength k := by
  have fits := file.offset_le within
  have cut : file.fileSize ≤ file.content.length := Nat.mod_le _ _
  rw [HostFile.slice, List.length_take, List.length_drop]
  omega

variable {file}

theorem HostFile.Addressable.offset_lt (small : file.Addressable) {k : Nat} (within : k ≤ file.fullChunks) :
    k * uDataLen < 2 ^ 31 :=
  Nat.lt_of_le_of_lt (Nat.mul_le_mul_right _ within) small

theorem HostFile.Addressable.fread_eq (small : file.Addressable) {k : Nat} (within : k ≤ file.fullChunks) :
    file.fread k (file.chunkLength k) = some (file.slice k) := by
  have below := small.offset_lt within
  have exact_ : k * uDataLen % 2 ^ 32 = k * uDataLen := Nat.mod_eq_of_lt (by omega)
  unfold HostFile.fread
  rw [exact_, if_neg (by omega), HostFile.slice]

variable (file)

theorem flatten_chunks {α : Type} (content : List α) (size count : Nat) :
    ((List.range count).map fun k => (content.drop (k * size)).take size).flatten = content.take (count * size) := by
  induction count with
  | zero => simp
  | succ count ih =>
    rw [List.range_succ, List.map_append, List.flatten_append, ih, Nat.add_mul, Nat.one_mul, List.take_add]
    simp

/-- The slices, one after the other, are the file, as far as `file_size` counts it. -/
theorem HostFile.slices_flatten :
    ((List.range (file.fullChunks + 1)).map file.slice).flatten = file.content.take file.fileSize := by
  have full : (List.range file.fullChunks).map file.slice =
      (List.range file.fullChunks).map fun k => (file.content.drop (k * uDataLen)).take uDataLen := by
    apply List.map_congr_left
    intro k member
    rw [HostFile.slice, file.chunkLength_full (List.mem_range.mp member)]
  have whole := Nat.div_add_mod file.fileSize uDataLen
  rw [List.range_succ, List.map_append, List.flatten_append, full, flatten_chunks]
  simp only [List.map_cons, List.map_nil, List.flatten_cons, List.flatten_nil, List.append_nil]
  rw [HostFile.slice, ← List.take_add, file.chunkLength_last, HostFile.fullChunks, Nat.mul_comm, whole]

theorem HostFile.fileSize_eq (small : file.content.length < 2 ^ 31) : file.fileSize = file.content.length :=
  Nat.mod_eq_of_lt (by omega)

theorem HostFile.addressable_of_small (small : file.content.length < 2 ^ 31) : file.Addressable := by
  have steps : file.fullChunks * uDataLen ≤ file.fileSize := Nat.div_mul_le_self _ _
  rw [HostFile.Addressable]
  rw [file.fileSize_eq small] at steps
  omega

end

/-- The bytes below the interrupt register are the host's own: an A53 of which nothing else is known
    stores its response above them. -/
structure Loaded (window : Memory) (rings : List Ring) (card : Card FileResponse) : Prop where
  agree : Agree card.memory window 0 interruptReg
  rings : card.rings = rings
  above : ∀ ring seen response pending, card.a53 = .answering ring seen response pending →
    ∀ piece ∈ pending, interruptReg ≤ piece.1

section
variable {window : Memory} {rings : List Ring}

theorem Loaded.stable : Stable fileWorld (Loaded window rings) := by
  intro before after loaded moved
  cases moved with
  | pickUp | look => exact ⟨loaded.agree, loaded.rings, by simp⟩
  | answer ring seen response busy =>
    refine ⟨loaded.agree, loaded.rings, ?_⟩
    intro _ _ _ _ returned piece member
    cases returned
    rw [List.mem_singleton.mp member]
    simp only [interruptReg, resultReg]
    decide
  | put ring seen response addr bytes pending busy =>
    have aboves := loaded.above _ _ _ _ busy
    refine ⟨loaded.agree.store (.inr (aboves _ (List.mem_cons_self ..))), loaded.rings, ?_⟩
    intro _ _ _ _ returned piece member
    cases returned
    exact aboves piece (List.mem_cons_of_mem _ member)
  | finish ring seen response busy =>
    exact ⟨loaded.agree.store (.inr (Nat.le_refl _)), loaded.rings, by simp⟩

theorem Loaded.hostLoad {card : Card FileResponse} (loaded : Loaded window rings card) (addr : Nat) :
    Loaded window rings (card.hostLoad addr) :=
  ⟨by simpa using loaded.agree, by simpa using loaded.rings, by simpa using loaded.above⟩

theorem Loaded.write {card : Card FileResponse} (loaded : Loaded window rings card) (addr value : Nat)
    (below : addr + 4 ≤ interruptReg) : Loaded (store32 window addr value) rings (card.hostStore32 addr value) := by
  rw [hostStore32_plain _ _ _ (by omega)]
  exact ⟨loaded.agree.store_both _ _, loaded.rings, loaded.above⟩

theorem Loaded.register {card : Card FileResponse} (loaded : Loaded window rings card) (addr value : Nat)
    (above : interruptReg ≤ addr) (silent : addr ≠ interruptReg ∨ value = 0) :
    Loaded window rings (card.hostStore32 addr value) := by
  have unrung : ¬ (addr = interruptReg ∧ value % 2 ^ 32 ≠ 0) := by
    intro both
    obtain ⟨same, nonzero⟩ := both
    rcases silent with other | rfl
    · exact other same
    · exact nonzero rfl
  simp only [Card.hostStore32, if_neg unrung]
  exact ⟨loaded.agree.store (.inr above), loaded.rings, loaded.above⟩

theorem Loaded.ring {card : Card FileResponse} (loaded : Loaded window rings card) :
    ∃ ring : Ring, Agree ring.memory window 0 interruptReg ∧
      Loaded window (rings ++ [ring]) (card.hostStore32 interruptReg 1) := by
  have agree : Agree (store32 card.memory interruptReg 1) window 0 interruptReg :=
    loaded.agree.store (.inr (Nat.le_refl _))
  rw [hostStore32_ring]
  exact ⟨⟨store32 card.memory interruptReg 1, card.a53.isIdle⟩, agree, agree, by rw [loaded.rings], loaded.above⟩

def Encoded (file : HostFile) (rings : List Ring) : Prop :=
  ∀ k ring, rings[k]? = some ring → HoldsChunk file k ring.memory

def encodes (file : HostFile) : Access → Card FileResponse → Prop := fun _ card => Encoded file card.rings

variable {file : HostFile} {α : Type} {post : α → Card FileResponse → Prop}

theorem xdmaRegWrite_loaded (encoded : Encoded file rings) (addr value : Nat) (below : addr + 4 ≤ interruptReg)
    {next : Unit → Host α}
    (continues : Triple fileWorld (encodes file) (Loaded (store32 window addr value) rings) (next ()) post) :
    Triple fileWorld (encodes file) (Loaded window rings) ((xdmaRegWrite addr value).bind next) post := by
  refine Triple.perform_bind (fun _ => Loaded (store32 window addr value) rings) Loaded.stable ?_ ?_
    fun _ => continues
  · exact fun s loaded => by rw [encodes, loaded.rings]; exact encoded
  · intro s answer t loaded acted
    obtain rfl := acted
    exact loaded.write addr value below

theorem xdmaRegRead_loaded (encoded : Encoded file rings) (addr : Nat) {next : Nat → Host α}
    (continues : ∀ value, Triple fileWorld (encodes file) (Loaded window rings) (next value) post) :
    Triple fileWorld (encodes file) (Loaded window rings) ((xdmaRegRead addr).bind next) post := by
  refine Triple.perform_bind (fun _ => Loaded window rings) Loaded.stable ?_ ?_ continues
  · exact fun s loaded => by rw [encodes, loaded.rings]; exact encoded
  · intro s answer t loaded acted
    obtain ⟨-, rfl⟩ := acted
    exact loaded.hostLoad addr

theorem register_loaded (encoded : Encoded file rings) (addr value : Nat) (above : interruptReg ≤ addr)
    (silent : addr ≠ interruptReg ∨ value = 0) {next : Unit → Host α}
    (continues : Triple fileWorld (encodes file) (Loaded window rings) (next ()) post) :
    Triple fileWorld (encodes file) (Loaded window rings) ((xdmaRegWrite addr value).bind next) post := by
  refine Triple.perform_bind (fun _ => Loaded window rings) Loaded.stable ?_ ?_ fun _ => continues
  · exact fun s loaded => by rw [encodes, loaded.rings]; exact encoded
  · intro s answer t loaded acted
    obtain rfl := acted
    exact loaded.register addr value above silent

theorem ring_loaded (encoded : Encoded file rings) {next : Unit → Host α}
    (continues : ∀ ring : Ring, Agree ring.memory window 0 interruptReg →
      Triple fileWorld (encodes file) (Loaded window (rings ++ [ring])) (next ()) post) :
    Triple fileWorld (encodes file) (Loaded window rings) ((xdmaRegWrite interruptReg 0x01).bind next) post := by
  refine Triple.perform_bind (fun _ s => ∃ ring : Ring, Agree ring.memory window 0 interruptReg ∧
    Loaded window (rings ++ [ring]) s) Loaded.stable ?_ ?_ fun _ => ?_
  · exact fun s loaded => by rw [encodes, loaded.rings]; exact encoded
  · intro s answer t loaded acted
    obtain rfl := acted
    exact loaded.ring
  · exact .exists_pre fun ring => .given fun agree => continues ring agree

theorem xdmaMemcpyWrite_loaded (encoded : Encoded file rings) (addr : Nat) (bytes : List Byte)
    (below : addr + bytes.length ≤ interruptReg) {next : Unit → Host α}
    (continues : Triple fileWorld (encodes file) (Loaded (store window addr bytes) rings) (next ()) post) :
    Triple fileWorld (encodes file) (Loaded window rings) ((xdmaMemcpyWrite addr bytes).bind next) post := by
  induction bytes generalizing addr window with
  | nil =>
    rw [store_nil] at continues
    exact continues
  | cons byte bytes ih =>
    rw [List.length_cons] at below
    rw [← store_cons] at continues
    refine Triple.perform_bind (fun _ => Loaded (store window addr [byte]) rings) Loaded.stable ?_ ?_
      fun _ => ih (addr + 1) (by omega) continues
    · exact fun s loaded => by rw [encodes, loaded.rings]; exact encoded
    · intro s answer t loaded acted
      obtain rfl := acted
      exact ⟨loaded.agree.store_both _ _, loaded.rings, loaded.above⟩

theorem Loaded.keeps (encoded : Encoded file rings) :
    Keeps fileWorld (encodes file) Access.IsLoad (Loaded window rings) where
  stable := Loaded.stable
  guarded := by
    intro access s load loaded
    rw [encodes, loaded.rings]
    exact encoded
  acts := by
    intro access s answer t load loaded acted
    cases access with
    | load32 addr => rw [acted.2]; exact loaded.hostLoad addr
    | store32 addr value => cases load
    | store8 addr byte => cases load

theorem Loaded.keeps_some (encoded : Encoded file rings) :
    Keeps fileWorld (encodes file) Access.Plain (fun s => ∃ filled, Loaded filled rings s) where
  stable := by
    intro before after holds moved
    obtain ⟨filled, loaded⟩ := holds
    exact ⟨filled, Loaded.stable before after loaded moved⟩
  guarded := by
    intro access s plain holds
    obtain ⟨filled, loaded⟩ := holds
    rw [encodes, loaded.rings]
    exact encoded
  acts := by
    intro access s answer t plain holds acted
    obtain ⟨filled, loaded⟩ := holds
    cases access with
    | load32 addr => rw [acted.2]; exact ⟨filled, loaded.hostLoad addr⟩
    | store32 addr value =>
      obtain rfl := acted
      rcases plain with below | above
      · exact ⟨_, loaded.write addr value below⟩
      · exact ⟨filled, loaded.register addr value (by omega) (.inl (by omega))⟩
    | store8 addr byte =>
      obtain rfl := acted
      exact ⟨_, loaded.agree.store_both addr [byte], loaded.rings, loaded.above⟩

end

section
variable {file : HostFile} {window : Memory} {rings : List Ring}

def ChunkSent (file : HostFile) (rings : List Ring) (out : Except Failure Download) (card : Card FileResponse) :
    Prop :=
  ∃ sent, Encoded file sent ∧ match out with
    | .ok _ => sent.length = rings.length + 1 ∧
        ∃ filled, load32 filled 100 = file.fileSize ∧ Loaded filled sent card
    | .error _ => card.rings = sent

theorem awaitResult_loaded (encoded : Encoded file rings) (download : Download) :
    Triple fileWorld (encodes file) (Loaded window rings) (awaitResult download)
      (fun _ => Loaded window rings) := by
  have done : ∀ out : Except Failure Download, Triple fileWorld (encodes file) (Loaded window rings) (.pure out)
      (fun _ => Loaded window rings) := fun out => .pure Loaded.stable fun s loaded => loaded
  apply Triple.bind _ (.keeps (Loaded.keeps encoded) (awaitClear_isLoad _ _ _))
  intro out
  change Triple _ _ _ (if out.1 = 100000 ∧ out.2 ≠ 0 then _ else _) _
  split
  · apply register_loaded encoded _ _ (Nat.le_refl _) (.inr rfl)
    exact done _
  · apply xdmaRegRead_loaded encoded resultReg
    intro result
    split <;> exact done _

theorem Encoded.snoc (encoded : Encoded file rings) {ring : Ring}
    (holds : HoldsChunk file rings.length ring.memory) : Encoded file (rings ++ [ring]) := by
  intro k later found
  rcases Nat.lt_trichotomy k rings.length with old | rfl | beyond
  · rw [List.getElem?_append_left old] at found
    exact encoded k later found
  · rw [List.getElem?_concat_length, Option.some.injEq] at found
    exact found ▸ holds
  · rw [List.getElem?_eq_none (by simp; omega)] at found
    cases found

theorem chunkWindow_holds (small : file.Addressable) {k : Nat} (within : k ≤ file.fullChunks)
    (total : load32 window 100 = file.fileSize) :
    HoldsChunk file k (chunkWindow window (k * uDataLen) (file.chunkLength k)
      (if k = file.fullChunks then 1 else 0) (byteSum (file.slice k)) (file.slice k)) := by
  have below := small.offset_lt within
  have length_le := file.chunkLength_le k
  unfold uDataLen at length_le
  refine ⟨within, ?_, ?_, ?_, ?_, ?_, ?_⟩
  · rw [chunkWindow_total, total]
  · rw [chunkWindow_offset, Nat.mod_eq_of_lt (by omega)]
  · rw [chunkWindow_length, Nat.mod_eq_of_lt (by omega), file.slice_length within]
  · rw [chunkWindow_sync]
    split <;> rfl
  · rw [chunkWindow_sum]
  · rw [chunkWindow_data]

theorem writeChunk_triple (small : file.Addressable) (encoded : Encoded file rings)
    (within : rings.length ≤ file.fullChunks) (total : load32 window 100 = file.fileSize)
    (download : Download) (data : load download.buffer 0 (file.chunkLength rings.length) = file.slice rings.length)
    (sum : checksum download.buffer download.readSize % 256 = byteSum (file.slice rings.length) % 256) :
    Triple fileWorld (encodes file) (Loaded window rings)
      (writeChunk rings.length (file.chunkLength rings.length)
        (if rings.length = file.fullChunks then 1 else 0) download) (ChunkSent file rings) := by
  have length := file.slice_length within
  have length_le := file.chunkLength_le rings.length
  have reach : 120 + uDataLen ≤ interruptReg := by decide
  unfold writeChunk
  simp only [Program.bind_eq]
  rw [data, sum]
  refine xdmaRegWrite_loaded encoded _ _ (by decide) (xdmaRegWrite_loaded encoded _ _ (by decide) ?_)
  refine xdmaRegRead_loaded encoded _ fun _ => xdmaRegWrite_loaded encoded _ _ (by decide) ?_
  refine xdmaRegWrite_loaded encoded _ _ (by decide) (xdmaRegRead_loaded encoded _ fun _ => ?_)
  apply xdmaMemcpyWrite_loaded encoded _ _ (by omega)
  apply register_loaded encoded _ _ (by decide) (.inl (by decide))
  rw [Nat.mod_mod]
  have holds := chunkWindow_holds small within total
  apply ring_loaded encoded
  intro ring agree
  have after := encoded.snoc (holds.agree agree)
  apply (awaitResult_loaded after download).consequence (fun _ loaded => loaded)
  intro out s loaded
  refine ⟨rings ++ [ring], after, ?_⟩
  cases out with
  | error failure => exact loaded.rings
  | ok download => exact ⟨by simp, _, (chunkWindow_total _ _ _ _ _ _).trans total, loaded⟩

theorem sendChunk_triple (small : file.Addressable) (encoded : Encoded file rings)
    (within : rings.length ≤ file.fullChunks) (total : load32 window 100 = file.fileSize)
    (download : Download) :
    Triple fileWorld (encodes file) (Loaded window rings)
      (sendChunk file rings.length (file.chunkLength rings.length)
        (if rings.length = file.fullChunks then 1 else 0) download) (ChunkSent file rings) := by
  have length := file.slice_length within
  rw [sendChunk, small.fread_eq within]
  change Triple _ _ _ (if (file.slice rings.length).length ≠ _ then _ else _) _
  rw [if_neg (not_not_intro length)]
  have data := load_store_same (store download.buffer 0 (List.replicate (file.chunkLength rings.length) 0)) 0
    (file.slice rings.length)
  have sum := checksum_store (store download.buffer 0 (List.replicate (file.chunkLength rings.length) 0))
    (file.slice rings.length)
  rw [length] at data
  exact writeChunk_triple small encoded within total _ data sum

theorem sendFullChunks_triple (small : file.Addressable) (remaining : Nat) (encoded : Encoded file rings)
    (count : rings.length + remaining = file.fullChunks) (total : load32 window 100 = file.fileSize)
    (download : Download) :
    Triple fileWorld (encodes file) (Loaded window rings) (sendFullChunks file remaining rings.length download)
      (fun out card => ∃ sent, Encoded file sent ∧ match out with
        | .ok _ => sent.length = file.fullChunks ∧
            ∃ filled, load32 filled 100 = file.fileSize ∧ Loaded filled sent card
        | .error _ => card.rings = sent) := by
  induction remaining generalizing rings window download with
  | zero => exact .pure Loaded.stable fun s loaded => ⟨rings, encoded, count, window, total, loaded⟩
  | succ remaining ih =>
    have full : rings.length < file.fullChunks := by omega
    have chunk := sendChunk_triple small encoded (Nat.le_of_lt full) total download
    rw [if_neg (Nat.ne_of_lt full), file.chunkLength_full full] at chunk
    rw [sendFullChunks, sendFullChunk]
    apply Triple.bind _ chunk
    intro out
    cases out with
    | error failure =>
      have stable : Stable fileWorld (ChunkSent file rings (.error failure)) :=
        fun _ _ kept moved => kept.imp fun _ kept => ⟨kept.1, moved.rings_eq.trans kept.2⟩
      exact .pure stable fun _ sent => sent
    | ok download =>
      intro s holds
      obtain ⟨sent, encoded, length, filled, total, loaded⟩ := holds
      rw [← length]
      exact ih encoded (by omega) total download s loaded

def FileSent (file : HostFile) (out : Except Failure Unit) (card : Card FileResponse) : Prop :=
  Encoded file card.rings ∧ (out = .ok () → card.rings.length = file.fullChunks + 1)

theorem failed_triple {pre : Card FileResponse → Prop} (failure : Failure)
    (sent : ∀ s, pre s → ∃ sent, Encoded file sent ∧ s.rings = sent) :
    Triple fileWorld (encodes file) pre (.pure (.error failure)) (FileSent file) := by
  intro s holds
  obtain ⟨_, encoded, rfl⟩ := sent s holds
  have stable : Stable fileWorld (fun s => Encoded file s.rings) := by
    intro before after encoded moved
    rwa [moved.rings_eq]
  exact Triple.pure stable (fun t encoded => ⟨encoded, by simp⟩) s encoded

theorem sendOpenFile_triple (small : file.Addressable) (buffer : Memory) :
    Triple fileWorld (encodes file) (Loaded window []) (sendOpenFile file buffer) (FileSent file) := by
  have none_yet : Encoded file [] := fun k ring found => by simp at found
  have named := file.named
  have short : file.fileSize < 2 ^ 32 := Nat.mod_lt _ (by decide)
  have path_fits : 0 + 4 + file.psPath.length ≤ interruptReg := by
    simp only [HostFile.psPath, List.length_append, List.length_cons, List.length_nil, interruptReg]
    omega
  have path := Triple.keeps (Loaded.keeps_some none_yet) (writeWords_plain 4 0 file.psPath path_fits (by decide))
  apply xdmaRegWrite_loaded none_yet _ _ (by decide)
  apply Triple.bind _ (path.consequence (fun _ loaded => ⟨_, loaded⟩) (fun _ _ kept => kept))
  intro _
  refine .exists_pre fun filled => ?_
  refine xdmaRegWrite_loaded none_yet _ _ (by decide) (xdmaRegRead_loaded none_yet _ fun _ => ?_)
  have total : load32 (store32 filled 100 file.fileSize) 100 = file.fileSize := by
    rw [load32_store32, Nat.mod_eq_of_lt short]
  have chunks := sendFullChunks_triple small file.fullChunks none_yet (Nat.zero_add _) total ⟨buffer, 0, 0, 0⟩
  apply Triple.bind _ chunks
  intro out
  cases out with
  | error failure => exact failed_triple failure fun _ chunk => chunk
  | ok download =>
    intro s holds
    obtain ⟨sent, encoded, length, filled, total, loaded⟩ := holds
    have chunk := sendChunk_triple small encoded (Nat.le_of_eq length) total download
    rw [if_pos length, length, file.chunkLength_last] at chunk
    refine Triple.bind _ chunk (fun out => ?_) s loaded
    cases out with
    | error failure => exact failed_triple failure fun _ chunk => chunk
    | ok download =>
      intro s holds
      obtain ⟨sent, encoded, longer, filled, -, loaded⟩ := holds
      refine Triple.pure Loaded.stable (fun t loaded => ?_) s loaded
      rw [FileSent, loaded.rings]
      exact ⟨encoded, fun _ => by omega⟩

theorem sendOpenFile_encodes (small : file.Addressable) (buffer : Memory) {start final : Card FileResponse}
    {last : Host (Except Failure Unit)} (loaded : Loaded start.memory [] start)
    (run : Runs fileWorld (sendOpenFile file buffer, start) (last, final)) :
    Encoded file final.rings ∧ (last = .pure (.ok ()) → final.rings.length = file.fullChunks + 1) := by
  have reached := (sendOpenFile_triple small buffer).reachable loaded run
  cases last with
  | pure out =>
    refine ⟨reached.1, ?_⟩
    intro returned
    cases returned
    exact reached.2 rfl
  | call operation rest => exact ⟨reached, by simp⟩

def decoded (rings : List Ring) : List Byte :=
  (rings.map fun ring => load ring.memory 120 (number ring.memory 108 2)).flatten

theorem Encoded.decoded_eq (encoded : Encoded file rings) (all : rings.length = file.fullChunks + 1) :
    decoded rings = file.content.take file.fileSize := by
  rw [← file.slices_flatten, decoded]
  congr 1
  apply List.ext_getElem?
  intro k
  by_cases within : k < rings.length
  · have holds := encoded k _ (List.getElem?_eq_getElem within)
    rw [List.getElem?_map, List.getElem?_map, List.getElem?_eq_getElem within,
      List.getElem?_range (by omega)]
    simp only [Option.map_some, holds.length, holds.data]
  · rw [List.getElem?_eq_none (by simpa using within), List.getElem?_eq_none (by simp; omega)]

end

end CigCard.Mailbox
