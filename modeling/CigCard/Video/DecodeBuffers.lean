import CigCard.Ledger.Heap
import CigCard.Video.Decode

namespace CigCard.Video

open Ledger

variable {S Packet Frame Picture : Type}

structure Allocations (S : Type) where
  frame : S → Bool
  swFrame : S → Bool
  buffer : S → Bool
  yuv420pDstBuffer : S → Bool
  dstBuffer : S → Bool
  srcBuffer : S → Bool
  pFrameYUV : S → Bool

structure Pointers where
  frame : Option Nat
  swFrame : Option Nat
  buffer : Option Nat
  dstBuffer : Option Nat

def Pointers.null : Pointers := ⟨none, none, none, none⟩

def Pointers.fail (pointers : Pointers) (heap : Heap) : Heap :=
  (((heap.free pointers.frame).free pointers.swFrame).free pointers.buffer).free pointers.dstBuffer

/-- How a round of the loop ends. `crashed` is the use of the arrays of a frame that is NULL. -/
inductive RoundEnd (S Picture : Type) where
  | returned (ret : Int) (decoder : S) (heap : Heap)
  | again (decoder : S) (picture : Picture) (heap : Heap)
  | crashed

def writeRound (codec : Codec S Packet Frame Picture) (allocs : Allocations S) (decoder : S) (frame : Frame)
    (pointers : Pointers) (heap : Heap) : RoundEnd S Picture :=
  let (buffer, heap) := heap.alloc (allocs.buffer decoder)
  let (_yuv420pDstBuffer, heap) := heap.alloc (allocs.yuv420pDstBuffer decoder)
  let (dstBuffer, heap) := heap.alloc (allocs.dstBuffer decoder)
  let (_srcBuffer, heap) := heap.alloc (allocs.srcBuffer decoder)
  let (pFrameYUV, heap) := heap.alloc (allocs.pFrameYUV decoder)
  let pointers := { pointers with buffer, dstBuffer }
  if pFrameYUV = none then .crashed
  else if buffer = none then .returned (-12) decoder (pointers.fail heap)
  else if dstBuffer = none then .returned (-12) decoder (pointers.fail heap)
  else
    let ret := codec.copyToBuffer decoder (if codec.onGpu frame then codec.onCpu frame else frame)
    if ret < 0 then .returned ret decoder (pointers.fail heap)
    else .again decoder (picture codec frame) (pointers.fail heap)

def decodeRound (codec : Codec S Packet Frame Picture) (allocs : Allocations S) (decoder : S) (pointers : Pointers)
    (heap : Heap) : RoundEnd S Picture :=
  let (frame, heap) := heap.alloc (allocs.frame decoder)
  let pointers := { pointers with frame }
  if frame = none then .returned (-12) decoder (pointers.fail heap)
  else
    let (swFrame, heap) := heap.alloc (allocs.swFrame decoder)
    let pointers := { pointers with swFrame }
    if swFrame = none then .returned (-12) decoder (pointers.fail heap)
    else
      match codec.receiveFrame decoder with
      | (.again, decoder) => .returned 0 decoder ((heap.free pointers.frame).free pointers.swFrame)
      | (.eof, decoder) => .returned 0 decoder ((heap.free pointers.frame).free pointers.swFrame)
      | (.error code, decoder) => .returned (-(code + 1 : Nat)) decoder (pointers.fail heap)
      | (.frame frame, decoder) =>
        let ret := if codec.onGpu frame then codec.hwframeTransferData decoder frame else 0
        if ret < 0 then .returned ret decoder (pointers.fail heap)
        else writeRound codec allocs decoder frame pointers heap

inductive DecodeEnd (S Picture : Type) where
  | returned (out : Decoded S Picture) (heap : Heap)
  | crashed

def heapLoop (codec : Codec S Packet Frame Picture) (allocs : Allocations S) :
    Nat → S → List Picture → Pointers → Heap → Option (DecodeEnd S Picture)
  | 0, _, _, _, _ => none
  | rounds + 1, decoder, sent, pointers, heap =>
    match decodeRound codec allocs decoder pointers heap with
    | .returned ret decoder heap => some (.returned ⟨ret, decoder, sent⟩ heap)
    | .again decoder picture heap => heapLoop codec allocs rounds decoder (sent ++ [picture]) .null heap
    | .crashed => some .crashed

/-- `decode_write` with its heap. `dst_buffer` is not initialised: it holds `stackWord`. -/
def heapDecodeWrite (codec : Codec S Packet Frame Picture) (allocs : Allocations S) (rounds : Nat) (packet : Packet)
    (decoder : S) (sent : List Picture) (stackWord : Option Nat) : Option (DecodeEnd S Picture) :=
  match codec.sendPacket decoder (some packet) with
  | (ret, decoder) =>
    if ret < 0 then some (.returned ⟨ret, decoder, sent⟩ .empty)
    else heapLoop codec allocs rounds decoder sent { Pointers.null with dstBuffer := stackWord } .empty

/-- The codec whose allocations are these. -/
def Codec.allocating (codec : Codec S Packet Frame Picture) (allocs : Allocations S) : Codec S Packet Frame Picture :=
  { codec with
    allocFrames := fun s => allocs.frame s && allocs.swFrame s
    allocBuffers := fun s => allocs.buffer s && allocs.dstBuffer s }

/-- The first round ends before it has allocated a buffer, and what it frees at `fail` is NULL or its own. -/
def LeavesEarly (codec : Codec S Packet Frame Picture) (allocs : Allocations S) (decoder : S)
    (stackWord : Option Nat) : Prop :=
  if allocs.frame decoder && allocs.swFrame decoder then
    match codec.receiveFrame decoder with
    | (.again, _) => True
    | (.eof, _) => True
    | (.error _, _) => stackWord = none
    | (.frame frame, decoder) =>
      codec.onGpu frame = true ∧ codec.hwframeTransferData decoder frame < 0 ∧ stackWord = none
  else stackWord = none

def RoundEnd.Leaves (property : Heap → Prop) : RoundEnd S Picture → Prop
  | .returned _ _ heap => property heap
  | .again _ _ heap => property heap
  | .crashed => True

/-- A heap that frees cannot bring back to balance: something was freed that was not live, or a block is live that
    none of these pointers points to. -/
def Spoiled (pointers : Pointers) (heap : Heap) : Prop :=
  heap.blocks.misused = true ∨ ∃ block, heap.Live block ∧ pointers.frame ≠ some block ∧
    pointers.swFrame ≠ some block ∧ pointers.buffer ≠ some block ∧ pointers.dstBuffer ≠ some block

theorem RoundEnd.Leaves.ite {property : Heap → Prop} {condition : Prop} [Decidable condition]
    {first second : RoundEnd S Picture} (one : first.Leaves property) (other : second.Leaves property) :
    (if condition then first else second).Leaves property := by
  split
  · exact one
  · exact other

section Heaps

variable {pointers : Pointers} {heap : Heap}

theorem Spoiled.not_balanced (spoiled : Spoiled pointers heap) : ¬ heap.Balanced := by
  intro balanced
  rcases spoiled with misused | ⟨block, live, -⟩
  · rw [balanced.clean] at misused
    cases misused
  · exact balanced.not_live block live

theorem Spoiled.allocFrame (spoiled : Spoiled pointers heap) (granted : Bool) :
    Spoiled { pointers with frame := (heap.alloc granted).1 } (heap.alloc granted).2 := by
  rcases spoiled with misused | ⟨block, live, -, swFrame, buffer, dstBuffer⟩
  · exact .inl (Heap.misused_alloc misused granted)
  · exact .inr ⟨block, live.alloc granted, live.ne_alloc granted, swFrame, buffer, dstBuffer⟩

theorem Spoiled.allocSwFrame (spoiled : Spoiled pointers heap) (granted : Bool) :
    Spoiled { pointers with swFrame := (heap.alloc granted).1 } (heap.alloc granted).2 := by
  rcases spoiled with misused | ⟨block, live, frame, -, buffer, dstBuffer⟩
  · exact .inl (Heap.misused_alloc misused granted)
  · exact .inr ⟨block, live.alloc granted, frame, live.ne_alloc granted, buffer, dstBuffer⟩

theorem Spoiled.freeFrames (spoiled : Spoiled pointers heap) :
    Spoiled { pointers with frame := none, swFrame := none } ((heap.free pointers.frame).free pointers.swFrame) := by
  rcases spoiled with misused | ⟨block, live, frame, swFrame, buffer, dstBuffer⟩
  · exact .inl (Heap.misused_free (Heap.misused_free misused _) _)
  · exact .inr ⟨block, (live.free frame).free swFrame, by simp, by simp, buffer, dstBuffer⟩

theorem Spoiled.fail (spoiled : Spoiled pointers heap) : Spoiled .null (pointers.fail heap) := by
  rcases spoiled.freeFrames with misused | ⟨block, live, -, -, buffer, dstBuffer⟩
  · exact .inl (Heap.misused_free (Heap.misused_free misused _) _)
  · exact .inr ⟨block, (live.free buffer).free dstBuffer, by simp [Pointers.null]⟩

theorem frames_freed (owns : heap.Owns (pointers.frame.toList ++ pointers.swFrame.toList)) :
    ((heap.free pointers.frame).free pointers.swFrame).Balanced := by
  apply Heap.Owns.free
  rw [List.append_nil]
  exact owns.free

/-- With no buffers yet, `fail` frees the two frames and what `dst_buffer` holds. -/
theorem fail_balanced (owns : heap.Owns (pointers.frame.toList ++ pointers.swFrame.toList))
    (unallocated : pointers.buffer = none) (null : pointers.dstBuffer = none) : (pointers.fail heap).Balanced := by
  unfold Pointers.fail
  rw [unallocated, null]
  exact frames_freed owns

theorem fail_stray (owns : heap.Owns (pointers.frame.toList ++ pointers.swFrame.toList))
    (unallocated : pointers.buffer = none) (filled : pointers.dstBuffer ≠ none) : Spoiled .null (pointers.fail heap) := by
  obtain ⟨word, holds⟩ := Option.ne_none_iff_exists'.mp filled
  unfold Pointers.fail
  rw [unallocated, holds]
  exact .inl (Heap.free_stray ((frames_freed owns).not_live word))

end Heaps

section Rounds

variable {codec : Codec S Packet Frame Picture} {allocs : Allocations S} {decoder : S} {pointers : Pointers}
  {heap : Heap}

/-- Past the first `av_malloc` the frame in `pFrameYUV` is lost, whatever else happens. -/
theorem writeRound_spoils {frame : Frame}
    (older : ∀ block, pointers.frame = some block ∨ pointers.swFrame = some block → block < heap.next) :
    (writeRound codec allocs decoder frame pointers heap).Leaves (Spoiled .null) := by
  have first := Heap.le_next_alloc (allocs.buffer decoder) heap
  generalize allocated₁ : heap.alloc (allocs.buffer decoder) = step₁ at first
  have second := Heap.le_next_alloc (allocs.yuv420pDstBuffer decoder) step₁.2
  generalize allocated₂ : step₁.2.alloc (allocs.yuv420pDstBuffer decoder) = step₂ at second
  have third := Heap.le_next_alloc (allocs.dstBuffer decoder) step₂.2
  generalize allocated₃ : step₂.2.alloc (allocs.dstBuffer decoder) = step₃ at third
  have fourth := Heap.le_next_alloc (allocs.srcBuffer decoder) step₃.2
  generalize allocated₄ : step₃.2.alloc (allocs.srcBuffer decoder) = step₄ at fourth
  generalize allocated₅ : step₄.2.alloc (allocs.pFrameYUV decoder) = step₅
  simp only [writeRound, allocated₁, allocated₂, allocated₃, allocated₄, allocated₅]
  cases leaked : step₅.1 with
  | none => trivial
  | some block =>
    have number : (step₄.2.alloc (allocs.pFrameYUV decoder)).1 = some block := by rw [allocated₅, leaked]
    have live := Heap.alloc_live number
    have place := Heap.alloc_next number
    rw [allocated₅] at live
    have spoiled : Spoiled { pointers with buffer := step₁.1, dstBuffer := step₃.1 } step₅.2 := by
      refine .inr ⟨block, live, ?_, ?_, ?_, ?_⟩
      · intro same
        have before := older block (.inl same)
        omega
      · intro same
        have before := older block (.inr same)
        omega
      · intro same
        rw [← allocated₁] at same
        have before := (Heap.alloc_live same).lt
        rw [allocated₁] at before
        omega
      · intro same
        rw [← allocated₃] at same
        have before := (Heap.alloc_live same).lt
        rw [allocated₃] at before
        omega
    simp only [reduceCtorEq, if_false]
    exact .ite spoiled.fail (.ite spoiled.fail (.ite spoiled.fail spoiled.fail))

theorem frames_older {frame swFrame : Bool} {block : Nat}
    (allocated : (heap.alloc frame).1 = some block ∨ ((heap.alloc frame).2.alloc swFrame).1 = some block) :
    block < ((heap.alloc frame).2.alloc swFrame).2.next := by
  rcases allocated with first | second
  · exact ((Heap.alloc_live first).alloc swFrame).lt
  · exact (Heap.alloc_live second).lt

theorem decodeRound_spoiled (spoiled : Spoiled .null heap) :
    (decodeRound codec allocs decoder .null heap).Leaves (Spoiled .null) := by
  have first := spoiled.allocFrame (allocs.frame decoder)
  have both := first.allocSwFrame (allocs.swFrame decoder)
  unfold decodeRound
  refine .ite first.fail (.ite both.fail ?_)
  split
  · exact both.freeFrames
  · exact both.freeFrames
  · exact both.fail
  · exact .ite both.fail (writeRound_spoils fun block => frames_older)

theorem heapLoop_spoiled {rounds : Nat} {sent : List Picture} {out : Decoded S Picture} {final : Heap}
    (spoiled : Spoiled .null heap)
    (ran : heapLoop codec allocs rounds decoder sent .null heap = some (.returned out final)) :
    Spoiled .null final := by
  induction rounds generalizing decoder sent heap with
  | zero => cases ran
  | succ rounds ih =>
    have round : (decodeRound codec allocs decoder .null heap).Leaves (Spoiled .null) := decodeRound_spoiled spoiled
    unfold heapLoop at ran
    split at ran
    · next ended =>
      rw [ended] at round
      cases ran
      exact round
    · next ended =>
      rw [ended] at round
      exact ih round ran
    · cases ran

def firstFrames (stackWord : Option Nat) : Pointers := ⟨some 0, some 1, none, stackWord⟩

def firstHeap : Heap := ((Heap.empty.alloc true).2.alloc true).2

theorem firstHeap_owns (stackWord : Option Nat) :
    firstHeap.Owns ((firstFrames stackWord).frame.toList ++ (firstFrames stackWord).swFrame.toList) :=
  (Heap.empty_balanced.alloc true).alloc true

/-- The heap and the pointers with which the first round gets to `fail` when it has not both frames. -/
theorem decodeRound_frameless (codec : Codec S Packet Frame Picture)
    (refused : (allocs.frame decoder && allocs.swFrame decoder) = false)
    (stackWord : Option Nat) :
    ∃ (pointers : Pointers) (heap : Heap),
      decodeRound codec allocs decoder { Pointers.null with dstBuffer := stackWord } .empty =
        .returned (-12) decoder (pointers.fail heap) ∧
      heap.Owns (pointers.frame.toList ++ pointers.swFrame.toList) ∧ pointers.buffer = none ∧
        pointers.dstBuffer = stackWord := by
  have owns := Heap.empty_balanced.alloc (allocs.frame decoder)
  unfold decodeRound
  cases frame : allocs.frame decoder with
  | false => exact ⟨⟨none, none, none, stackWord⟩, .empty, rfl, Heap.empty_balanced, rfl, rfl⟩
  | true =>
    have swFrame : allocs.swFrame decoder = false := by simpa [frame] using refused
    rw [frame] at owns
    rw [swFrame]
    exact ⟨⟨some 0, none, none, stackWord⟩, _, rfl, owns, rfl, rfl⟩

theorem decodeRound_framed (granted : (allocs.frame decoder && allocs.swFrame decoder) = true)
    (stackWord : Option Nat) :
    decodeRound codec allocs decoder { Pointers.null with dstBuffer := stackWord } .empty =
      match codec.receiveFrame decoder with
      | (.again, decoder) => .returned 0 decoder ((firstHeap.free (some 0)).free (some 1))
      | (.eof, decoder) => .returned 0 decoder ((firstHeap.free (some 0)).free (some 1))
      | (.error code, decoder) => .returned (-(code + 1 : Nat)) decoder ((firstFrames stackWord).fail firstHeap)
      | (.frame frame, decoder) =>
        if (if codec.onGpu frame then codec.hwframeTransferData decoder frame else 0) < 0 then
          .returned (if codec.onGpu frame then codec.hwframeTransferData decoder frame else 0) decoder
            ((firstFrames stackWord).fail firstHeap)
        else writeRound codec allocs decoder frame (firstFrames stackWord) firstHeap := by
  obtain ⟨frame, swFrame⟩ := Bool.and_eq_true_iff.mp granted
  unfold decodeRound
  rw [frame, swFrame]
  rfl

theorem decodeRound_early {stackWord : Option Nat} (early : LeavesEarly codec allocs decoder stackWord) :
    ∃ ret after heap, decodeRound codec allocs decoder { Pointers.null with dstBuffer := stackWord } .empty =
      .returned ret after heap ∧ heap.Balanced := by
  have owns := firstHeap_owns stackWord
  unfold LeavesEarly at early
  cases granted : allocs.frame decoder && allocs.swFrame decoder with
  | false =>
    simp only [granted, Bool.false_eq_true, if_false] at early
    obtain ⟨pointers, heap, ended, owns, unallocated, word⟩ := decodeRound_frameless codec granted stackWord
    exact ⟨_, _, _, ended, fail_balanced owns unallocated (word.trans early)⟩
  | true =>
    rw [decodeRound_framed granted]
    simp only [granted, if_true] at early
    split at early
    · next after answer => exact ⟨0, after, _, rfl, frames_freed owns⟩
    · next after answer => exact ⟨0, after, _, rfl, frames_freed owns⟩
    · next code after answer => exact ⟨_, after, _, rfl, fail_balanced owns rfl early⟩
    · next frame after answer =>
      obtain ⟨onGpu, failed, null⟩ := early
      refine ⟨codec.hwframeTransferData after frame, after, _, ?_, fail_balanced owns rfl null⟩
      simp only [onGpu, if_true, failed]

theorem decodeRound_late {stackWord : Option Nat} (late : ¬ LeavesEarly codec allocs decoder stackWord) :
    (decodeRound codec allocs decoder { Pointers.null with dstBuffer := stackWord } .empty).Leaves (Spoiled .null) := by
  have owns := firstHeap_owns stackWord
  unfold LeavesEarly at late
  cases granted : allocs.frame decoder && allocs.swFrame decoder with
  | false =>
    simp only [granted, Bool.false_eq_true, if_false] at late
    obtain ⟨pointers, heap, ended, owns, unallocated, word⟩ := decodeRound_frameless codec granted stackWord
    rw [ended]
    exact fail_stray owns unallocated (word.trans_ne late)
  | true =>
    rw [decodeRound_framed granted]
    simp only [granted, if_true] at late
    split at late
    · exact absurd trivial late
    · exact absurd trivial late
    · exact fail_stray owns rfl late
    · next frame after answer =>
      by_cases failed : (if codec.onGpu frame then codec.hwframeTransferData after frame else 0) < 0
      · simp only [failed, if_true]
        apply fail_stray owns rfl
        intro null
        apply late
        by_cases onGpu : codec.onGpu frame = true
        · rw [if_pos onGpu] at failed
          exact ⟨onGpu, failed, null⟩
        · rw [if_neg onGpu] at failed
          exact absurd failed (Int.lt_irrefl 0)
      · simp only [failed, if_false]
        apply writeRound_spoils
        rintro block (first | second)
        · cases first
          decide
        · cases second
          decide

end Rounds

section Refinement

variable {codec : Codec S Packet Frame Picture} {allocs : Allocations S}

theorem writeRound_refines (codec : Codec S Packet Frame Picture) (allocs : Allocations S) (decoder : S) (frame : Frame)
    (pointers : Pointers) (heap : Heap)
    (inMemory : ¬ (if codec.onGpu frame then codec.hwframeTransferData decoder frame else 0) < 0) :
    match writeRound codec allocs decoder frame pointers heap with
    | .returned ret after _ => after = decoder ∧ ret = convert (codec.allocating allocs) decoder frame ∧ ret < 0
    | .again after sent _ =>
      after = decoder ∧ sent = picture codec frame ∧ ¬ convert (codec.allocating allocs) decoder frame < 0
    | .crashed => True := by
  have converted : convert (codec.allocating allocs) decoder frame =
      if (allocs.buffer decoder && allocs.dstBuffer decoder) = false then -12
      else codec.copyToBuffer decoder (if codec.onGpu frame then codec.onCpu frame else frame) := if_neg inMemory
  rw [converted]
  simp only [writeRound, Heap.alloc_eq_none_iff]
  cases allocs.pFrameYUV decoder with
  | false => trivial
  | true =>
    cases allocs.buffer decoder with
    | false => exact ⟨rfl, rfl, by decide⟩
    | true =>
      cases allocs.dstBuffer decoder with
      | false => exact ⟨rfl, rfl, by decide⟩
      | true =>
        simp only [Bool.true_eq_false, Bool.and_true, if_false]
        by_cases failed : codec.copyToBuffer decoder (if codec.onGpu frame then codec.onCpu frame else frame) < 0
        · simp only [failed, if_true]
          exact ⟨trivial, trivial, trivial⟩
        · simp only [failed, if_false]
          exact ⟨trivial, trivial, not_false⟩

/-- A round of the loop does to decoder and pictures what it does without a heap. -/
theorem decodeRound_refines (codec : Codec S Packet Frame Picture) (allocs : Allocations S) (decoder : S)
    (pointers : Pointers) (heap : Heap) (rounds : Nat) (sent : List Picture) :
    match decodeRound codec allocs decoder pointers heap with
    | .returned ret after _ =>
      receiveLoop (codec.allocating allocs) (rounds + 1) decoder sent = some ⟨ret, after, sent⟩
    | .again after picture _ => receiveLoop (codec.allocating allocs) (rounds + 1) decoder sent =
        receiveLoop (codec.allocating allocs) rounds after (sent ++ [picture])
    | .crashed => True := by
  have refused : (codec.allocating allocs).allocFrames decoder = (allocs.frame decoder && allocs.swFrame decoder) := rfl
  rw [receiveLoop]
  simp only [decodeRound, Heap.alloc_eq_none_iff, refused]
  cases allocs.frame decoder with
  | false => rfl
  | true =>
    cases allocs.swFrame decoder with
    | false => rfl
    | true =>
      have answers : (codec.allocating allocs).receiveFrame decoder = codec.receiveFrame decoder := rfl
      simp only [answers, Bool.true_eq_false, Bool.and_true, if_false]
      cases codec.receiveFrame decoder with
      | mk received after =>
        cases received with
        | again => rfl
        | eof => rfl
        | error code => rfl
        | frame frame =>
          dsimp only
          by_cases failed : (if codec.onGpu frame then codec.hwframeTransferData after frame else 0) < 0
          · have converted : convert (codec.allocating allocs) after frame =
                (if codec.onGpu frame then codec.hwframeTransferData after frame else 0) := if_pos failed
            simp only [failed, if_true, converted]
          · simp only [failed, if_false]
            let granted := (heap.alloc true).2.alloc true
            have round := writeRound_refines codec allocs after frame
              { pointers with frame := (heap.alloc true).1, swFrame := granted.1 } granted.2 failed
            split
            · next ended =>
              rw [ended] at round
              obtain ⟨rfl, rfl, negative⟩ := round
              rw [if_pos negative]
            · next ended =>
              rw [ended] at round
              obtain ⟨rfl, rfl, converted⟩ := round
              rw [if_neg converted]
              rfl
            · trivial

theorem heapLoop_refines {rounds : Nat} {decoder : S} {sent : List Picture} {pointers : Pointers} {heap final : Heap}
    {out : Decoded S Picture}
    (ran : heapLoop codec allocs rounds decoder sent pointers heap = some (.returned out final)) :
    receiveLoop (codec.allocating allocs) rounds decoder sent = some out := by
  induction rounds generalizing decoder sent pointers heap with
  | zero => cases ran
  | succ rounds ih =>
    have round := decodeRound_refines codec allocs decoder pointers heap rounds sent
    unfold heapLoop at ran
    split at ran
    · next ended =>
      rw [ended] at round
      cases ran
      exact round
    · next ended =>
      rw [ended] at round
      exact round.trans (ih ran)
    · cases ran

/-- With its heap or without, `decode_write` returns the same and sends the same pictures. -/
theorem heapDecodeWrite_refines {rounds : Nat} {packet : Packet} {decoder : S} {sent : List Picture}
    {stackWord : Option Nat} {out : Decoded S Picture} {heap : Heap}
    (ran : heapDecodeWrite codec allocs rounds packet decoder sent stackWord = some (.returned out heap)) :
    decodeWrite (codec.allocating allocs) rounds packet decoder sent = some out := by
  have sends : (codec.allocating allocs).sendPacket decoder (some packet) = codec.sendPacket decoder (some packet) := rfl
  unfold heapDecodeWrite at ran
  unfold decodeWrite
  rw [sends]
  dsimp only at ran ⊢
  split at ran
  · next failed =>
    cases ran
    exact if_pos failed
  · next accepted => exact (if_neg accepted).trans (heapLoop_refines ran)

end Refinement

/-- Every frame and buffer has been freed once, and nothing else, exactly when the first round of the loop has no
    buffers to allocate and `dst_buffer` is NULL if it gets freed. -/
theorem decode_balanced_iff (codec : Codec S Packet Frame Picture) (allocs : Allocations S) (rounds : Nat)
    (packet : Packet) (decoder : S) (sent : List Picture) (stackWord : Option Nat) (out : Decoded S Picture)
    (heap : Heap) (ran : heapDecodeWrite codec allocs rounds packet decoder sent stackWord = some (.returned out heap)) :
    heap.Balanced ↔ (codec.sendPacket decoder (some packet)).1 < 0 ∨
      LeavesEarly codec allocs (codec.sendPacket decoder (some packet)).2 stackWord := by
  unfold heapDecodeWrite at ran
  dsimp only at ran
  split at ran
  · next failed =>
    cases ran
    exact iff_of_true Heap.empty_balanced (.inl failed)
  · next accepted =>
    cases rounds with
    | zero => cases ran
    | succ rounds =>
      unfold heapLoop at ran
      by_cases early : LeavesEarly codec allocs (codec.sendPacket decoder (some packet)).2 stackWord
      · obtain ⟨ret, after, freed, ended, balanced⟩ := decodeRound_early early
        rw [ended] at ran
        cases ran
        exact iff_of_true balanced (.inr early)
      · have spoiled : Spoiled .null heap := by
          have round := decodeRound_late early
          split at ran
          · next ended =>
            rw [ended] at round
            cases ran
            exact round
          · next ended =>
            rw [ended] at round
            exact heapLoop_spoiled round ran
          · cases ran
        exact iff_of_false spoiled.not_balanced (by simp [accepted, early])

def allGranted (S : Type) : Allocations S :=
  ⟨fun _ => true, fun _ => true, fun _ => true, fun _ => true, fun _ => true, fun _ => true, fun _ => true⟩

/-- A decoder that holds its only frame back. -/
theorem held_frame_balanced : ∃ out heap,
    heapDecodeWrite (reorderCodec 1) (allGranted _) 1 7 (.empty 1) [] none = some (.returned out heap) ∧
      heap.Balanced := by
  have ran : heapDecodeWrite (reorderCodec 1) (allGranted _) 1 7 (.empty 1) [] none =
      some (.returned ⟨0, ⟨[7], 0, false, by decide⟩, []⟩ ((firstHeap.free (some 0)).free (some 1))) := rfl
  exact ⟨_, _, ran, (decode_balanced_iff _ _ _ _ _ _ _ _ _ ran).mpr (.inr trivial)⟩

/-- One frame, and all calls succeed: three blocks are never freed. -/
theorem one_frame_leaks : ∃ out heap,
    heapDecodeWrite (reorderCodec 0) (allGranted _) 2 7 (.empty 0) [] none = some (.returned out heap) ∧
      heap.Live 3 ∧ heap.Live 5 ∧ heap.Live 6 ∧ ¬ heap.Balanced :=
  ⟨_, _, rfl, rfl, rfl, rfl, fun balanced => balanced.not_live 3 rfl⟩

end CigCard.Video
