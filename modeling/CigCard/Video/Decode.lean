import Mathlib.Data.List.Basic
import Mathlib.Data.List.Infix

namespace CigCard.Video

inductive Received (Frame : Type) where
  | frame (frame : Frame)
  | again
  | eof
  | error (code : Nat)

/-- What the code uses of FFmpeg, over a decoder with states `S`. A NULL packet is `none`. -/
structure Codec (S Packet Frame Picture : Type) where
  sendPacket : S → Option Packet → Int × S
  allocFrames : S → Bool
  receiveFrame : S → Received Frame × S
  onGpu : Frame → Bool
  hwframeTransferData : S → Frame → Int
  onCpu : Frame → Frame
  allocBuffers : S → Bool
  copyToBuffer : S → Frame → Int
  scaleFrame : Frame → Picture

variable {S Packet Frame Picture : Type}

def picture (codec : Codec S Packet Frame Picture) (frame : Frame) : Picture :=
  codec.scaleFrame (if codec.onGpu frame then codec.onCpu frame else frame)

def convert (codec : Codec S Packet Frame Picture) (decoder : S) (frame : Frame) : Int :=
  let transferred := if codec.onGpu frame then codec.hwframeTransferData decoder frame else 0
  if transferred < 0 then transferred
  else if codec.allocBuffers decoder = false then -12
  else codec.copyToBuffer decoder (if codec.onGpu frame then codec.onCpu frame else frame)

structure Decoded (S Picture : Type) where
  ret : Int
  decoder : S
  sent : List Picture

/-- The `while (1)` of `decode_write`, for some rounds; nothing when it is still in it. -/
def receiveLoop (codec : Codec S Packet Frame Picture) : Nat → S → List Picture → Option (Decoded S Picture)
  | 0, _, _ => none
  | rounds + 1, decoder, sent =>
    if codec.allocFrames decoder = false then some ⟨-12, decoder, sent⟩
    else match codec.receiveFrame decoder with
      | (.again, decoder) => some ⟨0, decoder, sent⟩
      | (.eof, decoder) => some ⟨0, decoder, sent⟩
      | (.error code, decoder) => some ⟨-(code + 1 : Nat), decoder, sent⟩
      | (.frame frame, decoder) =>
        if convert codec decoder frame < 0 then some ⟨convert codec decoder frame, decoder, sent⟩
        else receiveLoop codec rounds decoder (sent ++ [picture codec frame])

def decodeWrite (codec : Codec S Packet Frame Picture) (rounds : Nat) (packet : Packet) (decoder : S)
    (sent : List Picture) : Option (Decoded S Picture) :=
  match codec.sendPacket decoder (some packet) with
  | (ret, decoder) => if ret < 0 then some ⟨ret, decoder, sent⟩ else receiveLoop codec rounds decoder sent

/-- The packet loop of `video_decode`, which ends where `av_read_frame` has no more packets. The list at
    the end holds what `decode_write` has returned; the code does not look at it. -/
def readLoop (codec : Codec S Packet Frame Picture) (rounds videoIndex : Nat) :
    List (Nat × Packet) → S → List Picture → List Int → Option (Decoded S Picture × List Int)
  | [], decoder, sent, rets => some (⟨0, decoder, sent⟩, rets)
  | (streamIndex, packet) :: packets, decoder, sent, rets =>
    if streamIndex = videoIndex then
      match decodeWrite codec rounds packet decoder sent with
      | none => none
      | some done => readLoop codec rounds videoIndex packets done.decoder done.sent (rets ++ [done.ret])
    else readLoop codec rounds videoIndex packets decoder sent rets

def videoDecode (codec : Codec S Packet Frame Picture) (rounds videoIndex : Nat)
    (file : Option (List (Nat × Packet))) (decoder : S) : Option (Decoded S Picture × List Int) :=
  match file with
  | none => some (⟨-1, decoder, []⟩, [])
  | some packets => readLoop codec rounds videoIndex packets decoder [] []

def videoPackets (videoIndex : Nat) (packets : List (Nat × Packet)) : List Packet :=
  (packets.filter fun packet => packet.1 = videoIndex).map Prod.snd

/-- The send and receive contract. `output` are the frames of a stream in output order and `released`
    those that the decoder gives out for these packets before it is flushed. -/
structure Contract (codec : Codec S Packet Frame Picture) (delay : Nat) where
  output : List Packet → List Frame
  released : List Packet → List Frame
  taken : S → List Packet
  given : S → List Frame
  flushed : S → Bool
  idle : released [] = []
  held : ∀ packets, released packets <+: output packets
  delayed : ∀ packets, (output packets).length ≤ (released packets).length + delay
  within : ∀ s, flushed s = false → given s <+: released (taken s)
  accepts : ∀ s packet, 0 ≤ (codec.sendPacket s (some packet)).1 →
    taken (codec.sendPacket s (some packet)).2 = taken s ++ [packet] ∧
      given (codec.sendPacket s (some packet)).2 = given s
  unflushed : ∀ s packet, flushed (codec.sendPacket s (some packet)).2 = flushed s
  flushes : ∀ s, 0 ≤ (codec.sendPacket s none).1 → flushed (codec.sendPacket s none).2 = true
  receives : ∀ s, taken (codec.receiveFrame s).2 = taken s ∧ flushed (codec.receiveFrame s).2 = flushed s
  gives : ∀ s frame, (codec.receiveFrame s).1 = .frame frame → given (codec.receiveFrame s).2 = given s ++ [frame]
  waits : ∀ s, (codec.receiveFrame s).1 = .again →
    given (codec.receiveFrame s).2 = given s ∧ given s = released (taken s)
  ends : ∀ s, (codec.receiveFrame s).1 = .eof → flushed s = true ∧ given s = output (taken s)

section
variable {codec : Codec S Packet Frame Picture} {delay : Nat}

theorem receiveLoop_sends (contract : Contract codec delay) (rounds : Nat) (decoder : S) (sent : List Picture)
    (out : Decoded S Picture) (ran : receiveLoop codec rounds decoder sent = some out) (clean : 0 ≤ out.ret)
    (unflushed : contract.flushed decoder = false) (before : sent = (contract.given decoder).map (picture codec)) :
    contract.flushed out.decoder = false ∧ contract.taken out.decoder = contract.taken decoder ∧
      contract.given out.decoder = contract.released (contract.taken decoder) ∧
      out.sent = (contract.given out.decoder).map (picture codec) := by
  induction rounds generalizing decoder sent with
  | zero => cases ran
  | succ rounds ih =>
    have received := contract.receives decoder
    have waits := contract.waits decoder
    have ends := contract.ends decoder
    have gives := contract.gives decoder
    unfold receiveLoop at ran
    split at ran
    · cases ran
      exact absurd clean (by simp)
    · split at ran
      · next after answer =>
        rw [answer] at received waits
        obtain ⟨same, all⟩ := waits rfl
        cases ran
        refine ⟨received.2.trans unflushed, received.1, same.trans all, ?_⟩
        rw [before, same]
      · next after answer =>
        rw [answer] at ends
        exact absurd (ends rfl).1 (by simp [unflushed])
      · cases ran
        exact absurd clean (by intro positive; simp only at positive; omega)
      · next frame after answer =>
        rw [answer] at received gives
        split at ran
        · next failed =>
          cases ran
          exact absurd clean (Int.not_le.mpr failed)
        · have next := ih after _ ran (received.2.trans unflushed) (by rw [gives frame rfl, before]; simp)
          rwa [received.1] at next

theorem decodeWrite_sends (contract : Contract codec delay) (rounds : Nat) (packet : Packet) (decoder : S)
    (sent : List Picture) (out : Decoded S Picture) (ran : decodeWrite codec rounds packet decoder sent = some out)
    (clean : 0 ≤ out.ret) (unflushed : contract.flushed decoder = false)
    (before : sent = (contract.given decoder).map (picture codec)) :
    contract.flushed out.decoder = false ∧ contract.taken out.decoder = contract.taken decoder ++ [packet] ∧
      contract.given out.decoder = contract.released (contract.taken out.decoder) ∧
      out.sent = (contract.given out.decoder).map (picture codec) := by
  have accepts := contract.accepts decoder packet
  have still := contract.unflushed decoder packet
  unfold decodeWrite at ran
  dsimp only at ran
  split at ran
  · next failed =>
    cases ran
    exact absurd clean (Int.not_le.mpr failed)
  · next accepted =>
    obtain ⟨taken, given⟩ := accepts (Int.not_lt.mp accepted)
    obtain ⟨flushed, same, released, sends⟩ :=
      receiveLoop_sends contract rounds _ sent out ran clean (still.trans unflushed) (by rw [given, before])
    exact ⟨flushed, same.trans taken, by rw [released, same], sends⟩

theorem readLoop_rets (rounds videoIndex : Nat) (packets : List (Nat × Packet)) (decoder : S)
    (sent : List Picture) (rets : List Int) (out : Decoded S Picture) (all : List Int)
    (ran : readLoop codec rounds videoIndex packets decoder sent rets = some (out, all)) : rets <+: all := by
  induction packets generalizing decoder sent rets with
  | nil =>
    cases ran
    exact List.prefix_refl _
  | cons first packets ih =>
    unfold readLoop at ran
    split at ran
    · split at ran
      · cases ran
      · exact (List.prefix_append _ _).trans (ih _ _ _ ran)
    · exact ih _ _ _ ran

/-- Whatever the streams of the file, the frames that have been sent are those that the decoder has
    released for the video packets. -/
theorem readLoop_sends (contract : Contract codec delay) (rounds videoIndex : Nat) (packets : List (Nat × Packet))
    (decoder : S) (sent : List Picture) (rets : List Int) (out : Decoded S Picture) (all : List Int)
    (ran : readLoop codec rounds videoIndex packets decoder sent rets = some (out, all))
    (clean : ∀ ret ∈ all, 0 ≤ ret) (unflushed : contract.flushed decoder = false)
    (released : contract.given decoder = contract.released (contract.taken decoder))
    (before : sent = (contract.given decoder).map (picture codec)) :
    out.sent =
      (contract.released (contract.taken decoder ++ videoPackets videoIndex packets)).map (picture codec) := by
  induction packets generalizing decoder sent rets with
  | nil =>
    cases ran
    rw [before, released]
    simp [videoPackets]
  | cons first packets ih =>
    obtain ⟨streamIndex, packet⟩ := first
    unfold readLoop at ran
    by_cases video : streamIndex = videoIndex
    · rw [if_pos video] at ran
      have listed : videoPackets videoIndex ((streamIndex, packet) :: packets) =
          packet :: videoPackets videoIndex packets := by simp [videoPackets, video]
      cases written : decodeWrite codec rounds packet decoder sent with
      | none => simp [written] at ran
      | some done =>
        rw [written] at ran
        have logged := (readLoop_rets rounds videoIndex packets _ _ _ out all ran).subset
        have fine := clean done.ret (logged (by simp))
        obtain ⟨flushed, taken, given, sends⟩ :=
          decodeWrite_sends contract rounds packet decoder sent done written fine unflushed before
        have rest := ih done.decoder done.sent _ ran flushed given sends
        rw [rest, taken, listed, List.append_assoc, List.singleton_append]
    · rw [if_neg video] at ran
      have listed : videoPackets videoIndex ((streamIndex, packet) :: packets) = videoPackets videoIndex packets := by
        simp [videoPackets, video]
      rw [listed]
      exact ih decoder sent rets ran unflushed released before

/-- `send_one_frame` is called once for every frame of the stream exactly when the decoder holds none back
    after the last packet: it is never flushed. -/
theorem every_frame_sent_iff (contract : Contract codec delay) (rounds videoIndex : Nat)
    (packets : List (Nat × Packet)) (decoder : S) (out : Decoded S Picture) (rets : List Int)
    (ran : videoDecode codec rounds videoIndex (some packets) decoder = some (out, rets))
    (clean : ∀ ret ∈ rets, 0 ≤ ret)
    (fresh : contract.taken decoder = [] ∧ contract.given decoder = [] ∧ contract.flushed decoder = false) :
    out.sent = (contract.output (videoPackets videoIndex packets)).map (picture codec) ↔
      contract.released (videoPackets videoIndex packets) = contract.output (videoPackets videoIndex packets) := by
  obtain ⟨untaken, ungiven, unflushed⟩ := fresh
  have sends := readLoop_sends contract rounds videoIndex packets decoder [] [] out rets ran clean unflushed
    (by rw [untaken, ungiven, contract.idle]) (by rw [ungiven]; rfl)
  rw [untaken, List.nil_append] at sends
  rw [sends]
  constructor
  · intro same
    have lengths := congrArg List.length same
    rw [List.length_map, List.length_map] at lengths
    exact (contract.held _).eq_of_length lengths
  · intro same
    rw [same]

theorem receiveLoop_more (rounds more : Nat) (decoder : S) (sent : List Picture) (out : Decoded S Picture)
    (ran : receiveLoop codec rounds decoder sent = some out) :
    receiveLoop codec (rounds + more) decoder sent = some out := by
  induction rounds generalizing decoder sent with
  | zero => cases ran
  | succ rounds ih =>
    rw [Nat.succ_add]
    unfold receiveLoop at ran ⊢
    split at ran
    · next failed => rw [if_pos failed, ran]
    · next allocated =>
      rw [if_neg allocated]
      split at ran
      · next after answer => simpa [answer] using ran
      · next after answer => simpa [answer] using ran
      · next code after answer => simpa [answer] using ran
      · next frame after answer =>
        split at ran
        · next failed => simpa [failed] using ran
        · next converted => simpa [converted] using ih _ _ ran

/-- The decoder has only so many frames to give, so the loop ends, if only with an error. -/
theorem receiveLoop_returns (contract : Contract codec delay) (decoder : S) (sent : List Picture)
    (unflushed : contract.flushed decoder = false) :
    ∃ rounds out, receiveLoop codec rounds decoder sent = some out ∧ contract.flushed out.decoder = false := by
  induction left : (contract.released (contract.taken decoder)).length - (contract.given decoder).length
    using Nat.strong_induction_on generalizing decoder sent with
  | _ remaining ih =>
    obtain ⟨taken, kept⟩ := contract.receives decoder
    rw [unflushed] at kept
    by_cases allocated : codec.allocFrames decoder = false
    · exact ⟨1, ⟨-12, decoder, sent⟩, by rw [receiveLoop, if_pos allocated], unflushed⟩
    · cases answer : codec.receiveFrame decoder with
      | mk received after =>
        rw [answer] at taken kept
        cases received with
        | again => exact ⟨1, ⟨0, after, sent⟩, by simp [receiveLoop, allocated, answer], kept⟩
        | eof => exact ⟨1, ⟨0, after, sent⟩, by simp [receiveLoop, allocated, answer], kept⟩
        | error code =>
          exact ⟨1, ⟨-(code + 1 : Nat), after, sent⟩, by simp [receiveLoop, allocated, answer], kept⟩
        | frame frame =>
          by_cases failed : convert codec after frame < 0
          · exact ⟨1, ⟨convert codec after frame, after, sent⟩, by simp [receiveLoop, allocated, answer, failed], kept⟩
          · have gives := contract.gives decoder frame (by rw [answer])
            rw [answer] at gives
            have longer := (contract.within after kept).length_le
            rw [taken, gives, List.length_append, List.length_singleton] at longer
            have fewer : (contract.released (contract.taken after)).length - (contract.given after).length < remaining := by
              rw [taken, gives, List.length_append, List.length_singleton]
              omega
            obtain ⟨rounds, out, ran, still⟩ := ih _ fewer after (sent ++ [picture codec frame]) kept rfl
            exact ⟨rounds + 1, out, by simpa [receiveLoop, allocated, answer, failed] using ran, still⟩

theorem decodeWrite_returns (contract : Contract codec delay) (packet : Packet) (decoder : S)
    (sent : List Picture) (unflushed : contract.flushed decoder = false) :
    ∃ rounds out, (∀ more, decodeWrite codec (rounds + more) packet decoder sent = some out) ∧
      contract.flushed out.decoder = false := by
  have still := contract.unflushed decoder packet
  rw [unflushed] at still
  by_cases failed : (codec.sendPacket decoder (some packet)).1 < 0
  · exact ⟨0, ⟨_, _, sent⟩, fun more => if_pos failed, still⟩
  · obtain ⟨rounds, out, ran, kept⟩ := receiveLoop_returns contract _ sent still
    refine ⟨rounds, out, fun more => ?_, kept⟩
    exact (if_neg failed).trans (receiveLoop_more rounds more _ sent out ran)

theorem readLoop_returns (contract : Contract codec delay) (videoIndex : Nat) (packets : List (Nat × Packet))
    (decoder : S) (sent : List Picture) (rets : List Int) (unflushed : contract.flushed decoder = false) :
    ∃ rounds out, ∀ more, readLoop codec (rounds + more) videoIndex packets decoder sent rets = some out := by
  induction packets generalizing decoder sent rets with
  | nil => exact ⟨0, _, fun _ => rfl⟩
  | cons first packets ih =>
    obtain ⟨streamIndex, packet⟩ := first
    by_cases video : streamIndex = videoIndex
    · obtain ⟨rounds, done, wrote, kept⟩ := decodeWrite_returns contract packet decoder sent unflushed
      obtain ⟨later, out, rest⟩ := ih done.decoder done.sent (rets ++ [done.ret]) kept
      refine ⟨rounds + later, out, fun more => ?_⟩
      have written := wrote (later + more)
      have ended := rest (rounds + more)
      rw [← Nat.add_assoc] at written
      rw [show later + (rounds + more) = rounds + later + more by omega] at ended
      rw [readLoop, if_pos video, written]
      exact ended
    · obtain ⟨rounds, out, rest⟩ := ih decoder sent rets unflushed
      exact ⟨rounds, out, fun more => (if_neg video).trans (rest more)⟩

end

/-- A decoder that makes one frame of each packet and holds back the last `delay` of them. -/
structure Reorder (delay : Nat) where
  packets : List Nat
  count : Nat
  flushed : Bool
  bound : count ≤ packets.length - (if flushed then 0 else delay)

def Reorder.empty (delay : Nat) : Reorder delay := ⟨[], 0, false, Nat.zero_le _⟩

theorem Reorder.held_le {delay : Nat} (decoder : Reorder delay) : decoder.count ≤ decoder.packets.length :=
  decoder.bound.trans (Nat.sub_le _ _)

theorem Reorder.bound_append {delay : Nat} (decoder : Reorder delay) (packet : Nat) :
    decoder.count ≤ (decoder.packets ++ [packet]).length - (if decoder.flushed then 0 else delay) := by
  have bound := decoder.bound
  rw [List.length_append, List.length_singleton]
  omega

def Reorder.send {delay : Nat} (decoder : Reorder delay) : Option Nat → Int × Reorder delay
  | none => (0, { decoder with
      flushed := true
      bound := decoder.held_le })
  | some packet => (0, { decoder with
      packets := decoder.packets ++ [packet]
      bound := decoder.bound_append packet })

def Reorder.receive {delay : Nat} (decoder : Reorder delay) : Received Nat × Reorder delay :=
  if more : decoder.count < decoder.packets.length - (if decoder.flushed then 0 else delay) then
    (.frame (decoder.packets.getD decoder.count 0), { decoder with count := decoder.count + 1, bound := more })
  else (if decoder.flushed then .eof else .again, decoder)

def reorderCodec (delay : Nat) : Codec (Reorder delay) Nat Nat Nat where
  sendPacket := Reorder.send
  allocFrames _ := true
  receiveFrame := Reorder.receive
  onGpu _ := true
  hwframeTransferData _ _ := 0
  onCpu frame := frame
  allocBuffers _ := true
  copyToBuffer _ _ := 0
  scaleFrame frame := frame

namespace Reorder

variable {delay : Nat} {decoder : Reorder delay}

theorem receive_more (more : decoder.count < decoder.packets.length - (if decoder.flushed then 0 else delay)) :
    decoder.receive = (.frame (decoder.packets.getD decoder.count 0),
      { decoder with count := decoder.count + 1, bound := more }) := dif_pos more

theorem receive_done (done : ¬ decoder.count < decoder.packets.length - (if decoder.flushed then 0 else delay)) :
    decoder.receive = (if decoder.flushed then .eof else .again, decoder) := dif_neg done

theorem receive_keeps (decoder : Reorder delay) :
    decoder.receive.2.packets = decoder.packets ∧ decoder.receive.2.flushed = decoder.flushed := by
  by_cases more : decoder.count < decoder.packets.length - (if decoder.flushed then 0 else delay)
  · rw [receive_more more]
    exact ⟨rfl, rfl⟩
  · rw [receive_done more]
    exact ⟨rfl, rfl⟩

theorem receive_gives {frame : Nat} (answer : decoder.receive.1 = .frame frame) :
    decoder.receive.2.packets.take decoder.receive.2.count = decoder.packets.take decoder.count ++ [frame] := by
  by_cases more : decoder.count < decoder.packets.length - (if decoder.flushed then 0 else delay)
  · rw [receive_more more] at answer ⊢
    have inside : decoder.count < decoder.packets.length := by omega
    simp only [Received.frame.injEq] at answer
    simp only [List.take_add_one, List.getElem?_eq_getElem inside, Option.toList_some]
    rw [← answer, List.getD_eq_getElem?_getD, List.getElem?_eq_getElem inside, Option.getD_some]
  · rw [receive_done more] at answer
    split at answer <;> cases answer

theorem receive_stops (decoder : Reorder delay) (silent : ∀ frame, decoder.receive.1 ≠ .frame frame) :
    decoder.receive = (if decoder.flushed then .eof else .again, decoder) ∧
      decoder.count = decoder.packets.length - (if decoder.flushed then 0 else delay) := by
  by_cases more : decoder.count < decoder.packets.length - (if decoder.flushed then 0 else delay)
  · rw [receive_more more] at silent
    exact absurd rfl (silent _)
  · have bound := decoder.bound
    exact ⟨receive_done more, by omega⟩

end Reorder

def reorderContract (delay : Nat) : Contract (reorderCodec delay) delay where
  output packets := packets
  released packets := packets.take (packets.length - delay)
  taken decoder := decoder.packets
  given decoder := decoder.packets.take decoder.count
  flushed := Reorder.flushed
  idle := List.take_nil
  held packets := List.take_prefix _ _
  delayed packets := by
    rw [List.length_take]
    omega
  within s unflushed := by
    have bound := s.bound
    rw [unflushed] at bound
    exact List.take_prefix_take_left bound
  accepts s packet _ := by
    have bound : s.count ≤ s.packets.length := s.bound.trans (Nat.sub_le _ _)
    exact ⟨rfl, List.take_append_of_le_length bound⟩
  unflushed _ _ := rfl
  flushes _ _ := rfl
  receives := Reorder.receive_keeps
  gives _ _ answer := Reorder.receive_gives answer
  waits s answer := by
    have waiting : s.receive.1 = .again := answer
    obtain ⟨stopped, all⟩ := Reorder.receive_stops s (by simp [waiting])
    cases flushed : s.flushed with
    | true => simp [stopped, flushed] at waiting
    | false =>
      rw [flushed] at all
      constructor
      · change s.receive.2.packets.take s.receive.2.count = _
        rw [stopped]
      · rw [all]
        rfl
  ends s answer := by
    have ended : s.receive.1 = .eof := answer
    obtain ⟨stopped, all⟩ := Reorder.receive_stops s (by simp [ended])
    cases flushed : s.flushed with
    | true =>
      rw [flushed] at all
      refine ⟨rfl, ?_⟩
      rw [all]
      exact List.take_length
    | false => simp [stopped, flushed] at ended

theorem undelayed_sends_all : videoDecode (reorderCodec 0) 3 0 (some [(0, 7), (1, 9), (0, 8)]) (.empty 0) =
      some (⟨0, ⟨[7, 8], 2, false, by decide⟩, [7, 8]⟩, [0, 0]) ∧
    ([7, 8] : List Nat) = ((reorderContract 0).output (videoPackets 0 [(0, 7), (1, 9), (0, 8)])).map
      (picture (reorderCodec 0)) := by
  have ran : videoDecode (reorderCodec 0) 3 0 (some [(0, 7), (1, 9), (0, 8)]) (.empty 0) =
      some (⟨0, ⟨[7, 8], 2, false, by decide⟩, [7, 8]⟩, [0, 0]) := rfl
  exact ⟨ran, (every_frame_sent_iff (reorderContract 0) 3 0 _ _ _ _ ran (by decide) ⟨rfl, rfl, rfl⟩).mpr rfl⟩

/-- A stream of one frame, and a decoder that holds one back: nothing is sent. -/
theorem held_frame_lost : videoDecode (reorderCodec 1) 2 0 (some [(0, 7)]) (.empty 1) =
      some (⟨0, ⟨[7], 0, false, by decide⟩, []⟩, [0]) ∧
    ([] : List Nat) ≠ ((reorderContract 1).output (videoPackets 0 [(0, 7)])).map (picture (reorderCodec 1)) :=
  ⟨rfl, by decide⟩

end CigCard.Video
