import Wsac.Service.Turn
import Wsac.Codec
import Wsac.Library.Framing

/-! # Which headers the service reads from a stream of signed frames

Every handler skips its body, but a skip asks the pipe for a whole buffer.  The
session stays in step with the stream as long as no piece that it is handed
inside a body reaches over the end of that body. -/

set_option autoImplicit false

namespace Wsac.Service

open Library Library.Exec

structure SignedFrame (cfg : Config) where
  header : FrameHeader
  body : List UInt8
  signed : header.validate cfg = true
  sized : header.dataSize.toInt = body.length

namespace SignedFrame

variable {cfg : Config}

def bytes (frame : SignedFrame cfg) : List UInt8 :=
  cfg.preamble.toList ++ (frame.header.encode.toList ++ frame.body)

def head (place : Nat × SignedFrame cfg) : Nat × FrameHeader × Bool :=
  (place.1 + 6, place.2.header, true)

def entry (place : Nat × SignedFrame cfg) : Nat × FrameHeader := (place.1 + 6, place.2.header)

@[simp] theorem bytes_length (frame : SignedFrame cfg) :
    frame.bytes.length = 44 + frame.body.length := by
  simp [bytes]
  omega

theorem stream_length (frame : SignedFrame cfg) (rest : List (SignedFrame cfg)) :
    (stream bytes (frame :: rest)).length =
      44 + frame.body.length + (stream bytes rest).length := by
  rw [stream_cons, List.length_append, bytes_length]

end SignedFrame

def headsOf {cfg : Config} (start : Nat) (frames : List (SignedFrame cfg)) :
    List (Nat × FrameHeader × Bool) :=
  (places SignedFrame.bytes start frames).map SignedFrame.head

def entriesOf {cfg : Config} (start : Nat) (frames : List (SignedFrame cfg)) :
    List (Nat × FrameHeader) :=
  (places SignedFrame.bytes start frames).map SignedFrame.entry

/-- The pieces handed out from the start of a body on meet its end. -/
def BodyInPieces {cfg : Config} (client : Client) (place : Nat × SignedFrame cfg) : Prop :=
  Pieces client (client.rented (place.1 + 44)) (place.1 + 44) (place.1 + place.2.bytes.length)

section Calm
variable (client : Client) (calm : client.cancelAt = none)
include calm

/-! ## Reads with any budget -/

omit calm in
theorem charge_any (size : Int64) (world : World) : ∃ reader,
    (PipeReader.charge size).run world = .ok () (world.move world.position reader) ∨
      (PipeReader.charge size).run world =
        .error .application (world.move world.position reader) := by
  refine ⟨(world.reader.shrinkAvailable size).1, ?_⟩
  rw [PipeReader.charge, run_get_bind]
  cases within : (world.reader.shrinkAvailable size).2 with
  | true => left; simp only [within]; rfl
  | false => right; simp only [within]; rfl

theorem read_any (size : Nat) (world : World) (onWire : world.position ≤ client.wire.length) :
    (∃ filled reader, (PipeReader.read client size).run world =
        .ok filled (world.move (world.position + size) reader) ∧
      world.position + size ≤ client.wire.length) ∨
    ∃ failure position reader, (PipeReader.read client size).run world =
      .error failure (world.move position reader) := by
  obtain ⟨reader, charged | refused⟩ := charge_any (Int64.ofNat size) world
  · by_cases enough : world.position + size ≤ client.wire.length
    · obtain ⟨filled, ran, _⟩ := PipeStream.read_run client calm size
        (world.move world.position reader) enough
      refine Or.inl ⟨filled, reader, ?_, enough⟩
      unfold PipeReader.read
      rw [run_bind_ok charged, ran]
      rfl
    · obtain ⟨failure, position, ran⟩ := PipeStream.read_short client calm size
        (world.move world.position reader) onWire (by simp only [move_position]; omega)
      refine Or.inr ⟨failure, position, reader, ?_⟩
      unfold PipeReader.read
      rw [run_bind_ok charged, ran]
      rfl
  · exact Or.inr ⟨.application, world.position, reader, run_bind_error refused⟩

namespace FrameSession

/-- A batch takes its bytes off the wire or fails; either way it logs nothing. -/
theorem receiveBatch_any (cfg : Config) (left : Nat) :
    ∀ (preamble : Bytes 6) (found : Bool) (world : World),
      world.position ≤ client.wire.length →
      (∃ result reader, (receiveBatch cfg client left preamble found).run world =
          .ok result (world.move (world.position + left) reader) ∧
        world.position + left ≤ client.wire.length) ∨
      ∃ failure position reader, (receiveBatch cfg client left preamble found).run world =
        .error failure (world.move position reader) := by
  induction left with
  | zero =>
      intro preamble found world onWire
      exact Or.inl ⟨(preamble, found), world.reader, rfl, onWire⟩
  | succ left ih =>
      intro preamble found world onWire
      rcases read_any client calm 1 world onWire with
        ⟨byte, reader, ran, enough⟩ | ⟨failure, position, reader, ran⟩
      · have pushed : (receivePreamble cfg client preamble).run world =
            .ok (Preamble.push preamble byte.head, Preamble.push preamble byte.head == cfg.preamble)
              (world.move (world.position + 1) reader) := by
          unfold receivePreamble
          rw [run_bind_ok ran]
          rfl
        unfold receiveBatch
        rw [run_bind_ok pushed]
        rcases ih (Preamble.push preamble byte.head)
            (found || (Preamble.push preamble byte.head == cfg.preamble))
            (world.move (world.position + 1) reader) enough with
          ⟨result, reader', rest, enough'⟩ | ⟨failure, position, reader', rest⟩
        · simp only [move_position, move_move] at rest enough'
          have place : world.position + 1 + left = world.position + (left + 1) := by omega
          rw [place] at rest enough'
          exact Or.inl ⟨result, reader', rest, enough'⟩
        · exact Or.inr ⟨failure, position, reader', rest⟩
      · refine Or.inr ⟨failure, position, reader, ?_⟩
        unfold receiveBatch receivePreamble
        rw [bind_assoc, run_bind_error ran]

/-- No header is read before a batch of six bytes has been. -/
theorem runLoop_heads_beyond (asm : Assembly) (turns : Nat) (preamble : Bytes 6) (world : World)
    (onWire : world.position ≤ client.wire.length) :
    ∃ new, (finalState ((runLoop asm client turns preamble).run world)).heads =
        world.heads ++ new ∧ ∀ head ∈ new, world.position + 6 ≤ head.1 := by
  cases turns with
  | zero => exact ⟨[], (List.append_nil _).symm, by simp⟩
  | succ turns =>
      rw [runLoop, run_bind_ok (cancellationRequested_run client calm world)]
      simp only [Bool.false_eq_true, if_false, turn, bind_assoc]
      rcases receiveBatch_any client calm asm.toConfig 6 preamble false world onWire with
        ⟨⟨pushed, found⟩, reader, ran, enough⟩ | ⟨failure, position, reader, ran⟩
      · rw [run_bind_ok ran]
        have onward : Moves (Later (world.position + 6)) ((if found = false then pure pushed
            else receiveFrame asm client >>= fun _ => pure pushed) >>=
              fun preamble => runLoop asm client turns preamble) := by
          apply bind_later
          · apply Moves.ite (pure_later _)
            apply bind_later (receiveFrame_later client _ asm)
            intro _
            exact pure_later _
          · intro preamble
            exact runLoop_later client _ asm turns preamble
        obtain ⟨_, new, log, places⟩ := onward (world.move (world.position + 6) reader)
          (Nat.le_refl _)
        refine ⟨new.filterMap Event.head?, ?_, ?_⟩
        · unfold World.heads
          rw [log, List.filterMap_append]
          rfl
        · intro head member
          obtain ⟨event, inside, named⟩ := List.mem_filterMap.mp member
          apply places event inside
          cases event with
          | checked offset header passed =>
              cases named
              rfl
          | received offset => cases named
          | entered offset header => cases named
          | packet => cases named
          | state value => cases named
          | wrote header => cases named
      · rw [run_bind_error ran]
        exact ⟨[], (List.append_nil _).symm, by simp⟩

section
variable (asm : Assembly) (up : client.brokenAt = none)
include up

/-- In front of a frame the next batch is its preamble, and the frame is handled. -/
theorem runLoop_frame (turns : Nat) (preamble : Bytes 6) (world : World)
    (frame : SignedFrame asm.toConfig) (rest : List (SignedFrame asm.toConfig))
    (ahead : client.wire.drop world.position = stream SignedFrame.bytes (frame :: rest))
    (funded : Funded (2 ^ 63 - 1) world) (short : client.wire.length < 2 ^ 63) :
    ∃ (pushed : Bytes 6) (after : World) (last : Nat),
      (runLoop asm client (turns + 1) preamble).run world =
        (runLoop asm client turns pushed).run after ∧
      after.position = last ∧
      after.reader =
        PipeReader.holding (2 ^ 63 - 1 - (world.position + frame.bytes.length : Nat)) ∧
      Lands client (world.position + 44) (world.position + frame.bytes.length) last ∧
      Settles asm.toConfig world after (world.position + 6) (frame.header, true)
        [(world.position + 6, frame.header)]
        (react asm world.state (.frame frame.header.signature)) := by
  have six : asm.preamble.toList.length = 6 := List.Vector.toList_length _
  have total : client.wire.length - world.position =
      44 + frame.body.length + (stream SignedFrame.bytes rest).length := by
    rw [← List.length_drop, ahead, SignedFrame.stream_length]
  have size := frame.bytes_length
  obtain ⟨pushed, _, _, onHit⟩ := runLoop_batch client calm asm (2 ^ 63 - 1)
    PipeReader.new_limited turns preamble world funded (by omega) (by omega)
  have hit : Hit asm.preamble.toList (preamble.toList ++ client.wire.drop world.position) := by
    apply hit_of_prefix
    rw [ahead, stream_cons, SignedFrame.bytes, List.append_assoc]
    exact List.prefix_append _ _
  have content : frame.header.encode.toList =
      (client.wire.drop (world.position + 6)).take 38 := by
    rw [← List.drop_drop, ahead, stream_cons, SignedFrame.bytes, List.append_assoc,
      List.drop_left' six, List.append_assoc, List.take_left' (List.Vector.toList_length _)]
  have decoded : FrameHeader.decode frame.header.encode = frame.header :=
    Codec.service_decode_encode frame.header
  obtain ⟨after, last, received, place, reader, lands, settles⟩ := receiveFrame_signed client calm
    asm (2 ^ 63 - 1) PipeReader.new_limited up (world.shift (2 ^ 63 - 1) (world.position + 6))
    (funded_shift _ _ _) frame.header.encode content (by rw [decoded]; exact frame.signed)
    frame.body.length (by rw [decoded]; exact frame.sized) (by rw [shift_position]; omega)
    (by intro _; rw [shift_position]; omega) (by rw [shift_position]; omega)
  rw [shift_position] at reader lands settles
  rw [decoded] at settles
  have stop : world.position + 6 + 38 + frame.body.length =
      world.position + frame.bytes.length := by omega
  rw [stop] at reader lands
  refine ⟨pushed, after, last, ?_, place, reader, lands, ?_⟩
  · rw [onHit hit, run_bind_ok received]
  · exact ⟨settles.heads, settles.entered, settles.received, settles.state, settles.replies⟩

omit up in
/-- A skip that went on into the next frame: its header is not read at its place. -/
theorem runLoop_out_of_step (turns : Nat) (preamble : Bytes 6) (world : World)
    (rest : List (SignedFrame asm.toConfig)) {stop : Nat}
    (tail : client.wire.drop stop = stream SignedFrame.bytes rest) (beyond : stop < world.position)
    (onWire : world.position ≤ client.wire.length) :
    (finalState ((runLoop asm client turns preamble).run world)).heads ≠
      world.heads ++ headsOf stop rest := by
  intro same
  obtain ⟨new, grown, far⟩ := runLoop_heads_beyond client calm asm turns preamble world onWire
  rw [grown, List.append_cancel_left_eq] at same
  cases rest with
  | nil =>
      rw [stream_nil] at tail
      have ended := congrArg List.length tail
      rw [List.length_drop, List.length_nil] at ended
      omega
  | cons next others =>
      have first : (stop + 6, next.header, true) ∈ new := by
        rw [same]
        exact List.mem_cons_self
      have later : world.position + 6 ≤ stop + 6 := far _ first
      omega

/-- The induction is on the frames still in front of the cursor. -/
theorem runLoop_frames_iff (short : client.wire.length < 2 ^ 63)
    (frames : List (SignedFrame asm.toConfig)) :
    ∀ (turns : Nat) (preamble : Bytes 6) (world : World),
      world.position ≤ client.wire.length →
      client.wire.drop world.position = stream SignedFrame.bytes frames →
      Funded (2 ^ 63 - 1) world → client.wire.length - world.position < turns →
      (((finalState ((runLoop asm client turns preamble).run world)).heads =
            world.heads ++ headsOf world.position frames ∧
          (finalState ((runLoop asm client turns preamble).run world)).entered =
            world.entered ++ entriesOf world.position frames) ↔
        ∀ place ∈ places SignedFrame.bytes world.position frames, BodyInPieces client place) := by
  induction frames with
  | nil =>
      intro turns preamble world onWire ahead funded fuel
      obtain ⟨turns, rfl⟩ : ∃ fewer, turns = fewer + 1 := ⟨turns - 1, by omega⟩
      have ended : client.wire.length - world.position = 0 := by
        rw [← List.length_drop, ahead]
        rfl
      obtain ⟨failure, position, reader, ran⟩ := runLoop_short client calm asm (2 ^ 63 - 1)
        PipeReader.new_limited turns preamble world funded (by omega) onWire (by omega)
      rw [ran]
      constructor
      · intro _ place member
        simp [places] at member
      · intro _
        exact ⟨(List.append_nil _).symm, (List.append_nil _).symm⟩
  | cons frame rest ih =>
      intro turns preamble world onWire ahead funded fuel
      obtain ⟨turns, rfl⟩ : ∃ fewer, turns = fewer + 1 := ⟨turns - 1, by omega⟩
      obtain ⟨pushed, after, last, ran, place, reader, lands, settles⟩ :=
        runLoop_frame client calm asm up turns preamble world frame rest ahead funded short
      have size := frame.bytes_length
      have tail : client.wire.drop (world.position + frame.bytes.length) =
          stream SignedFrame.bytes rest := by
        rw [← List.drop_drop, ahead, stream_cons, List.drop_left]
      have heads : headsOf world.position (frame :: rest) =
          (world.position + 6, frame.header, true) ::
            headsOf (world.position + frame.bytes.length) rest := rfl
      have entries : entriesOf world.position (frame :: rest) =
          (world.position + 6, frame.header) ::
            entriesOf (world.position + frame.bytes.length) rest := rfl
      have before := lands.beyond
      have inside := lands.onWire
      rw [ran, heads, entries, places, List.forall_mem_cons]
      by_cases met : last = world.position + frame.bytes.length
      · have step := ih turns pushed after (by omega) (by rw [place, met]; exact tail)
          (by unfold Funded; rw [reader, place, met]) (by omega)
        rw [settles.heads, settles.entered, place, met, List.append_assoc,
          List.append_assoc] at step
        have pieces : BodyInPieces client (world.position, frame) := lands.met.mp met
        rw [and_iff_right pieces, ← step]
        rfl
      · refine ⟨fun both => ?_, fun both => absurd (lands.met.mpr both.1) met⟩
        exfalso
        apply runLoop_out_of_step client calm asm turns pushed after rest tail (by omega) (by omega)
        rw [settles.heads, List.append_assoc]
        exact both.1

/-- A fresh session reads the headers of the stream, each at its own place, and
handles each frame once, exactly when no piece handed out inside a body reaches
over the body's end. -/
theorem session_reads_frames_iff (frames : List (SignedFrame asm.toConfig))
    (whole : client.wire = stream SignedFrame.bytes frames)
    (short : client.wire.length < 2 ^ 63) :
    ((finalState (session asm client PipeReader.new)).heads = headsOf 0 frames ∧
        (finalState (session asm client PipeReader.new)).entered = entriesOf 0 frames) ↔
      ∀ place ∈ places SignedFrame.bytes 0 frames, BodyInPieces client place :=
  runLoop_frames_iff client calm asm up short frames (client.wire.length - 0 + 1)
    (List.Vector.replicate 6 0) (World.start PipeReader.new) (Nat.zero_le _) whole
    PipeReader.new_eq_holding (Nat.lt_succ_self _)

end
end FrameSession
end Calm

namespace Sample
open Wsac.Sample

def inner : SignedFrame config where
  header := FrameHeader.new config config.checkpointSignature 0 nonce
  body := []
  signed := by decide +kernel
  sized := by decide +kernel

def outer : SignedFrame config where
  header := FrameHeader.new config config.regularSignature 44 nonce
  body := inner.bytes
  signed := by decide +kernel
  sized := by decide +kernel

def client (frames : List (SignedFrame config)) : Client :=
  Client.waiting (stream SignedFrame.bytes frames) nonce

theorem session_reads_frames_iff_body :
    ((finalState (FrameSession.session assembly (client [outer, inner]) PipeReader.new)).heads =
          headsOf 0 [outer, inner] ∧
        (finalState (FrameSession.session assembly (client [outer, inner])
          PipeReader.new)).entered = entriesOf 0 [outer, inner]) ↔
      ∀ place ∈ places SignedFrame.bytes 0 [outer, inner],
        BodyInPieces (client [outer, inner]) place :=
  FrameSession.session_reads_frames_iff (client [outer, inner]) rfl assembly rfl [outer, inner] rfl
    (by decide +kernel)

/-- Both frames wait in the pipe: the skip of the first body takes the second frame along. -/
theorem pipelined_frame_is_lost :
    (client [outer, inner]).wire = stream SignedFrame.bytes [outer, inner] ∧
      (finalState (FrameSession.session assembly (client [outer, inner]) PipeReader.new)).entered =
        [(6, outer.header)] ∧
      entriesOf 0 [outer, inner] = [(6, outer.header), (94, inner.header)] := by
  decide +kernel

end Sample
end Wsac.Service
