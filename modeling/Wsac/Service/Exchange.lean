import Wsac.Service.Emissions
import Wsac.Service.Framing
import Wsac.Frames

/-! # The service's session on frames without a body

A turn that starts at such a frame takes its 44 bytes, reacts to it, and puts one checkpoint
frame on the wire for each that the reaction asks for, as long as the reader's budget lasts.  A
session over a stream of them reads every one at its place, and stops in the beginning of a
further frame without having read a header there. -/

set_option autoImplicit false

namespace Wsac.Service.FrameSession

open Library Library.Exec

/-- A header that is refused, or that announces no body. -/
def Bodyless (cfg : Config) (image : Image) : Prop :=
  (FrameHeader.decode image).validate cfg = true → (FrameHeader.decode image).dataSize = 0

/-- What layer 1 makes of the 38 bytes. -/
def heard (cfg : Config) (image : Image) : Layer1.Received :=
  if (FrameHeader.decode image).validate cfg = false then .broken
  else .frame (FrameHeader.decode image).signature

/-- The budget of a new reader. -/
abbrev newBudget : Int := 2 ^ 63 - 1

def entriesAt (cfg : Config) (offset : Nat) (image : Image) : List (Nat × FrameHeader) :=
  if (FrameHeader.decode image).validate cfg = true then [(offset, FrameHeader.decode image)]
  else []

/-- The frame at the cursor is behind, and layer 1 has answered it. -/
structure Answers (asm : Assembly) (image : Image) (before after : World) : Prop where
  position : after.position = before.position + 44
  funded : Funded newBudget after
  heads : after.heads = before.heads ++ [(before.position + 6, FrameHeader.decode image,
    (FrameHeader.decode image).validate asm.toConfig)]
  entered : after.entered =
    before.entered ++ entriesAt asm.toConfig (before.position + 6) image
  state : after.state = (react asm before.state (heard asm.toConfig image)).1
  output : ∃ new : List FrameHeader, (∀ header ∈ new, header.IsCheckpoint asm.toConfig) ∧
    new.length = (react asm before.state (heard asm.toConfig image)).2 ∧
    after.sent = before.sent ++ new ∧
    after.written = before.written ++ stream (FrameHeader.wire asm.toConfig) new

theorem Answers.sent_length {asm : Assembly} {image : Image} {before after : World}
    (answers : Answers asm image before after) :
    after.sent.length =
      before.sent.length + (react asm before.state (heard asm.toConfig image)).2 := by
  obtain ⟨new, _, count, sent, _⟩ := answers.output
  rw [sent, List.length_append, count]

section
variable (client : Client) (calm : client.cancelAt = none) (asm : Assembly)
include calm

/-- The batch in front of a frame is its preamble. -/
theorem receiveBatch_framed (window : Bytes 6) (world : World) (image : Image)
    (rest : List UInt8)
    (ahead : client.wire.drop world.position = framed asm.toConfig image ++ rest)
    (funded : Funded newBudget world) (within : ((world.position + 6 : Nat) : Int) ≤ newBudget) :
    ∃ pushed : Bytes 6, (receiveBatch asm.toConfig client 6 window false).run world =
      .ok (pushed, true) (world.shift newBudget (world.position + 6)) := by
  have total : client.wire.length - world.position = 44 + rest.length := by
    rw [← List.length_drop, ahead, List.length_append, framed_length]
  obtain ⟨pushed, hit, ran, _, hits⟩ := receiveBatch_run client calm asm.toConfig newBudget
    PipeReader.new_limited 6 window false world funded within (by omega)
  have yes : hit = true := by
    rw [hits, ahead]
    right
    exact hit_of_prefix window (framed_preamble image rest)
  rw [yes] at ran
  exact ⟨pushed, ran⟩

variable (up : client.brokenAt = none)
include up

/-- Behind the preamble of such a frame. -/
theorem receiveFrame_framed (world : World) (image : Image) (rest : List UInt8)
    (ahead : client.wire.drop world.position = image.toList ++ rest)
    (bodyless : Bodyless asm.toConfig image) (funded : Funded newBudget world)
    (within : ((world.position + 38 : Nat) : Int) ≤ newBudget) :
    ∃ after, (receiveFrame asm client).run world = .ok () after ∧
      after.position = world.position + 38 ∧ Funded newBudget after ∧
      Settles asm.toConfig world after world.position
        (FrameHeader.decode image, (FrameHeader.decode image).validate asm.toConfig)
        (entriesAt asm.toConfig world.position image)
        (react asm world.state (heard asm.toConfig image)) := by
  have total : client.wire.length - world.position = 38 + rest.length := by
    rw [← List.length_drop, ahead, List.length_append, List.Vector.toList_length]
  have content : image.toList = (client.wire.drop world.position).take 38 := by
    rw [ahead, List.take_left' (List.Vector.toList_length _)]
  cases verdict : (FrameHeader.decode image).validate asm.toConfig with
  | false =>
      have broken : heard asm.toConfig image = .broken := if_pos verdict
      have entries : entriesAt asm.toConfig world.position image = [] :=
        if_neg (by rw [verdict]; decide)
      obtain ⟨after, ran, place, rich, settles⟩ := receiveFrame_broken client calm asm newBudget
        PipeReader.new_limited up world funded within image content verdict
      rw [broken, entries]
      exact ⟨after, ran, place, rich, settles⟩
  | true =>
      have frame : heard asm.toConfig image = .frame (FrameHeader.decode image).signature :=
        if_neg (by rw [verdict]; decide)
      have entries : entriesAt asm.toConfig world.position image =
          [(world.position, FrameHeader.decode image)] := if_pos verdict
      have sized : (FrameHeader.decode image).dataSize.toInt = ((0 : Nat) : Int) := by
        rw [bodyless verdict]
        rfl
      obtain ⟨after, last, ran, place, reader, lands, settles⟩ := receiveFrame_signed client calm
        asm newBudget PipeReader.new_limited up world funded image content verdict 0 sized
        (by omega) (by intro some_; exact absurd some_ (by decide)) (by omega)
      have landed : last = world.position + 38 := lands.met.mpr (Pieces.done _)
      rw [frame, entries]
      refine ⟨after, ran, place.trans landed, ?_, settles⟩
      unfold Funded
      rw [reader, place, landed]

theorem turn_framed (window : Bytes 6) (world : World) (image : Image) (rest : List UInt8)
    (ahead : client.wire.drop world.position = framed asm.toConfig image ++ rest)
    (bodyless : Bodyless asm.toConfig image) (funded : Funded newBudget world)
    (within : ((world.position + 44 : Nat) : Int) ≤ newBudget) :
    ∃ pushed after, (turn asm client window).run world = .ok pushed after ∧
      Answers asm image world after := by
  obtain ⟨pushed, batch⟩ := receiveBatch_framed client calm asm window world image rest ahead
    funded (by omega)
  obtain ⟨after, received, place, rich, settles⟩ := receiveFrame_framed client calm asm up
    (world.shift newBudget (world.position + 6)) image rest
    (by rw [shift_position, ← List.drop_drop, ahead, framed, List.append_assoc,
      List.drop_left' (List.Vector.toList_length _)])
    bodyless (funded_shift _ _ _) (by rw [shift_position]; omega)
  rw [shift_position] at place settles
  have ran : (turn asm client window).run world = .ok pushed after := by
    unfold turn
    rw [run_bind_ok batch]
    simp only [Bool.true_eq_false, if_false]
    rw [run_bind_ok received]
    rfl
  obtain ⟨new, genuine, sent, written⟩ := (turn_emits client asm window).of_ok ran
  have sent' : after.sent = world.sent ++ new := sent
  have replies : after.replies = world.replies ++ List.replicate
      (react asm world.state (heard asm.toConfig image)).2 asm.checkpointSignature :=
    settles.replies
  have count : new.length = (react asm world.state (heard asm.toConfig image)).2 := by
    rw [World.replies_eq_sent, World.replies_eq_sent, sent', List.map_append] at replies
    have lengths := congrArg List.length (List.append_cancel_left replies)
    rwa [List.length_map, List.length_replicate] at lengths
  exact ⟨pushed, after, ran, place, rich, settles.heads, settles.entered, settles.state, new,
    genuine, count, sent', written⟩

omit up in
/-- With the frame on the wire but no budget for all of it, the turn throws. -/
theorem turn_unfunded (window : Bytes 6) (world : World) (image : Image) (rest : List UInt8)
    (ahead : client.wire.drop world.position = framed asm.toConfig image ++ rest)
    (funded : Funded newBudget world) (lowest : (world.position : Int) ≤ newBudget)
    (beyond : newBudget < ((world.position + 44 : Nat) : Int)) :
    ∃ failure after, (turn asm client window).run world = .error failure after := by
  have total : client.wire.length - world.position = 44 + rest.length := by
    rw [← List.length_drop, ahead, List.length_append, framed_length]
  by_cases batched : ((world.position + 6 : Nat) : Int) ≤ newBudget
  · obtain ⟨pushed, batch⟩ := receiveBatch_framed client calm asm window world image rest ahead
      funded batched
    obtain ⟨failure, after, failed, _⟩ := receiveFrame_short client calm asm newBudget
      PipeReader.new_limited (world.shift newBudget (world.position + 6)) (funded_shift _ _ _)
      (by rw [shift_position]; omega) (by rw [shift_position]; omega)
      (by rw [shift_position]; omega)
    refine ⟨failure, after, ?_⟩
    unfold turn
    rw [run_bind_ok batch]
    simp only [Bool.true_eq_false, if_false]
    exact run_bind_error failed
  · obtain ⟨failure, position, reader, failed⟩ := receiveBatch_short client calm asm.toConfig
      newBudget PipeReader.new_limited 6 window false world funded (by omega) (by omega) (by omega)
    exact ⟨failure, _, run_bind_error failed⟩

omit up in
/-- A turn with no byte in front of it throws. -/
theorem turn_idle (window : Bytes 6) (world : World) (funded : Funded newBudget world)
    (lowest : (world.position : Int) ≤ newBudget) (ended : world.position = client.wire.length) :
    ∃ failure after, (turn asm client window).run world = .error failure after := by
  obtain ⟨failure, position, reader, failed⟩ := receiveBatch_short client calm asm.toConfig
    newBudget PipeReader.new_limited 6 window false world funded (by omega) (by omega) (by omega)
  exact ⟨failure, _, run_bind_error failed⟩

/-! ## Whole sessions -/

/-- The headers of the frames, each at its place. -/
def headsOfImages (cfg : Config) (start : Nat) (images : List Image) :
    List (Nat × FrameHeader × Bool) :=
  (places (framed cfg) start images).map fun place =>
    (place.1 + 6, FrameHeader.decode place.2, (FrameHeader.decode place.2).validate cfg)

/-- What `HandleFrameAsync` is entered for. -/
def entriesOfImages (cfg : Config) (start : Nat) (images : List Image) :
    List (Nat × FrameHeader) :=
  (places (framed cfg) start images).flatMap fun place => entriesAt cfg (place.1 + 6) place.2

/-- The state and the number of answers behind the frames. -/
def reactAll (asm : Assembly) (start : FrameSessionState × Nat) (images : List Image) :
    FrameSessionState × Nat :=
  images.foldl (fun state image =>
    ((react asm state.1 (heard asm.toConfig image)).1,
      state.2 + (react asm state.1 (heard asm.toConfig image)).2)) start

omit up in
/-- In the beginning of a frame the session ends, and no header has been read. -/
theorem runLoop_tail (turns : Nat) (window : Bytes 6) (world : World) (image : Image)
    {tail : List UInt8} (begins : tail <+: framed asm.toConfig image) (few : tail.length < 44)
    (ahead : client.wire.drop world.position = tail) (funded : Funded newBudget world)
    (onWire : world.position ≤ client.wire.length)
    (short : ((client.wire.length : Nat) : Int) ≤ newBudget) :
    let final := finalState ((runLoop asm client (turns + 1) window).run world)
    final.heads = world.heads ∧ final.entered = world.entered ∧ final.state = world.state ∧
      final.sent = world.sent := by
  have left : client.wire.length - world.position = tail.length := by
    rw [← List.length_drop, ahead]
  by_cases batched : 6 ≤ tail.length
  · have hit : Hit asm.preamble.toList (window.toList ++ client.wire.drop world.position) := by
      apply hit_of_prefix
      rw [ahead]
      have whole : asm.preamble.toList <+: framed asm.toConfig image ++ [] :=
        framed_preamble image []
      rw [List.append_nil] at whole
      apply List.prefix_of_prefix_length_le whole begins
      rwa [List.Vector.toList_length]
    obtain ⟨pushed, _, _, onHit⟩ := runLoop_batch client calm asm newBudget PipeReader.new_limited
      turns window world funded (by omega) (by omega)
    let read := world.shift newBudget (world.position + 6)
    let logged : World := { read with log := read.log ++ [.received read.position] }
    have place : logged.position = world.position + 6 := rfl
    obtain ⟨failure, position, reader, failed⟩ := read_unfunded client calm 38 (by decide)
      (by decide) logged newBudget (funded_shift world newBudget (world.position + 6))
      PipeReader.new_limited (by omega) (by omega) (by omega)
    have thrown : (receiveFrame asm client).run read =
        .error failure (logged.move position reader) := by
      unfold receiveFrame receiveHeader readHeader
      rw [run_get_bind, run_bind_ok (record_run _ read)]
      simp only [bind_assoc]
      rw [run_get_bind, run_bind_error failed]
    rw [onHit hit, run_bind_error thrown]
    refine ⟨?_, ?_, rfl, ?_⟩
    · simp [logged, read, World.heads, Event.head?]
    · simp [logged, read, World.entered, Event.entered?]
    · simp [logged, read, World.sent, Event.sent?]
  · obtain ⟨failure, position, reader, failed⟩ := runLoop_short client calm asm newBudget
      PipeReader.new_limited turns window world funded (by omega) onWire (by omega)
    rw [failed]
    exact ⟨rfl, rfl, rfl, rfl⟩

/-- The induction is on the frames still in front of the cursor. -/
theorem runLoop_images (images : List Image) (last : Image) {tail : List UInt8}
    (begins : tail <+: framed asm.toConfig last) (few : tail.length < 44)
    (short : ((client.wire.length : Nat) : Int) ≤ newBudget) :
    ∀ (turns : Nat) (window : Bytes 6) (world : World), world.position ≤ client.wire.length →
      client.wire.drop world.position = stream (framed asm.toConfig) images ++ tail →
      Funded newBudget world → (∀ image ∈ images, Bodyless asm.toConfig image) →
      client.wire.length - world.position < turns →
      let final := finalState ((runLoop asm client turns window).run world)
      final.heads = world.heads ++ headsOfImages asm.toConfig world.position images ∧
        final.entered = world.entered ++ entriesOfImages asm.toConfig world.position images ∧
        (final.state, final.sent.length) =
          reactAll asm (world.state, world.sent.length) images := by
  induction images with
  | nil =>
      intro turns window world onWire ahead funded _ fuel
      obtain ⟨turns, rfl⟩ : ∃ fewer, turns = fewer + 1 := ⟨turns - 1, by omega⟩
      obtain ⟨heads, entered, state, sent⟩ := runLoop_tail client calm asm turns window world last
        begins few ahead funded onWire short
      refine ⟨heads.trans (List.append_nil _).symm, entered.trans (List.append_nil _).symm, ?_⟩
      rw [state, sent]
      rfl
  | cons image rest ih =>
      intro turns window world onWire ahead funded bodyless fuel
      obtain ⟨turns, rfl⟩ : ∃ fewer, turns = fewer + 1 := ⟨turns - 1, by omega⟩
      rw [stream_cons, List.append_assoc] at ahead
      have total : client.wire.length - world.position =
          44 + (stream (framed asm.toConfig) rest ++ tail).length := by
        rw [← List.length_drop, ahead, List.length_append, framed_length]
      obtain ⟨pushed, after, ran, answers⟩ := turn_framed client calm asm up window world image _
        ahead (bodyless image List.mem_cons_self) funded (by omega)
      have place : after.position = world.position + 44 := answers.position
      obtain ⟨heads, entered, outcome⟩ := ih turns pushed after (by omega)
        (by rw [place, ← List.drop_drop, ahead, framed_behind]) answers.funded
        (fun other member => bodyless other (List.mem_cons_of_mem _ member)) (by omega)
      rw [runLoop, run_bind_ok (cancellationRequested_run client calm world)]
      simp only [Bool.false_eq_true, if_false]
      rw [run_bind_ok ran]
      refine ⟨?_, ?_, ?_⟩
      · rw [heads, answers.heads, place, headsOfImages, headsOfImages, places, framed_length,
          List.map_cons, List.append_assoc]
        rfl
      · rw [entered, answers.entered, place, entriesOfImages, entriesOfImages, places,
          framed_length, List.flatMap_cons, List.append_assoc]
      · rw [outcome, answers.sent_length, answers.state]
        rfl

/-- A whole session on a new reader over such frames and the beginning of one more. -/
theorem session_images (images : List Image) (last : Image) {tail : List UInt8}
    (begins : tail <+: framed asm.toConfig last) (few : tail.length < 44)
    (bodyless : ∀ image ∈ images, Bodyless asm.toConfig image)
    (whole : client.wire = stream (framed asm.toConfig) images ++ tail)
    (short : client.wire.length < 2 ^ 63) :
    let final := finalState (session asm client PipeReader.new)
    final.heads = headsOfImages asm.toConfig 0 images ∧
      final.entered = entriesOfImages asm.toConfig 0 images ∧
      (final.state, final.sent.length) = reactAll asm (.none, 0) images :=
  runLoop_images client calm asm up images last begins few
    (by show ((client.wire.length : Nat) : Int) ≤ 2 ^ 63 - 1; omega) (client.wire.length - 0 + 1)
    (List.Vector.replicate 6 0) (World.start PipeReader.new) (Nat.zero_le _) whole
    PipeReader.new_eq_holding bodyless (Nat.lt_succ_self _)

end
end Wsac.Service.FrameSession
