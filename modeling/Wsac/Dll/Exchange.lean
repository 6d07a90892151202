import Wsac.Dll.Emissions
import Wsac.Dll.Loop
import Wsac.Frames

/-! # The DLL's session on frames without a body

A turn that starts at such a frame takes its 44 bytes, reacts to it, and puts one checkpoint
frame on the wire for each that the reaction asks for.  A run over a stream of them reads every
one at its place, and does not mind the beginning of a further frame at the end. -/

set_option autoImplicit false

namespace Wsac.Dll.Session

open Library Library.Exec

/-- No handler waits for bytes behind this header. -/
def Bodyless (cfg : Config) (image : Image) : Prop := bodyTaken cfg (FrameHeader.decode image) = 0

/-- What layer 1 makes of the 38 bytes. -/
def heard (cfg : Config) (image : Image) : Layer1.Received :=
  received cfg (FrameHeader.decode image)

/-- The frame at the cursor is behind, and layer 1 has answered it. -/
structure Answers (cfg : Config) (image : Image) (before after : World) : Prop where
  position : after.position = before.position + 44
  heads : after.heads = before.heads ++
    [(before.position + 6, FrameHeader.decode image, (FrameHeader.decode image).validate cfg)]
  base : after.base = (react cfg before.base (heard cfg image)).1
  output : ∃ new : List FrameHeader, (∀ header ∈ new, header.IsCheckpoint cfg) ∧
    new.length = (react cfg before.base (heard cfg image)).2 ∧
    after.sent = before.sent ++ new ∧
    after.written = before.written ++ stream (FrameHeader.wire cfg) new

theorem Answers.sent_length {cfg : Config} {image : Image} {before after : World}
    (answers : Answers cfg image before after) :
    after.sent.length = before.sent.length + (react cfg before.base (heard cfg image)).2 := by
  obtain ⟨new, _, count, sent, _⟩ := answers.output
  rw [sent, List.length_append, count]

section
variable (cfg : Config) (pipe : Pipe)

/-- A turn that completes has sent as many frames as layer 1 has answers. -/
theorem turn_answers {world after : World} (image : Image) (rest : List UInt8)
    (ahead : pipe.wire.drop world.position = framed cfg image ++ rest)
    (bodyless : Bodyless cfg image) (ran : (turn cfg pipe).run world = .ok () after) :
    Answers cfg image world after := by
  obtain ⟨stop, asked, taken, first, content, settles⟩ := turn_ok cfg pipe ran
  rw [ahead] at first
  have six : stop = 6 := first.unique (framed_first image rest)
  subst six
  have same : taken = image := by
    apply List.Vector.eq
    rw [content, ← List.drop_drop, ahead, framed_image]
  subst same
  obtain ⟨new, genuine, sent, written⟩ := (turn_emits cfg pipe).of_ok ran
  have sent' : after.sent = world.sent ++ new := sent
  have replies := settles.replies
  have count : new.length = (react cfg world.base (heard cfg taken)).2 := by
    rw [World.replies_eq_sent, World.replies_eq_sent, sent', List.map_append] at replies
    have lengths := congrArg List.length (List.append_cancel_left replies)
    rwa [List.length_map, List.length_replicate] at lengths
  refine ⟨?_, settles.heads, settles.base, new, genuine, count, sent', written⟩
  have moved := settles.position
  rw [moved, show bodyTaken cfg (FrameHeader.decode taken) = 0 from bodyless]
  rfl

variable (quiet : pipe.stopAt = none) (up : pipe.brokenAt = none)
include quiet up

theorem handle_bodyless (offset : Nat) (image : Image) (bodyless : Bodyless cfg image)
    (world : World) (onWire : world.position ≤ pipe.wire.length) :
    ∃ after, (handle cfg pipe offset (FrameHeader.decode image)).run world = .ok () after := by
  cases verdict : (FrameHeader.decode image).validate cfg with
  | false =>
      obtain ⟨after, ran, _⟩ := handle_broken cfg pipe up offset _ world verdict
      exact ⟨after, ran⟩
  | true =>
      by_cases test : signalOf cfg (FrameHeader.decode image).sig = .test
      · have empty : (FrameHeader.decode image).dataSize.toNat = 0 := by
          rw [← show bodyTaken cfg (FrameHeader.decode image) =
            (FrameHeader.decode image).dataSize.toNat from if_pos ⟨verdict, test⟩]
          exact bodyless
        obtain ⟨after, ran, _⟩ := handle_test cfg pipe quiet offset _ world verdict test
          (by rw [empty]; decide) (by rw [empty]; exact onWire)
        exact ⟨after, ran⟩
      · obtain ⟨after, ran, _⟩ := handle_untested cfg pipe up offset _ world verdict test
        exact ⟨after, ran⟩

theorem turn_framed (world : World) (image : Image) (rest : List UInt8)
    (ahead : pipe.wire.drop world.position = framed cfg image ++ rest)
    (bodyless : Bodyless cfg image) :
    ∃ after, (turn cfg pipe).run world = .ok () after ∧ Answers cfg image world after := by
  have total : pipe.wire.length - world.position = 44 + rest.length := by
    rw [← List.length_drop, ahead, List.length_append, framed_length]
  obtain ⟨asked, found⟩ := FrameReader.readUntilPreamble_found pipe quiet cfg.preamble.toList
    cfg.preamble_nonempty world 6 (by rw [ahead]; exact framed_first image rest)
  obtain ⟨taken, asked', read, content⟩ := FrameReader.readHeader_run pipe quiet cfg
    (world.seek (world.position + 6) asked) (by rw [seek_position]; omega)
  have same : taken = image := by
    apply List.Vector.eq
    rw [content, seek_position, ← List.drop_drop, ahead, framed_image]
  rw [same] at read
  obtain ⟨after, handled⟩ := handle_bodyless cfg pipe quiet up (world.position + 6) image bodyless
    (world.seek (world.position + 6 + 38) asked') (by rw [seek_position]; omega)
  have ran : (turn cfg pipe).run world = .ok () after := by
    rw [turn, run_bind_ok found, run_get_bind, run_bind_ok read]
    exact handled
  exact ⟨after, ran, turn_answers cfg pipe image rest ahead bodyless ran⟩

omit up in
/-- A turn with less than a frame in front of it waits for more in vain. -/
theorem turn_waits (world : World) (onWire : world.position ≤ pipe.wire.length)
    (short : pipe.wire.length < world.position + 44) :
    ∃ failure after, (turn cfg pipe).run world = .error failure after ∧
      after.heads = world.heads ∧ after.base = world.base ∧ after.sent = world.sent := by
  have few : (pipe.wire.drop world.position).length < 44 := by
    rw [List.length_drop]
    omega
  by_cases found : ∃ stop, EndsAt cfg.preamble.toList (pipe.wire.drop world.position) stop
  · obtain ⟨stop, ends⟩ := found
    obtain ⟨first, _, isFirst⟩ := FirstEnd.exists_of_endsAt ends
    have inside := isFirst.1.1
    have beyond := short_tail few isFirst
    rw [List.length_drop] at inside beyond
    obtain ⟨asked, search⟩ := FrameReader.readUntilPreamble_found pipe quiet cfg.preamble.toList
      cfg.preamble_nonempty world first isFirst
    obtain ⟨asked', cut⟩ := FrameReader.readHeader_short pipe quiet cfg
      (world.seek (world.position + first) asked) (by rw [seek_position]; omega)
      (by rw [seek_position]; omega)
    refine ⟨pipe.afterEnd, world.seek pipe.wire.length asked', ?_, rfl, rfl, rfl⟩
    rw [turn, run_bind_ok search, run_get_bind, run_bind_error cut]
    rfl
  · obtain ⟨asked, missing⟩ := FrameReader.readUntilPreamble_missing pipe quiet
      cfg.preamble.toList cfg.preamble_nonempty world onWire (fun stop ends => found ⟨stop, ends⟩)
    exact ⟨pipe.afterEnd, world.seek pipe.wire.length asked, run_bind_error missing, rfl, rfl, rfl⟩

/-- The headers of the frames, each at its place. -/
def headsOfImages (start : Nat) (images : List Image) : List (Nat × FrameHeader × Bool) :=
  (places (framed cfg) start images).map fun place =>
    (place.1 + 6, FrameHeader.decode place.2, (FrameHeader.decode place.2).validate cfg)

/-- `Base` and the number of answers behind the frames. -/
def reactAll (start : Base × Nat) (images : List Image) : Base × Nat :=
  images.foldl (fun state image =>
    ((react cfg state.1 (heard cfg image)).1, state.2 + (react cfg state.1 (heard cfg image)).2))
    start

/-- The induction is on the frames still in front of the cursor. -/
theorem runLoop_images (images : List Image) {tail : List UInt8} (few : tail.length < 44) :
    ∀ (turns : Nat) (world : World), world.position ≤ pipe.wire.length →
      pipe.wire.drop world.position = stream (framed cfg) images ++ tail →
      (∀ image ∈ images, Bodyless cfg image) → pipe.wire.length - world.position < turns →
      let final := finalState ((runLoop cfg pipe turns).run world)
      final.heads = world.heads ++ headsOfImages cfg world.position images ∧
        (final.base, final.sent.length) = reactAll cfg (world.base, world.sent.length) images := by
  induction images with
  | nil =>
      intro turns world onWire ahead _ fuel
      obtain ⟨turns, rfl⟩ : ∃ fewer, turns = fewer + 1 := ⟨turns - 1, by omega⟩
      have left : pipe.wire.length - world.position = tail.length := by
        rw [← List.length_drop, ahead]
        rfl
      obtain ⟨failure, after, failed, heads, base, sent⟩ := turn_waits cfg pipe quiet
        (world.seek world.position (world.asked + 1)) onWire (by rw [seek_position]; omega)
      rw [runLoop, run_bind_ok (stopRequested_run pipe quiet world)]
      simp only [Bool.false_eq_true, if_false]
      rw [run_bind_error failed]
      refine ⟨heads.trans (List.append_nil _).symm, ?_⟩
      rw [finalState_error, base, sent]
      rfl
  | cons image rest ih =>
      intro turns world onWire ahead bodyless fuel
      obtain ⟨turns, rfl⟩ : ∃ fewer, turns = fewer + 1 := ⟨turns - 1, by omega⟩
      rw [stream_cons, List.append_assoc] at ahead
      obtain ⟨after, ran, answers⟩ := turn_framed cfg pipe quiet up
        (world.seek world.position (world.asked + 1)) image _ ahead
        (bodyless image List.mem_cons_self)
      have place : after.position = world.position + 44 := answers.position
      have total : pipe.wire.length - world.position =
          44 + (stream (framed cfg) rest ++ tail).length := by
        rw [← List.length_drop, ahead, List.length_append, framed_length]
      obtain ⟨heads, outcome⟩ := ih turns after (by omega)
        (by rw [place, ← List.drop_drop, ahead, framed_behind])
        (fun other member => bodyless other (List.mem_cons_of_mem _ member)) (by omega)
      rw [runLoop, run_bind_ok (stopRequested_run pipe quiet world)]
      simp only [Bool.false_eq_true, if_false]
      rw [run_bind_ok ran]
      refine ⟨?_, ?_⟩
      · rw [heads, answers.heads, place, headsOfImages, headsOfImages, places, framed_length,
          List.map_cons, List.append_assoc]
        rfl
      · rw [outcome, answers.sent_length, answers.base]
        rfl

/-- A whole run over frames without a body and less than one frame more. -/
theorem run_images (images : List Image) {tail : List UInt8} (few : tail.length < 44)
    (bodyless : ∀ image ∈ images, Bodyless cfg image)
    (whole : pipe.wire = stream (framed cfg) images ++ tail) :
    let final := finalState ((run cfg pipe).run World.start)
    final.heads = headsOfImages cfg 0 images ∧
      (final.base, final.sent.length) = reactAll cfg (.none, 0) images :=
  runLoop_images cfg pipe quiet up images few (pipe.wire.length - 0 + 1) World.start
    (Nat.zero_le _) whole bodyless (Nat.lt_succ_self _)

end
end Wsac.Dll.Session
