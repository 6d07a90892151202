import Wsac.Dll.Turn
import Wsac.Library.Framing

/-! # Which headers the DLL reads from a stream of signed frames

Only a test frame's body is taken off the wire.  Every other body is left to the
scanner of the next turn, so what counts is whether the preamble occurs in an
unread body before the next frame starts. -/

set_option autoImplicit false

namespace Wsac.Dll

open Library Library.Exec

structure SignedFrame (cfg : Config) where
  header : FrameHeader
  body : List UInt8
  signed : header.validate cfg = true
  sized : header.dataSize.toNat = body.length
  short : body.length < 2 ^ 32

namespace SignedFrame

variable {cfg : Config}

def bytes (frame : SignedFrame cfg) : List UInt8 :=
  cfg.preamble.toList ++ (frame.header.encode.toList ++ frame.body)

/-- What the frame's handler leaves on the wire. -/
def unread (frame : SignedFrame cfg) : List UInt8 :=
  if signalOf cfg frame.header.sig = .test then [] else frame.body

/-- The header as the session reads it when its frame starts at the given offset. -/
def head (place : Nat × SignedFrame cfg) : Nat × FrameHeader × Bool :=
  (place.1 + 6, place.2.header, true)

@[simp] theorem bytes_length (frame : SignedFrame cfg) :
    frame.bytes.length = 44 + frame.body.length := by
  simp [bytes]
  omega

theorem bytes_nonempty (frame : SignedFrame cfg) : frame.bytes ≠ [] := by
  intro empty
  have size := frame.bytes_length
  rw [empty, List.length_nil] at size
  omega

theorem unread_eq_drop (frame : SignedFrame cfg) :
    frame.unread = frame.body.drop (Session.bodyTaken cfg frame.header) := by
  unfold unread Session.bodyTaken
  by_cases test : signalOf cfg frame.header.sig = .test
  · rw [if_pos test, if_pos ⟨frame.signed, test⟩, frame.sized, List.drop_length]
  · rw [if_neg test, if_neg (fun both => test both.2), List.drop_zero]

theorem bodyTaken_le (frame : SignedFrame cfg) :
    Session.bodyTaken cfg frame.header ≤ frame.body.length := by
  unfold Session.bodyTaken
  split
  · exact Nat.le_of_eq frame.sized
  · exact Nat.zero_le _

theorem stream_preamble (junk : List UInt8) (frame : SignedFrame cfg)
    (rest : List (SignedFrame cfg)) :
    junk ++ stream SignedFrame.bytes (frame :: rest) = (junk ++ cfg.preamble.toList) ++
      (frame.header.encode.toList ++ frame.body ++ stream SignedFrame.bytes rest) := by
  simp [bytes]

end SignedFrame

/-- Behind `junk` the scanner meets no header before the next frame. -/
def Gap (cfg : Config) (junk : List UInt8) : List (SignedFrame cfg) → Prop
  | [] => ∀ offset, offset + 44 ≤ junk.length → ¬ OccursAt cfg.preamble.toList junk offset
  | _ :: _ => ∀ offset, offset < junk.length →
      ¬ OccursAt cfg.preamble.toList (junk ++ cfg.preamble.toList) offset

/-- No body that stays unread shows the scanner a preamble. -/
def Clear (cfg : Config) : List (SignedFrame cfg) → Prop
  | [] => True
  | frame :: rest => Gap cfg frame.unread rest ∧ Clear cfg rest

def headsOf {cfg : Config} (start : Nat) (frames : List (SignedFrame cfg)) :
    List (Nat × FrameHeader × Bool) :=
  (places SignedFrame.bytes start frames).map SignedFrame.head

theorem endsAt_preamble {cfg : Config} {text : List UInt8} (start : Nat) :
    EndsAt cfg.preamble.toList text (start + 6) ↔ OccursAt cfg.preamble.toList text start := by
  rw [← endsAt_iff_occursAt cfg.preamble_nonempty, List.Vector.toList_length]

namespace Session

section Quiet
variable (cfg : Config) (pipe : Pipe) (quiet : pipe.stopAt = none)
include quiet

/-- A turn that finds a preamble with 38 bytes behind it. -/
theorem runLoop_reads (turns : Nat) (world : World) (stop : Nat)
    (first : FirstEnd cfg.preamble.toList (pipe.wire.drop world.position) stop)
    (enough : world.position + stop + 38 ≤ pipe.wire.length) :
    ∃ (image : Image) (asked : Nat),
      image.toList = (pipe.wire.drop (world.position + stop)).take 38 ∧
      (runLoop cfg pipe (turns + 1)).run world =
        (handle cfg pipe (world.position + stop) (FrameHeader.decode image) >>=
          fun _ => runLoop cfg pipe turns).run
            (world.seek (world.position + stop + 38) asked) := by
  obtain ⟨asked, found⟩ := FrameReader.readUntilPreamble_found pipe quiet cfg.preamble.toList
    cfg.preamble_nonempty (world.seek world.position (world.asked + 1)) stop first
  obtain ⟨image, asked', ran, content⟩ := FrameReader.readHeader_run pipe quiet cfg
    (world.seek (world.position + stop) asked) enough
  simp only [seek_position, seek_seek] at found ran
  refine ⟨image, asked', content, ?_⟩
  rw [runLoop, run_bind_ok (stopRequested_run pipe quiet world)]
  simp only [Bool.false_eq_true, if_false, turn, bind_assoc]
  rw [run_bind_ok found, run_get_bind, run_bind_ok ran]
  rfl

/-- A turn that finds no preamble, or too few bytes behind the first one. -/
theorem runLoop_ends (turns : Nat) (world : World) (onWire : world.position ≤ pipe.wire.length)
    (last : ∀ stop, FirstEnd cfg.preamble.toList (pipe.wire.drop world.position) stop →
      pipe.wire.length < world.position + stop + 38) :
    (finalState ((runLoop cfg pipe (turns + 1)).run world)).heads = world.heads := by
  have fails : ∃ asked, (turn cfg pipe).run (world.seek world.position (world.asked + 1)) =
      .error pipe.afterEnd (world.seek pipe.wire.length asked) := by
    unfold turn
    by_cases found : ∃ stop, EndsAt cfg.preamble.toList (pipe.wire.drop world.position) stop
    · obtain ⟨stop, ends⟩ := found
      obtain ⟨first, _, isFirst⟩ := FirstEnd.exists_of_endsAt ends
      have inside := isFirst.1.1
      rw [List.length_drop] at inside
      obtain ⟨asked, search⟩ := FrameReader.readUntilPreamble_found pipe quiet
        cfg.preamble.toList cfg.preamble_nonempty
        (world.seek world.position (world.asked + 1)) first isFirst
      obtain ⟨asked', short⟩ := FrameReader.readHeader_short pipe quiet cfg
        (world.seek (world.position + first) asked) (by simp; omega) (last first isFirst)
      refine ⟨asked', ?_⟩
      rw [run_bind_ok search, run_get_bind]
      simp only [seek_seek, seek_position]
      rw [run_bind_error short]
      rfl
    · obtain ⟨asked, missing⟩ := FrameReader.readUntilPreamble_missing pipe quiet
        cfg.preamble.toList cfg.preamble_nonempty
        (world.seek world.position (world.asked + 1)) onWire (fun stop ends => found ⟨stop, ends⟩)
      exact ⟨asked, run_bind_error missing⟩
  obtain ⟨asked, failed⟩ := fails
  rw [runLoop, run_bind_ok (stopRequested_run pipe quiet world)]
  simp only [Bool.false_eq_true, if_false]
  rw [run_bind_error failed]
  rfl

/-- Once a header has been read, no later event takes it out of the log again. -/
theorem runLoop_keeps (turns : Nat) (world : World) (stop : Nat)
    (first : FirstEnd cfg.preamble.toList (pipe.wire.drop world.position) stop)
    (enough : world.position + stop + 38 ≤ pipe.wire.length) :
    ∃ (header : FrameHeader) (verdict : Bool),
      world.heads ++ [(world.position + stop, header, verdict)] <+:
        (finalState ((runLoop cfg pipe (turns + 1)).run world)).heads := by
  obtain ⟨image, asked, _, ran⟩ := runLoop_reads cfg pipe quiet turns world stop first enough
  refine ⟨FrameHeader.decode image, (FrameHeader.decode image).validate cfg, ?_⟩
  rw [ran]
  have logged := handle_logs cfg pipe (world.position + stop) (FrameHeader.decode image)
    (world.seek (world.position + stop + 38) asked)
  cases handled : (handle cfg pipe (world.position + stop) (FrameHeader.decode image)).run
      (world.seek (world.position + stop + 38) asked) with
  | ok result middle =>
      rw [handled] at logged
      rw [run_bind_ok handled]
      exact logged.trans (runLoop_grows cfg pipe turns middle).heads
  | error failure middle =>
      rw [handled] at logged
      rw [run_bind_error handled]
      exact logged

end Quiet

theorem Gap.first {cfg : Config} {junk : List UInt8} {frame : SignedFrame cfg}
    {rest : List (SignedFrame cfg)} (gap : Gap cfg junk (frame :: rest)) :
    FirstEnd cfg.preamble.toList (junk ++ stream SignedFrame.bytes (frame :: rest))
      (junk.length + 6) := by
  have six : cfg.preamble.toList.length = 6 := List.Vector.toList_length _
  rw [SignedFrame.stream_preamble]
  suffices first : FirstEnd cfg.preamble.toList ((junk ++ cfg.preamble.toList) ++
      (frame.header.encode.toList ++ frame.body ++ stream SignedFrame.bytes rest))
        (junk.length + cfg.preamble.toList.length) by
    rwa [six] at first
  apply firstEnd_of_start cfg.preamble_nonempty
  · rw [List.append_assoc, ← Nat.add_zero junk.length, occursAt_append_left]
    exact List.prefix_append _ _
  · intro earlier before occurs
    refine gap earlier before ((occursAt_append_right ?_).mp occurs)
    rw [List.length_append]
    omega

/-- The header of a genuine frame whose body is on the wire. -/
theorem handle_signed (cfg : Config) (pipe : Pipe) (quiet : pipe.stopAt = none)
    (up : pipe.brokenAt = none) (offset : Nat) (frame : SignedFrame cfg) (world : World)
    (enough : world.position + frame.body.length ≤ pipe.wire.length) :
    ∃ after, (handle cfg pipe offset frame.header).run world = .ok () after ∧
      Settles cfg offset frame.header world after := by
  by_cases test : signalOf cfg frame.header.sig = .test
  · apply handle_test cfg pipe quiet _ _ _ frame.signed test
    · rw [frame.sized]
      exact frame.short
    · rw [frame.sized]
      exact enough
  · exact handle_untested cfg pipe up _ _ _ frame.signed test

/-- A genuine frame behind a gap is read at its own place, and what its handler
leaves is the junk of the next turn. -/
theorem runLoop_frame (cfg : Config) (pipe : Pipe) (quiet : pipe.stopAt = none)
    (up : pipe.brokenAt = none) (turns : Nat) (world : World) (junk : List UInt8)
    (frame : SignedFrame cfg) (rest : List (SignedFrame cfg))
    (ahead : pipe.wire.drop world.position =
      junk ++ stream SignedFrame.bytes (frame :: rest))
    (gap : Gap cfg junk (frame :: rest)) :
    ∃ after : World,
      (runLoop cfg pipe (turns + 1)).run world = (runLoop cfg pipe turns).run after ∧
      after.heads = world.heads ++ [SignedFrame.head (world.position + junk.length, frame)] ∧
      after.base = (react cfg world.base (.frame frame.header.sig)).1 ∧
      world.position < after.position ∧ after.position ≤ pipe.wire.length ∧
      after.position + frame.unread.length =
        world.position + junk.length + frame.bytes.length ∧
      pipe.wire.drop after.position = frame.unread ++ stream SignedFrame.bytes rest := by
  have total : pipe.wire.length - world.position =
      junk.length + (44 + frame.body.length + (stream SignedFrame.bytes rest).length) := by
    rw [← List.length_drop, ahead]
    simp
  have six : cfg.preamble.toList.length = 6 := List.Vector.toList_length _
  obtain ⟨image, asked, content, ran⟩ := runLoop_reads cfg pipe quiet turns world
    (junk.length + 6) (by rw [ahead]; exact Gap.first gap) (by omega)
  have behind : pipe.wire.drop (world.position + (junk.length + 6)) =
      frame.header.encode.toList ++ (frame.body ++ stream SignedFrame.bytes rest) := by
    rw [← List.drop_drop, ahead, ← six, stream_cons, SignedFrame.bytes]
    simp [← List.drop_drop]
  have genuine : FrameHeader.decode image = frame.header := by
    have same : image = frame.header.encode := by
      apply List.Vector.eq
      rw [content, behind, List.take_left' (List.Vector.toList_length _)]
    rw [same, FrameHeader.decode_encode]
  rw [genuine] at ran
  let before := world.seek (world.position + (junk.length + 6) + 38) asked
  obtain ⟨after, ok, settles⟩ := handle_signed cfg pipe quiet up
    (world.position + (junk.length + 6)) frame before
    (show world.position + (junk.length + 6) + 38 + frame.body.length ≤ pipe.wire.length by omega)
  have moved : after.position = world.position + (junk.length + 6) + 38 +
      bodyTaken cfg frame.header := settles.position
  have taken := frame.bodyTaken_le
  have left : frame.unread.length = frame.body.length - bodyTaken cfg frame.header := by
    rw [frame.unread_eq_drop, List.length_drop]
  refine ⟨after, ?_, ?_, ?_, by omega, by omega, ?_, ?_⟩
  · rw [ran, run_bind_ok ok]
  · rw [settles.heads, frame.signed]
    rfl
  · rw [settles.base]
    simp [received, frame.signed, before]
  · rw [SignedFrame.bytes_length, left]
    omega
  · have tail : pipe.wire.drop (world.position + (junk.length + 6) + 38) =
        frame.body ++ stream SignedFrame.bytes rest := by
      rw [← List.drop_drop, behind, List.drop_left' (List.Vector.toList_length _)]
    rw [moved, ← List.drop_drop, tail, List.drop_append_of_le_length taken,
      frame.unread_eq_drop]

/-- Behind the last frame no header is read exactly when no preamble with 38 bytes
behind it is left. -/
theorem runLoop_heads_last (cfg : Config) (pipe : Pipe) (quiet : pipe.stopAt = none) (turns : Nat)
    (world : World) (junk : List UInt8) (onWire : world.position ≤ pipe.wire.length)
    (ahead : pipe.wire.drop world.position = junk) :
    (finalState ((runLoop cfg pipe (turns + 1)).run world)).heads = world.heads ↔
      Gap cfg junk [] := by
  have size : pipe.wire.length - world.position = junk.length := by
    rw [← List.length_drop, ahead]
  constructor
  · intro same offset enough occurs
    obtain ⟨stop, early, first⟩ := FirstEnd.exists_of_endsAt ((endsAt_preamble offset).mpr occurs)
    rw [← ahead] at first
    obtain ⟨header, verdict, longer⟩ := runLoop_keeps cfg pipe quiet turns world stop first
      (by omega)
    have bound := longer.length_le
    rw [same, List.length_append] at bound
    simp at bound
  · intro gap
    apply runLoop_ends cfg pipe quiet turns world onWire
    intro stop first
    by_contra enough
    rw [ahead] at first
    have long := first.1.length_le
    rw [List.Vector.toList_length] at long
    obtain ⟨start, rfl⟩ : ∃ start, stop = start + 6 := ⟨stop - 6, by omega⟩
    exact gap start (by omega) ((endsAt_preamble start).mp first.1)

/-- A preamble that the junk begins is read before the next frame's. -/
theorem runLoop_misreads (cfg : Config) (pipe : Pipe) (quiet : pipe.stopAt = none) (turns : Nat)
    (world : World) (junk : List UInt8) (frame : SignedFrame cfg) (rest : List (SignedFrame cfg))
    (ahead : pipe.wire.drop world.position = junk ++ stream SignedFrame.bytes (frame :: rest))
    (exposed : ¬ Gap cfg junk (frame :: rest)) :
    (finalState ((runLoop cfg pipe (turns + 1)).run world)).heads ≠
      world.heads ++ headsOf (world.position + junk.length) (frame :: rest) := by
  intro same
  obtain ⟨offset, before, occurs⟩ : ∃ offset, offset < junk.length ∧
      OccursAt cfg.preamble.toList (junk ++ cfg.preamble.toList) offset := by
    simpa [Gap] using exposed
  have six : cfg.preamble.toList.length = 6 := List.Vector.toList_length _
  have split := ahead.trans (SignedFrame.stream_preamble junk frame rest)
  have size : pipe.wire.length - world.position = junk.length + 6 + (38 +
      frame.body.length + (stream SignedFrame.bytes rest).length) := by
    rw [← List.length_drop, split]
    simp
    omega
  have early : EndsAt cfg.preamble.toList (pipe.wire.drop world.position) (offset + 6) := by
    rw [endsAt_preamble, split, occursAt_append_right]
    · exact occurs
    · rw [List.length_append]
      omega
  obtain ⟨stop, below, first⟩ := FirstEnd.exists_of_endsAt early
  obtain ⟨header, verdict, longer⟩ := runLoop_keeps cfg pipe quiet turns world stop first
    (by omega)
  rw [same, List.prefix_append_right_inj] at longer
  have place := List.head_eq_of_cons_eq (List.prefix_iff_eq_take.mp longer)
  have exact : world.position + stop = world.position + junk.length + 6 :=
    congrArg Prod.fst place
  omega

/-- The headers still to be read are exactly the genuine ones when nothing left
unread shows a preamble, and only then. -/
theorem runLoop_heads_iff (cfg : Config) (pipe : Pipe) (quiet : pipe.stopAt = none)
    (up : pipe.brokenAt = none) (frames : List (SignedFrame cfg)) :
    ∀ (turns : Nat) (world : World) (junk : List UInt8),
      world.position ≤ pipe.wire.length →
      pipe.wire.drop world.position = junk ++ stream SignedFrame.bytes frames →
      pipe.wire.length - world.position < turns →
      ((finalState ((runLoop cfg pipe turns).run world)).heads =
          world.heads ++ headsOf (world.position + junk.length) frames ↔
        Gap cfg junk frames ∧ Clear cfg frames) := by
  induction frames with
  | nil =>
      intro turns world junk onWire ahead fuel
      obtain ⟨turns, rfl⟩ : ∃ fewer, turns = fewer + 1 := ⟨turns - 1, by omega⟩
      rw [stream_nil, List.append_nil] at ahead
      simp only [headsOf, places, List.map_nil, List.append_nil, Clear, and_true]
      exact runLoop_heads_last cfg pipe quiet turns world junk onWire ahead
  | cons frame rest ih =>
      intro turns world junk onWire ahead fuel
      obtain ⟨turns, rfl⟩ : ∃ fewer, turns = fewer + 1 := ⟨turns - 1, by omega⟩
      by_cases gap : Gap cfg junk (frame :: rest)
      · obtain ⟨after, ran, heads, _, forward, inside, place, tail⟩ :=
          runLoop_frame cfg pipe quiet up turns world junk frame rest ahead gap
        have step := ih turns after frame.unread inside tail (by omega)
        have listed : headsOf (world.position + junk.length) (frame :: rest) =
            [SignedFrame.head (world.position + junk.length, frame)] ++
              headsOf (world.position + junk.length + frame.bytes.length) rest := rfl
        rw [ran, listed, ← List.append_assoc, ← heads, ← place, step]
        simp only [Clear]
        exact ⟨fun clear => ⟨gap, clear⟩, fun both => both.2⟩
      · have misread := runLoop_misreads cfg pipe quiet turns world junk frame rest ahead gap
        exact ⟨fun same => absurd same misread, fun both => absurd both.1 gap⟩

/-- A whole run reads the headers of the stream, each at its own place and no
other bytes as a header, exactly when no unread body shows a preamble. -/
theorem headsOfRun_eq_iff_clear (cfg : Config) (pipe : Pipe) (frames : List (SignedFrame cfg))
    (quiet : pipe.stopAt = none) (up : pipe.brokenAt = none)
    (whole : pipe.wire = stream SignedFrame.bytes frames) :
    headsOfRun cfg pipe = headsOf 0 frames ↔ Clear cfg frames := by
  have gap : Gap cfg [] frames := by
    cases frames with
    | nil => intro offset enough; simp at enough
    | cons frame rest => intro offset before; simp at before
  have step := runLoop_heads_iff cfg pipe quiet up frames (pipe.wire.length - 0 + 1) World.start []
    (Nat.zero_le _) whole (Nat.lt_succ_self _)
  rw [and_iff_right gap] at step
  exact step

end Session

namespace Sample
open Wsac.Sample

/-- A checkpoint, and a regular frame that carries it as its body. -/
def inner : SignedFrame config where
  header := FrameHeader.new config config.checkpointSignature 0 nonce
  body := []
  signed := by decide +kernel
  sized := by decide +kernel
  short := by decide

def outer : SignedFrame config where
  header := FrameHeader.new config config.regularSignature 44 nonce
  body := inner.bytes
  signed := by decide +kernel
  sized := by decide +kernel
  short := by decide +kernel

def pipe : Pipe := Pipe.waiting (stream SignedFrame.bytes [outer]) nonce

theorem headsOfRun_eq_iff_clear_nested :
    Session.headsOfRun config pipe = headsOf 0 [outer] ↔ Clear config [outer] :=
  Session.headsOfRun_eq_iff_clear config pipe [outer] rfl rfl rfl

/-- The body of the only frame on the wire is dispatched as a frame of its own. -/
theorem nested_frame_is_dispatched :
    pipe.wire = stream SignedFrame.bytes [outer] ∧
      Session.headsOfRun config pipe = [(6, outer.header, true), (50, inner.header, true)] ∧
      headsOf 0 [outer] = [(6, outer.header, true)] := by
  decide +kernel

end Sample
end Wsac.Dll
