import Wsac.Dll.Framing

/-! # How the DLL finds the first frame behind garbage

A preamble inside the garbage costs a header of 38 bytes, which may reach into
the first frame but never behind its header.  From there the scanner is in step
with the stream, provided the preamble occurs at the frame starts only. -/

set_option autoImplicit false

namespace Wsac.Dll

open Library Library.Exec

/-- No 38 bytes behind a preamble that starts inside `garbage` pass `Validate`. -/
def Undecodable (cfg : Config) (garbage wire : List UInt8) : Prop :=
  ∀ offset, offset < garbage.length → OccursAt cfg.preamble.toList wire offset →
    ∀ image : Image, image.toList = (wire.drop (offset + 6)).take 38 →
      (FrameHeader.decode image).validate cfg = false

theorem undecodable_of_windows {cfg : Config} {garbage wire : List UInt8}
    (windows : ∀ offset, offset < garbage.length → OccursAt cfg.preamble.toList wire offset →
      ∀ whole : ((wire.drop (offset + 6)).take 38).length = 38,
        (FrameHeader.decode (Bytes.ofList _ whole)).validate cfg = false) :
    Undecodable cfg garbage wire := by
  intro offset inside occurs image exact
  have whole : ((wire.drop (offset + 6)).take 38).length = 38 := by
    rw [← exact, List.Vector.toList_length]
  have same : image = Bytes.ofList _ whole := List.Vector.eq _ _ exact
  rw [same]
  exact windows offset inside occurs whole

def World.dispatched (world : World) : List (Nat × FrameHeader × Bool) :=
  world.heads.filter fun head => head.2.2

def Session.dispatchedOfRun (cfg : Config) (pipe : Pipe) : List (Nat × FrameHeader × Bool) :=
  (finalState ((Session.run cfg pipe).run World.start)).dispatched

section
variable {cfg : Config}

theorem headsOf_dispatched (start : Nat) (frames : List (SignedFrame cfg)) :
    (headsOf start frames).filter (fun head => head.2.2) = headsOf start frames := by
  rw [List.filter_eq_self]
  intro head member
  obtain ⟨place, _, rfl⟩ := List.mem_map.mp member
  rfl

/-- Behind any point inside a frame the next preamble is the next frame's. -/
theorem gap_of_onlyAtStarts {frame : SignedFrame cfg} {rest : List (SignedFrame cfg)}
    (only : OnlyAtStarts cfg.preamble.toList SignedFrame.bytes (frame :: rest)) (skip : Nat)
    (positive : 0 < skip) : Gap cfg (frame.bytes.drop skip) rest := by
  have never : ∀ offset, offset < frame.bytes.length - skip →
      ¬ OccursAt cfg.preamble.toList
        (frame.bytes.drop skip ++ stream SignedFrame.bytes rest) offset := by
    intro offset inside occurs
    refine only.inside (show 0 < skip + offset by omega) (by omega) ?_
    rw [stream_cons, ← occursAt_drop, List.drop_append_of_le_length (by omega)]
    exact occurs
  cases rest with
  | nil =>
      intro offset enough occurs
      rw [List.length_drop] at enough
      rw [stream_nil, List.append_nil] at never
      exact never offset (by omega) occurs
  | cons next rest =>
      intro offset inside occurs
      rw [List.length_drop] at inside
      apply never offset inside
      rw [SignedFrame.stream_preamble, occursAt_append_right]
      · exact occurs
      · rw [List.length_append, List.length_drop]
        omega

theorem clear_of_onlyAtStarts (frames : List (SignedFrame cfg)) :
    OnlyAtStarts cfg.preamble.toList SignedFrame.bytes frames → Clear cfg frames := by
  induction frames with
  | nil => intro _; trivial
  | cons frame rest ih =>
      intro only
      refine ⟨?_, ih (only.tail frame.bytes_nonempty)⟩
      have tail : frame.unread = frame.bytes.drop (44 + Session.bodyTaken cfg frame.header) := by
        rw [frame.unread_eq_drop, SignedFrame.bytes, ← List.append_assoc, ← List.drop_drop,
          List.drop_left' (by simp)]
      rw [tail]
      exact gap_of_onlyAtStarts only _ (by omega)

end

namespace Session

section
variable (cfg : Config) (pipe : Pipe) (quiet : pipe.stopAt = none) (up : pipe.brokenAt = none)
include quiet up

/-- A header that fails validation: its 38 bytes are gone and nothing else is. -/
theorem runLoop_rejects (turns : Nat) (world : World) (stop : Nat)
    (first : FirstEnd cfg.preamble.toList (pipe.wire.drop world.position) stop)
    (enough : world.position + stop + 38 ≤ pipe.wire.length)
    (invalid : ∀ image : Image, image.toList = (pipe.wire.drop (world.position + stop)).take 38 →
      (FrameHeader.decode image).validate cfg = false) :
    ∃ after : World,
      (runLoop cfg pipe (turns + 1)).run world = (runLoop cfg pipe turns).run after ∧
      after.dispatched = world.dispatched ∧ after.position = world.position + stop + 38 := by
  obtain ⟨image, asked, content, ran⟩ :=
    runLoop_reads cfg pipe quiet turns world stop first enough
  have broken := invalid image content
  obtain ⟨after, ok, settles⟩ := handle_broken cfg pipe up (world.position + stop)
    (FrameHeader.decode image) (world.seek (world.position + stop + 38) asked) broken
  refine ⟨after, ?_, ?_, ?_⟩
  · rw [ran, run_bind_ok ok]
  · unfold World.dispatched
    rw [settles.heads, broken, List.filter_append]
    exact List.append_nil _
  · rw [settles.position]
    simp [bodyTaken, broken]

/-- In step with the stream every remaining frame is dispatched. -/
theorem runLoop_in_step (turns : Nat) (world : World) (junk : List UInt8)
    (frames : List (SignedFrame cfg)) (onWire : world.position ≤ pipe.wire.length)
    (ahead : pipe.wire.drop world.position = junk ++ stream SignedFrame.bytes frames)
    (fuel : pipe.wire.length - world.position < turns)
    (gap : Gap cfg junk frames) (clear : Clear cfg frames) :
    (finalState ((runLoop cfg pipe turns).run world)).dispatched =
      world.dispatched ++ headsOf (world.position + junk.length) frames := by
  have heads := (runLoop_heads_iff cfg pipe quiet up frames turns world junk onWire ahead fuel).mpr
    ⟨gap, clear⟩
  unfold World.dispatched
  rw [heads, List.filter_append, headsOf_dispatched]

section
variable (garbage : List UInt8) (frames : List (SignedFrame cfg))
  (whole : pipe.wire = garbage ++ stream SignedFrame.bytes frames)
include whole

omit quiet up in
/-- Without a preamble in the garbage the next one is the first frame's. -/
theorem gap_of_no_preamble {position : Nat} (inside : position ≤ garbage.length)
    (none_ : ¬ ∃ offset, position + offset < garbage.length ∧
      position + offset + 44 ≤ pipe.wire.length ∧
      OccursAt cfg.preamble.toList (pipe.wire.drop position) offset) :
    Gap cfg (garbage.drop position) frames := by
  have total : pipe.wire.length = garbage.length + (stream SignedFrame.bytes frames).length := by
    rw [whole, List.length_append]
  have ahead : pipe.wire.drop position =
      garbage.drop position ++ stream SignedFrame.bytes frames := by
    rw [whole, List.drop_append_of_le_length inside]
  cases frames with
  | nil =>
      intro offset enough occurs
      rw [List.length_drop] at enough
      refine none_ ⟨offset, by omega, by omega, ?_⟩
      rw [ahead, stream_nil, List.append_nil]
      exact occurs
  | cons frame rest =>
      intro offset before occurs
      rw [List.length_drop] at before
      refine none_ ⟨offset, by omega, ?_, ?_⟩
      · rw [stream_cons, List.length_append, SignedFrame.bytes_length] at total
        omega
      · rw [ahead, SignedFrame.stream_preamble, occursAt_append_right]
        · exact occurs
        · rw [List.length_append, List.length_drop, List.Vector.toList_length]
          omega

variable (only : OnlyAtStarts cfg.preamble.toList SignedFrame.bytes frames)
include only

/-- A header read from the garbage ended inside the first frame: that frame is lost. -/
theorem runLoop_past_garbage (turns : Nat) (world : World)
    (beyond : garbage.length < world.position) (within : world.position ≤ garbage.length + 44)
    (onWire : world.position ≤ pipe.wire.length)
    (fuel : pipe.wire.length - world.position < turns) :
    (finalState ((runLoop cfg pipe turns).run world)).dispatched =
      world.dispatched ++ (headsOf garbage.length frames).tail := by
  cases frames with
  | nil =>
      rw [whole, stream_nil, List.append_nil] at onWire
      omega
  | cons frame rest =>
      have skipped : world.position - garbage.length ≤ frame.bytes.length := by
        rw [SignedFrame.bytes_length]
        omega
      have ahead : pipe.wire.drop world.position =
          frame.bytes.drop (world.position - garbage.length) ++ stream SignedFrame.bytes rest := by
        rw [whole, List.drop_append, List.drop_of_length_le (by omega), List.nil_append,
          stream_cons, List.drop_append_of_le_length skipped]
      rw [runLoop_in_step cfg pipe quiet up turns world _ rest onWire ahead fuel
        (gap_of_onlyAtStarts only _ (by omega))
        (clear_of_onlyAtStarts rest (only.tail frame.bytes_nonempty))]
      congr 2
      rw [List.length_drop]
      omega

/-- The induction is on the turns; the cursor stays inside the garbage until a
header reaches over its end or the first frame is found at its own place. -/
theorem runLoop_resync (undecodable : Undecodable cfg garbage pipe.wire) (turns : Nat) :
    ∀ world : World, world.position ≤ garbage.length →
      pipe.wire.length - world.position < turns →
      (finalState ((runLoop cfg pipe turns).run world)).dispatched =
          world.dispatched ++ headsOf garbage.length frames ∨
        (finalState ((runLoop cfg pipe turns).run world)).dispatched =
          world.dispatched ++ (headsOf garbage.length frames).tail := by
  have total : pipe.wire.length = garbage.length + (stream SignedFrame.bytes frames).length := by
    rw [whole, List.length_append]
  induction turns with
  | zero => intro world inside fuel; omega
  | succ turns ih =>
      intro world inside fuel
      by_cases early : ∃ offset, world.position + offset < garbage.length ∧
          world.position + offset + 44 ≤ pipe.wire.length ∧
          OccursAt cfg.preamble.toList (pipe.wire.drop world.position) offset
      · -- a false preamble: the first one of them costs 38 bytes
        obtain ⟨offset, before, enough, occurs⟩ := early
        obtain ⟨stop, below, first⟩ :=
          FirstEnd.exists_of_endsAt ((endsAt_preamble offset).mpr occurs)
        obtain ⟨start, rfl⟩ : ∃ start, stop = start + 6 := by
          have long := first.1.length_le
          rw [List.Vector.toList_length] at long
          exact ⟨stop - 6, by omega⟩
        have false_ : OccursAt cfg.preamble.toList pipe.wire (world.position + start) :=
          occursAt_drop.mp ((endsAt_preamble start).mp first.1)
        obtain ⟨after, ran, kept, moved⟩ := runLoop_rejects cfg pipe quiet up turns world
          (start + 6) first (by omega)
          (fun image content => undecodable _ (by omega) false_ image content)
        rw [ran, ← kept]
        by_cases inGarbage : after.position ≤ garbage.length
        · exact ih after inGarbage (by omega)
        · right
          exact runLoop_past_garbage cfg pipe quiet up garbage frames whole only turns after
            (by omega) (by omega) (by omega) (by omega)
      · -- no false preamble any more: the first frame is found where it starts
        left
        have ahead : pipe.wire.drop world.position =
            garbage.drop world.position ++ stream SignedFrame.bytes frames := by
          rw [whole, List.drop_append_of_le_length inside]
        have place : world.position + (garbage.drop world.position).length = garbage.length := by
          rw [List.length_drop]
          omega
        rw [runLoop_in_step cfg pipe quiet up _ world _ frames (by omega) ahead fuel
          (gap_of_no_preamble cfg pipe garbage frames whole inside early)
          (clear_of_onlyAtStarts frames only), place]

end
end

/-- Behind garbage at most the first frame is lost, and without garbage none. -/
theorem dispatchedOfRun_behind_garbage (cfg : Config) (pipe : Pipe) (garbage : List UInt8)
    (frames : List (SignedFrame cfg)) (quiet : pipe.stopAt = none) (up : pipe.brokenAt = none)
    (whole : pipe.wire = garbage ++ stream SignedFrame.bytes frames)
    (only : OnlyAtStarts cfg.preamble.toList SignedFrame.bytes frames)
    (undecodable : Undecodable cfg garbage pipe.wire) :
    (dispatchedOfRun cfg pipe = headsOf garbage.length frames ∨
      dispatchedOfRun cfg pipe = (headsOf garbage.length frames).tail) ∧
    (garbage = [] → dispatchedOfRun cfg pipe = headsOf 0 frames) := by
  refine ⟨?_, ?_⟩
  · exact runLoop_resync cfg pipe quiet up garbage frames whole only undecodable
      (pipe.wire.length - 0 + 1) World.start (Nat.zero_le _) (Nat.lt_succ_self _)
  · rintro rfl
    have gap : Gap cfg [] frames := by
      cases frames with
      | nil => intro offset enough; simp at enough
      | cons frame rest => intro offset before; simp at before
    exact runLoop_in_step cfg pipe quiet up (pipe.wire.length - 0 + 1) World.start [] frames
      (Nat.zero_le _) whole (Nat.lt_succ_self _) gap (clear_of_onlyAtStarts frames only)

end Session

namespace Sample
open Wsac.Sample

def noisyPipe : Pipe :=
  Pipe.waiting (config.preamble.toList ++ stream SignedFrame.bytes [inner, inner]) nonce

/-- Here the garbage is a preamble, which makes the first frame's header unreadable. -/
theorem dispatchedOfRun_behind_preamble :
    (Session.dispatchedOfRun config noisyPipe = headsOf 6 [inner, inner] ∨
      Session.dispatchedOfRun config noisyPipe = (headsOf 6 [inner, inner]).tail) ∧
    (config.preamble.toList = [] →
      Session.dispatchedOfRun config noisyPipe = headsOf 0 [inner, inner]) := by
  apply Session.dispatchedOfRun_behind_garbage config noisyPipe config.preamble.toList
    [inner, inner] rfl rfl rfl
  · exact onlyAtStarts_of_inside config.preamble_nonempty (by decide +kernel)
  · exact undecodable_of_windows (by decide +kernel)

end Sample
end Wsac.Dll
