import Wsac.Dll.Turn

/-! # The loop of `Session::Run` on any pipe

The stop token may be set at any question and the pipe may break at any write.
A turn that completes has settled its header all the same; a turn that throws
leaves `Base` as it was.  `Reached` are the worlds at the head of the loop. -/

set_option autoImplicit false

namespace Wsac.Dll

open Library Library.Exec

def KeepsBase (before after : World) : Prop := after.base = before.base

theorem KeepsBase.trans (first second third : World) (left : KeepsBase first second)
    (right : KeepsBase second third) : KeepsBase first third := Eq.trans right left

theorem Writes.keepsBase {before after : World} (writes : Writes before after) :
    KeepsBase before after := by
  unfold KeepsBase
  rw [writes]

theorem Seeks.keepsBase {before after : World} (seeks : Seeks before after) :
    KeepsBase before after := by
  unfold KeepsBase
  rw [seeks.same]
  rfl

/-- The headers read so far, as layer 1 sees them. -/
def World.inputs (cfg : Config) (world : World) : List Layer1.Received :=
  world.heads.map fun head => Session.received cfg head.2.1

namespace Session

section
variable (cfg : Config) (pipe : Pipe)

/-! ## Turns that throw -/

theorem writeCheckpoint_keepsBase : Moves KeepsBase (FrameWriter.writeCheckpoint cfg pipe) := by
  apply FrameWriter.writeCheckpoint_moves KeepsBase.trans
  · exact fun _ _ => Writes.keepsBase
  · exact fun _ => rfl
  · exact fun _ _ => rfl

/-- `Base` is set last: whatever throws in a turn throws before. -/
theorem handle_error {offset : Nat} {header : FrameHeader} {world after : World} {failure : Exit}
    (failed : (handle cfg pipe offset header).run world = .error failure after) :
    after.base = world.base := by
  have writing : ∀ {before final : World} {failure : Exit},
      (FrameWriter.writeCheckpoint cfg pipe).run before = .error failure final →
      final.base = before.base := by
    intro before final failure failed
    have kept := writeCheckpoint_keepsBase cfg pipe before
    rw [failed] at kept
    exact kept
  unfold handle at failed
  by_cases invalid : header.validate cfg = false
  · rw [if_pos invalid, run_bind_ok (record_run _ world)] at failed
    rcases run_bind_eq_error.mp failed with failed | ⟨_, middle, _, failed⟩
    · have kept := writing failed
      exact kept
    · rw [setBase_run] at failed
      cases failed
  · rw [if_neg invalid, run_bind_ok (record_run _ world)] at failed
    unfold switch at failed
    cases signal : signalOf cfg header.sig with
    | checkpoint =>
        simp only [signal, handleCheckpointSignal] at failed
        rw [run_get_bind] at failed
        split at failed
        · rw [setBase_run] at failed
          cases failed
        · have kept := writing failed
          exact kept
    | regular =>
        simp only [signal] at failed
        cases failed
    | test =>
        simp only [signal] at failed
        have kept := handleTestSignal_seeks pipe header.dataSize.toNat
          { world with log := world.log ++ [.dispatched offset header] }
        rw [failed] at kept
        exact kept.keepsBase
    | invalid =>
        simp only [signal, handleInvalidSignal] at failed
        have kept := writing failed
        exact kept

/-- A turn that completes: the first preamble, the 38 bytes behind it, their effect. -/
theorem turn_ok {world after : World} (ran : (turn cfg pipe).run world = .ok () after) :
    ∃ (stop asked : Nat) (image : Image),
      FirstEnd cfg.preamble.toList (pipe.wire.drop world.position) stop ∧
      image.toList = (pipe.wire.drop (world.position + stop)).take 38 ∧
      Settles cfg (world.position + stop) (FrameHeader.decode image)
        (world.seek (world.position + stop + 38) asked) after := by
  obtain ⟨_, found, searched, ran⟩ := run_bind_eq_ok.mp ran
  obtain ⟨stop, first, foundIs⟩ :=
    FrameReader.readUntilPreamble_ok pipe _ cfg.preamble_nonempty world searched
  rw [run_get_bind] at ran
  obtain ⟨header, middle, read, ran⟩ := run_bind_eq_ok.mp ran
  obtain ⟨image, middle', taken, done⟩ := run_bind_eq_ok.mp read
  cases done
  obtain ⟨_, moved, content⟩ := PipeReader.read_ok pipe taken
  rw [foundIs] at moved content ran
  refine ⟨stop, middle.asked, image, first, content, ?_⟩
  rw [moved] at ran
  exact handle_ok cfg pipe ran

theorem turn_error {world after : World} {failure : Exit}
    (failed : (turn cfg pipe).run world = .error failure after) : after.base = world.base := by
  have searching := FrameReader.readUntilPreamble_seeks pipe cfg.preamble.toList world
  unfold turn at failed
  rcases run_bind_eq_error.mp failed with failed | ⟨_, found, searched, failed⟩
  · rw [failed] at searching
    exact searching.keepsBase
  · rw [searched] at searching
    rw [run_get_bind] at failed
    have reading := (FrameReader.readHeader_reads cfg pipe).seeks found
    rcases run_bind_eq_error.mp failed with failed | ⟨header, read, headed, failed⟩
    · rw [failed] at reading
      exact Eq.trans reading.keepsBase searching.keepsBase
    · rw [headed] at reading
      exact (handle_error cfg pipe failed).trans
        (Eq.trans reading.keepsBase searching.keepsBase)

/-- The worlds in which the loop of `Run` asks whether to go on. -/
inductive Reached : World → Prop where
  | start : Reached World.start
  | turn {world after : World} (before : Reached world)
      (going : pipe.stopped world.asked = false)
      (ran : (turn cfg pipe).run (world.seek world.position (world.asked + 1)) = .ok () after) :
      Reached after

theorem signalOf_eq_checkpoint (sig : UInt16) :
    signalOf cfg sig = .checkpoint ↔ sig = cfg.checkpointSignature := by
  unfold signalOf
  split
  · simp [*]
  · simp only [*, iff_false]
    split
    · simp
    · split <;> simp

theorem react_ready (base : Base) (received : Layer1.Received) :
    (react cfg base received).1 = .ready ↔
      received = .frame cfg.checkpointSignature ∨ (received ≠ .broken ∧ base = .ready) := by
  cases received with
  | broken => simp [react]
  | frame sig =>
      have told := signalOf_eq_checkpoint cfg sig
      cases signal : signalOf cfg sig with
      | checkpoint =>
          simp only [react, signal]
          cases base <;> simp [told.mp signal]
      | regular | test | invalid =>
          have other : sig ≠ cfg.checkpointSignature := by
            rw [ne_eq, ← told, signal]
            simp
          simp [react, signal, other]

theorem Settles.inputs {offset : Nat} {header : FrameHeader} {before after : World}
    (settles : Settles cfg offset header before after) :
    after.inputs cfg = before.inputs cfg ++ [received cfg header] := by
  unfold World.inputs
  rw [settles.heads, List.map_append, List.map_singleton]

/-- At the head of the loop, `Base` is what the history of headers says. -/
theorem Reached.synced {world : World} (reached : Reached cfg pipe world) :
    world.base = .ready ↔ Layer1.Synced cfg.checkpointSignature (world.inputs cfg) := by
  induction reached with
  | start => simp [World.start, World.inputs, World.heads, Layer1.not_synced_nil]
  | turn _ _ ran ih =>
      obtain ⟨stop, asked, image, _, _, settles⟩ := turn_ok cfg pipe ran
      rw [settles.base, react_ready, settles.inputs, Layer1.synced_append]
      exact or_congr_right (and_congr_right fun _ => ih)

/-- A run ends at a head of the loop, or in a turn that throws. -/
theorem runLoop_reached (turns : Nat) : ∀ world, Reached cfg pipe world →
    ∃ last, Reached cfg pipe last ∧ last.log <+:
      (finalState ((runLoop cfg pipe turns).run world)).log ∧
      (finalState ((runLoop cfg pipe turns).run world)).base = last.base := by
  induction turns with
  | zero => exact fun world reached => ⟨world, reached, List.prefix_refl _, rfl⟩
  | succ turns ih =>
      intro world reached
      rw [runLoop, run_bind_ok (stopRequested_eq pipe world)]
      by_cases stopped : pipe.stopped world.asked = true
      · rw [if_pos stopped]
        exact ⟨world, reached, List.prefix_refl _, rfl⟩
      · rw [if_neg stopped]
        have grown := turn_grows cfg pipe (world.seek world.position (world.asked + 1))
        cases ran : (turn cfg pipe).run (world.seek world.position (world.asked + 1)) with
        | ok _ after =>
            rw [run_bind_ok ran]
            exact ih after (Reached.turn reached (by simpa using stopped) ran)
        | error failure after =>
            rw [ran] at grown
            have kept := turn_error cfg pipe ran
            rw [run_bind_error ran]
            exact ⟨world, reached, grown, kept⟩

end
end Session
end Wsac.Dll
