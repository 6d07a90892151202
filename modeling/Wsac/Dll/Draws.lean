import Wsac.Dll.Emissions
import Wsac.Dll.Loop
import Wsac.Library.Triple

/-! # The nonces on the wire

`WriteCheckpoint` draws a nonce and signs with it.  Whatever arrives and wherever the pipe
breaks, the bytes written begin the checkpoints of its first draw, its second and so on.  The
one draw of the static null header is not among these. -/

set_option autoImplicit false
set_option mvcgen.warning false

namespace Wsac.Dll

open Library Library.Exec Std.Do

/-- The header that `WriteCheckpoint` makes of a draw. -/
def Pipe.checkpoint (cfg : Config) (pipe : Pipe) (draw : Nat) : FrameHeader :=
  FrameHeader.new cfg cfg.checkpointSignature 0 (pipe.nonce draw)

section
variable (cfg : Config) (pipe : Pipe)

def Pipe.InStep (world : World) : Prop :=
  Library.InStep (FrameHeader.wire cfg) (pipe.checkpoint cfg) world.sent world.written world.drawn

def Pipe.Torn (world : World) : Prop :=
  Library.Torn (FrameHeader.wire cfg) (pipe.checkpoint cfg) world.sent world.written world.drawn

theorem Pipe.InStep.seeks {first last : World} (seeks : Seeks first last)
    (held : pipe.InStep cfg first) : pipe.InStep cfg last := by
  rw [seeks.same]
  exact held

variable {cfg pipe} in
theorem Pipe.InStep.torn {world : World} (held : pipe.InStep cfg world) : pipe.Torn cfg world :=
  Library.InStep.torn held

/-- A program that only reads. -/
theorem draws_of_seeks {α : Type} {program : Worker α} (seeks : Moves Seeks program) :
    ⦃fun world => ⌜pipe.InStep cfg world⌝⦄ program
    ⦃post⟨fun _ world => ⌜pipe.InStep cfg world⌝, fun _ world => ⌜pipe.Torn cfg world⌝⟩⦄ :=
  triple_of_moves seeks (fun _ _ => Pipe.InStep.seeks cfg pipe) (fun _ held => held.torn)

/-- What is recorded of anything but a frame changes no output. -/
theorem record_draws (event : Event) (silent : event.sent? = none) :
    ⦃fun world => ⌜pipe.InStep cfg world⌝⦄ record event
    ⦃post⟨fun _ world => ⌜pipe.InStep cfg world⌝, fun _ world => ⌜pipe.Torn cfg world⌝⟩⦄ := by
  rw [triple_iff]
  intro world held
  have same : (world.log ++ [event]).filterMap Event.sent? = world.sent := by
    rw [List.filterMap_append, List.filterMap_cons_none silent, List.filterMap_nil,
      List.append_nil]
    rfl
  have kept : Library.InStep (FrameHeader.wire cfg) (pipe.checkpoint cfg)
      ((world.log ++ [event]).filterMap Event.sent?) world.written world.drawn := by
    rw [same]
    exact held
  exact kept

theorem writeCheckpoint_draws :
    ⦃fun world => ⌜pipe.InStep cfg world⌝⦄ FrameWriter.writeCheckpoint cfg pipe
    ⦃post⟨fun _ world => ⌜pipe.InStep cfg world⌝, fun _ world => ⌜pipe.Torn cfg world⌝⟩⦄ := by
  rw [triple_iff]
  intro world held
  cases ended : (FrameWriter.writeCheckpoint cfg pipe).run world with
  | ok _ after =>
      unfold FrameWriter.writeCheckpoint at ended
      rw [run_bind_ok (Session.drawNonce_run pipe world)] at ended
      obtain ⟨_, middle, wrote, recorded⟩ := run_bind_eq_ok.mp ended
      cases recorded
      rw [FrameWriter.write_ok cfg pipe wrote]
      have sent : (world.log ++ [Event.wrote (pipe.checkpoint cfg world.drawn)]).filterMap
          Event.sent? = world.sent ++ [pipe.checkpoint cfg world.drawn] := by
        rw [List.filterMap_append]
        rfl
      have next := Library.InStep.next held
      rw [← sent] at next
      exact next
  | error failure after =>
      unfold FrameWriter.writeCheckpoint at ended
      rw [run_bind_ok (Session.drawNonce_run pipe world)] at ended
      rcases run_bind_eq_error.mp ended with failed | ⟨_, middle, _, failed⟩
      · obtain ⟨tail, begins, _, same⟩ := FrameWriter.write_error cfg pipe failed
        rw [same]
        exact Library.InStep.tear held begins
      · cases failed

namespace Session

theorem setBase_draws (value : Base) :
    ⦃fun world => ⌜pipe.InStep cfg world⌝⦄ setBase value
    ⦃post⟨fun _ world => ⌜pipe.InStep cfg world⌝, fun _ world => ⌜pipe.Torn cfg world⌝⟩⦄ := by
  have recorded := record_draws cfg pipe (.base value) rfl
  mvcgen [setBase, recorded]

theorem turn_draws :
    ⦃fun world => ⌜pipe.InStep cfg world⌝⦄ turn cfg pipe
    ⦃post⟨fun _ world => ⌜pipe.InStep cfg world⌝, fun _ world => ⌜pipe.Torn cfg world⌝⟩⦄ := by
  have search := draws_of_seeks cfg pipe
    (FrameReader.readUntilPreamble_seeks pipe cfg.preamble.toList)
  have header := draws_of_seeks cfg pipe (FrameReader.readHeader_reads cfg pipe).seeks
  have body := fun size => draws_of_seeks cfg pipe (handleTestSignal_seeks pipe size)
  have rejected := fun offset header => record_draws cfg pipe (.rejected offset header) rfl
  have dispatched := fun offset header => record_draws cfg pipe (.dispatched offset header) rfl
  have checkpoint := writeCheckpoint_draws cfg pipe
  have sets := setBase_draws cfg pipe
  mvcgen [turn, handle, switch, handleCheckpointSignal, handleRegularSignal, handleInvalidSignal,
    search, header, body, rejected, dispatched, checkpoint, sets]

theorem runLoop_draws (turns : Nat) :
    ⦃fun world => ⌜pipe.InStep cfg world⌝⦄ runLoop cfg pipe turns
    ⦃post⟨fun _ world => ⌜pipe.InStep cfg world⌝, fun _ world => ⌜pipe.Torn cfg world⌝⟩⦄ := by
  induction turns with
  | zero =>
      unfold runLoop
      mvcgen
      case vc1 world held => exact held.torn
  | succ turns ih =>
      have asks := draws_of_seeks cfg pipe (stopRequested_reads pipe).seeks
      have once := turn_draws cfg pipe
      unfold runLoop
      mvcgen [asks, once, ih]

/-- In a whole run every checkpoint is made of a draw of its own, in the order of the draws of
`WriteCheckpoint`; what has been written, in whatever pieces, is the beginning of all of them. -/
theorem run_draws :
    let final : World := finalState ((run cfg pipe).run World.start)
    final.sent = (List.range final.sent.length).map (pipe.checkpoint cfg) ∧
      final.sent.length ≤ final.drawn ∧ final.drawn ≤ final.sent.length + 1 ∧
      stream (FrameHeader.wire cfg) final.sent <+: final.written ∧
      final.written <+:
        stream (FrameHeader.wire cfg) ((List.range final.drawn).map (pipe.checkpoint cfg)) := by
  have loop := triple_weaken (runLoop_draws cfg pipe (pipe.wire.length + 1)) (fun _ held => held)
    (fun _ _ held => held.torn) (fun _ _ torn => torn)
  have torn : pipe.Torn cfg (finalState ((run cfg pipe).run World.start)) :=
    final_of_triple loop (show pipe.InStep cfg World.start from InStep.start)
  obtain ⟨sent, least, most⟩ := Library.Torn.sent_eq torn
  exact ⟨sent, least, most, Library.Torn.stream_prefix torn, Library.Torn.output_prefix torn⟩

end Session
end
end Wsac.Dll
