import Wsac.Service.Emissions
import Wsac.Library.Triple

/-! # The nonces on the wire

`new FrameHeader(FrameSignature.Checkpoint)` draws a nonce and signs with it.  However a
session goes and ends, the bytes written begin the checkpoints of the first draw, the second
and so on. -/

set_option autoImplicit false
set_option mvcgen.warning false

namespace Wsac.Service

open Library Library.Exec Std.Do

/-- The header that is made of a draw. -/
def Client.checkpoint (cfg : Config) (client : Client) (draw : Nat) : FrameHeader :=
  FrameHeader.new cfg cfg.checkpointSignature 0 (client.nonce draw)

section
variable (cfg : Config) (client : Client)

def Client.InStep (world : World) : Prop :=
  Library.InStep (FrameHeader.wire cfg) (client.checkpoint cfg) world.sent world.written
    world.drawn

def Client.Torn (world : World) : Prop :=
  Library.Torn (FrameHeader.wire cfg) (client.checkpoint cfg) world.sent world.written world.drawn

theorem Client.InStep.seeks {first last : World} (seeks : Seeks first last)
    (held : client.InStep cfg first) : client.InStep cfg last := by
  rw [seeks.same]
  exact held

variable {cfg client} in
theorem Client.InStep.torn {world : World} (held : client.InStep cfg world) :
    client.Torn cfg world := Library.InStep.torn held

/-- A program that only reads. -/
theorem draws_of_seeks {α : Type} {program : Worker α} (seeks : Moves Seeks program) :
    ⦃fun world => ⌜client.InStep cfg world⌝⦄ program
    ⦃post⟨fun _ world => ⌜client.InStep cfg world⌝, fun _ world => ⌜client.Torn cfg world⌝⟩⦄ :=
  triple_of_moves seeks (fun _ _ => Client.InStep.seeks cfg client) (fun _ held => held.torn)

/-- What is recorded of anything but a frame changes no output. -/
theorem record_draws (event : Event) (silent : event.sent? = none) :
    ⦃fun world => ⌜client.InStep cfg world⌝⦄ record event
    ⦃post⟨fun _ world => ⌜client.InStep cfg world⌝, fun _ world => ⌜client.Torn cfg world⌝⟩⦄ := by
  rw [triple_iff]
  intro world held
  have same : (world.log ++ [event]).filterMap Event.sent? = world.sent := by
    rw [List.filterMap_append, List.filterMap_cons_none silent, List.filterMap_nil,
      List.append_nil]
    rfl
  have kept : Library.InStep (FrameHeader.wire cfg) (client.checkpoint cfg)
      ((world.log ++ [event]).filterMap Event.sent?) world.written world.drawn := by
    rw [same]
    exact held
  exact kept

theorem writeCheckpoint_draws :
    ⦃fun world => ⌜client.InStep cfg world⌝⦄ FrameWriter.writeCheckpoint cfg client
    ⦃post⟨fun _ world => ⌜client.InStep cfg world⌝, fun _ world => ⌜client.Torn cfg world⌝⟩⦄ := by
  rw [triple_iff]
  intro world held
  let header := FrameHeader.new cfg cfg.checkpointSignature 0 (client.nonce world.drawn)
  let drew : World := { world with drawn := world.drawn + 1 }
  have drawing : (FrameWriter.drawNonce client).run world =
      .ok (client.nonce world.drawn) drew := rfl
  unfold FrameWriter.writeCheckpoint FrameWriter.write
  rw [run_bind_ok drawing]
  simp only [bind_assoc]
  rcases PipeWriter.write_outcome client cfg.preamble.toList drew with broken | wrote
  · rw [run_bind_error broken]
    have torn := Library.InStep.tear held List.nil_prefix
    rw [List.append_nil] at torn
    exact torn
  · rw [run_bind_ok wrote]
    rcases PipeWriter.write_outcome client header.encode.toList
      { drew with written := drew.written ++ cfg.preamble.toList } with broken | wrote'
    · rw [run_bind_error broken]
      exact Library.InStep.tear held (List.prefix_append _ _)
    · rw [run_bind_ok wrote']
      have sent : (world.log ++ [Event.wrote header]).filterMap Event.sent? =
          world.sent ++ [header] := by
        rw [List.filterMap_append]
        rfl
      have next : Library.InStep (FrameHeader.wire cfg) (client.checkpoint cfg)
          (world.sent ++ [header]) (world.written ++ header.wire cfg) (world.drawn + 1) :=
        Library.InStep.next held
      rw [← sent, FrameHeader.wire, ← List.append_assoc] at next
      exact next

namespace FrameSession
variable (asm : Assembly)

theorem setState_draws (value : FrameSessionState) :
    ⦃fun world => ⌜client.InStep cfg world⌝⦄ setState value
    ⦃post⟨fun _ world => ⌜client.InStep cfg world⌝, fun _ world => ⌜client.Torn cfg world⌝⟩⦄ := by
  have recorded := record_draws cfg client (.state value) rfl
  mvcgen [setState, recorded]

theorem handleFrameAsync_draws (offset : Nat) (header : FrameHeader) :
    ⦃fun world => ⌜client.InStep asm.toConfig world⌝⦄ handleFrameAsync asm client offset header
    ⦃post⟨fun _ world => ⌜client.InStep asm.toConfig world⌝,
      fun _ world => ⌜client.Torn asm.toConfig world⌝⟩⦄ := by
  have entered := record_draws asm.toConfig client (.entered offset header) rfl
  have packet := record_draws asm.toConfig client .packet rfl
  have sets := setState_draws asm.toConfig client
  have checkpoint := writeCheckpoint_draws asm.toConfig client
  have skips := fun size => draws_of_seeks asm.toConfig client
    (PipeReader.skipAsync_seeks client size)
  mvcgen [handleFrameAsync, dispatch, handleAsync, skipRest, packetSession, entered, packet, sets,
    checkpoint, skips]

theorem receiveFrame_draws :
    ⦃fun world => ⌜client.InStep asm.toConfig world⌝⦄ receiveFrame asm client
    ⦃post⟨fun _ world => ⌜client.InStep asm.toConfig world⌝,
      fun _ world => ⌜client.Torn asm.toConfig world⌝⟩⦄ := by
  have received := fun offset => record_draws asm.toConfig client (.received offset) rfl
  have checked := fun offset header passed =>
    record_draws asm.toConfig client (.checked offset header passed) rfl
  have image := draws_of_seeks asm.toConfig client (PipeReader.read_seeks client 38)
  have child := fun size => draws_of_seeks asm.toConfig client (PipeReader.createChild_seeks size)
  have release := draws_of_seeks asm.toConfig client PipeReader.releaseChild_seeks
  have sets := setState_draws asm.toConfig client
  have checkpoint := writeCheckpoint_draws asm.toConfig client
  have handled := handleFrameAsync_draws client asm
  mvcgen [receiveFrame, receiveHeader, readHeader, requestCheckpoint, received, checked, image,
    child, release, sets, checkpoint, handled]
  case vc4 _ _ _ _ _ _ world held => exact Client.InStep.torn held

theorem runLoop_draws (turns : Nat) : ∀ preamble : Bytes 6,
    ⦃fun world => ⌜client.InStep asm.toConfig world⌝⦄ runLoop asm client turns preamble
    ⦃post⟨fun _ world => ⌜client.InStep asm.toConfig world⌝,
      fun _ world => ⌜client.Torn asm.toConfig world⌝⟩⦄ := by
  induction turns with
  | zero =>
      intro preamble
      unfold runLoop
      mvcgen
      case vc1 world held => exact held.torn
  | succ turns ih =>
      intro preamble
      have asks := draws_of_seeks asm.toConfig client (cancellationRequested_reads client).seeks
      have batch := draws_of_seeks asm.toConfig client
        (receiveBatch_seeks client asm.toConfig 6 preamble false)
      have frame := receiveFrame_draws client asm
      unfold runLoop
      mvcgen [turn, asks, batch, frame, ih]

/-- In a whole session every checkpoint is made of a draw of its own, in the order of the
draws; what has been written is the beginning of all of them. -/
theorem session_draws (reader : PipeReader) :
    let final : World := finalState (session asm client reader)
    final.sent = (List.range final.sent.length).map (client.checkpoint asm.toConfig) ∧
      final.sent.length ≤ final.drawn ∧ final.drawn ≤ final.sent.length + 1 ∧
      stream (FrameHeader.wire asm.toConfig) final.sent <+: final.written ∧
      final.written <+: stream (FrameHeader.wire asm.toConfig)
        ((List.range final.drawn).map (client.checkpoint asm.toConfig)) := by
  have loop := triple_weaken
    (runLoop_draws client asm (client.wire.length + 1) (List.Vector.replicate 6 0))
    (fun _ held => held) (fun _ _ held => held.torn) (fun _ _ torn => torn)
  have torn : client.Torn asm.toConfig (finalState (session asm client reader)) :=
    final_of_triple loop (show client.InStep asm.toConfig (World.start reader) from InStep.start)
  obtain ⟨sent, least, most⟩ := Library.Torn.sent_eq torn
  exact ⟨sent, least, most, Library.Torn.stream_prefix torn, Library.Torn.output_prefix torn⟩

end FrameSession
end
end Wsac.Service
