import Wsac.Service.Turn
import Wsac.Library.Emission

/-! # What a session of the service writes

Whatever arrives and however the session ends: the bytes written are the checkpoint frames of
the log, and behind them at most a preamble whose header could not be written. -/

set_option autoImplicit false

namespace Wsac.Service

open Library Library.Exec

/-- What `FrameWriter.Write` puts on the wire. -/
def FrameHeader.wire (cfg : Config) (header : FrameHeader) : List UInt8 :=
  cfg.preamble.toList ++ header.encode.toList

theorem FrameHeader.wire_length (cfg : Config) (header : FrameHeader) :
    (header.wire cfg).length = 44 := by
  rw [wire, List.length_append, List.Vector.toList_length, List.Vector.toList_length]

/-- `new FrameHeader(FrameSignature.Checkpoint)` -/
def FrameHeader.IsCheckpoint (cfg : Config) (header : FrameHeader) : Prop :=
  ∃ nonce, header = FrameHeader.new cfg cfg.checkpointSignature 0 nonce

def Event.sent? : Event → Option FrameHeader
  | .wrote header => some header
  | _ => none

def World.sent (world : World) : List FrameHeader := world.log.filterMap Event.sent?

theorem World.replies_eq_sent (world : World) :
    world.replies = world.sent.map FrameHeader.signature := by
  rw [World.replies, World.sent, List.map_filterMap]
  congr 1
  funext event
  cases event <;> rfl

def emitter (cfg : Config) : Emitter World FrameHeader UInt8 where
  sent := World.sent
  output := World.written
  wire := FrameHeader.wire cfg
  Genuine := FrameHeader.IsCheckpoint cfg

theorem Seeks.sends {cfg : Config} {before after : World} (seeks : Seeks before after) :
    (emitter cfg).Sends before after := by
  rw [seeks.same]
  exact Emitter.Sends.of_same rfl rfl

theorem record_sends {cfg : Config} (event : Event) (silent : event.sent? = none)
    (world : World) :
    (emitter cfg).Sends world { world with log := world.log ++ [event] } := by
  have same : (world.log ++ [event]).filterMap Event.sent? = world.log.filterMap Event.sent? := by
    rw [List.filterMap_append, List.filterMap_cons_none silent, List.filterMap_nil,
      List.append_nil]
  exact Emitter.Sends.of_same same rfl

/-- One write to the pipe stream, which writes everything or does not return. -/
theorem PipeWriter.write_outcome (client : Client) (bytes : List UInt8) (world : World) :
    (PipeWriter.write client bytes).run world = .error client.refusal world ∨
      (PipeWriter.write client bytes).run world =
        .ok () { world with written := world.written ++ bytes } := by
  rw [PipeWriter.write, run_get_bind]
  split
  · exact Or.inl rfl
  · exact Or.inr rfl

section
variable (cfg : Config) (client : Client)

/-- A program that ends as the emitter wants it. -/
abbrev Emits {α : Type} (program : Worker α) : Prop :=
  Ends (emitter cfg).Sends (emitter cfg).Breaks program

theorem Emits.bind {α β : Type} {program : Worker α} {rest : α → Worker β}
    (first : Emits cfg program) (second : ∀ result, Emits cfg (rest result)) :
    Emits cfg (program >>= rest) :=
  Ends.bind Emitter.Sends.trans Emitter.Sends.trans_breaks first second

theorem Emits.of_seeks {α : Type} {program : Worker α} (seeks : Moves Seeks program) :
    Emits cfg program :=
  seeks.ends (fun _ _ => Seeks.sends) (fun _ _ moved => (Seeks.sends moved).breaks)

theorem Emits.pure {α : Type} (result : α) : Emits cfg (Pure.pure result : Worker α) :=
  Ends.pure Emitter.Sends.refl result

theorem Emits.throw {α : Type} (failure : Failure) :
    Emits cfg (MonadExcept.throw failure : Worker α) :=
  Ends.throw (fun world => (Emitter.Sends.refl world).breaks) failure

theorem record_emits (event : Event) (silent : event.sent? = none) : Emits cfg (record event) :=
  fun world => record_sends event silent world

theorem writeCheckpoint_emits : Emits cfg (FrameWriter.writeCheckpoint cfg client) := by
  intro world
  let header := FrameHeader.new cfg cfg.checkpointSignature 0 (client.nonce world.drawn)
  let drew : World := { world with drawn := world.drawn + 1 }
  have drawing : (FrameWriter.drawNonce client).run world =
      .ok (client.nonce world.drawn) drew := rfl
  have genuine : header.IsCheckpoint cfg := ⟨_, rfl⟩
  have short : (header.wire cfg).length = 44 := FrameHeader.wire_length cfg header
  unfold FrameWriter.writeCheckpoint FrameWriter.write
  rw [run_bind_ok drawing]
  simp only [bind_assoc]
  rcases PipeWriter.write_outcome client cfg.preamble.toList drew with broken | wrote
  · rw [run_bind_error broken]
    exact (Emitter.Sends.of_same rfl rfl : (emitter cfg).Sends world drew).breaks
  · rw [run_bind_ok wrote]
    rcases PipeWriter.write_outcome client header.encode.toList
      { drew with written := drew.written ++ cfg.preamble.toList } with broken | wrote'
    · rw [run_bind_error broken]
      refine Emitter.Breaks.one (emitter cfg) genuine (List.prefix_append _ _) ?_ rfl rfl
      show cfg.preamble.toList.length < (header.wire cfg).length
      rw [short, List.Vector.toList_length]
      decide
    · rw [run_bind_ok wrote']
      have sent : (world.log ++ [Event.wrote header]).filterMap Event.sent? =
          world.sent ++ [header] := by
        rw [List.filterMap_append]
        rfl
      exact Emitter.Sends.one (emitter cfg) genuine sent (List.append_assoc _ _ _)

namespace FrameSession
variable (asm : Assembly)

theorem setState_emits (value : FrameSessionState) : Emits cfg (setState value) :=
  fun world => record_sends (.state value) rfl { world with state := value }

theorem requestCheckpoint_emits : Emits cfg (requestCheckpoint cfg client) := by
  apply Emits.bind cfg (writeCheckpoint_emits cfg client)
  intro _
  exact setState_emits cfg .none

theorem handleAsync_emits (handler : Handler) : Emits cfg (handleAsync cfg client handler) := by
  cases handler with
  | checkpoint =>
      apply Emits.bind cfg (Emits.of_seeks cfg get_seeks)
      intro world
      exact Ends.ite (setState_emits cfg .ready) (writeCheckpoint_emits cfg client)
  | regular => exact record_emits cfg .packet rfl
  | test => exact Emits.of_seeks cfg (handleAsync_test_seeks client cfg)

theorem dispatch_emits (header : FrameHeader) :
    Emits asm.toConfig (dispatch asm client header) := by
  have skips : Emits asm.toConfig (PipeReader.skipAsync client header.dataSize) :=
    Emits.of_seeks asm.toConfig (PipeReader.skipAsync_seeks client _)
  unfold dispatch
  cases findHandler asm header.signature with
  | none => exact skips
  | some handler =>
      apply Emits.bind asm.toConfig (Emits.of_seeks asm.toConfig get_seeks)
      intro world
      apply Ends.ite skips
      apply Emits.bind asm.toConfig (handleAsync_emits asm.toConfig client handler)
      intro _
      exact Emits.of_seeks asm.toConfig (skipRest_seeks client)

theorem receiveFrame_emits : Emits asm.toConfig (receiveFrame asm client) := by
  apply Emits.bind asm.toConfig (Emits.of_seeks asm.toConfig get_seeks)
  intro world
  apply Emits.bind asm.toConfig (record_emits asm.toConfig _ rfl)
  intro _
  apply Emits.bind asm.toConfig
  · apply Emits.bind asm.toConfig (Emits.of_seeks asm.toConfig get_seeks)
    intro world
    apply Emits.bind asm.toConfig (Emits.of_seeks asm.toConfig (PipeReader.read_seeks client 38))
    intro image
    apply Emits.bind asm.toConfig (record_emits asm.toConfig _ rfl)
    intro _
    cases checkHeader asm.toConfig (FrameHeader.decode image) with
    | error failure => exact Emits.throw asm.toConfig failure
    | ok passed => exact Emits.pure asm.toConfig _
  · rintro ⟨header, passed⟩
    apply Ends.ite (requestCheckpoint_emits asm.toConfig client)
    apply Emits.bind asm.toConfig (Emits.of_seeks asm.toConfig (PipeReader.createChild_seeks _))
    intro _
    apply Emits.bind asm.toConfig
    · apply Emits.bind asm.toConfig (record_emits asm.toConfig _ rfl)
      intro _
      exact dispatch_emits client asm header
    · intro _
      exact Emits.of_seeks asm.toConfig PipeReader.releaseChild_seeks

theorem turn_emits (preamble : Bytes 6) : Emits asm.toConfig (turn asm client preamble) := by
  apply Emits.bind asm.toConfig
    (Emits.of_seeks asm.toConfig (receiveBatch_seeks client asm.toConfig 6 preamble false))
  rintro ⟨pushed, found⟩
  apply Ends.ite (Emits.pure asm.toConfig _)
  apply Emits.bind asm.toConfig (receiveFrame_emits client asm)
  intro _
  exact Emits.pure asm.toConfig _

theorem runLoop_emits (turns : Nat) : ∀ preamble : Bytes 6,
    Emits asm.toConfig (runLoop asm client turns preamble) := by
  induction turns with
  | zero => exact fun _ => Emits.throw asm.toConfig _
  | succ turns ih =>
      intro preamble
      apply Emits.bind asm.toConfig
        (Emits.of_seeks asm.toConfig (cancellationRequested_reads client).seeks)
      intro requested
      apply Ends.ite (Emits.pure asm.toConfig _)
      apply Emits.bind asm.toConfig (turn_emits client asm preamble)
      exact ih

theorem runAsyncInternal_emits : Emits asm.toConfig (runAsyncInternal asm client) := by
  apply Emits.bind asm.toConfig (Emits.of_seeks asm.toConfig get_seeks)
  intro world
  exact runLoop_emits client asm _ _

end FrameSession

/-- A part of a frame is too short to be read as one. -/
theorem part_length {tail : List UInt8} (part : (emitter cfg).Part tail) : tail.length < 44 :=
  part.length_lt (by decide) (FrameHeader.wire_length cfg)

/-- The output of a whole session: the frames of its log, and the beginning of one more. -/
theorem FrameSession.session_written (asm : Assembly) (reader : PipeReader) :
    let final := finalState (FrameSession.session asm client reader)
    ∃ tail, (∀ header ∈ final.sent, header.IsCheckpoint asm.toConfig) ∧
      (emitter asm.toConfig).Part tail ∧
      final.written = stream (FrameHeader.wire asm.toConfig) final.sent ++ tail := by
  obtain ⟨new, tail, genuine, part, sent, written⟩ :=
    (runAsyncInternal_emits client asm).moves (fun _ _ => Emitter.Sends.breaks)
      (World.start reader)
  have same : (finalState (FrameSession.session asm client reader)).sent = new := sent
  refine ⟨tail, by rwa [same], part, ?_⟩
  rw [same]
  exact written

end
end Wsac.Service
