import Wsac.Dll.Turn
import Wsac.Library.Emission

/-! # What a session of the DLL writes

Whatever arrives, however `WriteFile` cuts the buffers and wherever the pipe breaks: the bytes
written are the checkpoint frames of the log, one behind the other, and behind them at most
the beginning of one more. -/

set_option autoImplicit false

namespace Wsac.Dll

open Library Library.Exec

/-- What `FrameWriter::Write` puts on the wire. -/
def FrameHeader.wire (cfg : Config) (header : FrameHeader) : List UInt8 :=
  cfg.preamble.toList ++ header.encode.toList

theorem FrameHeader.wire_length (cfg : Config) (header : FrameHeader) :
    (header.wire cfg).length = 44 := by
  rw [wire, List.length_append, List.Vector.toList_length, List.Vector.toList_length]

/-- Built by `WriteCheckpoint`. -/
def FrameHeader.IsCheckpoint (cfg : Config) (header : FrameHeader) : Prop :=
  ∃ nonce, header = FrameHeader.new cfg cfg.checkpointSignature 0 nonce

def Event.sent? : Event → Option FrameHeader
  | .rejected _ _ => none
  | .dispatched _ _ => none
  | .base _ => none
  | .wrote header => some header

def World.sent (world : World) : List FrameHeader := world.log.filterMap Event.sent?

theorem World.replies_eq_sent (world : World) :
    world.replies = world.sent.map FrameHeader.sig := by
  rw [World.replies, World.sent, List.map_filterMap]
  congr 1
  funext event
  cases event <;> rfl

def emitter (cfg : Config) : Emitter World FrameHeader UInt8 where
  sent := World.sent
  output := World.written
  wire := FrameHeader.wire cfg
  Genuine := FrameHeader.IsCheckpoint cfg

theorem Seeks.sends {cfg : Config} {before after : World} (seeks : Seeks before after) :
    (emitter cfg).Sends before after := by
  rw [seeks.same]
  exact Emitter.Sends.of_same rfl rfl

theorem record_sends {cfg : Config} (event : Event) (silent : event.sent? = none)
    (world : World) :
    (emitter cfg).Sends world { world with log := world.log ++ [event] } := by
  have same : (world.log ++ [event]).filterMap Event.sent? = world.log.filterMap Event.sent? := by
    rw [List.filterMap_append, List.filterMap_cons_none silent, List.filterMap_nil,
      List.append_nil]
  exact Emitter.Sends.of_same same rfl

namespace PipeWriter
variable (pipe : Pipe)

theorem writeLoop_full {v : List UInt8} {i : Nat} (full : ¬ i < v.length) (turns : Nat)
    (world : World) : (writeLoop pipe v turns i).run world = .ok () world := by
  cases turns with
  | zero =>
      rw [writeLoop, if_neg full]
      rfl
  | succ turns =>
      rw [writeLoop, if_neg full]
      rfl

/-- A `WriteFile` takes nothing, or it takes a part of what is left. -/
theorem writeLoop_turn {v : List UInt8} (small : v.length < 2 ^ 32) {i : Nat}
    (filling : i < v.length) (turns : Nat) (world : World) :
    (pipe.refuses world = true ∧
      (writeLoop pipe v (turns + 1) i).run world = .error pipe.refusal world) ∨
    ∃ count, 0 < count ∧ i + count ≤ v.length ∧
      (writeLoop pipe v (turns + 1) i).run world =
        (writeLoop pipe v turns (i + count)).run
          { world with written := world.written ++ (v.drop i).take count } := by
  have request : (v.length - i) % 2 ^ 32 = v.length - i := Nat.mod_eq_of_lt (by omega)
  have positive := pipe.accepted_pos world.written.length (v.length - i) (by omega)
  have bound := pipe.accepted_le world.written.length (v.length - i)
  have offset : (i + pipe.accepted world.written.length (v.length - i)) % 2 ^ 32 =
      i + pipe.accepted world.written.length (v.length - i) := Nat.mod_eq_of_lt (by omega)
  rw [writeLoop, if_pos filling, request]
  rcases writeFile_outcome pipe (v.drop i) (v.length - i) world with ⟨refused, failed⟩ | wrote
  · exact Or.inl ⟨refused, run_bind_error failed⟩
  · refine Or.inr ⟨pipe.accepted world.written.length (v.length - i), positive, by omega, ?_⟩
    rw [run_bind_ok wrote, offset]

/-- A `Write` that throws has sent a part of its buffer. -/
theorem writeLoop_error {v : List UInt8} (small : v.length < 2 ^ 32) {failure : Exit}
    (turns : Nat) : ∀ (i : Nat) (world after : World),
      (writeLoop pipe v turns i).run world = .error failure after →
      ∃ count, i + count < v.length ∧
        after = { world with written := world.written ++ (v.drop i).take count } := by
  have nothing : ∀ (i : Nat) (world : World), i < v.length →
      ∃ count, i + count < v.length ∧
        world = { world with written := world.written ++ (v.drop i).take count } :=
    fun i world filling => ⟨0, filling, by rw [List.take_zero, List.append_nil]⟩
  have filling : ∀ (turns i : Nat) (world after : World),
      (writeLoop pipe v turns i).run world = .error failure after → i < v.length := by
    intro turns i world after failed
    by_contra full
    rw [writeLoop_full pipe full] at failed
    cases failed
  induction turns with
  | zero =>
      intro i world after failed
      have more := filling 0 i world after failed
      rw [writeLoop, if_pos more] at failed
      cases failed
      exact nothing i world more
  | succ turns ih =>
      intro i world after failed
      have more := filling (turns + 1) i world after failed
      rcases writeLoop_turn pipe small more turns world with ⟨_, broke⟩ | ⟨first, _, _, wrote⟩
      · rw [broke] at failed
        cases failed
        exact nothing i world more
      · rw [wrote] at failed
        obtain ⟨count, short, same⟩ := ih _ _ _ failed
        refine ⟨first + count, by omega, ?_⟩
        rw [same]
        simp only [List.append_assoc, ← List.drop_drop, List.take_add]

theorem write_error {v : List UInt8} (small : v.length < 2 ^ 32) {world after : World}
    {failure : Exit} (failed : (write pipe v).run world = .error failure after) :
    ∃ count, count < v.length ∧
      after = { world with written := world.written ++ v.take count } := by
  obtain ⟨count, short, same⟩ :=
    writeLoop_error pipe small v.length 0 world after failed
  exact ⟨count, by omega, by rwa [List.drop_zero] at same⟩

end PipeWriter

section
variable (cfg : Config) (pipe : Pipe)

theorem FrameWriter.write_ok {header : FrameHeader} {world after : World}
    (ran : (FrameWriter.write cfg pipe header).run world = .ok () after) :
    after = { world with written := world.written ++ header.wire cfg } := by
  obtain ⟨_, middle, first, second⟩ := run_bind_eq_ok.mp ran
  rw [(PipeWriter.write_ok pipe second).2, (PipeWriter.write_ok pipe first).2]
  simp only [FrameHeader.wire, List.append_assoc]

/-- A frame that is not written to its end: the pipe broke in the preamble or in the header. -/
theorem FrameWriter.write_error {header : FrameHeader} {world after : World} {failure : Exit}
    (failed : (FrameWriter.write cfg pipe header).run world = .error failure after) :
    ∃ tail, tail <+: header.wire cfg ∧ tail.length < 44 ∧
      after = { world with written := world.written ++ tail } := by
  rcases run_bind_eq_error.mp failed with failed | ⟨_, middle, first, failed⟩
  · have six : cfg.preamble.toList.length = 6 := List.Vector.toList_length _
    obtain ⟨count, short, same⟩ := PipeWriter.write_error pipe (by rw [six]; decide) failed
    refine ⟨cfg.preamble.toList.take count, ?_, ?_, same⟩
    · exact (List.take_prefix _ _).trans (List.prefix_append _ _)
    · rw [List.length_take]
      omega
  · have size : header.encode.toList.length = 38 := List.Vector.toList_length _
    have six : cfg.preamble.toList.length = 6 := List.Vector.toList_length _
    obtain ⟨count, short, same⟩ := PipeWriter.write_error pipe (by rw [size]; decide) failed
    refine ⟨cfg.preamble.toList ++ header.encode.toList.take count, ?_, ?_, ?_⟩
    · exact (List.prefix_append_right_inj _).mpr (List.take_prefix _ _)
    · rw [List.length_append, List.length_take]
      omega
    · rw [same, (PipeWriter.write_ok pipe first).2]
      simp only [List.append_assoc]

/-- A program that ends as the emitter wants it. -/
abbrev Emits {α : Type} (program : Worker α) : Prop :=
  Ends (emitter cfg).Sends (emitter cfg).Breaks program

theorem Emits.bind {α β : Type} {program : Worker α} {rest : α → Worker β}
    (first : Emits cfg program) (second : ∀ result, Emits cfg (rest result)) :
    Emits cfg (program >>= rest) :=
  Ends.bind Emitter.Sends.trans Emitter.Sends.trans_breaks first second

theorem Emits.of_seeks {α : Type} {program : Worker α} (seeks : Moves Seeks program) :
    Emits cfg program :=
  seeks.ends (fun _ _ => Seeks.sends) (fun _ _ moved => (Seeks.sends moved).breaks)

theorem Emits.pure {α : Type} (result : α) : Emits cfg (Pure.pure result : Worker α) :=
  Ends.pure Emitter.Sends.refl result

theorem writeCheckpoint_emits : Emits cfg (FrameWriter.writeCheckpoint cfg pipe) := by
  apply Ends.intro
  · intro world _ after ran
    unfold FrameWriter.writeCheckpoint at ran
    rw [run_bind_ok (Session.drawNonce_run pipe world)] at ran
    obtain ⟨_, middle, wrote, recorded⟩ := run_bind_eq_ok.mp ran
    cases recorded
    rw [FrameWriter.write_ok cfg pipe wrote]
    let header := FrameHeader.new cfg cfg.checkpointSignature 0 (pipe.nonce world.drawn)
    have sent : (world.log ++ [Event.wrote header]).filterMap Event.sent? =
        world.sent ++ [header] := by
      rw [List.filterMap_append]
      rfl
    exact Emitter.Sends.one (emitter cfg) ⟨_, rfl⟩ sent rfl
  · intro world failure after failed
    unfold FrameWriter.writeCheckpoint at failed
    rw [run_bind_ok (Session.drawNonce_run pipe world)] at failed
    rcases run_bind_eq_error.mp failed with failed | ⟨_, middle, _, failed⟩
    · obtain ⟨tail, begins, short, same⟩ := FrameWriter.write_error cfg pipe failed
      rw [same]
      refine Emitter.Breaks.one (emitter cfg) ⟨_, rfl⟩ begins ?_ rfl rfl
      show tail.length < (FrameHeader.wire cfg _).length
      rw [FrameHeader.wire_length]
      exact short
    · cases failed

namespace Session

theorem setBase_emits (value : Base) : Emits cfg (setBase value) := by
  intro world
  rw [setBase_run]
  exact record_sends (.base value) rfl { world with base := value }

theorem switch_emits (header : FrameHeader) : Emits cfg (switch cfg pipe header) := by
  unfold switch
  cases signalOf cfg header.sig with
  | checkpoint =>
      apply Emits.bind cfg (Emits.of_seeks cfg Reads.get.seeks)
      intro world
      exact Ends.ite (setBase_emits cfg .ready) (writeCheckpoint_emits cfg pipe)
  | regular => exact Emits.pure cfg ()
  | test => exact Emits.of_seeks cfg (handleTestSignal_seeks pipe _)
  | invalid => exact writeCheckpoint_emits cfg pipe

theorem handle_emits (offset : Nat) (header : FrameHeader) :
    Emits cfg (handle cfg pipe offset header) := by
  have recorded : ∀ event : Event, event.sent? = none → Emits cfg (record event) := by
    intro event silent world
    exact record_sends event silent world
  unfold handle
  apply Ends.ite
  · apply Emits.bind cfg (recorded _ rfl)
    intro _
    apply Emits.bind cfg (writeCheckpoint_emits cfg pipe)
    intro _
    exact setBase_emits cfg .none
  · apply Emits.bind cfg (recorded _ rfl)
    intro _
    exact switch_emits cfg pipe header

theorem turn_emits : Emits cfg (turn cfg pipe) := by
  apply Emits.bind cfg
    (Emits.of_seeks cfg (FrameReader.readUntilPreamble_seeks pipe cfg.preamble.toList))
  intro _
  apply Emits.bind cfg (Emits.of_seeks cfg Reads.get.seeks)
  intro world
  apply Emits.bind cfg (Emits.of_seeks cfg (FrameReader.readHeader_reads cfg pipe).seeks)
  intro header
  exact handle_emits cfg pipe world.position header

theorem runLoop_emits (turns : Nat) : Emits cfg (runLoop cfg pipe turns) := by
  induction turns with
  | zero => exact Ends.throw (fun world => (Emitter.Sends.refl world).breaks) _
  | succ turns ih =>
      apply Emits.bind cfg (Emits.of_seeks cfg (stopRequested_reads pipe).seeks)
      intro stopped
      apply Ends.ite (Emits.pure cfg ())
      apply Emits.bind cfg (turn_emits cfg pipe)
      intro _
      exact ih

theorem run_emits : Emits cfg (run cfg pipe) := by
  apply Emits.bind cfg (Emits.of_seeks cfg Reads.get.seeks)
  intro world
  exact runLoop_emits cfg pipe _

end Session

/-- A part of a frame is too short to be read as one. -/
theorem part_length {tail : List UInt8} (part : (emitter cfg).Part tail) : tail.length < 44 :=
  part.length_lt (by decide) (FrameHeader.wire_length cfg)

/-- The output of a whole run: the frames of its log, and the beginning of one more. -/
theorem Session.run_written :
    let final := finalState ((Session.run cfg pipe).run World.start)
    ∃ tail, (∀ header ∈ final.sent, header.IsCheckpoint cfg) ∧ (emitter cfg).Part tail ∧
      final.written = stream (FrameHeader.wire cfg) final.sent ++ tail := by
  obtain ⟨new, tail, genuine, part, sent, written⟩ :=
    (run_emits cfg pipe).moves (fun _ _ => Emitter.Sends.breaks) World.start
  have same : (finalState ((Session.run cfg pipe).run World.start)).sent = new := sent
  refine ⟨tail, by rwa [same], part, ?_⟩
  rw [same]
  exact written

end
end Wsac.Dll
