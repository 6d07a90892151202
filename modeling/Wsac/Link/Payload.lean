import Wsac.Dll.Framing
import Wsac.Dll.Writers
import Wsac.Service.Framing

/-! # Test data across the pipe

For a checkpoint and for test data the DLL's `FrameWriter` puts one signed frame on the wire.
The DLL's own session finds each of them and nothing else, whatever the bytes of the bodies are;
the service does as long as each of its skips ends where the body does. -/

set_option autoImplicit false

namespace Wsac

open Library Library.Exec

namespace Dll

theorem gap_nil {cfg : Config} (frames : List (SignedFrame cfg)) : Gap cfg [] frames := by
  cases frames with
  | nil => exact fun offset enough => absurd enough (by simp)
  | cons frame rest => exact fun offset before => absurd before (Nat.not_lt_zero _)

/-- An operation whose bytes are one frame. -/
abbrev PlainOperation := {operation : Operation // operation.Plain}

namespace PlainOperation

/-- The frame of an operation that draws the given nonce. -/
def frame (cfg : Config) (nonce : Nonce) : PlainOperation → SignedFrame cfg
  | ⟨.checkpoint, _⟩ =>
      { header := FrameHeader.new cfg cfg.checkpointSignature 0 nonce
        body := []
        signed := FrameHeader.validate_new cfg _ _ _
        sized := rfl
        short := Nat.two_pow_pos 32 }
  | ⟨.testData data, plain⟩ =>
      { header := FrameHeader.new cfg cfg.testSignature (UInt64.ofNat data.length) nonce
        body := data
        signed := FrameHeader.validate_new cfg _ _ _
        sized := UInt64.toNat_ofNat_of_lt' (Nat.lt_trans plain (by decide))
        short := plain }
  | ⟨.packet _ _, plain⟩ => plain.elim

variable (cfg : Config) (pipe : Pipe)

/-- Each operation takes the next draw. -/
def frames : Nat → List PlainOperation → List (SignedFrame cfg)
  | _, [] => []
  | draw, operation :: rest =>
      operation.frame cfg (pipe.nonce draw) :: frames (draw + 1) rest

variable (up : pipe.brokenAt = none)
include up

theorem perform_frame (operation : PlainOperation) (world : World) :
    ∃ after, (operation.val.perform cfg pipe).run world = .ok () after ∧
      after.written = world.written ++ (operation.frame cfg (pipe.nonce world.drawn)).bytes ∧
      after.drawn = world.drawn + 1 := by
  obtain ⟨operation, plain⟩ := operation
  cases operation with
  | packet header payload => exact plain.elim
  | checkpoint =>
      refine ⟨_, Session.writeCheckpoint_run cfg pipe up world, ?_, rfl⟩
      rw [frame, SignedFrame.bytes, List.append_nil]
  | testData data =>
      let header := FrameHeader.new cfg cfg.testSignature (UInt64.ofNat data.length)
        (pipe.nonce world.drawn)
      let drew : World := { world with drawn := world.drawn + 1 }
      let headed : World := { drew with
        written := drew.written ++ (cfg.preamble.toList ++ header.encode.toList) }
      refine ⟨{ headed with written := headed.written ++ data }, ?_, ?_, rfl⟩
      · simp only [Operation.perform, FrameWriter.writeTestData, FrameWriter.writeData]
        rw [run_bind_ok (Session.drawNonce_run pipe world),
          run_bind_ok (Session.write_run cfg pipe up header drew)]
        exact PipeWriter.write_run pipe up data plain headed
      · simp only [headed, drew, frame, SignedFrame.bytes, List.append_assoc, header]

/-- However the pipe cuts the buffers, a sequence puts its frames on the wire and no more. -/
theorem performAll_frames (operations : List PlainOperation) : ∀ world : World,
    ∃ after, (Operation.performAll cfg pipe (operations.map Subtype.val)).run world =
        .ok () after ∧
      after.written = world.written ++
        stream SignedFrame.bytes (frames cfg pipe world.drawn operations) := by
  induction operations with
  | nil => exact fun world => ⟨world, rfl, (List.append_nil _).symm⟩
  | cons operation rest ih =>
      intro world
      obtain ⟨middle, performed, first, drawn⟩ := perform_frame cfg pipe up operation world
      obtain ⟨after, ran, others⟩ := ih middle
      refine ⟨after, ?_, ?_⟩
      · rw [List.map_cons, Operation.performAll, run_bind_ok performed]
        exact ran
      · rw [others, first, drawn, frames, stream_cons, List.append_assoc]

omit up

variable {cfg} in
theorem frame_unread (distinct : cfg.Distinct) (nonce : Nonce) (operation : PlainOperation) :
    (operation.frame cfg nonce).unread = [] := by
  obtain ⟨operation, plain⟩ := operation
  cases operation with
  | packet header payload => exact plain.elim
  | checkpoint => rw [SignedFrame.unread, frame, ite_self]
  | testData data =>
      have test : signalOf cfg cfg.testSignature = .test := by
        rw [signalOf, if_neg distinct.test, if_neg distinct.last, if_pos rfl]
      exact if_pos test

variable {cfg} in
/-- The DLL's session skips every body that its writer writes. -/
theorem frames_clear (distinct : cfg.Distinct) (operations : List PlainOperation) :
    ∀ draw, Clear cfg (frames cfg pipe draw operations) := by
  induction operations with
  | nil => exact fun _ => trivial
  | cons operation rest ih =>
      intro draw
      refine ⟨?_, ih (draw + 1)⟩
      rw [frame_unread distinct]
      exact gap_nil _

end PlainOperation

/-- The DLL's session reads its own writer back: each operation as one frame at its place, and no
byte of a body as a header, in whatever pieces it was written and arrives. -/
theorem Session.reads_operations {cfg : Config} (distinct : cfg.Distinct) (writer reader : Pipe)
    (up : writer.brokenAt = none) (quiet : reader.stopAt = none) (open_ : reader.brokenAt = none)
    (operations : List PlainOperation)
    (fed : reader.wire = (finalState ((Operation.performAll cfg writer
      (operations.map Subtype.val)).run World.start)).written) :
    headsOfRun cfg reader = headsOf 0 (PlainOperation.frames cfg writer 0 operations) := by
  obtain ⟨after, ran, written⟩ := PlainOperation.performAll_frames cfg writer up operations
    World.start
  rw [ran] at fed
  have whole : reader.wire = stream SignedFrame.bytes
      (PlainOperation.frames cfg writer 0 operations) := fed.trans written
  exact (runLoop_heads_iff cfg reader quiet open_ _ (reader.wire.length - 0 + 1) World.start []
    (Nat.zero_le _) whole (Nat.lt_succ_self _)).mpr
      ⟨gap_nil _, PlainOperation.frames_clear writer distinct operations 0⟩

variable {cfg : Config}

/-- The same bytes as the service's struct sees them. -/
def SignedFrame.toService (frame : SignedFrame cfg) : Service.SignedFrame cfg where
  header := Codec.ofDll frame.header
  body := frame.body
  signed := (Codec.validate_ofDll cfg frame.header).trans frame.signed
  sized := by
    have short := frame.short
    rw [Codec.dataSize_of_nonneg frame.header (by rw [frame.sized]; omega), frame.sized]

end Dll

namespace Service.FrameSession

end Service.FrameSession

namespace Link.Sample
open Wsac.Sample

/-- A preamble as test data, and a checkpoint behind it. -/
def nested : List Dll.PlainOperation :=
  [⟨.testData config.preamble.toList, (by decide : 6 < 2 ^ 32)⟩, ⟨.checkpoint, trivial⟩]

def sender : Dll.Pipe := .waiting [] nonce

def sent : List UInt8 :=
  (finalState ((Dll.Operation.performAll config sender (nested.map Subtype.val)).run
    Dll.World.start)).written

theorem reads_operations_nested :
    Dll.Session.headsOfRun config (.waiting sent nonce) =
      Dll.headsOf 0 (Dll.PlainOperation.frames config sender 0 nested) :=
  Dll.Session.reads_operations distinct sender (.waiting sent nonce) rfl rfl rfl nested rfl

end Link.Sample
end Wsac
