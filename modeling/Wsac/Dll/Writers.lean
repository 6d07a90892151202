import Wsac.Dll.Turn
import Wsac.Dll.Writes

/-! # `FrameWriter` and `PacketWriter` of the DLL on the wire

An operation is well framed when it adds one preamble, one signed header and as
many bytes as that header declares.  `WriteRegularHeader` declares none, and
`PacketWriter` writes 28 bytes and the payload behind it. -/

set_option autoImplicit false

namespace Wsac.Dll

open Library Library.Exec

namespace FrameWriter

def writeData (pipe : Pipe) (data : List UInt8) : Worker Unit := PipeWriter.write pipe data

def writeRegularHeader (cfg : Config) (pipe : Pipe) : Worker Unit := do
  let nonce ← drawNonce pipe
  let header := FrameHeader.new cfg cfg.regularSignature 0 nonce
  write cfg pipe header

def writeTestData (cfg : Config) (pipe : Pipe) (data : List UInt8) : Worker Unit := do
  let nonce ← drawNonce pipe
  let header := FrameHeader.new cfg cfg.testSignature (UInt64.ofNat data.length) nonce
  write cfg pipe header
  writeData pipe data

end FrameWriter

/-- `Model/IO/PacketHeader`: two byte arrays, so no padding. -/
structure PacketHeader where
  nonce : Nonce
  mac : Mac
deriving DecidableEq

def PacketHeader.memory (header : PacketHeader) : List UInt8 :=
  header.nonce.toList ++ header.mac.toList

namespace PacketWriter

def writeData (pipe : Pipe) (data : List UInt8) : Worker Unit := FrameWriter.writeData pipe data

def writePrevious (cfg : Config) (pipe : Pipe) (header : PacketHeader) : Worker Unit := do
  FrameWriter.writeRegularHeader cfg pipe
  FrameWriter.writeData pipe header.memory

end PacketWriter

inductive Operation where
  | checkpoint
  | testData (data : List UInt8)
  | packet (header : PacketHeader) (payload : List UInt8)
deriving DecidableEq

namespace Operation

def perform (cfg : Config) (pipe : Pipe) : Operation → Worker Unit
  | .checkpoint => FrameWriter.writeCheckpoint cfg pipe
  | .testData data => FrameWriter.writeTestData cfg pipe data
  | .packet header payload => do
      PacketWriter.writePrevious cfg pipe header
      PacketWriter.writeData pipe payload

def performAll (cfg : Config) (pipe : Pipe) : List Operation → Worker Unit
  | [] => pure ()
  | operation :: rest => do
      operation.perform cfg pipe
      performAll cfg pipe rest

/-- A checkpoint, or test data whose length fits a `DWORD`. -/
def Plain : Operation → Prop
  | .checkpoint => True
  | .testData data => data.length < 2 ^ 32
  | .packet _ _ => False

end Operation

/-- One frame: the preamble, a signed header, as many bytes as the header declares. -/
def WellFramed (cfg : Config) (bytes : List UInt8) : Prop :=
  ∃ (header : FrameHeader) (body : List UInt8), header.validate cfg = true ∧
    body.length = header.dataSize.toNat ∧
    bytes = cfg.preamble.toList ++ header.encode.toList ++ body

/-- The operations complete, and each of them has put one frame behind those before it. -/
def Framed (cfg : Config) (pipe : Pipe) (operations : List Operation) (world : World) : Prop :=
  ∃ frames : List (List UInt8), frames.length = operations.length ∧
    (∀ frame ∈ frames, WellFramed cfg frame) ∧
    ∀ count, ∃ after,
      (Operation.performAll cfg pipe (operations.take count)).run world = .ok () after ∧
        after.written = world.written ++ (frames.take count).flatten

section
variable (cfg : Config) (pipe : Pipe)

theorem framed_nil (world : World) : Framed cfg pipe [] world := by
  refine ⟨[], rfl, by simp, fun count => ⟨world, ?_, by simp⟩⟩
  rw [List.take_nil]
  rfl

/-- A sequence is framed operation by operation. -/
theorem framed_cons (operation : Operation) (rest : List Operation) (world : World) :
    Framed cfg pipe (operation :: rest) world ↔
      ∃ middle frame, (operation.perform cfg pipe).run world = .ok () middle ∧
        WellFramed cfg frame ∧ middle.written = world.written ++ frame ∧
        Framed cfg pipe rest middle := by
  constructor
  · rintro ⟨frames, size, framed, runs⟩
    cases frames with
    | nil => simp at size
    | cons frame frames =>
        obtain ⟨middle, first, written⟩ := runs 1
        simp only [List.take_succ_cons, List.take_zero, Operation.performAll] at first written
        obtain ⟨_, middle', performed, done⟩ := run_bind_eq_ok.mp first
        cases done
        rw [List.flatten_singleton] at written
        refine ⟨middle, frame, performed, framed frame (by simp), written, frames,
          by simpa using size, fun other member => framed other (by simp [member]), fun count => ?_⟩
        obtain ⟨after, ran, all⟩ := runs (count + 1)
        simp only [List.take_succ_cons, Operation.performAll] at ran all
        rw [run_bind_ok performed] at ran
        refine ⟨after, ran, ?_⟩
        rw [all, written, List.flatten_cons, List.append_assoc]
  · rintro ⟨middle, frame, performed, framed, written, frames, size, allFramed, runs⟩
    refine ⟨frame :: frames, by simp [size], ?_, fun count => ?_⟩
    · intro other member
      rcases List.mem_cons.mp member with rfl | member
      · exact framed
      · exact allFramed other member
    · cases count with
      | zero => exact ⟨world, rfl, by simp⟩
      | succ count =>
          obtain ⟨after, ran, all⟩ := runs count
          refine ⟨after, ?_, ?_⟩
          · rw [List.take_succ_cons, Operation.performAll, run_bind_ok performed]
            exact ran
          · rw [all, written, List.take_succ_cons, List.flatten_cons, List.append_assoc]

/-- The header of a frame tells how many bytes follow it. -/
theorem WellFramed.body {header : FrameHeader} {rest : List UInt8}
    (framed : WellFramed cfg (cfg.preamble.toList ++ header.encode.toList ++ rest)) :
    rest.length = header.dataSize.toNat := by
  obtain ⟨other, body, _, declared, same⟩ := framed
  rw [List.append_assoc, List.append_assoc] at same
  have behind := List.append_cancel_left same
  obtain ⟨images, bodies⟩ := List.append_inj behind (by simp)
  have equal : header = other := by
    rw [← FrameHeader.decode_encode header, ← FrameHeader.decode_encode other,
      List.Vector.eq _ _ images]
  rw [equal, bodies, declared]

theorem write_ok {header : FrameHeader} {world after : World}
    (ran : (FrameWriter.write cfg pipe header).run world = .ok () after) :
    after = { world with
      written := world.written ++ (cfg.preamble.toList ++ header.encode.toList) } := by
  obtain ⟨_, middle, first, second⟩ := run_bind_eq_ok.mp ran
  obtain ⟨_, middleIs⟩ := PipeWriter.write_ok pipe first
  obtain ⟨_, afterIs⟩ := PipeWriter.write_ok pipe second
  rw [afterIs, middleIs, List.append_assoc]

variable (up : pipe.brokenAt = none)
include up

theorem perform_checkpoint (world : World) :
    ∃ middle frame, (Operation.perform cfg pipe .checkpoint).run world = .ok () middle ∧
      WellFramed cfg frame ∧ middle.written = world.written ++ frame := by
  refine ⟨_, _, Session.writeCheckpoint_run cfg pipe up world, ?_, rfl⟩
  exact ⟨_, [], FrameHeader.validate_new cfg _ _ _, rfl, (List.append_nil _).symm⟩

theorem perform_testData (data : List UInt8) (small : data.length < 2 ^ 32) (world : World) :
    ∃ middle frame, (Operation.perform cfg pipe (.testData data)).run world = .ok () middle ∧
      WellFramed cfg frame ∧ middle.written = world.written ++ frame := by
  let header := FrameHeader.new cfg cfg.testSignature (UInt64.ofNat data.length)
    (pipe.nonce world.drawn)
  have declared : data.length = header.dataSize.toNat :=
    (UInt64.toNat_ofNat_of_lt' (Nat.lt_trans small (by decide))).symm
  let drew : World := { world with drawn := world.drawn + 1 }
  let sent : World := { drew with
    written := drew.written ++ (cfg.preamble.toList ++ header.encode.toList) }
  refine ⟨{ sent with written := sent.written ++ data },
    cfg.preamble.toList ++ header.encode.toList ++ data, ?_,
    ⟨header, data, FrameHeader.validate_new cfg _ _ _, declared, rfl⟩, ?_⟩
  · simp only [Operation.perform, FrameWriter.writeTestData, FrameWriter.writeData]
    rw [run_bind_ok (Session.drawNonce_run pipe world),
      run_bind_ok (Session.write_run cfg pipe up header drew)]
    exact PipeWriter.write_run pipe up data small sent
  · simp [sent, drew]

omit up in
/-- A body of `2 ^ 32` bytes or more is written for ever. -/
theorem testData_small {data : List UInt8} {world middle : World}
    (performed : (Operation.perform cfg pipe (.testData data)).run world = .ok () middle) :
    data.length < 2 ^ 32 := by
  simp only [Operation.perform, FrameWriter.writeTestData, FrameWriter.writeData] at performed
  rw [run_bind_ok (Session.drawNonce_run pipe world)] at performed
  obtain ⟨_, sent, _, wrote⟩ := run_bind_eq_ok.mp performed
  exact (PipeWriter.write_ok pipe wrote).1

omit up in
/-- Behind a header that declares nothing, a packet writes its own 28 bytes at least. -/
theorem packet_overruns {header : PacketHeader} {payload frame : List UInt8}
    {world middle : World}
    (performed : (Operation.perform cfg pipe (.packet header payload)).run world = .ok () middle)
    (written : middle.written = world.written ++ frame) : ¬ WellFramed cfg frame := by
  simp only [Operation.perform, PacketWriter.writePrevious, PacketWriter.writeData,
    FrameWriter.writeData, FrameWriter.writeRegularHeader, bind_assoc] at performed
  rw [run_bind_ok (Session.drawNonce_run pipe world)] at performed
  obtain ⟨_, headed, wroteHeader, performed⟩ := run_bind_eq_ok.mp performed
  obtain ⟨_, previous, wrotePrevious, wrotePayload⟩ := run_bind_eq_ok.mp performed
  obtain ⟨_, middleIs⟩ := PipeWriter.write_ok pipe wrotePayload
  obtain ⟨_, previousIs⟩ := PipeWriter.write_ok pipe wrotePrevious
  rw [middleIs, previousIs, write_ok cfg pipe wroteHeader] at written
  simp only [List.append_assoc] at written
  rw [← List.append_cancel_left written, ← List.append_assoc]
  intro framed
  have length := framed.body
  simp only [PacketHeader.memory, List.length_append, List.Vector.toList_length] at length
  have zero : (0 : UInt64).toNat = 0 := rfl
  simp only [FrameHeader.new, FrameHeader.sign, zero] at length
  omega

/-- What is written is well framed, whatever pieces the pipe takes, exactly while no
packet is written and no test data has `2 ^ 32` bytes or more. -/
theorem framed_iff_plain (operations : List Operation) (world : World) :
    Framed cfg pipe operations world ↔ ∀ operation ∈ operations, operation.Plain := by
  induction operations generalizing world with
  | nil => simp [framed_nil]
  | cons operation rest ih =>
      rw [framed_cons, List.forall_mem_cons]
      constructor
      · rintro ⟨middle, frame, performed, framed, written, restFramed⟩
        refine ⟨?_, (ih middle).mp restFramed⟩
        cases operation with
        | checkpoint => trivial
        | testData data => exact testData_small cfg pipe performed
        | packet header payload =>
            exact absurd framed (packet_overruns cfg pipe performed written)
      · rintro ⟨plain, restPlain⟩
        have one : ∃ middle frame, (operation.perform cfg pipe).run world = .ok () middle ∧
            WellFramed cfg frame ∧ middle.written = world.written ++ frame := by
          cases operation with
          | checkpoint => exact perform_checkpoint cfg pipe up world
          | testData data => exact perform_testData cfg pipe up data plain world
          | packet header payload => exact absurd plain (fun no => no)
        obtain ⟨middle, frame, performed, framed, written⟩ := one
        exact ⟨middle, frame, performed, framed, written, (ih middle).mpr restPlain⟩

end

namespace Sample

/-- A packet header of zero bytes. -/
def packetHeader : PacketHeader := ⟨List.Vector.replicate 12 0, List.Vector.replicate 16 0⟩

def writing : Pipe := Pipe.waiting [] Wsac.Sample.nonce

theorem framed_iff_plain_echo :
    Framed Wsac.Sample.config writing
      [.checkpoint, .testData [0x45, 0x63, 0x68, 0x6F], .checkpoint] World.start :=
  (framed_iff_plain Wsac.Sample.config writing rfl _ World.start).mpr
    (by simp [Operation.Plain])

/-- One packet with an empty payload, on a pipe that takes everything at once. -/
theorem packet_is_not_framed :
    ¬ Framed Wsac.Sample.config writing [.packet packetHeader []] World.start := by
  rw [framed_cons]
  rintro ⟨middle, frame, performed, framed, written, _⟩
  exact packet_overruns Wsac.Sample.config writing performed written framed

end Sample
end Wsac.Dll
