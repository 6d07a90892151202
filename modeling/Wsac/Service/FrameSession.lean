import Wsac.Service.Pipe

/-! # `Net/FrameSession.cs` and `Net/FrameHandlers` of the service

`turn` is the body of the loop of `RunAsyncInternal`.  The preamble window is a
local variable of that loop: it is handed from turn to turn and never cleared. -/

set_option autoImplicit false

namespace Wsac.Service

open Library Library.Exec

/-- The classes marked `[FrameHandler]`. -/
inductive Handler where
  | checkpoint
  | regular
  | test
deriving DecidableEq

/-- What the build fixes: the configuration, and the order in which the source
generator lists the handlers in `FrameHandler.All`. -/
structure Assembly extends Config where
  all : List Handler
  all_perm : all.Perm [.checkpoint, .regular, .test]

def Sample.assembly : Assembly where
  toConfig := Wsac.Sample.config
  all := [.checkpoint, .regular, .test]
  all_perm := List.Perm.refl _

namespace FrameWriter

def write (cfg : Config) (client : Client) (header : FrameHeader) : Worker Unit := do
  PipeWriter.write client cfg.preamble.toList
  PipeWriter.write client header.encode.toList

def drawNonce (client : Client) : Worker Nonce :=
  modifyGet fun world => (client.nonce world.drawn, { world with drawn := world.drawn + 1 })

/-- `Write(new FrameHeader(FrameSignature.Checkpoint))` -/
def writeCheckpoint (cfg : Config) (client : Client) : Worker Unit := do
  let nonce ← drawNonce client
  let header := FrameHeader.new cfg cfg.checkpointSignature 0 nonce
  write cfg client header
  record (.wrote header)

end FrameWriter

namespace Preamble

def push (preamble : Bytes 6) (last : UInt8) : Bytes 6 :=
  Bytes.ofList (preamble.toList.tail ++ [last]) (by simp)

end Preamble

namespace Handler

def isTarget (cfg : Config) (handler : Handler) (signature : UInt16) : Bool :=
  match handler with
  | .checkpoint => signature == cfg.checkpointSignature
  | .regular => signature == cfg.regularSignature
  | .test => signature == cfg.testSignature

end Handler

namespace FrameSession

def setState (value : FrameSessionState) : Worker Unit := do
  modify fun world => { world with state := value }
  record (.state value)

/-- The body of `PacketSession.HandleAsync` is empty. -/
def packetSession : Worker Unit := record .packet

/-- `HandleAsync` of the three handlers; the body is the innermost reader. -/
def handleAsync (cfg : Config) (client : Client) : Handler → Worker Unit
  | .checkpoint => do
      let world ← get
      if world.state = .none then setState .ready
      else FrameWriter.writeCheckpoint cfg client
  | .regular => packetSession
  | .test => do
      let world ← get
      PipeReader.skipAsync client world.reader.available

def findHandler (asm : Assembly) (signature : UInt16) : Option Handler :=
  asm.all.find? fun candidate => candidate.isTarget asm.toConfig signature

/-- The end of `HandleFrameAsync`. -/
def skipRest (client : Client) : Worker Unit := do
  let world ← get
  if world.reader.available ≠ 0 then PipeReader.skipAsync client world.reader.available
  else pure ()

/-- `HandleFrameAsync` -/
def dispatch (asm : Assembly) (client : Client) (header : FrameHeader) : Worker Unit :=
  match findHandler asm header.signature with
  | none => PipeReader.skipAsync client header.dataSize
  | some handler => do
      let world ← get
      if world.state = .none ∧ handler = .regular then
        PipeReader.skipAsync client header.dataSize
      else
        handleAsync asm.toConfig client handler
        skipRest client

def handleFrameAsync (asm : Assembly) (client : Client) (offset : Nat) (header : FrameHeader) :
    Worker Unit := do
  record (.entered offset header)
  dispatch asm client header

def requestCheckpoint (cfg : Config) (client : Client) : Worker Unit := do
  FrameWriter.writeCheckpoint cfg client
  setState .none

/-- `ReadHeader` behind the read. -/
def checkHeader (cfg : Config) (header : FrameHeader) : Except Failure Bool :=
  if header.validate cfg = false then .ok false
  else if header.dataSize < 0 then .error .insufficientMemory
  else .ok true

def passes : Except Failure Bool → Bool
  | .ok passed => passed
  | .error _ => false

def readHeader (cfg : Config) (client : Client) : Worker (FrameHeader × Bool) := do
  let world ← get
  let image ← PipeReader.read client 38
  let header := FrameHeader.decode image
  record (.checked world.position header (passes (checkHeader cfg header)))
  match checkHeader cfg header with
  | .error failure => throw failure
  | .ok passed => pure (header, passed)

def receivePreamble (cfg : Config) (client : Client) (preamble : Bytes 6) :
    Worker (Bytes 6 × Bool) := do
  let byte ← PipeReader.read client 1
  let pushed := Preamble.push preamble byte.head
  pure (pushed, pushed == cfg.preamble)

/-- The `for` loop over `Preamble.Size` bytes; a match does not end it. -/
def receiveBatch (cfg : Config) (client : Client) :
    Nat → Bytes 6 → Bool → Worker (Bytes 6 × Bool)
  | 0, preamble, found => pure (preamble, found)
  | left + 1, preamble, found => do
      let (pushed, hit) ← receivePreamble cfg client preamble
      receiveBatch cfg client left pushed (found || hit)

/-- A turn behind "preamble received". -/
def receiveHeader (asm : Assembly) (client : Client) (offset : Nat) : Worker Unit := do
  let (header, passed) ← readHeader asm.toConfig client
  if passed = false then requestCheckpoint asm.toConfig client
  else
    PipeReader.createChild header.dataSize
    handleFrameAsync asm client offset header
    PipeReader.releaseChild

def receiveFrame (asm : Assembly) (client : Client) : Worker Unit := do
  let world ← get
  record (.received world.position)
  receiveHeader asm client world.position

def turn (asm : Assembly) (client : Client) (preamble : Bytes 6) : Worker (Bytes 6) := do
  let (preamble, foundPreamble) ← receiveBatch asm.toConfig client 6 preamble false
  if foundPreamble = false then pure preamble
  else
    receiveFrame asm client
    pure preamble

/-- The loop of `RunAsyncInternal`.  A turn takes bytes off the wire, so the
count of turns never runs out. -/
def runLoop (asm : Assembly) (client : Client) : Nat → Bytes 6 → Worker Unit
  | 0, _ => throw .blocked
  | turns + 1, preamble => do
      if ← cancellationRequested client then pure ()
      else
        let preamble ← turn asm client preamble
        runLoop asm client turns preamble

def runAsyncInternal (asm : Assembly) (client : Client) : Worker Unit := do
  let world ← get
  runLoop asm client (client.wire.length - world.position + 1) (List.Vector.replicate 6 0)

/-- A whole session on a given reader. -/
def session (asm : Assembly) (client : Client) (reader : PipeReader) :
    EStateM.Result Failure World Unit :=
  (runAsyncInternal asm client).run (World.start reader)

end FrameSession

def Event.head? : Event → Option (Nat × FrameHeader × Bool)
  | .checked offset header passed => some (offset, header, passed)
  | _ => none

def Event.entered? : Event → Option (Nat × FrameHeader)
  | .entered offset header => some (offset, header)
  | _ => none

def Event.received? : Event → Option Nat
  | .received offset => some offset
  | _ => none

def World.heads (world : World) : List (Nat × FrameHeader × Bool) :=
  world.log.filterMap Event.head?

def World.entered (world : World) : List (Nat × FrameHeader) :=
  world.log.filterMap Event.entered?

/-- Where the scan loop handed over to `ReadHeader`. -/
def World.received (world : World) : List Nat := world.log.filterMap Event.received?

end Wsac.Service
