import Wsac.Dll.FrameReader

/-! # `IO/frame/FrameWriter` and `Run/Session/Session` of the DLL

`turn` is the body of the loop of `Session::Run`, split where a header has been
read.  `heads` is the part of the log that tells which headers were read from
which offset and with which verdict of `Validate`. -/

set_option autoImplicit false

namespace Wsac.Dll

open Library Library.Exec

namespace FrameWriter

def write (cfg : Config) (pipe : Pipe) (header : FrameHeader) : Worker Unit := do
  PipeWriter.write pipe cfg.preamble.toList
  PipeWriter.write pipe header.encode.toList

def drawNonce (pipe : Pipe) : Worker Nonce :=
  modifyGet fun world => (pipe.nonce world.drawn, { world with drawn := world.drawn + 1 })

def writeCheckpoint (cfg : Config) (pipe : Pipe) : Worker Unit := do
  let nonce ← drawNonce pipe
  let header := FrameHeader.new cfg cfg.checkpointSignature 0 nonce
  write cfg pipe header
  record (.wrote header)

end FrameWriter

/-- The cases of the switch over `header.sig`. -/
inductive Signal where
  | checkpoint
  | regular
  | test
  | invalid
deriving DecidableEq

def signalOf (cfg : Config) (sig : UInt16) : Signal :=
  if sig = cfg.checkpointSignature then .checkpoint
  else if sig = cfg.regularSignature then .regular
  else if sig = cfg.testSignature then .test
  else .invalid

namespace Session

def setBase (value : Base) : Worker Unit := do
  modify fun world => { world with base := value }
  record (.base value)

def handleCheckpointSignal (cfg : Config) (pipe : Pipe) : Worker Unit := do
  let world ← get
  if world.base = .none then setBase .ready
  else FrameWriter.writeCheckpoint cfg pipe

/-- Only logs; the source has a TODO here. -/
def handleRegularSignal : Worker Unit := pure ()

def handleInvalidSignal (cfg : Config) (pipe : Pipe) : Worker Unit :=
  FrameWriter.writeCheckpoint cfg pipe

/-- The constructor of the vector throws where its size does not fit a `ptrdiff_t`. -/
def handleTestSignal (pipe : Pipe) (dataSize : Nat) : Worker Unit :=
  if 2 ^ 63 ≤ dataSize then throw .lengthError
  else do
    let buffer : Bytes dataSize := List.Vector.replicate dataSize 0
    let _ ← FrameReader.readUnsafeData pipe buffer
    pure ()

def switch (cfg : Config) (pipe : Pipe) (header : FrameHeader) : Worker Unit :=
  match signalOf cfg header.sig with
  | .checkpoint => handleCheckpointSignal cfg pipe
  | .regular => handleRegularSignal
  | .test => handleTestSignal pipe header.dataSize.toNat
  | .invalid => handleInvalidSignal cfg pipe

/-- What follows `ReadHeader` in a turn. -/
def handle (cfg : Config) (pipe : Pipe) (offset : Nat) (header : FrameHeader) : Worker Unit :=
  if header.validate cfg = false then do
    record (.rejected offset header)
    FrameWriter.writeCheckpoint cfg pipe
    setBase .none
  else do
    record (.dispatched offset header)
    switch cfg pipe header

def turn (cfg : Config) (pipe : Pipe) : Worker Unit := do
  FrameReader.readUntilPreamble pipe cfg.preamble.toList
  let world ← get
  let header ← FrameReader.readHeader cfg pipe
  handle cfg pipe world.position header

/-- The loop of `Run`.  A turn takes bytes off the wire, so the count of turns
never runs out. -/
def runLoop (cfg : Config) (pipe : Pipe) : Nat → Worker Unit
  | 0 => throw .spinning
  | turns + 1 => do
      if ← stopRequested pipe then pure ()
      else
        turn cfg pipe
        runLoop cfg pipe turns

def run (cfg : Config) (pipe : Pipe) : Worker Unit := do
  let world ← get
  runLoop cfg pipe (pipe.wire.length - world.position + 1)

end Session

def Event.head? : Event → Option (Nat × FrameHeader × Bool)
  | .rejected offset header => some (offset, header, false)
  | .dispatched offset header => some (offset, header, true)
  | .base _ => none
  | .wrote _ => none

def World.heads (world : World) : List (Nat × FrameHeader × Bool) :=
  world.log.filterMap Event.head?

/-- The headers read in a whole run from the beginning of the stream. -/
def Session.headsOfRun (cfg : Config) (pipe : Pipe) : List (Nat × FrameHeader × Bool) :=
  (finalState ((Session.run cfg pipe).run World.start)).heads

end Wsac.Dll
