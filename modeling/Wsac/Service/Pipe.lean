import Wsac.Service.FrameHeader
import Wsac.Library.Exec

/-! # The service's pipe: environment, world, `PipeReader`, `PipeWriter`

`Client` is what the peer and the runtime decide: the bytes that will ever
arrive, in which pieces a read returns them, what follows the last one, the
length of the buffer the memory pool rents, when the token is cancelled, from where
on a write fails or waits for a reader.
`World` is what a session changes; its log only records the run. -/

set_option autoImplicit false

namespace Wsac.Service

open Library Library.Exec

inductive FrameSessionState where
  | none
  | ready
deriving DecidableEq

inductive Failure where
  | endOfStream
  | io
  | win32
  | operationCanceled
  | application
  | argumentOutOfRange
  | insufficientMemory
  /-- Not an exception: a wait that nothing ever ends. -/
  | blocked
deriving DecidableEq

/-- What a read meets behind the last byte. -/
inductive Ending where
  | silent
  | closed
  | failing
deriving DecidableEq

structure Client where
  wire : List UInt8
  /-- Bytes a read of `requested` bytes returns at `position`. -/
  served : (position requested : Nat) → Nat
  ending : Ending
  /-- Length of the buffer rented for 8192 bytes at `position`. -/
  rented : (position : Nat) → Nat
  /-- From this many sent bytes on writes do not succeed. -/
  brokenAt : Option Nat
  /-- They then wait for a client that is there and does not read; otherwise they fail. -/
  stalls : Bool := false
  /-- The question to the token from which on it answers yes. -/
  cancelAt : Option Nat
  nonce : Nat → Nonce
  served_pos : ∀ position requested, position < wire.length → 0 < requested →
    0 < served position requested
  served_le : ∀ position requested,
    served position requested ≤ min requested (wire.length - position)
  rented_ge : ∀ position, 8192 ≤ rented position

theorem Client.waiting_pos (wire : List UInt8) (position requested : Nat)
    (more : position < wire.length) (asked : 0 < requested) :
    0 < min requested (wire.length - position) := by omega

theorem Client.waiting_le (wire : List UInt8) (position requested : Nat) :
    min requested (wire.length - position) ≤ min requested (wire.length - position) :=
  Nat.le_refl _

/-- A client whose whole stream waits in the pipe and who then hangs up. -/
def Client.waiting (wire : List UInt8) (nonce : Nonce) : Client where
  wire := wire
  served := fun position requested => min requested (wire.length - position)
  ending := .closed
  rented := fun _ => 8192
  brokenAt := none
  cancelAt := none
  nonce := fun _ => nonce
  served_pos := Client.waiting_pos wire
  served_le := Client.waiting_le wire
  rented_ge := fun _ => Nat.le_refl _

/-- `_parent` and `Available` of a reader: the root made for the pipe, or a
child made by `CreateChild`. -/
inductive PipeReader where
  | root (available : Int64)
  | child (available : Int64) (parent : PipeReader)
deriving DecidableEq

namespace PipeReader

def new : PipeReader := .root Int64.maxValue

def available : PipeReader → Int64
  | .root available => available
  | .child available _ => available

/-- The readers after `ShrinkAvailable`, and whether it returns.  The parent is
charged first; the subtraction wraps and stays when it throws. -/
def shrinkAvailable (size : Int64) : PipeReader → PipeReader × Bool
  | .root available => (.root (available - size), decide (¬ available - size < 0))
  | .child available parent =>
      match parent.shrinkAvailable size with
      | (charged, false) => (.child available charged, false)
      | (charged, true) => (.child (available - size) charged, decide (¬ available - size < 0))

/-- The reader that is left when a child is dropped. -/
def released : PipeReader → PipeReader
  | .root available => .root available
  | .child _ parent => parent

/-- The reader the thread owns. -/
def origin : PipeReader → PipeReader
  | .root available => .root available
  | .child _ parent => parent.origin

end PipeReader

inductive Event where
  | received (offset : Nat)
  | checked (offset : Nat) (header : FrameHeader) (passed : Bool)
  | entered (offset : Nat) (header : FrameHeader)
  | packet
  | state (value : FrameSessionState)
  | wrote (header : FrameHeader)
deriving DecidableEq

structure World where
  position : Nat
  asked : Nat
  /-- The innermost reader in use. -/
  reader : PipeReader
  state : FrameSessionState
  written : List UInt8
  drawn : Nat
  log : List Event
deriving DecidableEq

/-- A session that has just been given its reader. -/
def World.start (reader : PipeReader) : World := ⟨0, 0, reader, .none, [], 0, []⟩

abbrev Worker := EStateM Failure World

def record (event : Event) : Worker Unit :=
  modify fun world => { world with log := world.log ++ [event] }

/-- `ct.IsCancellationRequested` -/
def cancellationRequested (client : Client) : Worker Bool :=
  match client.cancelAt with
  | none => pure false
  | some first =>
      modifyGet fun world =>
        (decide (first ≤ world.asked), { world with asked := world.asked + 1 })

def throwIfCancellationRequested (client : Client) : Worker Unit := do
  if ← cancellationRequested client then throw .operationCanceled else pure ()

/-- A read of the pipe that has bytes to return. -/
def Client.take (client : Client) (requested : Nat) : Worker (List UInt8) :=
  modifyGet fun world =>
    let chunk := (client.wire.drop world.position).take (client.served world.position requested)
    (chunk, { world with position := world.position + chunk.length })

namespace PipeStream

/-- `while (!DataWaiting(stream) && !ct.IsCancellationRequested)`; a silent peer
is left only by cancelling. -/
def waitForData (client : Client) : Worker Unit := do
  let world ← get
  if world.position < client.wire.length then pure ()
  else
    match client.ending with
    | .closed => throw .endOfStream
    | .failing => throw .win32
    | .silent =>
        match client.cancelAt with
        | none => throw .blocked
        | some first => modify fun world => { world with asked := max world.asked first }

/-- The loop of `PipeStreamExtension.Read`.  Every turn takes a byte off the
wire, so `bytesLeft` never runs out. -/
def readLoop (client : Client) {size : Nat} : Nat → Nat → Bytes size → Worker (Bytes size)
  | bytesLeft, i, buffer =>
    if i < size then do
      if ← cancellationRequested client then pure buffer
      else
        waitForData client
        if ← cancellationRequested client then pure buffer
        else
          let chunk ← client.take (size - i)
          if chunk.length = 0 then throw .endOfStream
          else
            match bytesLeft with
            | 0 => throw .blocked
            | bytesLeft + 1 =>
                readLoop client bytesLeft (i + chunk.length) (buffer.overwrite i chunk)
    else pure buffer

def read (client : Client) (size : Nat) : Worker (Bytes size) := do
  let world ← get
  let buffer ← readLoop client (client.wire.length - world.position) 0
    (List.Vector.replicate size 0)
  throwIfCancellationRequested client
  pure buffer

/-- `ReadAsync` of the pipe into the whole of a buffer. -/
def readAsync (client : Client) (requested : Nat) : Worker (List UInt8) := do
  throwIfCancellationRequested client
  let world ← get
  if world.position < client.wire.length then client.take requested
  else
    match client.ending with
    | .closed => pure []
    | .failing => throw .io
    | .silent => throw (if client.cancelAt.isNone then .blocked else .operationCanceled)

end PipeStream

namespace PipeReader

def charge (size : Int64) : Worker Unit := do
  let world ← get
  let charged := world.reader.shrinkAvailable size
  set { world with reader := charged.1 }
  if charged.2 then pure () else throw .application

def createChild (size : Int64) : Worker Unit := do
  let world ← get
  if world.reader.available < size then throw .argumentOutOfRange
  else set { world with reader := .child size world.reader }

def releaseChild : Worker Unit :=
  modify fun world => { world with reader := world.reader.released }

def read (client : Client) (size : Nat) : Worker (Bytes size) := do
  charge (Int64.ofNat size)
  PipeStream.read client size

/-- The loop of `ReadAsyncInternal`: every read asks for the whole rented buffer. -/
def readAsyncLoop (client : Client) (size : Int64) (buffer : Nat) :
    Nat → Int64 → List UInt8 → Worker (List UInt8)
  | bytesLeft, i, stream =>
    if i < size then do
      if ← cancellationRequested client then pure stream
      else
        let chunk ← PipeStream.readAsync client buffer
        if chunk.length = 0 then throw .endOfStream
        else
          match bytesLeft with
          | 0 => throw .blocked
          | bytesLeft + 1 =>
              readAsyncLoop client size buffer bytesLeft (i + Int64.ofNat chunk.length)
                (stream ++ chunk)
    else pure stream

def readAsyncInternal (client : Client) (size : Int64) : Worker (List UInt8) := do
  let world ← get
  let stream ← readAsyncLoop client size (client.rented world.position)
    (client.wire.length - world.position) 0 []
  throwIfCancellationRequested client
  pure stream

def readAsync (client : Client) (size : Int64) : Worker (List UInt8) := do
  charge size
  readAsyncInternal client size

def skipAsync (client : Client) (size : Int64) : Worker Unit := do
  charge size
  let _ ← readAsyncInternal client size
  pure ()

end PipeReader

/-- No byte behind what has been sent is taken. -/
def Client.refuses (client : Client) (world : World) : Bool :=
  client.brokenAt.any fun limit => decide (limit ≤ world.written.length)

/-- `Write` fails, or it is never over. -/
def Client.refusal (client : Client) : Failure := if client.stalls then .blocked else .io

namespace PipeWriter

/-- The pipe has no buffer, and `Write` takes no token: it is over when the client has read the
bytes. -/
def write (client : Client) (bytes : List UInt8) : Worker Unit := do
  let world ← get
  if client.refuses world then throw client.refusal
  else set { world with written := world.written ++ bytes }

end PipeWriter
end Wsac.Service
