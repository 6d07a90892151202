import Wsac.Dll.FrameHeader
import Wsac.Library.Exec

/-! # The DLL's pipe: environment, world, `PipeReader`, `PipeWriter`

`Pipe` is everything a worker cannot choose: the bytes its peer will ever write,
how many of them each `ReadFile` returns, how many polls find nothing, when the
stop token is set, how much each `WriteFile` takes, and from where on it fails or
waits for a reader.  `World` is what the worker
changes; its log is a record of the run and no part of the program. -/

set_option autoImplicit false

namespace Wsac.Dll

open Library Library.Exec

/-- `Layer1State.Base`. -/
inductive Base where
  | none
  | ready
deriving DecidableEq

inductive Exit where
  | pipeReadException
  | pipeWriteException
  | stopTokenRequestedException
  /-- `std::length_error` of a `std::vector`. -/
  | lengthError
  /-- Not an exception: a loop or a call of the source that is never left. -/
  | spinning
  /-- Not an exception: an array index outside its bounds. -/
  | outOfBounds
deriving DecidableEq

/-- What polling meets behind the last byte. -/
inductive Ending where
  | silent
  | broken (polls : Nat)

structure Pipe where
  wire : List UInt8
  /-- Bytes a `ReadFile` of `requested` bytes returns at `position`. -/
  served : (position requested : Nat) → Nat
  /-- Polls that report no bytes before the one that reports some. -/
  idle : (position : Nat) → Nat
  ending : Ending
  /-- Bytes a `WriteFile` of `requested` bytes takes behind `sent` bytes. -/
  accepted : (sent requested : Nat) → Nat
  /-- From this many sent bytes on `WriteFile` takes no more. -/
  brokenAt : Option Nat
  /-- It then waits for a peer that is there and does not read; otherwise it fails. -/
  stalls : Bool := false
  /-- The question to the stop token from which on it answers yes. -/
  stopAt : Option Nat
  /-- The draws of `BCryptGenRandom` for the headers that are written.  The static null header
  makes one of its own, at the first header that is read, which is not counted. -/
  nonce : Nat → Nonce
  nullNonce : Nonce
  served_pos : ∀ position requested, position < wire.length → 0 < requested →
    0 < served position requested
  served_le : ∀ position requested,
    served position requested ≤ min requested (wire.length - position)
  accepted_pos : ∀ sent requested, 0 < requested → 0 < accepted sent requested
  accepted_le : ∀ sent requested, accepted sent requested ≤ requested

/-- A pipe on which the whole stream waits, whose peer then hangs up. -/
def Pipe.waiting (wire : List UInt8) (nonce : Nonce) : Pipe where
  wire := wire
  served := fun position requested => min requested (wire.length - position)
  idle := fun _ => 0
  ending := .broken 0
  accepted := fun _ requested => requested
  brokenAt := none
  stopAt := none
  nonce := fun _ => nonce
  nullNonce := nonce
  served_pos := fun position requested more asked => by omega
  served_le := fun _ _ => Nat.le_refl _
  accepted_pos := fun _ _ positive => positive
  accepted_le := fun _ _ => Nat.le_refl _

inductive Event where
  | rejected (offset : Nat) (header : FrameHeader)
  | dispatched (offset : Nat) (header : FrameHeader)
  | base (value : Base)
  | wrote (header : FrameHeader)
deriving DecidableEq

structure World where
  position : Nat
  asked : Nat
  base : Base
  written : List UInt8
  drawn : Nat
  log : List Event
deriving DecidableEq

/-- A worker that has just been started at the beginning of the stream. -/
def World.start : World := ⟨0, 0, .none, [], 0, []⟩

/-- The same world after reads: only the cursor and the token have moved. -/
def World.seek (world : World) (position asked : Nat) : World :=
  { world with position := position, asked := asked }

@[simp] theorem seek_position (world : World) (position asked : Nat) :
    (world.seek position asked).position = position := rfl
@[simp] theorem seek_asked (world : World) (position asked : Nat) :
    (world.seek position asked).asked = asked := rfl
@[simp] theorem seek_base (world : World) (position asked : Nat) :
    (world.seek position asked).base = world.base := rfl
@[simp] theorem seek_written (world : World) (position asked : Nat) :
    (world.seek position asked).written = world.written := rfl
@[simp] theorem seek_drawn (world : World) (position asked : Nat) :
    (world.seek position asked).drawn = world.drawn := rfl
@[simp] theorem seek_log (world : World) (position asked : Nat) :
    (world.seek position asked).log = world.log := rfl
@[simp] theorem seek_seek (world : World) (first second third fourth : Nat) :
    (world.seek first second).seek third fourth = world.seek third fourth := rfl

abbrev Worker := EStateM Exit World

def record (event : Event) : Worker Unit :=
  modify fun world => { world with log := world.log ++ [event] }

def Pipe.stopped (pipe : Pipe) (asked : Nat) : Bool :=
  match pipe.stopAt with
  | none => false
  | some first => decide (first ≤ asked)

/-- `st.stop_requested()` -/
def stopRequested (pipe : Pipe) : Worker Bool :=
  modifyGet fun world => (pipe.stopped world.asked, { world with asked := world.asked + 1 })

namespace PipeReader

/-- The peek loop when the poll after `fruitless` empty ones has the given outcome. -/
def poll (pipe : Pipe) (outcome : Worker Unit) : Nat → Worker Unit
  | 0 => outcome
  | fruitless + 1 => do
      if ← stopRequested pipe then pure () else poll pipe outcome fruitless

def waitForBytes (pipe : Pipe) : Worker Unit := do
  let world ← get
  if world.position < pipe.wire.length then
    poll pipe (pure ()) (pipe.idle world.position)
  else
    match pipe.ending with
    | .broken polls => poll pipe (throw .pipeReadException) polls
    | .silent =>
        match pipe.stopAt with
        | none => throw .spinning
        | some first => modify fun world => { world with asked := max world.asked first + 1 }

def readFile (pipe : Pipe) (requested : Nat) : Worker (List UInt8) :=
  modifyGet fun world =>
    let chunk := (pipe.wire.drop world.position).take (pipe.served world.position requested)
    (chunk, { world with position := world.position + chunk.length })

/-- The loop of `Read`.  Both the offset and the count handed to `ReadFile` are
`DWORD`s.  Every turn takes a byte off the wire, so `bytesLeft` never runs out. -/
def readLoop (pipe : Pipe) {size : Nat} : Nat → Nat → Bytes size → Worker (Bytes size)
  | bytesLeft, i, v =>
    if i < size then do
      if ← stopRequested pipe then pure v
      else
        waitForBytes pipe
        if ← stopRequested pipe then throw .stopTokenRequestedException
        else
          let chunk ← readFile pipe ((size - i) % 2 ^ 32)
          if chunk.length = 0 then throw .pipeReadException
          else
            match bytesLeft with
            | 0 => throw .spinning
            | bytesLeft + 1 =>
                readLoop pipe bytesLeft ((i + chunk.length) % 2 ^ 32) (v.overwrite i chunk)
    else pure v

def read (pipe : Pipe) {size : Nat} (v : Bytes size) : Worker (Bytes size) := do
  let world ← get
  let v ← readLoop pipe (pipe.wire.length - world.position) 0 v
  if ← stopRequested pipe then throw .stopTokenRequestedException
  else pure v

end PipeReader

/-- No byte behind what has been sent is taken. -/
def Pipe.refuses (pipe : Pipe) (world : World) : Bool :=
  pipe.brokenAt.any fun limit => decide (limit ≤ world.written.length)

/-- `WriteFile` fails, or it is never over. -/
def Pipe.refusal (pipe : Pipe) : Exit := if pipe.stalls then .spinning else .pipeWriteException

namespace PipeWriter

/-- The pipe has no buffer: a `WriteFile` is over when the peer has read its bytes. -/
def writeFile (pipe : Pipe) (source : List UInt8) (requested : Nat) : Worker Nat := do
  let world ← get
  if pipe.refuses world then throw pipe.refusal
  else
    let count := pipe.accepted world.written.length requested
    modify fun world => { world with written := world.written ++ source.take count }
    pure count

/-- The loop of `Write`, with the same `DWORD`s as `Read`.  A turn that writes
nothing leaves the loop where it was, so running out of turns is spinning. -/
def writeLoop (pipe : Pipe) (v : List UInt8) : Nat → Nat → Worker Unit
  | 0, i => if i < v.length then throw .spinning else pure ()
  | turns + 1, i =>
      if i < v.length then do
        let written ← writeFile pipe (v.drop i) ((v.length - i) % 2 ^ 32)
        writeLoop pipe v turns ((i + written) % 2 ^ 32)
      else pure ()

def write (pipe : Pipe) (v : List UInt8) : Worker Unit := writeLoop pipe v v.length 0

end PipeWriter
end Wsac.Dll
