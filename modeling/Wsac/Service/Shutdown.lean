import Wsac.Library.Token
import Wsac.Library.Triple
import Wsac.Service.Connections
import Wsac.Service.Stops

/-! # A session that is cancelled

Whatever the client sends and whenever the token is set, the session asks it at most once
more after the first yes, and then `RunAsync` has returned, if every `Write` is over some time.
Without a cancellation it waits for ever only on a client that stays silent and never hangs up. -/

set_option autoImplicit false
set_option mvcgen.warning false

namespace Wsac.Service

open Library Library.Exec Std.Do

/-- The client is there and does not read: a `Write` would never be over. -/
def Client.Stalled (client : Client) (world : World) : Prop :=
  client.stalls = true ∧ client.refuses world = true

/-- What an exception may leave behind. -/
def Client.Ends (client : Client) (failure : Failure) (world : World) : Prop :=
  (failure = .blocked →
      client.cancelAt = none ∧ client.ending = .silent ∨ client.Stalled world) ∧
    (failure = .operationCanceled → client.cancelAt ≠ none) ∧
    Late client.cancelAt 2 world.asked

/-- There are at most so many bytes in front of the cursor. -/
def Client.Owes (client : Client) (late bytesLeft : Nat) (world : World) : Prop :=
  Late client.cancelAt late world.asked ∧ client.wire.length - world.position ≤ bytesLeft

abbrev Client.heeded (client : Client) {α : Type} (after : α → World → Prop) :
    PostCond α (.except Failure (.arg World .pure)) :=
  post⟨fun result world => ⌜after result world⌝, fun failure world => ⌜client.Ends failure world⌝⟩

section
variable {client : Client} {late bytesLeft : Nat} {world : World}

theorem Client.Owes.mono {more further : Nat} (owes : client.Owes late bytesLeft world)
    (le : late ≤ more) (far : bytesLeft ≤ further) : client.Owes more further world :=
  ⟨owes.1.mono le, owes.2.trans far⟩

theorem Client.Owes.thrown (owes : client.Owes late bytesLeft world) (le : late ≤ 2)
    {failure : Failure} (ends : failure ≠ .blocked) (calm : failure ≠ .operationCanceled) :
    client.Ends failure world :=
  ⟨fun same => absurd same ends, fun same => absurd same calm, owes.1.mono le⟩

theorem Client.Owes.deserted (owes : client.Owes 0 bytesLeft world)
    (never : client.cancelAt = none) (silent : client.ending = .silent) :
    client.Ends .blocked world :=
  ⟨fun _ => Or.inl ⟨never, silent⟩, fun same => absurd same (by decide),
    owes.1.mono (by decide)⟩

/-- A `Write` that takes nothing fails, or is never over. -/
theorem Client.Owes.refused (owes : client.Owes 0 bytesLeft world)
    (refused : client.refuses world = true) : client.Ends client.refusal world := by
  unfold Client.refusal
  cases stalls : client.stalls with
  | false => exact owes.thrown (by decide) (by decide) (by decide)
  | true =>
      exact ⟨fun _ => Or.inr ⟨stalls, refused⟩, fun same => absurd same (by decide),
        owes.1.mono (by decide)⟩

end

/-- The world behind a question to the token. -/
def World.ask (client : Client) (world : World) : World :=
  { world with asked := if client.cancelAt.isSome then world.asked + 1 else world.asked }

theorem cancellationRequested_ask (client : Client) :
    cancellationRequested client =
      modifyGet fun world => (client.cancelled world.asked, world.ask client) := by
  unfold cancellationRequested Client.cancelled World.ask
  cases client.cancelAt with
  | none => rfl
  | some first => rfl

section
variable {client : Client} {late bytesLeft : Nat} {world : World}

theorem Client.Owes.yes (owes : client.Owes late bytesLeft world) :
    client.Owes (late + 1) bytesLeft (world.ask client) := by
  refine ⟨fun first set => ?_, owes.2⟩
  have bound := owes.1.yes first set
  rw [World.ask, set]
  exact bound

theorem Client.Owes.no (owes : client.Owes late bytesLeft world)
    (going : ¬ client.cancelled world.asked = true) :
    client.Owes 0 bytesLeft (world.ask client) := by
  refine ⟨fun first set => ?_, owes.2⟩
  have bound : Late client.cancelAt 0 (world.asked + 1) := Late.no going
  rw [World.ask, set]
  exact bound first set

/-- The yes behind which the exception is thrown may be the second one. -/
theorem Client.Owes.told (owes : client.Owes 1 bytesLeft world)
    (yes : client.cancelled world.asked = true) :
    client.Ends .operationCanceled (world.ask client) :=
  ⟨fun same => absurd same (by decide), fun _ => set_of_answers yes, owes.yes.1⟩

end

variable (client : Client) (bytesLeft : Nat)

theorem throwIfCancellationRequested_heeds :
    ⦃fun world => ⌜client.Owes 1 bytesLeft world⌝⦄ throwIfCancellationRequested client
    ⦃client.heeded fun _ world => client.Owes 0 bytesLeft world⦄ := by
  rw [throwIfCancellationRequested, cancellationRequested_ask]
  mvcgen
  case vc1 world owes _ yes => exact owes.told yes
  case vc2 world owes _ going => exact owes.no going

/-- A read hands out no more bytes than there are. -/
theorem take_heeds (requested : Nat) :
    ⦃fun world => ⌜client.Owes 0 bytesLeft world⌝⦄ client.take requested
    ⦃client.heeded fun chunk world =>
      chunk.length ≤ bytesLeft ∧ client.Owes 0 (bytesLeft - chunk.length) world⦄ := by
  rw [triple_iff]
  intro world owes
  have served := client.served_le world.position requested
  have ahead := owes.2
  rw [take_eq]
  simp only [take_length]
  refine ⟨by omega, owes.1, ?_⟩
  show client.wire.length - (world.position + client.served world.position requested) ≤ _
  omega

namespace PipeStream

theorem waitForData_heeds :
    ⦃fun world => ⌜client.Owes 0 bytesLeft world⌝⦄ waitForData client
    ⦃client.heeded fun _ world => client.Owes 0 bytesLeft world⦄ := by
  rw [triple_iff]
  intro world owes
  rw [waitForData, run_get_bind]
  by_cases more : world.position < client.wire.length
  · rw [if_pos more]
    exact owes
  · rw [if_neg more]
    cases last : client.ending with
    | closed => exact owes.thrown (by decide) (by decide) (by decide)
    | failing => exact owes.thrown (by decide) (by decide) (by decide)
    | silent =>
        cases limit : client.cancelAt with
        | none => exact owes.deserted limit last
        | some first => exact ⟨owes.1.wait limit, owes.2⟩

/-- What goes on behind the bytes of a read has fewer of them in front of it. -/
theorem readTurn_heeds {size : Nat} (i : Nat) (buffer : Bytes size)
    {next : List UInt8 → Worker (Bytes size)}
    (goesOn : ∀ (chunk : List UInt8), 0 < chunk.length → chunk.length ≤ bytesLeft →
      ⦃fun world => ⌜client.Owes 0 (bytesLeft - chunk.length) world⌝⦄ next chunk
      ⦃client.heeded fun _ world => client.Owes 1 bytesLeft world⦄) :
    ⦃fun world => ⌜client.Owes 0 bytesLeft world⌝⦄ readTurn client i buffer next
    ⦃client.heeded fun _ world => client.Owes 1 bytesLeft world⦄ := by
  have wait := waitForData_heeds client bytesLeft
  have take := take_heeds client bytesLeft
  rw [readTurn, cancellationRequested_ask]
  mvcgen [wait, take]
  case vc1 world owes _ _ => exact owes.yes
  case vc2 world owes _ going => exact owes.no going
  case vc3 _ _ _ _ _ world owes _ _ => exact owes.yes
  case vc4 _ _ _ _ _ world owes _ going => exact owes.no going
  case vc5 _ _ _ _ _ _ _ _ _ _ _ world owes =>
    exact owes.2.thrown (by decide) (by decide) (by decide)
  case vc6 _ _ _ _ _ _ _ _ _ chunk some_ =>
    exact fun world few owes => goesOn chunk (Nat.pos_of_ne_zero some_) few world owes
  case vc7 world owes => exact owes.mono (by decide) (Nat.le_refl _)

theorem readLoop_heeds {size : Nat} (bytesLeft : Nat) : ∀ (i : Nat) (buffer : Bytes size),
    ⦃fun world => ⌜client.Owes 0 bytesLeft world⌝⦄ readLoop client bytesLeft i buffer
    ⦃client.heeded fun _ world => client.Owes 1 bytesLeft world⦄ := by
  induction bytesLeft with
  | zero =>
      intro i buffer
      rw [readLoop_zero]
      apply readTurn_heeds
      intro chunk some_ few
      omega
  | succ bytesLeft ih =>
      intro i buffer
      rw [readLoop_succ]
      apply readTurn_heeds
      intro chunk some_ few
      exact triple_weaken (ih _ _) (fun world owes => owes.mono (Nat.le_refl _) (by omega))
        (fun _ world owes => owes.mono (Nat.le_refl _) (Nat.le_succ _)) (fun _ _ ends => ends)

theorem read_heeds (size : Nat) :
    ⦃fun world => ⌜client.Owes 0 bytesLeft world⌝⦄ read client size
    ⦃client.heeded fun _ world => client.Owes 0 bytesLeft world⦄ := by
  have loop := fun left i (buffer : Bytes size) => readLoop_heeds client left i buffer
  have checks := throwIfCancellationRequested_heeds client bytesLeft
  mvcgen [read, loop, checks]
  case vc1 world owes => exact ⟨owes.1, Nat.le_refl _⟩
  case vc2 start ahead _ world owes => exact owes.mono (Nat.le_refl _) ahead.2

theorem readAsync_heeds (requested : Nat) :
    ⦃fun world => ⌜client.Owes 0 bytesLeft world⌝⦄ readAsync client requested
    ⦃client.heeded fun chunk world =>
      chunk.length ≤ bytesLeft ∧ client.Owes 0 (bytesLeft - chunk.length) world⦄ := by
  have take := take_heeds client bytesLeft
  have checks := throwIfCancellationRequested_heeds client bytesLeft
  mvcgen [readAsync, take, checks]
  case vc1 world owes => exact owes.mono (by decide) (Nat.le_refl _)
  case vc3 _ _ _ world owes _ _ => exact ⟨Nat.zero_le _, owes⟩
  case vc4 _ _ _ world owes _ _ => exact owes.thrown (by decide) (by decide) (by decide)
  case vc5 _ _ _ world owes _ silent =>
    cases limit : client.cancelAt with
    | none => exact owes.deserted limit silent
    | some first =>
        have set_ : client.cancelAt ≠ none := by
          rw [limit]
          exact Option.some_ne_none first
        have thrown : client.Ends .operationCanceled world :=
          ⟨fun same => absurd same (by decide), fun _ => set_, owes.1.mono (by decide)⟩
        exact thrown

end PipeStream

namespace PipeReader

theorem charge_heeds (size : Int64) :
    ⦃fun world => ⌜client.Owes 0 bytesLeft world⌝⦄ charge size
    ⦃client.heeded fun _ world => client.Owes 0 bytesLeft world⦄ := by
  mvcgen [charge]
  case vc2 world owes _ _ =>
    exact Client.Owes.thrown (show client.Owes 0 bytesLeft _ from owes) (by decide) (by decide)
      (by decide)

theorem createChild_heeds (size : Int64) :
    ⦃fun world => ⌜client.Owes 0 bytesLeft world⌝⦄ createChild size
    ⦃client.heeded fun _ world => client.Owes 0 bytesLeft world⦄ := by
  mvcgen [createChild]
  case vc1 world owes _ => exact owes.thrown (by decide) (by decide) (by decide)

theorem releaseChild_heeds :
    ⦃fun world => ⌜client.Owes 0 bytesLeft world⌝⦄ releaseChild
    ⦃client.heeded fun _ world => client.Owes 0 bytesLeft world⦄ := by
  mvcgen [releaseChild]

theorem read_heeds (size : Nat) :
    ⦃fun world => ⌜client.Owes 0 bytesLeft world⌝⦄ read client size
    ⦃client.heeded fun _ world => client.Owes 0 bytesLeft world⦄ := by
  have pays := charge_heeds client bytesLeft
  have reads := PipeStream.read_heeds client bytesLeft
  mvcgen [read, pays, reads]

/-- What a read has taken is behind. -/
theorem read_passes (size : Nat) :
    ⦃fun world => ⌜client.Owes 0 bytesLeft world⌝⦄ read client size
    ⦃client.heeded fun _ world => size ≤ bytesLeft ∧ client.Owes 0 (bytesLeft - size) world⦄ := by
  have whole := triple_iff.mp (read_heeds client bytesLeft size)
  rw [triple_iff]
  intro world owes
  have ran := whole world owes
  cases ended : (read client size).run world with
  | error failure after =>
      rw [ended] at ran
      exact ran
  | ok filled after =>
      rw [ended] at ran
      obtain ⟨⟨asked, reader, moved⟩, content⟩ := read_ok client ended
      have taken := congrArg List.length content
      rw [List.Vector.toList_length, List.length_take, List.length_drop] at taken
      have ahead := owes.2
      refine ⟨by omega, ran.1, ?_⟩
      rw [moved]
      show client.wire.length - (world.position + size) ≤ bytesLeft - size
      omega

theorem readAsyncTurn_heeds (size : Int64) (buffer : Nat) (i : Int64) (stream : List UInt8)
    {next : List UInt8 → Worker (List UInt8)}
    (goesOn : ∀ (chunk : List UInt8), 0 < chunk.length → chunk.length ≤ bytesLeft →
      ⦃fun world => ⌜client.Owes 0 (bytesLeft - chunk.length) world⌝⦄ next chunk
      ⦃client.heeded fun _ world => client.Owes 1 bytesLeft world⦄) :
    ⦃fun world => ⌜client.Owes 0 bytesLeft world⌝⦄
      readAsyncTurn client size buffer i stream next
    ⦃client.heeded fun _ world => client.Owes 1 bytesLeft world⦄ := by
  have take := PipeStream.readAsync_heeds client bytesLeft
  rw [readAsyncTurn, cancellationRequested_ask]
  mvcgen [take]
  case vc1 world owes _ _ => exact owes.yes
  case vc2 world owes _ going => exact owes.no going
  case vc3 _ _ _ _ _ _ _ world owes =>
    exact owes.2.thrown (by decide) (by decide) (by decide)
  case vc4 _ _ _ _ _ chunk some_ =>
    exact fun world few owes => goesOn chunk (Nat.pos_of_ne_zero some_) few world owes
  case vc5 world owes => exact owes.mono (by decide) (Nat.le_refl _)

theorem readAsyncLoop_heeds (size : Int64) (buffer bytesLeft : Nat) :
    ∀ (i : Int64) (stream : List UInt8),
      ⦃fun world => ⌜client.Owes 0 bytesLeft world⌝⦄
        readAsyncLoop client size buffer bytesLeft i stream
      ⦃client.heeded fun _ world => client.Owes 1 bytesLeft world⦄ := by
  induction bytesLeft with
  | zero =>
      intro i stream
      rw [readAsyncLoop_zero]
      apply readAsyncTurn_heeds
      intro chunk some_ few
      omega
  | succ bytesLeft ih =>
      intro i stream
      rw [readAsyncLoop_succ]
      apply readAsyncTurn_heeds
      intro chunk some_ few
      exact triple_weaken (ih _ _) (fun world owes => owes.mono (Nat.le_refl _) (by omega))
        (fun _ world owes => owes.mono (Nat.le_refl _) (Nat.le_succ _)) (fun _ _ ends => ends)

theorem skipAsync_heeds (size : Int64) :
    ⦃fun world => ⌜client.Owes 0 bytesLeft world⌝⦄ skipAsync client size
    ⦃client.heeded fun _ world => client.Owes 0 bytesLeft world⦄ := by
  have pays := charge_heeds client bytesLeft
  have loop := fun buffer left => readAsyncLoop_heeds client size buffer left
  have checks := throwIfCancellationRequested_heeds client bytesLeft
  mvcgen [skipAsync, readAsyncInternal, pays, loop, checks]
  case vc2 _ _ _ world owes => exact ⟨owes.1, Nat.le_refl _⟩
  case vc3 _ _ _ start ahead _ world owes => exact owes.mono (Nat.le_refl _) ahead.2

end PipeReader

theorem writeCheckpoint_heeds (cfg : Config) :
    ⦃fun world => ⌜client.Owes 0 bytesLeft world⌝⦄ FrameWriter.writeCheckpoint cfg client
    ⦃client.heeded fun _ world => client.Owes 0 bytesLeft world⦄ := by
  have writes : ∀ bytes, ⦃fun world => ⌜client.Owes 0 bytesLeft world⌝⦄
      PipeWriter.write client bytes
      ⦃client.heeded fun _ world => client.Owes 0 bytesLeft world⦄ := by
    intro bytes
    mvcgen [PipeWriter.write]
    case vc1 world owes refused => exact owes.refused refused
  mvcgen [FrameWriter.writeCheckpoint, FrameWriter.drawNonce, FrameWriter.write, record, writes]

namespace FrameSession

theorem handleFrameAsync_heeds (asm : Assembly) (offset : Nat) (header : FrameHeader) :
    ⦃fun world => ⌜client.Owes 0 bytesLeft world⌝⦄ handleFrameAsync asm client offset header
    ⦃client.heeded fun _ world => client.Owes 0 bytesLeft world⦄ := by
  have checkpoint := writeCheckpoint_heeds client bytesLeft asm.toConfig
  have skips := PipeReader.skipAsync_heeds client bytesLeft
  mvcgen [handleFrameAsync, dispatch, handleAsync, skipRest, packetSession, setState, record,
    checkpoint, skips]

theorem requestCheckpoint_heeds (cfg : Config) :
    ⦃fun world => ⌜client.Owes 0 bytesLeft world⌝⦄ requestCheckpoint cfg client
    ⦃client.heeded fun _ world => client.Owes 0 bytesLeft world⦄ := by
  have checkpoint := writeCheckpoint_heeds client bytesLeft cfg
  mvcgen [requestCheckpoint, setState, record, checkpoint]

theorem checkHeader_throws {cfg : Config} {header : FrameHeader} {failure : Failure}
    (refused : checkHeader cfg header = .error failure) : failure = .insufficientMemory := by
  unfold checkHeader at refused
  split at refused
  · cases refused
  · split at refused
    · cases refused
      rfl
    · cases refused

theorem readHeader_heeds (cfg : Config) :
    ⦃fun world => ⌜client.Owes 0 bytesLeft world⌝⦄ readHeader cfg client
    ⦃client.heeded fun _ world => client.Owes 0 bytesLeft world⦄ := by
  have image := PipeReader.read_heeds client bytesLeft 38
  mvcgen [readHeader, record, image]
  case vc2 _ _ _ _ world owes _ failure failed =>
    rw [checkHeader_throws failed]
    exact Client.Owes.thrown (show client.Owes 0 bytesLeft _ from owes) (by decide) (by decide)
      (by decide)

theorem receiveFrame_heeds (asm : Assembly) :
    ⦃fun world => ⌜client.Owes 0 bytesLeft world⌝⦄ receiveFrame asm client
    ⦃client.heeded fun _ world => client.Owes 0 bytesLeft world⦄ := by
  have header := readHeader_heeds client bytesLeft asm.toConfig
  have request := requestCheckpoint_heeds client bytesLeft asm.toConfig
  have child := PipeReader.createChild_heeds client bytesLeft
  have handled := handleFrameAsync_heeds client bytesLeft asm
  have release := PipeReader.releaseChild_heeds client bytesLeft
  mvcgen [receiveFrame, receiveHeader, record, header, request, child, handled, release]

theorem receiveBatch_heeds (cfg : Config) (left : Nat) :
    ∀ (bytesLeft : Nat) (preamble : Bytes 6) (found : Bool),
      ⦃fun world => ⌜client.Owes 0 bytesLeft world⌝⦄
        receiveBatch cfg client left preamble found
      ⦃client.heeded fun _ world => left ≤ bytesLeft ∧ client.Owes 0 (bytesLeft - left) world⦄ := by
  induction left with
  | zero =>
      intro bytesLeft preamble found
      unfold receiveBatch
      mvcgen
      case vc1 world owes => exact ⟨Nat.zero_le _, owes⟩
  | succ left ih =>
      intro bytesLeft preamble found
      have byte := PipeReader.read_passes client bytesLeft 1
      unfold receiveBatch
      mvcgen [receivePreamble, byte]
      case vc2 _ _ image pushed world owes =>
        obtain ⟨some_, owes⟩ := owes
        have rest := triple_weaken (ih (bytesLeft - 1) pushed (found || pushed == cfg.preamble))
          (fun _ owes => owes)
          (fun _ world owes => (⟨by omega, owes.2.mono (Nat.le_refl _) (by omega)⟩ :
            left + 1 ≤ bytesLeft ∧ client.Owes 0 (bytesLeft - (left + 1)) world))
          (fun _ _ ends => ends)
        exact rest world owes

/-- A turn takes six bytes off the wire. -/
theorem turn_heeds (asm : Assembly) (preamble : Bytes 6) :
    ⦃fun world => ⌜client.Owes 0 bytesLeft world⌝⦄ turn asm client preamble
    ⦃client.heeded fun _ world => 6 ≤ bytesLeft ∧ client.Owes 0 (bytesLeft - 6) world⦄ := by
  have batch := receiveBatch_heeds client asm.toConfig 6 bytesLeft
  have frame := receiveFrame_heeds client (bytesLeft - 6) asm
  mvcgen [turn, batch, frame]
  case vc3 _ _ _ _ world owes => exact owes.2
  case vc4 _ _ _ _ _ batched _ world owes => exact ⟨batched.1, owes⟩

theorem runLoop_heeds (asm : Assembly) (turns : Nat) :
    ∀ (bytesLeft : Nat) (preamble : Bytes 6), bytesLeft < turns →
      ⦃fun world => ⌜client.Owes 0 bytesLeft world⌝⦄ runLoop asm client turns preamble
      ⦃client.heeded fun _ world =>
        client.cancelAt ≠ none ∧ Late client.cancelAt 1 world.asked⦄ := by
  induction turns with
  | zero =>
      intro bytesLeft preamble few
      exact absurd few (Nat.not_lt_zero _)
  | succ turns ih =>
      intro bytesLeft preamble few
      have once := turn_heeds client bytesLeft asm
      have again := fun some_ : 6 ≤ bytesLeft => ih (bytesLeft - 6)
      rw [runLoop, cancellationRequested_ask]
      mvcgen [once]
      case vc1 world owes _ yes => exact ⟨set_of_answers yes, owes.yes.1⟩
      case vc2 world owes _ going => exact owes.no going
      case vc3 _ _ _ _ preamble =>
        exact fun world some_ owes => again some_ preamble (by omega) world owes

theorem runAsyncInternal_heeds (asm : Assembly) :
    ⦃fun world => ⌜Late client.cancelAt 0 world.asked⌝⦄ runAsyncInternal asm client
    ⦃client.heeded fun _ world =>
      client.cancelAt ≠ none ∧ Late client.cancelAt 1 world.asked⦄ := by
  have loop := fun left preamble few => runLoop_heeds client asm (left + 1) left preamble few
  rw [triple_iff]
  intro world late
  exact triple_iff.mp (loop (client.wire.length - world.position) _ (Nat.lt_succ_self _)) world
    ⟨late, Nat.le_refl _⟩

/-- What leaves a session is a reason to close the pipe, unless nothing ever leaves it. -/
theorem session_returns (asm : Assembly) (reader : PipeReader) (drains : client.stalls = false)
    (stops : client.cancelAt ≠ none ∨ client.ending ≠ .silent) :
    ∃ ended, runAsync (session asm client reader) = some ended ∧
      (client.cancelAt = none → ended ≠ .closedSuccessfully ∧ ended ≠ .operationCancelled) := by
  have ran := triple_iff.mp (runAsyncInternal_heeds client asm) (World.start reader) Late.start
  cases ended : session asm client reader with
  | ok result final =>
      rw [show (runAsyncInternal asm client).run (World.start reader) = _ from ended] at ran
      exact ⟨_, rfl, fun never => absurd never ran.1⟩
  | error failure final =>
      rw [show (runAsyncInternal asm client).run (World.start reader) = _ from ended] at ran
      obtain ⟨waits, told, _⟩ := ran
      cases failure with
      | blocked =>
          rcases waits rfl with ⟨never, silent⟩ | ⟨stalls, _⟩
          · rcases stops with stops | stops
            · exact absurd never stops
            · exact absurd silent stops
          · rw [drains] at stalls
            cases stalls
      | operationCanceled => exact ⟨_, rfl, fun never => absurd never (told rfl)⟩
      | endOfStream | io | win32 | application | argumentOutOfRange | insufficientMemory =>
          exact ⟨_, rfl, fun _ => by decide⟩

end FrameSession

namespace Sample

/-- Sends two checkpoints, of which the second is answered, and stays; the token is set while
the session waits for a third one. -/
def mute : Client :=
  let checkpoint := Wsac.Sample.config.preamble.toList ++ (FrameHeader.new Wsac.Sample.config
    Wsac.Sample.config.checkpointSignature 0 Wsac.Sample.nonce).encode.toList
  { Client.waiting (checkpoint ++ checkpoint) Wsac.Sample.nonce with
    ending := .silent
    cancelAt := some 100 }

end Sample
end Wsac.Service
