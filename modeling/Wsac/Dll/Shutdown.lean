import Wsac.Dll.Loop
import Wsac.Library.Token
import Wsac.Library.Triple

/-! # A worker that is asked to stop

Whatever the peer sends and whenever the token is set, the worker asks it at most once more
after the first yes, and then it has ended, if every `WriteFile` is over some time.  Without a
stop it spins only on a peer that stays silent and never hangs up. -/

set_option autoImplicit false
set_option mvcgen.warning false

namespace Wsac.Dll

open Library Library.Exec Std.Do

/-- The peer is there and does not read: a `WriteFile` would never be over. -/
def Pipe.Stalled (pipe : Pipe) (world : World) : Prop :=
  pipe.stalls = true ∧ pipe.refuses world = true

/-- What an exception may leave behind. -/
def Pipe.Ends (pipe : Pipe) (failure : Exit) (world : World) : Prop :=
  failure ≠ .outOfBounds ∧
    (failure = .spinning → pipe.stopAt = none ∧ pipe.ending = .silent ∨ pipe.Stalled world) ∧
    (failure = .stopTokenRequestedException → pipe.stopAt ≠ none) ∧
    Late pipe.stopAt 2 world.asked

/-- There are at most so many bytes in front of the cursor. -/
def Pipe.Owes (pipe : Pipe) (late bytesLeft : Nat) (world : World) : Prop :=
  Late pipe.stopAt late world.asked ∧ pipe.wire.length - world.position ≤ bytesLeft

abbrev Pipe.heeded (pipe : Pipe) {α : Type} (after : α → World → Prop) :
    PostCond α (.except Exit (.arg World .pure)) :=
  post⟨fun result world => ⌜after result world⌝, fun failure world => ⌜pipe.Ends failure world⌝⟩

section
variable {pipe : Pipe} {late bytesLeft : Nat} {world : World}

theorem Pipe.Owes.mono {more further : Nat} (owes : pipe.Owes late bytesLeft world)
    (le : late ≤ more) (far : bytesLeft ≤ further) : pipe.Owes more further world :=
  ⟨owes.1.mono le, owes.2.trans far⟩

theorem Pipe.Owes.yes (owes : pipe.Owes late bytesLeft world) :
    pipe.Owes (late + 1) bytesLeft (world.seek world.position (world.asked + 1)) :=
  ⟨owes.1.yes, owes.2⟩

theorem Pipe.Owes.no (owes : pipe.Owes late bytesLeft world)
    (going : ¬ pipe.stopped world.asked = true) :
    pipe.Owes 0 bytesLeft (world.seek world.position (world.asked + 1)) :=
  ⟨Late.no going, owes.2⟩

theorem Pipe.stopAt_of_stopped {asked : Nat} (told : pipe.stopped asked = true) :
    pipe.stopAt ≠ none := set_of_answers told

theorem Pipe.Owes.thrown (owes : pipe.Owes late bytesLeft world) (le : late ≤ 2) {failure : Exit}
    (inside : failure ≠ .outOfBounds) (left : failure ≠ .spinning)
    (untold : failure ≠ .stopTokenRequestedException) : pipe.Ends failure world :=
  ⟨inside, fun same => absurd same left, fun same => absurd same untold, owes.1.mono le⟩

theorem Pipe.Owes.deserted (owes : pipe.Owes 0 bytesLeft world) (never : pipe.stopAt = none)
    (silent : pipe.ending = .silent) : pipe.Ends .spinning world :=
  ⟨by decide, fun _ => Or.inl ⟨never, silent⟩, fun same => absurd same (by decide),
    owes.1.mono (by decide)⟩

/-- A `WriteFile` that takes nothing fails, or is never over. -/
theorem Pipe.Owes.refused (owes : pipe.Owes 0 bytesLeft world)
    (refused : pipe.refuses world = true) : pipe.Ends pipe.refusal world := by
  unfold Pipe.refusal
  cases stalls : pipe.stalls with
  | false => exact owes.thrown (by decide) (by decide) (by decide) (by decide)
  | true =>
      exact ⟨by decide, fun _ => Or.inr ⟨stalls, refused⟩, fun same => absurd same (by decide),
        owes.1.mono (by decide)⟩

/-- The yes behind which the exception is thrown may be the second one. -/
theorem Pipe.Owes.told (owes : pipe.Owes 1 bytesLeft world)
    (yes : pipe.stopped world.asked = true) :
    pipe.Ends .stopTokenRequestedException
      (world.seek world.position (world.asked + 1)) :=
  ⟨by decide, fun same => absurd same (by decide), fun _ => Pipe.stopAt_of_stopped yes,
    owes.yes.1⟩

end

variable (pipe : Pipe) (bytesLeft : Nat)

namespace PipeReader

theorem poll_heeds {outcome : Worker Unit}
    (heeds : ⦃fun world => ⌜pipe.Owes 0 bytesLeft world⌝⦄ outcome
      ⦃pipe.heeded fun _ world => pipe.Owes 1 bytesLeft world⦄) (fruitless : Nat) :
    ⦃fun world => ⌜pipe.Owes 0 bytesLeft world⌝⦄ poll pipe outcome fruitless
    ⦃pipe.heeded fun _ world => pipe.Owes 1 bytesLeft world⦄ := by
  induction fruitless with
  | zero => exact heeds
  | succ fruitless ih =>
      unfold poll
      mvcgen [stopRequested, ih]
      case vc1 world owes _ _ => exact owes.yes
      case vc2 world owes _ going => exact owes.no going

theorem waitForBytes_heeds :
    ⦃fun world => ⌜pipe.Owes 0 bytesLeft world⌝⦄ waitForBytes pipe
    ⦃pipe.heeded fun _ world => pipe.Owes 1 bytesLeft world⦄ := by
  have found : ⦃fun world => ⌜pipe.Owes 0 bytesLeft world⌝⦄ (pure () : Worker Unit)
      ⦃pipe.heeded fun _ world => pipe.Owes 1 bytesLeft world⦄ := by
    mvcgen
    case vc1 world owes => exact owes.mono (by decide) (Nat.le_refl _)
  have broken : ⦃fun world => ⌜pipe.Owes 0 bytesLeft world⌝⦄
      (throw .pipeReadException : Worker Unit)
      ⦃pipe.heeded fun _ world => pipe.Owes 1 bytesLeft world⦄ := by
    mvcgen
    case vc1 world owes =>
      exact owes.thrown (by decide) (by decide) (by decide) (by decide)
  have polls := poll_heeds pipe bytesLeft found
  have pollsBroken := poll_heeds pipe bytesLeft broken
  rw [triple_iff]
  intro world owes
  rw [waitForBytes, run_get_bind]
  by_cases more : world.position < pipe.wire.length
  · rw [if_pos more]
    exact triple_iff.mp (polls _) world owes
  · rw [if_neg more]
    cases last : pipe.ending with
    | broken count => exact triple_iff.mp (pollsBroken count) world owes
    | silent =>
        cases limit : pipe.stopAt with
        | none => exact owes.deserted limit last
        | some first => exact ⟨(owes.1.wait limit).yes, owes.2⟩

/-- `ReadFile` hands out no more bytes than there are. -/
theorem readFile_heeds (requested : Nat) :
    ⦃fun world => ⌜pipe.Owes 0 bytesLeft world⌝⦄ readFile pipe requested
    ⦃pipe.heeded fun chunk world =>
      chunk.length ≤ bytesLeft ∧ pipe.Owes 0 (bytesLeft - chunk.length) world⦄ := by
  rw [triple_iff]
  intro world owes
  have served := pipe.served_le world.position requested
  rw [readFile_run]
  simp only [piece_length]
  refine ⟨by have ahead := owes.2; omega, owes.1, ?_⟩
  have ahead := owes.2
  rw [seek_position]
  omega

/-- What goes on behind the bytes of a `ReadFile` has fewer of them in front of it. -/
theorem readTurn_heeds {size : Nat} (i : Nat) (v : Bytes size)
    {next : List UInt8 → Worker (Bytes size)}
    (goesOn : ∀ (chunk : List UInt8), 0 < chunk.length → chunk.length ≤ bytesLeft →
      ⦃fun world => ⌜pipe.Owes 0 (bytesLeft - chunk.length) world⌝⦄ next chunk
      ⦃pipe.heeded fun _ world => pipe.Owes 1 bytesLeft world⦄) :
    ⦃fun world => ⌜pipe.Owes 0 bytesLeft world⌝⦄ readTurn pipe i v next
    ⦃pipe.heeded fun _ world => pipe.Owes 1 bytesLeft world⦄ := by
  have wait := waitForBytes_heeds pipe bytesLeft
  have take := readFile_heeds pipe bytesLeft
  mvcgen [readTurn, stopRequested, wait, take]
  case vc1 world owes _ _ => exact owes.yes
  case vc2 world owes _ going => exact owes.no going
  case vc3 _ _ _ _ _ world owes _ yes => exact owes.told yes
  case vc4 _ _ _ _ _ world owes _ going => exact owes.no going
  case vc5 _ _ _ _ _ _ _ _ _ _ _ world owes =>
    exact owes.2.thrown (by decide) (by decide) (by decide) (by decide)
  case vc6 _ _ _ _ _ _ _ _ _ chunk some_ =>
    exact fun world few owes => goesOn chunk (Nat.pos_of_ne_zero some_) few world owes
  case vc7 world owes => exact owes.mono (by decide) (Nat.le_refl _)

theorem readLoop_heeds {size : Nat} (bytesLeft : Nat) : ∀ (i : Nat) (v : Bytes size),
    ⦃fun world => ⌜pipe.Owes 0 bytesLeft world⌝⦄ readLoop pipe bytesLeft i v
    ⦃pipe.heeded fun _ world => pipe.Owes 1 bytesLeft world⦄ := by
  induction bytesLeft with
  | zero =>
      intro i v
      rw [readLoop_zero]
      apply readTurn_heeds
      intro chunk some_ few
      omega
  | succ bytesLeft ih =>
      intro i v
      rw [readLoop_succ]
      apply readTurn_heeds
      intro chunk some_ few
      exact triple_weaken (ih _ _) (fun world owes => owes.mono (Nat.le_refl _) (by omega))
        (fun _ world owes => owes.mono (Nat.le_refl _) (Nat.le_succ _)) (fun _ _ ends => ends)

theorem read_heeds {size : Nat} (v : Bytes size) :
    ⦃fun world => ⌜pipe.Owes 0 bytesLeft world⌝⦄ read pipe v
    ⦃pipe.heeded fun _ world => pipe.Owes 0 bytesLeft world⦄ := by
  have loop := fun left i (v : Bytes size) => readLoop_heeds pipe left i v
  mvcgen [read, stopRequested, loop]
  case vc1 world owes => exact ⟨owes.1, Nat.le_refl _⟩
  case vc2 _ _ _ world owes _ yes => exact owes.told yes
  case vc3 _ start _ world owes _ going =>
    exact (owes.no going).mono (Nat.le_refl _) start.2

/-- One byte more is behind. -/
theorem readByte_heeds (v : Bytes 1) :
    ⦃fun world => ⌜pipe.Owes 0 bytesLeft world⌝⦄ read pipe v
    ⦃pipe.heeded fun _ world => 0 < bytesLeft ∧ pipe.Owes 0 (bytesLeft - 1) world⦄ := by
  have whole := triple_iff.mp (read_heeds pipe bytesLeft v)
  rw [triple_iff]
  intro world owes
  have ran := whole world owes
  cases ended : (read pipe v).run world with
  | error failure after =>
      rw [ended] at ran
      exact ran
  | ok filled after =>
      rw [ended] at ran
      obtain ⟨_, moved, content⟩ := read_ok pipe ended
      have one := congrArg List.length content
      rw [List.Vector.toList_length, List.length_take, List.length_drop] at one
      have ahead := owes.2
      refine ⟨by omega, ran.1, ?_⟩
      rw [moved, seek_position]
      omega

end PipeReader

namespace FrameReader

/-- The index out of bounds is excluded by `readUntilPreamble_error`. -/
theorem searchLoop_heeds (preamble : List UInt8) (lps : List Nat) (bytesLeft : Nat) :
    ∀ matched : Nat,
      ⦃fun world => ⌜pipe.Owes 0 bytesLeft world⌝⦄ searchLoop pipe preamble lps bytesLeft matched
      ⦃post⟨fun _ world => ⌜pipe.Owes 0 bytesLeft world⌝,
        fun failure world => ⌜failure ≠ .outOfBounds → pipe.Ends failure world⌝⟩⦄ := by
  induction bytesLeft with
  | zero =>
      intro matched
      have byte := PipeReader.readByte_heeds pipe 0
      unfold searchLoop
      mvcgen [byte]
      case vc2 world ends => exact fun inside => absurd rfl inside
      case vc3 _ _ _ _ _ _ world owes => exact absurd owes.1 (Nat.lt_irrefl 0)
      case vc4 => exact fun ends _ => ends
  | succ bytesLeft ih =>
      intro matched
      have byte := PipeReader.readByte_heeds pipe (bytesLeft + 1)
      unfold searchLoop
      mvcgen [byte, ih]
      case vc2 world ends => exact fun inside => absurd rfl inside
      case vc3 _ _ _ _ _ _ world owes => exact owes.2
      case vc4 => exact fun owes => owes.mono (Nat.le_refl _) (Nat.le_succ _)
      case vc5 => exact fun ends _ => ends

theorem readUntilPreamble_heeds (preamble : List UInt8) (nonempty : preamble ≠ []) :
    ⦃fun world => ⌜pipe.Owes 0 bytesLeft world⌝⦄ readUntilPreamble pipe preamble
    ⦃pipe.heeded fun _ world => pipe.Owes 0 bytesLeft world⦄ := by
  rw [triple_iff]
  intro world owes
  obtain ⟨lps, _, started⟩ := readUntilPreamble_eq pipe preamble nonempty world
  have searched := triple_iff.mp (searchLoop_heeds pipe preamble lps
    (pipe.wire.length - world.position) 0) world ⟨owes.1, Nat.le_refl _⟩
  rw [← started] at searched
  cases ended : (readUntilPreamble pipe preamble).run world with
  | ok _ after =>
      rw [ended] at searched
      exact searched.mono (Nat.le_refl _) owes.2
  | error failure after =>
      rw [ended] at searched
      exact searched (readUntilPreamble_error pipe preamble nonempty world ended).1

theorem readHeader_heeds (cfg : Config) :
    ⦃fun world => ⌜pipe.Owes 0 bytesLeft world⌝⦄ readHeader cfg pipe
    ⦃pipe.heeded fun _ world => pipe.Owes 0 bytesLeft world⦄ := by
  have image := fun buffer : Image => PipeReader.read_heeds pipe bytesLeft buffer
  mvcgen [readHeader, image]

end FrameReader

namespace PipeWriter

theorem writeFile_heeds (source : List UInt8) (requested : Nat) (some_ : 0 < requested) :
    ⦃fun world => ⌜pipe.Owes 0 bytesLeft world⌝⦄ writeFile pipe source requested
    ⦃pipe.heeded fun count world =>
      0 < count ∧ count ≤ requested ∧ pipe.Owes 0 bytesLeft world⦄ := by
  rw [triple_iff]
  intro world owes
  rcases writeFile_outcome pipe source requested world with ⟨refused, failed⟩ | wrote
  · rw [failed]
    exact owes.refused refused
  · rw [wrote]
    exact ⟨pipe.accepted_pos _ _ some_, pipe.accepted_le _ _, owes.1, owes.2⟩

/-- Only a buffer of `2 ^ 32` bytes or more makes the loop spin. -/
theorem writeLoop_heeds {v : List UInt8} (small : v.length < 2 ^ 32) (turns : Nat) :
    ∀ i : Nat, i ≤ v.length → v.length - i ≤ turns →
      ⦃fun world => ⌜pipe.Owes 0 bytesLeft world⌝⦄ writeLoop pipe v turns i
      ⦃pipe.heeded fun _ world => pipe.Owes 0 bytesLeft world⦄ := by
  induction turns with
  | zero =>
      intro i inside left
      unfold writeLoop
      mvcgen
      case vc1 filling world owes => omega
  | succ turns ih =>
      intro i inside left
      unfold writeLoop
      split
      · rename_i filling
        have request : (v.length - i) % 2 ^ 32 = v.length - i := Nat.mod_eq_of_lt (by omega)
        rw [request]
        have file := writeFile_heeds pipe bytesLeft (v.drop i) (v.length - i) (by omega)
        mvcgen [file]
        case vc2 _ _ count =>
          intro world some_ few owes
          rw [show (i + count) % 4294967296 = i + count from Nat.mod_eq_of_lt (by omega)]
          exact ih (i + count) (by omega) (by omega) world owes
      · mvcgen

theorem write_heeds {v : List UInt8} (small : v.length < 2 ^ 32) :
    ⦃fun world => ⌜pipe.Owes 0 bytesLeft world⌝⦄ write pipe v
    ⦃pipe.heeded fun _ world => pipe.Owes 0 bytesLeft world⦄ :=
  writeLoop_heeds pipe bytesLeft small v.length 0 (Nat.zero_le _) (Nat.le_refl _)

end PipeWriter

theorem writeCheckpoint_heeds (cfg : Config) :
    ⦃fun world => ⌜pipe.Owes 0 bytesLeft world⌝⦄ FrameWriter.writeCheckpoint cfg pipe
    ⦃pipe.heeded fun _ world => pipe.Owes 0 bytesLeft world⦄ := by
  have preamble : ⦃fun world => ⌜pipe.Owes 0 bytesLeft world⌝⦄
      PipeWriter.write pipe cfg.preamble.toList
      ⦃pipe.heeded fun _ world => pipe.Owes 0 bytesLeft world⦄ :=
    PipeWriter.write_heeds pipe bytesLeft (by rw [List.Vector.toList_length]; decide)
  have image : ∀ header : FrameHeader, ⦃fun world => ⌜pipe.Owes 0 bytesLeft world⌝⦄
      PipeWriter.write pipe header.encode.toList
      ⦃pipe.heeded fun _ world => pipe.Owes 0 bytesLeft world⦄ :=
    fun header => PipeWriter.write_heeds pipe bytesLeft (by rw [List.Vector.toList_length]; decide)
  mvcgen [FrameWriter.writeCheckpoint, FrameWriter.drawNonce, FrameWriter.write, record, preamble,
    image]

namespace Session

theorem handle_heeds (cfg : Config) (offset : Nat) (header : FrameHeader) :
    ⦃fun world => ⌜pipe.Owes 0 bytesLeft world⌝⦄ handle cfg pipe offset header
    ⦃pipe.heeded fun _ world => pipe.Owes 0 bytesLeft world⦄ := by
  have checkpoint := writeCheckpoint_heeds pipe bytesLeft cfg
  have body := fun buffer : Bytes header.dataSize.toNat =>
    PipeReader.read_heeds pipe bytesLeft buffer
  mvcgen [handle, switch, handleCheckpointSignal, handleRegularSignal, handleInvalidSignal,
    handleTestSignal, FrameReader.readUnsafeData, setBase, record, checkpoint, body]
  case vc5.isFalse.h_3.isTrue world _ owes _ _ _ =>
    exact Pipe.Owes.thrown (show pipe.Owes 0 bytesLeft _ from owes) (by decide) (by decide)
      (by decide) (by decide)

/-- A turn takes a preamble and a header off the wire. -/
theorem turn_heeds (cfg : Config) :
    ⦃fun world => ⌜pipe.Owes 0 bytesLeft world⌝⦄ turn cfg pipe
    ⦃pipe.heeded fun _ world => 0 < bytesLeft ∧ pipe.Owes 0 (bytesLeft - 1) world⦄ := by
  have whole : ⦃fun world => ⌜pipe.Owes 0 bytesLeft world⌝⦄ turn cfg pipe
      ⦃pipe.heeded fun _ world => pipe.Owes 0 bytesLeft world⦄ := by
    have search := FrameReader.readUntilPreamble_heeds pipe bytesLeft cfg.preamble.toList
      cfg.preamble_nonempty
    have header := FrameReader.readHeader_heeds pipe bytesLeft cfg
    have handled := handle_heeds pipe bytesLeft cfg
    mvcgen [turn, search, header, handled]
  rw [triple_iff] at whole ⊢
  intro world owes
  have ran := whole world owes
  cases ended : (turn cfg pipe).run world with
  | error failure after =>
      rw [ended] at ran
      exact ran
  | ok _ after =>
      rw [ended] at ran
      obtain ⟨stop, asked, image, _, content, settles⟩ := turn_ok cfg pipe ended
      have size := congrArg List.length content
      rw [List.Vector.toList_length, List.length_take, List.length_drop] at size
      have moved := settles.position
      rw [seek_position] at moved
      have ahead := owes.2
      refine ⟨by omega, ran.1, ?_⟩
      omega

theorem runLoop_heeds (cfg : Config) (turns : Nat) : ∀ bytesLeft : Nat, bytesLeft < turns →
    ⦃fun world => ⌜pipe.Owes 0 bytesLeft world⌝⦄ runLoop cfg pipe turns
    ⦃pipe.heeded fun _ world => pipe.stopAt ≠ none ∧ Late pipe.stopAt 1 world.asked⦄ := by
  induction turns with
  | zero =>
      intro bytesLeft few
      exact absurd few (Nat.not_lt_zero _)
  | succ turns ih =>
      intro bytesLeft few
      have once := turn_heeds pipe bytesLeft cfg
      have again := fun some_ : 0 < bytesLeft => ih (bytesLeft - 1) (by omega)
      unfold runLoop
      mvcgen [stopRequested, once]
      case vc1 world owes _ yes =>
        exact ⟨Pipe.stopAt_of_stopped yes, owes.yes.1⟩
      case vc2 world owes _ going => exact owes.no going
      case vc3 => exact fun world some_ owes => again some_ world owes

/-- `Session::Run` returns only when it is told to. -/
theorem run_heeds (cfg : Config) :
    ⦃fun world => ⌜Late pipe.stopAt 0 world.asked⌝⦄ run cfg pipe
    ⦃pipe.heeded fun _ world => pipe.stopAt ≠ none ∧ Late pipe.stopAt 1 world.asked⦄ := by
  have loop := fun left few => runLoop_heeds pipe cfg (left + 1) left few
  rw [triple_iff]
  intro world due
  exact triple_iff.mp (loop (pipe.wire.length - world.position) (Nat.lt_succ_self _)) world
    ⟨due, Nat.le_refl _⟩

end Session

/-! ## `SessionService::Run` -/

/-- `e.what()`; what is no exception has no text. -/
def Exit.what : Exit → Option String
  | .pipeReadException => some "Pipe read exception"
  | .pipeWriteException => some "Pipe write exception"
  | .stopTokenRequestedException => some "Stop token requested exception"
  | .lengthError => some "vector too long"
  | .spinning => none
  | .outOfBounds => none

namespace SessionService

/-- The two `catch` clauses, with the lines they log. -/
def handler (failure : Exit) : Worker (List String) :=
  match failure with
  | .stopTokenRequestedException => pure ["Stop token requested exception, skipping.."]
  | failure =>
      match failure.what with
      | some what => pure ["Exception occured: " ++ what,
          "From now, the client may cannot response to the server."]
      | none => throw failure

/-- The thread of the worker, with the lines that it logs itself. -/
def run (cfg : Config) (pipe : Pipe) : Worker (List String) := do
  let caught ← tryCatch (do Session.run cfg pipe; pure []) handler
  pure (caught ++ ["Session gracefully terminated"])

variable {pipe : Pipe}

/-- Every exception of a session is caught, and what is caught tells why it ended. -/
theorem handler_ends {failure : Exit} {world : World} (ends : pipe.Ends failure world)
    (drains : pipe.stalls = false) (stops : pipe.stopAt ≠ none ∨ pipe.ending ≠ .silent) :
    ∃ caught, (handler failure).run world = .ok caught world ∧
      (pipe.stopAt = none →
        "From now, the client may cannot response to the server." ∈ caught) := by
  obtain ⟨inside, spins, told, _⟩ := ends
  cases failure with
  | pipeReadException | pipeWriteException | lengthError =>
      exact ⟨_, rfl, fun _ => List.mem_cons_of_mem _ List.mem_cons_self⟩
  | stopTokenRequestedException => exact ⟨_, rfl, fun never => absurd never (told rfl)⟩
  | spinning =>
      rcases spins rfl with ⟨never, silent⟩ | ⟨stalls, _⟩
      · rcases stops with stops | stops
        · exact absurd never stops
        · exact absurd silent stops
      · rw [drains] at stalls
        cases stalls
  | outOfBounds => exact absurd rfl inside

/-- A worker ends, whatever it is sent, if it is told to or its peer hangs up, and no
`WriteFile` waits for ever; it asks its token once more at most behind the first yes. -/
theorem run_ends (cfg : Config) (drains : pipe.stalls = false)
    (stops : pipe.stopAt ≠ none ∨ pipe.ending ≠ .silent) :
    ∃ caught final,
      (run cfg pipe).run World.start =
        .ok (caught ++ ["Session gracefully terminated"]) final ∧
      (pipe.stopAt = none →
        "From now, the client may cannot response to the server." ∈ caught) ∧
      ∀ first, pipe.stopAt = some first → final.asked ≤ first + 2 := by
  have ran := triple_iff.mp (Session.run_heeds pipe cfg) World.start Late.start
  cases ended : (Session.run cfg pipe).run World.start with
  | ok result final =>
      rw [ended] at ran
      obtain ⟨told, due⟩ := ran
      have body : (do Session.run cfg pipe; pure [] : Worker (List String)).run World.start =
          .ok [] final := by
        rw [run_bind_ok ended]
        rfl
      refine ⟨[], final, ?_, fun never => absurd never told, due.mono (by decide)⟩
      rw [run, run_bind_ok (run_tryCatch_ok body)]
      rfl
  | error failure final =>
      rw [ended] at ran
      have body : (do Session.run cfg pipe; pure [] : Worker (List String)).run World.start =
          .error failure final := run_bind_error ended
      obtain ⟨caught, handled, reported⟩ := handler_ends ran drains stops
      refine ⟨caught, final, ?_, reported, ran.2.2.2⟩
      have thrown : (tryCatch (do Session.run cfg pipe; pure []) handler).run World.start =
          (handler failure).run final := run_tryCatch_error body
      rw [handled] at thrown
      rw [run, run_bind_ok thrown]
      rfl

end SessionService

namespace Sample

/-- The peer sends two checkpoints, of which the second is answered, and stays silent; the
token is set while the worker waits for a third one. -/
def deserted : Pipe :=
  let checkpoint := Wsac.Sample.config.preamble.toList ++ (FrameHeader.new Wsac.Sample.config
    Wsac.Sample.config.checkpointSignature 0 Wsac.Sample.nonce).encode.toList
  { Pipe.waiting (checkpoint ++ checkpoint) Wsac.Sample.nonce with
    ending := .silent
    stopAt := some 100 }

theorem run_ends_deserted : ∃ caught final,
    (SessionService.run Wsac.Sample.config deserted).run World.start =
      .ok (caught ++ ["Session gracefully terminated"]) final ∧
    (deserted.stopAt = none →
      "From now, the client may cannot response to the server." ∈ caught) ∧
    ∀ first, deserted.stopAt = some first → final.asked ≤ first + 2 :=
  SessionService.run_ends Wsac.Sample.config rfl (Or.inl (by decide))

end Sample
end Wsac.Dll
