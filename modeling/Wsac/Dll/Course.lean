import Wsac.Dll.Teardown
import Wsac.Dll.Chunking
import Wsac.Dll.Draws
import Wsac.Dll.Shutdown
import Wsac.Library.Paths

/-! # The worker of the interleavings is the worker of the bytes

`Advances` leaves open what the pipe does.  Here each of its steps says what becomes of the
stream, of `Base`, of the draws and of the log, and a whole session is a path of such steps:
so what holds of every interleaving with `~Host` holds of the sessions that bytes run. -/

set_option autoImplicit false

namespace Wsac.Dll

open Library Library.Exec Relation

/-- Here the worker puts a question to the stop token. -/
def Point.asks : Point → Bool
  | .looping | .filling _ (_ + 1) | .polled _ _ false | .arrived _ _ | .filled _ => true
  | _ => false

/-- Here it goes on without a question, and changes nothing that a session keeps. -/
def Point.passes : Point → Bool
  | .starting | .filling _ 0 | .polled _ _ true | .making | .handling .regular
  | .handling .invalid => true
  | _ => false

/-- Behind the last `WriteFile` of a checkpoint. -/
def Point.behindWrite (rejected : Bool) : Point := if rejected then .resetting else .looping

section
variable (cfg : Config) (pipe : Pipe)

/-- What a step between two points makes of the world. -/
inductive Does (world : World) : Point → Point → World → Prop where
  | asks (worker next : Point) (question : worker.asks = true) :
      Does world worker next (world.seek world.position (world.asked + 1))
  | passes (worker next : Point) (silent : worker.passes = true) : Does world worker next world
  | peeks (reading : Reading) (left : Nat) (waiting : Bool)
      (more : waiting = true → world.position < pipe.wire.length) :
      Does world (.peeking reading left) (.polled reading left waiting) world
  | peekFails (reading : Reading) (left : Nat) (atEnd : pipe.wire.length ≤ world.position) :
      Does world (.peeking reading left) .ended world
  | receives (reading : Reading) (left : Nat) :
      Does world (.receiving reading left)
        (.filling reading (left - pipe.served world.position (left % 2 ^ 32)))
        (world.seek (world.position + pipe.served world.position (left % 2 ^ 32)) world.asked)
  | receiveFails (reading : Reading) (left : Nat)
      (nothing : pipe.served world.position (left % 2 ^ 32) = 0) :
      Does world (.receiving reading left) .ended world
  | rejects (offset : Nat) (header : FrameHeader) (behind : world.position = offset + 38)
      (genuine : Session.Genuine pipe offset header) (invalid : header.validate cfg = false) :
      Does world .validating (.signing true)
        { world with log := world.log ++ [.rejected offset header] }
  | accepts (offset : Nat) (header : FrameHeader) (behind : world.position = offset + 38)
      (genuine : Session.Genuine pipe offset header) (valid : header.validate cfg = true) :
      Does world .validating (.handling (signalOf cfg header.sig))
        { world with log := world.log ++ [.dispatched offset header] }
  | findsNone (none_ : world.base = .none) :
      Does world (.handling .checkpoint) .settingReady world
  | findsReady (ready : world.base = .ready) :
      Does world (.handling .checkpoint) (.signing false) world
  | test (offset : Nat) (header : FrameHeader)
      (dispatched : world.log.getLast? = some (.dispatched offset header))
      (fits : header.dataSize.toNat < 2 ^ 63) :
      Does world (.handling .test) (.filling .body header.dataSize.toNat) world
  | setsReady : Does world .settingReady .looping
      { world with base := .ready, log := world.log ++ [.base .ready] }
  | signs (rejected : Bool) :
      Does world (.signing rejected) (.writing rejected) { world with drawn := world.drawn + 1 }
  | writes (rejected : Bool) (chunk : List UInt8) (some_ : chunk ≠ []) :
      Does world (.writing rejected) (.writing rejected)
        { world with written := world.written ++ chunk }
  | wrote (rejected : Bool) (chunk : List UInt8) (some_ : chunk ≠ []) (draw : Nat)
      (newest : world.drawn = draw + 1)
      (whole : (pipe.checkpoint cfg draw).wire cfg <:+ world.written ++ chunk) :
      Does world (.writing rejected) (.behindWrite rejected)
        { world with
          written := world.written ++ chunk
          log := world.log ++ [.wrote (pipe.checkpoint cfg draw)] }
  | testFails (offset : Nat) (header : FrameHeader)
      (dispatched : world.log.getLast? = some (.dispatched offset header))
      (large : 2 ^ 63 ≤ header.dataSize.toNat) : Does world (.handling .test) .ended world
  | writeFails (rejected : Bool) (refused : pipe.refuses world = true)
      (fails : pipe.stalls = false) : Does world (.writing rejected) .ended world
  | resets : Does world .resetting .looping
      { world with base := .none, log := world.log ++ [.base .none] }

/-- Where the worker stands, and whether the static header exists. -/
structure Place where
  worker : Point
  made : Bool
deriving DecidableEq

/-- A step of the worker, with its effect. -/
structure Goes (before after : Place × World) : Prop where
  advances : ∃ access, Advances (pipe.stopped before.2.asked) before.1.made before.1.worker access
    after.1.worker
  made : after.1.made = (before.1.made || decide (before.1.worker = .making))
  does : Does cfg pipe before.2 before.1.worker after.1.worker after.2

abbrev Course : Place × World → Place × World → Prop := ReflTransGen (Goes cfg pipe)

/-- A loop that is never left stands somewhere; every other failure ends the worker. -/
def Halts (place : Place) (failure : Exit) : Prop :=
  failure = .spinning ∨ failure = .outOfBounds ∨ place.worker = .ended

variable {cfg pipe} {α : Type} {worker next : Point} {made : Bool} {world after : World}

theorem Goes.intro {access : Option Component}
    (advances : Advances (pipe.stopped world.asked) made worker access next)
    (does : Does cfg pipe world worker next after) (elsewhere : worker ≠ .making) :
    Goes cfg pipe (⟨worker, made⟩, world) (⟨next, made⟩, after) := by
  refine ⟨⟨access, advances⟩, ?_, does⟩
  simp [elsewhere]

theorem Goes.single {access : Option Component}
    (advances : Advances (pipe.stopped world.asked) made worker access next)
    (does : Does cfg pipe world worker next after) (elsewhere : worker ≠ .making) :
    Course cfg pipe (⟨worker, made⟩, world) (⟨next, made⟩, after) :=
  ReflTransGen.single (Goes.intro advances does elsewhere)

theorem ends_leads (failure : Exit) {part : Worker α} {there : α → Place → Prop}
    (ran : part.run world = .error failure after)
    (path : Course cfg pipe (⟨worker, made⟩, world) (⟨.ended, made⟩, after)) :
    Leads (Goes cfg pipe) Halts ⟨worker, made⟩ part there world :=
  Leads.of_error ran (Or.inr (Or.inr rfl)) path

/-- A question, and what follows either answer. -/
theorem asks_leads {stop onward : Worker α} {there : α → Place → Prop}
    (question : worker.asks = true)
    (yes : pipe.stopped world.asked = true → ∃ next, Advances true made worker none next ∧
      Leads (Goes cfg pipe) Halts ⟨next, made⟩ stop there
        (world.seek world.position (world.asked + 1)))
    (no : pipe.stopped world.asked = false → ∃ next, Advances false made worker none next ∧
      Leads (Goes cfg pipe) Halts ⟨next, made⟩ onward there
        (world.seek world.position (world.asked + 1))) :
    Leads (Goes cfg pipe) Halts ⟨worker, made⟩
      (do if ← stopRequested pipe then stop else onward) there world := by
  have elsewhere : worker ≠ .making := by
    intro making
    rw [making] at question
    cases question
  cases answer : pipe.stopped world.asked with
  | true =>
      obtain ⟨next, advances, leads⟩ := yes answer
      rw [← answer] at advances
      refine Leads.after (Goes.single advances (.asks worker next question) elsewhere) ?_ leads
      rw [run_bind_ok (stopRequested_eq pipe world), answer, if_pos rfl]
  | false =>
      obtain ⟨next, advances, leads⟩ := no answer
      rw [← answer] at advances
      refine Leads.after (Goes.single advances (.asks worker next question) elsewhere) ?_ leads
      rw [run_bind_ok (stopRequested_eq pipe world), answer, if_neg (by decide)]

/-! ## Reading -/

namespace PipeReader
variable {reading : Reading} {left : Nat}

/-- A poll reports what there is to report. -/
theorem polls (waiting : Bool) (more : waiting = true → world.position < pipe.wire.length) :
    Course cfg pipe (⟨.peeking reading left, made⟩, world)
      (⟨.polled reading left waiting, made⟩, world) :=
  Goes.single (.peeks reading left waiting) (.peeks reading left waiting more) (by simp)

/-- The peek loop is left where its last poll leaves it, or at a yes. -/
theorem poll_leads {outcome : Worker Unit}
    (last : ∀ asked, Leads (Goes cfg pipe) Halts ⟨.peeking reading left, made⟩ outcome
      (fun _ place => place = ⟨.arrived reading left, made⟩) (world.seek world.position asked))
    (fruitless : Nat) : ∀ asked,
      Leads (Goes cfg pipe) Halts ⟨.peeking reading left, made⟩ (poll pipe outcome fruitless)
        (fun _ place => place = ⟨.arrived reading left, made⟩)
        (world.seek world.position asked) := by
  induction fruitless with
  | zero => exact last
  | succ fruitless ih =>
      intro asked
      refine Leads.after (polls false fun same => by cases same) rfl (asks_leads rfl ?_ ?_)
      · intro yes
        exact ⟨_, .wakes reading left false (Or.inr rfl), Leads.pure () rfl⟩
      · intro no
        exact ⟨_, .polls reading left rfl, ih _⟩

/-- Nobody writes: the worker polls until it is told to stop. -/
theorem polls_deserted {first : Nat} (limit : pipe.stopAt = some first) (rounds : Nat) :
    ∀ asked, first - asked = rounds →
      Course cfg pipe (⟨.peeking reading left, made⟩, world.seek world.position asked)
        (⟨.arrived reading left, made⟩,
          world.seek world.position (max asked first + 1)) := by
  have answers : ∀ asked, pipe.stopped asked = decide (first ≤ asked) := by
    intro asked
    rw [Pipe.stopped, limit]
  induction rounds with
  | zero =>
      intro asked reached
      have told : first ≤ asked := by omega
      have yes : pipe.stopped asked = true := by rw [answers, decide_eq_true told]
      rw [Nat.max_eq_left told]
      refine (polls false fun same => by cases same).tail ?_
      exact Goes.intro (.wakes reading left false (Or.inr yes)) (.asks _ _ rfl) (by simp)
  | succ rounds ih =>
      intro asked left_
      have no : pipe.stopped asked = false := by rw [answers, decide_eq_false (by omega)]
      have same : max (asked + 1) first = max asked first := by omega
      have again := ih (asked + 1) (by omega)
      rw [same] at again
      refine ((polls false fun same => by cases same).tail ?_).trans again
      exact Goes.intro (.polls reading left no) (.asks _ _ rfl) (by simp)

theorem waitForBytes_leads (world : World) :
    Leads (Goes cfg pipe) Halts ⟨.peeking reading left, made⟩ (waitForBytes pipe)
      (fun _ place => place = ⟨.arrived reading left, made⟩) world := by
  refine Leads.after ReflTransGen.refl (run_get_bind world) ?_
  by_cases more : world.position < pipe.wire.length
  · rw [if_pos more]
    refine poll_leads (fun asked => ?_) _ world.asked
    refine Leads.after (polls true fun _ => more) rfl (Leads.after ?_ rfl (Leads.pure () rfl))
    exact Goes.single (.wakes reading left true (Or.inl rfl)) (.passes _ _ rfl) (by simp)
  · rw [if_neg more]
    have atEnd : pipe.wire.length ≤ world.position := Nat.le_of_not_lt more
    cases pipe.ending with
    | broken count =>
        refine poll_leads (fun asked => ?_) count world.asked
        exact ends_leads .pipeReadException rfl
          (Goes.single (.peekFails reading left) (.peekFails reading left atEnd) (by simp))
    | silent =>
        cases limit : pipe.stopAt with
        | none => exact Leads.throw _ (Or.inl rfl)
        | some first => exact Leads.of_ok rfl rfl (polls_deserted limit _ world.asked rfl)

/-- What is left of the buffer is what `ReadFile` is asked for, in a `DWORD`. -/
theorem readFile_leads {size i : Nat} {next : List UInt8 → Worker (Bytes size)} (world : World)
    (goesOn : ∀ chunk : List UInt8, chunk.length ≤ (size - i) % 2 ^ 32 → ∀ world,
      Leads (Goes cfg pipe) Halts ⟨.filling reading (size - i - chunk.length), made⟩ (next chunk)
        (fun _ place => place = ⟨.filled reading, made⟩) world) :
    Leads (Goes cfg pipe) Halts ⟨.receiving reading (size - i), made⟩
      (do
        let chunk ← readFile pipe ((size - i) % 2 ^ 32)
        if chunk.length = 0 then throw .pipeReadException else next chunk)
      (fun _ place => place = ⟨.filled reading, made⟩) world := by
  obtain ⟨chunk, ran, long⟩ : ∃ chunk : List UInt8,
      (readFile pipe ((size - i) % 2 ^ 32)).run world =
        .ok chunk (world.seek
          (world.position + pipe.served world.position ((size - i) % 2 ^ 32)) world.asked) ∧
      chunk.length = pipe.served world.position ((size - i) % 2 ^ 32) :=
    ⟨_, readFile_run pipe _ world, piece_length pipe _ _⟩
  have bound := pipe.served_le world.position ((size - i) % 2 ^ 32)
  have fits := Nat.mod_le (size - i) (2 ^ 32)
  by_cases nothing : pipe.served world.position ((size - i) % 2 ^ 32) = 0
  · refine ends_leads .pipeReadException ?_
      (Goes.single (.receiveFails reading _) (.receiveFails reading _ nothing) (by simp))
    rw [run_bind_ok ran, long, if_pos nothing, nothing]
    rfl
  · have received : Goes cfg pipe (⟨.receiving reading (size - i), made⟩, world) _ :=
      Goes.intro (.receives reading (size - i) _ (Nat.pos_of_ne_zero nothing) (by omega))
        (.receives reading (size - i)) (by simp)
    have rest := goesOn chunk (by omega) (world.seek
      (world.position + pipe.served world.position ((size - i) % 2 ^ 32)) world.asked)
    rw [long] at rest
    refine Leads.after (.single received) ?_ rest
    rw [run_bind_ok ran, long, if_neg nothing]

theorem readTurn_leads {size i : Nat} (v : Bytes size)
    {next : List UInt8 → Worker (Bytes size)}
    (goesOn : ∀ chunk : List UInt8, chunk.length ≤ (size - i) % 2 ^ 32 → ∀ world,
      Leads (Goes cfg pipe) Halts ⟨.filling reading (size - i - chunk.length), made⟩ (next chunk)
        (fun _ place => place = ⟨.filled reading, made⟩) world) (world : World) :
    Leads (Goes cfg pipe) Halts ⟨.filling reading (size - i), made⟩ (readTurn pipe i v next)
      (fun _ place => place = ⟨.filled reading, made⟩) world := by
  unfold readTurn
  by_cases filling : i < size
  · rw [if_pos filling]
    obtain ⟨left, some_⟩ : ∃ left, size - i = left + 1 := ⟨size - i - 1, by omega⟩
    rw [some_]
    refine asks_leads rfl (fun yes => ?_) (fun no => ?_)
    · exact ⟨_, .breaks reading left rfl, Leads.pure v rfl⟩
    · refine ⟨_, .waits reading left rfl, (waitForBytes_leads _).bind ?_⟩
      rintro _ _ middle _ rfl
      refine asks_leads rfl (fun yes => ?_) (fun no => ?_)
      · exact ⟨_, .givesUp reading _ rfl, Leads.throw _ (Or.inr (Or.inr rfl))⟩
      · rw [← some_]
        exact ⟨_, .goesOn reading _ rfl, readFile_leads _ goesOn⟩
  · have full : size - i = 0 := by omega
    rw [if_neg filling, full]
    exact Leads.of_ok rfl rfl (Goes.single (.full reading) (.passes _ _ rfl) (by simp))

theorem readLoop_leads {size : Nat} (bytesLeft : Nat) :
    ∀ (i : Nat) (v : Bytes size) (world : World), i ≤ size % 2 ^ 32 →
    Leads (Goes cfg pipe) Halts ⟨.filling reading (size - i), made⟩ (readLoop pipe bytesLeft i v)
      (fun _ place => place = ⟨.filled reading, made⟩) world := by
  induction bytesLeft with
  | zero =>
      intro i v world within
      rw [readLoop_zero]
      exact readTurn_leads v (fun _ _ _ => Leads.throw _ (Or.inl rfl)) world
  | succ bytesLeft ih =>
      intro i v world within
      rw [readLoop_succ]
      refine readTurn_leads v (fun chunk short world => ?_) world
      -- The offset stays below what a buffer leaves over its multiples of 4 GiB.
      have inside : i + chunk.length ≤ size % 2 ^ 32 := by omega
      have below : size % 2 ^ 32 < 2 ^ 32 := Nat.mod_lt _ (Nat.two_pow_pos 32)
      rw [Nat.mod_eq_of_lt (by omega), Nat.sub_sub]
      exact ih _ _ world inside

/-- A `Read` that returns has asked once more; what goes on may depend on what was read. -/
theorem read_leads {size : Nat} (v : Bytes size) (onward : Bytes size → Point)
    (goesOn : ∀ filled, Advances false made (.filled reading) none (onward filled))
    (world : World) :
    Leads (Goes cfg pipe) Halts ⟨.filling reading size, made⟩ (read pipe v)
      (fun filled place => place = ⟨onward filled, made⟩) world := by
  refine Leads.after ReflTransGen.refl (run_get_bind world) ?_
  refine (readLoop_leads _ 0 v world (Nat.zero_le _)).bind ?_
  rintro filled _ middle _ rfl
  refine asks_leads rfl (fun yes => ?_) (fun no => ?_)
  · exact ⟨_, .abandons reading rfl, Leads.throw _ (Or.inr (Or.inr rfl))⟩
  · exact ⟨_, goesOn filled, Leads.pure filled rfl⟩

end PipeReader
namespace FrameReader

/-- Where the search goes on behind a byte. -/
def behindByte (preamble : List UInt8) (lps : List Nat) (matched : Nat) (b : UInt8) : Point :=
  match advance preamble lps b matched with
  | none => .filling .byte 1
  | some matched => if matched < preamble.length then .filling .byte 1 else .making

theorem advances_behindByte (preamble : List UInt8) (lps : List Nat) (matched : Nat) (b : UInt8) :
    Advances false made (.filled .byte) none (behindByte preamble lps matched b) := by
  unfold behindByte
  cases advance preamble lps b matched with
  | none => exact .unmatched rfl
  | some matched =>
      dsimp only
      split
      · exact .unmatched rfl
      · exact .matched rfl

theorem searchLoop_leads (preamble : List UInt8) (lps : List Nat) (bytesLeft : Nat) :
    ∀ (matched : Nat) (world : World), matched < preamble.length →
    Leads (Goes cfg pipe) Halts ⟨.filling .byte 1, made⟩
      (searchLoop pipe preamble lps bytesLeft matched)
      (fun _ place => place = ⟨.making, made⟩) world := by
  induction bytesLeft with
  | zero =>
      intro matched world short
      unfold searchLoop
      rw [if_pos short]
      refine (PipeReader.read_leads _ (fun filled => behindByte preamble lps matched filled.head)
        (fun _ => advances_behindByte preamble lps matched _) world).bind ?_
      intro b place middle _ _
      cases advance preamble lps b.head matched with
      | none => exact Leads.throw _ (Or.inr (Or.inl rfl))
      | some matched => exact Leads.throw _ (Or.inl rfl)
  | succ bytesLeft ih =>
      intro matched world short
      unfold searchLoop
      rw [if_pos short]
      refine (PipeReader.read_leads _ (fun filled => behindByte preamble lps matched filled.head)
        (fun _ => advances_behindByte preamble lps matched _) world).bind ?_
      rintro b _ middle _ rfl
      unfold behindByte
      cases advance preamble lps b.head matched with
      | none => exact Leads.throw _ (Or.inr (Or.inl rfl))
      | some matched =>
          dsimp only
          by_cases partial_ : matched < preamble.length
          · rw [if_pos partial_]
            exact ih matched middle partial_
          · rw [if_neg partial_]
            unfold searchLoop
            rw [if_neg partial_]
            exact Leads.pure () rfl

theorem readUntilPreamble_leads (preamble : List UInt8) (nonempty : preamble ≠ [])
    (world : World) :
    Leads (Goes cfg pipe) Halts ⟨.filling .byte 1, made⟩ (readUntilPreamble pipe preamble)
      (fun _ place => place = ⟨.making, made⟩) world := by
  unfold readUntilPreamble
  cases kLps preamble with
  | none => exact Leads.throw _ (Or.inr (Or.inl rfl))
  | some lps =>
      refine Leads.after ReflTransGen.refl (run_get_bind world) ?_
      exact searchLoop_leads preamble lps _ 0 world (List.length_pos_iff.mpr nonempty)

/-- The static header is made before the first header is read, and only then. -/
theorem readHeader_leads (world : World) :
    Leads (Goes cfg pipe) Halts ⟨.making, made⟩ (readHeader cfg pipe)
      (fun _ place => place = ⟨.validating, true⟩) world := by
  have making : Course cfg pipe (⟨.making, made⟩, world) (⟨.filling .header 38, true⟩, world) := by
    cases made with
    | false => exact .single ⟨⟨_, .makesNull rfl⟩, rfl, .passes _ _ rfl⟩
    | true => exact .single ⟨⟨_, .copiesNull rfl⟩, rfl, .passes _ _ rfl⟩
  refine Leads.after making rfl ?_
  refine (PipeReader.read_leads (FrameHeader.null cfg pipe.nullNonce).encode (fun _ => .validating)
    (fun _ => .readHeader rfl) world).bind ?_
  rintro image _ middle _ rfl
  exact Leads.pure _ rfl

end FrameReader

/-! ## Writing -/

namespace PipeWriter
variable {rejected : Bool}

/-- A part that returns stands at its last `WriteFile`: the others are steps already. -/
def Finishes (cfg : Config) (pipe : Pipe) (rejected made : Bool) (part : Worker Unit)
    (world : World) : Prop :=
  match part.run world with
  | .ok _ after => ∃ last chunk, chunk ≠ [] ∧
      after = { last with written := last.written ++ chunk } ∧
      Course cfg pipe (⟨.writing rejected, made⟩, world) (⟨.writing rejected, made⟩, last)
  | .error failure after => ∃ place, Halts place failure ∧
      Course cfg pipe (⟨.writing rejected, made⟩, world) (place, after)

theorem Finishes.of_run {part : Worker Unit} {middle : World} {part' : Worker Unit}
    (path : Course cfg pipe (⟨.writing rejected, made⟩, world) (⟨.writing rejected, made⟩, middle))
    (same : part.run world = part'.run middle)
    (finishes : Finishes cfg pipe rejected made part' middle) :
    Finishes cfg pipe rejected made part world := by
  unfold Finishes at finishes ⊢
  rw [same]
  cases ran : part'.run middle with
  | ok _ after =>
      rw [ran] at finishes
      obtain ⟨last, chunk, some_, written, rest⟩ := finishes
      exact ⟨last, chunk, some_, written, path.trans rest⟩
  | error failure after =>
      rw [ran] at finishes
      obtain ⟨place, halts, rest⟩ := finishes
      exact ⟨place, halts, path.trans rest⟩

theorem writes_step {chunk : List UInt8} (some_ : chunk ≠ []) :
    Course cfg pipe (⟨.writing rejected, made⟩, world)
      (⟨.writing rejected, made⟩, { world with written := world.written ++ chunk }) :=
  Goes.single (.writes rejected) (.writes rejected chunk some_) (by simp)

theorem Finishes.leads {part : Worker Unit}
    (finishes : Finishes cfg pipe rejected made part world) :
    Leads (Goes cfg pipe) Halts ⟨.writing rejected, made⟩ part
      (fun _ place => place = ⟨.writing rejected, made⟩) world := by
  unfold Finishes at finishes
  cases ran : part.run world with
  | ok _ after =>
      rw [ran] at finishes
      obtain ⟨last, chunk, some_, rfl, path⟩ := finishes
      exact Leads.of_ok ran rfl (path.trans (writes_step some_))
  | error failure after =>
      rw [ran] at finishes
      obtain ⟨place, halts, path⟩ := finishes
      exact Leads.of_error ran halts path

theorem writeLoop_finishes {v : List UInt8} (small : v.length < 2 ^ 32) (turns : Nat) :
    ∀ (i : Nat) (world : World), i < v.length →
      Finishes cfg pipe rejected made (writeLoop pipe v turns i) world := by
  induction turns with
  | zero =>
      intro i world filling
      unfold Finishes
      rw [writeLoop, if_pos filling]
      exact ⟨_, Or.inl rfl, .refl⟩
  | succ turns ih =>
      intro i world filling
      rcases writeLoop_turn pipe small filling turns world with
        ⟨refused, failed⟩ | ⟨count, positive, bound, ran⟩
      · unfold Finishes
        rw [failed]
        cases stalls : pipe.stalls with
        | false =>
            exact ⟨⟨.ended, made⟩, Or.inr (Or.inr rfl),
              Goes.single (.writeFails rejected) (.writeFails rejected refused stalls) (by simp)⟩
        | true => exact ⟨⟨.writing rejected, made⟩, Or.inl (if_pos stalls), .refl⟩
      · have some_ : (v.drop i).take count ≠ [] := by
          refine List.length_pos_iff.mp ?_
          rw [List.length_take, List.length_drop]
          omega
        by_cases more : i + count < v.length
        · exact Finishes.of_run (writes_step some_) ran (ih _ _ more)
        · have full := writeLoop_full pipe more turns
            { world with written := world.written ++ (v.drop i).take count }
          unfold Finishes
          rw [ran, full]
          exact ⟨world, _, some_, rfl, .refl⟩

theorem write_finishes {v : List UInt8} (small : v.length < 2 ^ 32) (some_ : 0 < v.length)
    (world : World) : Finishes cfg pipe rejected made (write pipe v) world :=
  writeLoop_finishes small v.length 0 world some_

end PipeWriter
namespace FrameWriter
variable {rejected : Bool}

theorem write_finishes (header : FrameHeader) (world : World) :
    PipeWriter.Finishes cfg pipe rejected made (write cfg pipe header) world := by
  have six : cfg.preamble.toList.length = 6 := List.Vector.toList_length _
  have image : header.encode.toList.length = 38 := List.Vector.toList_length _
  have first := (PipeWriter.write_finishes (by omega) (by omega) world : PipeWriter.Finishes cfg
    pipe rejected made (PipeWriter.write pipe cfg.preamble.toList) world).leads
  unfold write
  cases ran : (PipeWriter.write pipe cfg.preamble.toList).run world with
  | ok _ middle =>
      obtain ⟨_, rfl, path⟩ := first.ok ran
      exact PipeWriter.Finishes.of_run path (run_bind_ok ran)
        (PipeWriter.write_finishes (by omega) (by omega) middle)
  | error failure middle =>
      obtain ⟨place, halts, path⟩ := first.error ran
      unfold PipeWriter.Finishes
      rw [run_bind_error ran]
      exact ⟨place, halts, path⟩

/-- The last `WriteFile` completes the frame of the newest draw. -/
theorem writeCheckpoint_leads (world : World) :
    Leads (Goes cfg pipe) Halts ⟨.signing rejected, made⟩ (writeCheckpoint cfg pipe)
      (fun _ place => place = ⟨.behindWrite rejected, made⟩) world := by
  have signs : Course cfg pipe (⟨.signing rejected, made⟩, world)
      (⟨.writing rejected, made⟩, { world with drawn := world.drawn + 1 }) :=
    Goes.single (.signs rejected) (.signs rejected) (by simp)
  refine Leads.after signs (run_bind_ok (Session.drawNonce_run pipe world)) ?_
  have finishes : PipeWriter.Finishes cfg pipe rejected made
      (write cfg pipe (pipe.checkpoint cfg world.drawn)) { world with drawn := world.drawn + 1 } :=
    write_finishes _ _
  cases ran : (write cfg pipe (pipe.checkpoint cfg world.drawn)).run
      { world with drawn := world.drawn + 1 } with
  | error failure after =>
      obtain ⟨place, halts, path⟩ := finishes.leads.error ran
      exact Leads.of_error (run_bind_error ran) halts path
  | ok _ after =>
      have written := write_ok cfg pipe ran
      unfold PipeWriter.Finishes at finishes
      rw [ran] at finishes
      obtain ⟨last, chunk, some_, rfl, path⟩ := finishes
      have newest : last.drawn = world.drawn + 1 := congrArg World.drawn written
      have whole : (pipe.checkpoint cfg world.drawn).wire cfg <:+ last.written ++ chunk :=
        ⟨world.written, (congrArg World.written written).symm⟩
      have wrote : ∃ access, Advances (pipe.stopped last.asked) made (.writing rejected) access
          (.behindWrite rejected) := by
        cases rejected with
        | false => exact ⟨_, .wrote⟩
        | true => exact ⟨_, .wroteRejected⟩
      obtain ⟨access, advances⟩ := wrote
      have recorded : (record (.wrote (pipe.checkpoint cfg world.drawn))).run
          { last with written := last.written ++ chunk } = .ok () _ := Session.record_run _ _
      exact Leads.of_ok ((run_bind_ok ran).trans recorded) rfl (path.tail (Goes.intro advances
        (.wrote rejected chunk some_ world.drawn newest whole) (by simp)))

end FrameWriter
namespace Session

theorem setReady_leads (world : World) :
    Leads (Goes cfg pipe) Halts ⟨.settingReady, made⟩ (setBase .ready)
      (fun _ place => place = ⟨.looping, made⟩) world :=
  Leads.of_ok (setBase_run .ready world) rfl (Goes.single .setsReady .setsReady (by simp))

theorem resets_leads (world : World) :
    Leads (Goes cfg pipe) Halts ⟨.resetting, made⟩ (setBase .none)
      (fun _ place => place = ⟨.looping, made⟩) world :=
  Leads.of_ok (setBase_run .none world) rfl (Goes.single .resets .resets (by simp))

/-- The switch, behind the log line of the header. -/
theorem switch_leads (offset : Nat) (header : FrameHeader) (world : World)
    (dispatched : world.log.getLast? = some (.dispatched offset header)) :
    Leads (Goes cfg pipe) Halts ⟨.handling (signalOf cfg header.sig), made⟩
      (switch cfg pipe header) (fun _ place => place = ⟨.looping, made⟩) world := by
  unfold switch
  cases signalOf cfg header.sig with
  | checkpoint =>
      refine Leads.after ReflTransGen.refl (run_get_bind world) ?_
      cases base : world.base with
      | none =>
          rw [if_pos rfl]
          exact Leads.after (Goes.single .findsNone (.findsNone base) (by simp)) rfl
            (setReady_leads world)
      | ready =>
          rw [if_neg (by simp)]
          exact Leads.after (Goes.single .findsReady (.findsReady base) (by simp)) rfl
            (FrameWriter.writeCheckpoint_leads world)
  | regular => exact Leads.of_ok rfl rfl (Goes.single .regular (.passes _ _ rfl) (by simp))
  | test =>
      simp only [handleTestSignal]
      by_cases large : 2 ^ 63 ≤ header.dataSize.toNat
      · rw [if_pos large]
        exact ends_leads .lengthError rfl
          (Goes.single .testFails (.testFails offset header dispatched large) (by simp))
      rw [if_neg large]
      refine Leads.after (Goes.single (.test _) (.test offset header dispatched (by omega))
        (by simp)) rfl ?_
      refine (PipeReader.read_leads _ (fun _ => .looping) (fun _ => .readBody rfl) world).bind ?_
      rintro _ _ middle _ rfl
      exact Leads.pure () rfl
  | invalid =>
      exact Leads.after (Goes.single .invalid (.passes _ _ rfl) (by simp)) rfl
        (FrameWriter.writeCheckpoint_leads world)

theorem handle_leads (offset : Nat) (header : FrameHeader) (world : World)
    (behind : world.position = offset + 38) (genuine : Genuine pipe offset header) :
    Leads (Goes cfg pipe) Halts ⟨.validating, made⟩ (handle cfg pipe offset header)
      (fun _ place => place = ⟨.looping, made⟩) world := by
  unfold handle
  cases verdict : header.validate cfg with
  | false =>
      rw [if_pos rfl]
      refine Leads.after (Goes.single .rejects
        (.rejects offset header behind genuine verdict) (by simp)) (run_bind_ok (record_run _ _)) ?_
      refine (FrameWriter.writeCheckpoint_leads _).bind ?_
      rintro _ _ middle _ rfl
      exact resets_leads middle
  | true =>
      rw [if_neg (by simp)]
      refine Leads.after (Goes.single (.accepts _)
        (.accepts offset header behind genuine verdict) (by simp)) (run_bind_ok (record_run _ _)) ?_
      exact switch_leads offset header _ List.getLast?_concat

theorem turn_leads (world : World) :
    Leads (Goes cfg pipe) Halts ⟨.filling .byte 1, made⟩ (turn cfg pipe)
      (fun _ place => place = ⟨.looping, true⟩) world := by
  refine (FrameReader.readUntilPreamble_leads _ cfg.preamble_nonempty world).bind ?_
  rintro _ _ middle _ rfl
  refine Leads.after ReflTransGen.refl (run_get_bind middle) ?_
  refine (FrameReader.readHeader_leads middle).bind ?_
  rintro header _ last ran rfl
  obtain ⟨image, _, read, decoded⟩ := run_bind_eq_ok.mp ran
  cases decoded
  obtain ⟨_, moved, content⟩ := PipeReader.read_ok pipe read
  exact handle_leads middle.position _ last (congrArg World.position moved) ⟨image, content, rfl⟩

theorem runLoop_leads (turns : Nat) : ∀ (made : Bool) (world : World),
    Leads (Goes cfg pipe) Halts ⟨.looping, made⟩ (runLoop cfg pipe turns)
      (fun _ place => place.worker = .ended) world := by
  induction turns with
  | zero => exact fun made world => Leads.throw _ (Or.inl rfl)
  | succ turns ih =>
      intro made world
      refine asks_leads rfl (fun yes => ?_) (fun no => ?_)
      · exact ⟨_, .leaves rfl, Leads.pure () rfl⟩
      · refine ⟨_, .searches rfl, (turn_leads _).bind ?_⟩
        rintro _ _ middle _ rfl
        exact ih true middle

theorem run_leads :
    Leads (Goes cfg pipe) Halts ⟨.starting, false⟩ (run cfg pipe)
      (fun _ place => place.worker = .ended) World.start :=
  Leads.after (Goes.single .getsComm (.passes _ _ rfl) (by simp)) (run_get_bind _)
    (runLoop_leads _ false _)

/-- A session is a path of the worker of the interleavings, with every effect; it leads to the
end of the worker except where nobody writes, hangs up or asks it to stop, or a peer that does
not read holds a `WriteFile`. -/
theorem run_course (cfg : Config) (pipe : Pipe) :
    ∃ place, Course cfg pipe (⟨.starting, false⟩, World.start)
        (place, finalState ((run cfg pipe).run World.start)) ∧
      (place.worker = .ended ∨ pipe.stopAt = none ∧ pipe.ending = .silent ∨
        pipe.Stalled (finalState ((run cfg pipe).run World.start))) := by
  have leads : Leads (Goes cfg pipe) Halts ⟨.starting, false⟩ (run cfg pipe)
      (fun _ place => place.worker = .ended) World.start := run_leads
  have heeds := triple_iff.mp (run_heeds pipe cfg) World.start Late.start
  cases ran : (run cfg pipe).run World.start with
  | ok _ final =>
      obtain ⟨place, ended, path⟩ := leads.ok ran
      exact ⟨place, path, Or.inl ended⟩
  | error failure final =>
      rw [ran] at heeds
      obtain ⟨inside, spins, _, _⟩ := heeds
      obtain ⟨place, halts, path⟩ := leads.error ran
      refine ⟨place, path, ?_⟩
      rcases halts with spinning | outside | ended
      · exact Or.inr (spins spinning)
      · exact absurd outside inside
      · exact Or.inl ended

end Session

end
end Wsac.Dll
