import Wsac.Library.Follow
import Wsac.Dll.Loop

/-! # The same stream in other pieces, and a run that is stopped

`World.steps` reads off a log which headers have been taken off the wire and what
became of each.  Two runs over one stream go side by side (`Beside`) whatever the
pieces; a run that is stopped leaves a prefix of the steps of one that is not. -/

set_option autoImplicit false

namespace Wsac.Dll

open Library Library.Exec

/-- A header that has been read, its verdict, and what its handling has come to. -/
structure Step where
  offset : Nat
  header : FrameHeader
  passed : Bool
  base : Base
  checkpoints : Nat
deriving DecidableEq

/-- The newest step is the first one in the list. -/
def lastBase : List Step → Base
  | [] => .none
  | step :: _ => step.base

def see (steps : List Step) : Event → List Step
  | .rejected offset header => ⟨offset, header, false, lastBase steps, 0⟩ :: steps
  | .dispatched offset header => ⟨offset, header, true, lastBase steps, 0⟩ :: steps
  | .base value => steps.modifyHead fun step => { step with base := value }
  | .wrote _ => steps.modifyHead fun step => { step with checkpoints := step.checkpoints + 1 }

def World.trace (world : World) : List Step := world.log.foldl see []

def World.steps (world : World) : List Step := world.trace.reverse

def Session.stepsOfRun (cfg : Config) (pipe : Pipe) : List Step :=
  (finalState ((Session.run cfg pipe).run World.start)).steps

theorem trace_of_log (first : World) {second : World} (new : List Event)
    (log : second.log = first.log ++ new) : second.trace = new.foldl see first.trace := by
  unfold World.trace
  rw [log, List.foldl_append]

/-- Only the newest step is ever changed. -/
theorem see_older (new : List Event) : ∀ (step : Step) (older : List Step),
    older <:+ new.foldl see (step :: older) := by
  induction new with
  | nil => exact fun step older => List.suffix_cons step older
  | cons event new ih =>
      intro step older
      rw [List.foldl_cons]
      cases event with
      | rejected offset header => exact (List.suffix_cons step older).trans (ih _ (step :: older))
      | dispatched offset header =>
          exact (List.suffix_cons step older).trans (ih _ (step :: older))
      | base value => exact ih _ older
      | wrote header => exact ih _ older

/-- Behind a header, the newest step has the `Base` that the entries make. -/
theorem see_base (new : List Event) (headless : ∀ event ∈ new, event.head? = none) :
    ∀ (step : Step) (older : List Step),
      lastBase (new.foldl see (step :: older)) = new.foldl Event.rebase step.base := by
  induction new with
  | nil => exact fun step older => rfl
  | cons event new ih =>
      intro step older
      have rest := ih fun event member => headless event (List.mem_cons_of_mem _ member)
      cases event with
      | rejected offset header =>
          exact absurd (headless _ List.mem_cons_self) (by simp [Event.head?])
      | dispatched offset header =>
          exact absurd (headless _ List.mem_cons_self) (by simp [Event.head?])
      | base value => exact rest _ older
      | wrote header => exact rest _ older

/-- The steps are the headers of the log. -/
theorem see_heads (log : List Event) : ∀ steps : List Step,
    (log.foldl see steps).reverse.map (fun step => (step.offset, step.header, step.passed)) =
      steps.reverse.map (fun step => (step.offset, step.header, step.passed)) ++
        log.filterMap Event.head? := by
  induction log with
  | nil => simp
  | cons event log ih =>
      intro steps
      rw [List.foldl_cons, ih]
      cases event with
      | rejected offset header => simp [see, Event.head?]
      | dispatched offset header => simp [see, Event.head?]
      | base value =>
          rw [List.filterMap_cons_none rfl]
          cases steps <;> simp [see]
      | wrote header =>
          rw [List.filterMap_cons_none rfl]
          cases steps <;> simp [see]

theorem steps_heads (world : World) :
    world.steps.map (fun step => (step.offset, step.header, step.passed)) = world.heads :=
  see_heads world.log []

/-- The first thing logged, if anything, is a header. -/
def Opens (before after : World) : Prop :=
  after.log = before.log ∨ ∃ event new, event.head?.isSome = true ∧
    after.log = before.log ++ event :: new

namespace Opens

theorem refl (world : World) : Opens world world := Or.inl rfl

theorem trans (first second third : World) (left : Opens first second)
    (right : Opens second third) : Opens first third := by
  rcases left with same | ⟨event, new, head, log⟩
  · rcases right with same' | ⟨event, new, head, log⟩
    · exact Or.inl (same'.trans same)
    · exact Or.inr ⟨event, new, head, by rw [log, same]⟩
  · rcases right with same' | ⟨event', new', _, log'⟩
    · exact Or.inr ⟨event, new, head, same'.trans log⟩
    · exact Or.inr ⟨event, new ++ event' :: new', head, by rw [log', log]; simp⟩

theorem steps {before after : World} (opens : Opens before after) :
    before.steps <+: after.steps := by
  unfold World.steps
  rw [List.reverse_prefix]
  rcases opens with same | ⟨event, new, head, log⟩
  · rw [World.trace, World.trace, same]
  · rw [trace_of_log before (event :: new) log, List.foldl_cons]
    cases event with
    | rejected offset header => exact see_older new _ _
    | dispatched offset header => exact see_older new _ _
    | base value => cases head
    | wrote header => cases head

end Opens

theorem Seeks.opens {before after : World} (seeks : Seeks before after) : Opens before after :=
  Or.inl seeks.log

namespace Session

theorem handle_opens (cfg : Config) (pipe : Pipe) (offset : Nat) (header : FrameHeader) :
    Moves Opens (handle cfg pipe offset header) := by
  intro world
  obtain ⟨event, head, new, log, _⟩ := handle_amends cfg pipe offset header world
  refine Or.inr ⟨event, new, by rw [head]; rfl, ?_⟩
  rw [log, List.append_assoc, List.singleton_append]

theorem runLoop_opens (cfg : Config) (pipe : Pipe) (turns : Nat) :
    Moves Opens (runLoop cfg pipe turns) :=
  runLoop_moves Opens.trans (fun _ _ => Seeks.opens) cfg pipe (handle_opens cfg pipe) turns

end Session

/-! ## Two runs over one stream -/

/-- The same bytes come, and what is written meets the same pipe.  The pieces, the
polls, the end of the stream, the stop token and the nonces are free. -/
structure SameStream (one two : Pipe) : Prop where
  wire : one.wire = two.wire
  accepted : one.accepted = two.accepted
  brokenAt : one.brokenAt = two.brokenAt

structure Beside (one two : World) : Prop where
  position : one.position = two.position
  base : one.base = two.base
  sent : one.written.length = two.written.length
  trace : one.trace = two.trace

def Behind (one two : World) : Prop := one.steps <+: two.steps

theorem Beside.behind (one two : World) (beside : Beside one two) : Behind one two := by
  unfold Behind World.steps
  rw [beside.trace]

theorem Behind.survives (one two after : World) (behind : Behind one two)
    (opens : Opens two after) : Behind one after := behind.trans opens.steps

theorem Beside.seek {one two : World} (beside : Beside one two) (position first second : Nat) :
    Beside (one.seek position first) (two.seek position second) :=
  ⟨rfl, beside.base, beside.sent, beside.trace⟩

/-- Reading alone gets nobody ahead. -/
theorem Beside.reading {one two after after' : World} (beside : Beside one two)
    (first : Seeks one after) (second : Seeks two after') : Behind after after' := by
  unfold Behind World.steps World.trace
  rw [first.log, second.log]
  exact beside.behind

/-- Both worlds log alike. -/
theorem Beside.logs {one two : World} (beside : Beside one two) {event event' : Event}
    (alike : ∀ steps, see steps event = see steps event') :
    Beside { one with log := one.log ++ [event] } { two with log := two.log ++ [event'] } := by
  refine ⟨beside.position, beside.base, beside.sent, ?_⟩
  simp only [World.trace, List.foldl_append, List.foldl_cons, List.foldl_nil]
  exact (congrArg (see · event) beside.trace).trans (alike _)

section
variable (cfg : Config) {p q : Pipe} (same : SameStream p q) {one two : World}
include same

theorem read_follows (quiet : q.stopAt = none) {size : Nat} (v v' : Bytes size)
    (beside : Beside one two) :
    Follows Eq Beside Behind ((PipeReader.read p v).run one) ((PipeReader.read q v').run two) := by
  have first := (PipeReader.read_reads p v).seeks one
  have second := (PipeReader.read_reads q v').seeks two
  cases ran : (PipeReader.read p v).run one with
  | error failure after =>
      rw [ran] at first
      exact beside.reading first second
  | ok filled after =>
      obtain ⟨small, moved, content⟩ := PipeReader.read_ok p ran
      rw [same.wire, beside.position] at content
      have enough : two.position + size ≤ q.wire.length ∨ size = 0 := by
        have length := congrArg List.length content
        rw [List.Vector.toList_length, List.length_take, List.length_drop] at length
        omega
      have other : ∃ (filled' : Bytes size) (asked : Nat), (PipeReader.read q v').run two =
            .ok filled' (two.seek (two.position + size) asked) ∧
          filled'.toList = (q.wire.drop two.position).take size := by
        rcases enough with enough | rfl
        · exact PipeReader.read_run q quiet small v' two enough
        · refine ⟨v', two.asked + 1, ?_, by simp⟩
          unfold PipeReader.read
          rw [run_get_bind two, run_bind_ok (PipeReader.readLoop_full q _ v' two),
            run_bind_ok (stopRequested_run q quiet two)]
          rfl
      obtain ⟨filled', asked, ran', content'⟩ := other
      rw [ran', moved, beside.position]
      exact ⟨List.Vector.eq _ _ (content.trans content'.symm), beside.seek _ _ _⟩

theorem readUntilPreamble_follows (quiet : q.stopAt = none) (beside : Beside one two) :
    Follows Eq Beside Behind ((FrameReader.readUntilPreamble p cfg.preamble.toList).run one)
      ((FrameReader.readUntilPreamble q cfg.preamble.toList).run two) := by
  have first := FrameReader.readUntilPreamble_seeks p cfg.preamble.toList one
  have second := FrameReader.readUntilPreamble_seeks q cfg.preamble.toList two
  cases ran : (FrameReader.readUntilPreamble p cfg.preamble.toList).run one with
  | error failure after =>
      rw [ran] at first
      exact beside.reading first second
  | ok _ after =>
      obtain ⟨stop, ends, moved⟩ :=
        FrameReader.readUntilPreamble_ok p _ cfg.preamble_nonempty one ran
      rw [same.wire, beside.position] at ends
      obtain ⟨asked, ran'⟩ :=
        FrameReader.readUntilPreamble_found q quiet _ cfg.preamble_nonempty two stop ends
      rw [ran', moved, beside.position]
      exact ⟨rfl, beside.seek _ _ _⟩

theorem readHeader_follows (quiet : q.stopAt = none) (beside : Beside one two) :
    Follows Eq Beside Behind ((FrameReader.readHeader cfg p).run one)
      ((FrameReader.readHeader cfg q).run two) := by
  apply Follows.bind Behind.survives (read_follows same quiet _ _ beside)
  · exact fun image => Moves.pure Opens.refl _
  · intro image image' one two sameImage beside
    rw [sameImage]
    exact ⟨rfl, beside⟩

/-! ## Writes -/

theorem writeFile_together {source source' : List UInt8} (alike : source.length = source'.length)
    (requested : Nat) (beside : Beside one two) :
    Together Eq Beside ((PipeWriter.writeFile p source requested).run one)
      ((PipeWriter.writeFile q source' requested).run two) := by
  unfold PipeWriter.writeFile
  rw [run_get_bind one, run_get_bind two, Pipe.refuses, Pipe.refuses, same.brokenAt,
    same.accepted, beside.sent]
  split
  · exact beside
  · refine ⟨rfl, beside.position, beside.base, ?_, beside.trace⟩
    simp only [List.length_append, List.length_take, beside.sent, alike]

theorem writeLoop_together {v v' : List UInt8} (alike : v.length = v'.length) (turns : Nat) :
    ∀ (i : Nat) {one two : World}, Beside one two →
      Together Eq Beside ((PipeWriter.writeLoop p v turns i).run one)
        ((PipeWriter.writeLoop q v' turns i).run two) := by
  induction turns with
  | zero =>
      intro i one two beside
      rw [PipeWriter.writeLoop, PipeWriter.writeLoop, alike]
      split
      · exact beside
      · exact ⟨rfl, beside⟩
  | succ turns ih =>
      intro i one two beside
      rw [PipeWriter.writeLoop, PipeWriter.writeLoop, alike]
      split
      · refine Together.bind (writeFile_together same (by simp [alike]) _ beside) ?_
        intro written written' one two sameCount beside
        rw [sameCount]
        exact ih _ beside
      · exact ⟨rfl, beside⟩

theorem write_together (header header' : FrameHeader) (beside : Beside one two) :
    Together Eq Beside ((FrameWriter.write cfg p header).run one)
      ((FrameWriter.write cfg q header').run two) := by
  have write : ∀ {n : Nat} (bytes bytes' : Bytes n) {one two : World}, Beside one two →
      Together Eq Beside ((PipeWriter.write p bytes.toList).run one)
        ((PipeWriter.write q bytes'.toList).run two) := by
    intro n bytes bytes' one two beside
    have alike : bytes.toList.length = bytes'.toList.length := by simp
    unfold PipeWriter.write
    rw [alike]
    exact writeLoop_together same alike _ 0 beside
  refine Together.bind (write cfg.preamble cfg.preamble beside) ?_
  intro _ _ one two _ beside
  exact write _ _ beside

theorem writeCheckpoint_together (beside : Beside one two) :
    Together Eq Beside ((FrameWriter.writeCheckpoint cfg p).run one)
      ((FrameWriter.writeCheckpoint cfg q).run two) := by
  unfold FrameWriter.writeCheckpoint
  rw [run_bind_ok (Session.drawNonce_run p one), run_bind_ok (Session.drawNonce_run q two)]
  refine Together.bind (write_together cfg same _ _ ?_) ?_
  · exact ⟨beside.position, beside.base, beside.sent, beside.trace⟩
  · intro _ _ one two _ beside
    exact ⟨rfl, beside.logs fun _ => rfl⟩

omit same in
theorem setBase_together (value : Base) (beside : Beside one two) :
    Together Eq Beside ((Session.setBase value).run one) ((Session.setBase value).run two) := by
  have set : Beside { one with base := value } { two with base := value } :=
    ⟨beside.position, rfl, beside.sent, beside.trace⟩
  exact ⟨rfl, set.logs fun _ => rfl⟩

/-! ## Handlers, turns, runs -/

theorem switch_follows (quiet : q.stopAt = none) (header : FrameHeader) (beside : Beside one two) :
    Follows Eq Beside Behind ((Session.switch cfg p header).run one)
      ((Session.switch cfg q header).run two) := by
  unfold Session.switch
  cases signalOf cfg header.sig with
  | checkpoint =>
      apply Together.follows Beside.behind
      simp only [Session.handleCheckpointSignal]
      rw [run_get_bind one, run_get_bind two, beside.base]
      split
      · exact setBase_together .ready beside
      · exact writeCheckpoint_together cfg same beside
  | regular => exact ⟨rfl, beside⟩
  | test =>
      simp only [Session.handleTestSignal]
      split
      · exact beside.behind
      · refine Follows.bind Behind.survives (read_follows same quiet _ _ beside) ?_ ?_
        · exact fun buffer => Moves.pure Opens.refl _
        · exact fun _ _ one two _ beside => ⟨rfl, beside⟩
  | invalid => exact (writeCheckpoint_together cfg same beside).follows Beside.behind

theorem handle_follows (quiet : q.stopAt = none) (offset : Nat) (header : FrameHeader)
    (beside : Beside one two) :
    Follows Eq Beside Behind ((Session.handle cfg p offset header).run one)
      ((Session.handle cfg q offset header).run two) := by
  unfold Session.handle
  split
  · rw [run_bind_ok (Session.record_run _ one), run_bind_ok (Session.record_run _ two)]
    apply Together.follows Beside.behind
    refine Together.bind (writeCheckpoint_together cfg same (beside.logs fun _ => rfl)) ?_
    intro _ _ one two _ beside
    exact setBase_together .none beside
  · rw [run_bind_ok (Session.record_run _ one), run_bind_ok (Session.record_run _ two)]
    exact switch_follows cfg same quiet header (beside.logs fun _ => rfl)

theorem turn_follows (quiet : q.stopAt = none) (beside : Beside one two) :
    Follows Eq Beside Behind ((Session.turn cfg p).run one) ((Session.turn cfg q).run two) := by
  refine Follows.bind Behind.survives (readUntilPreamble_follows cfg same quiet beside) ?_ ?_
  · exact fun _ => Session.behindPreamble_moves Opens.trans (fun _ _ => Seeks.opens) cfg q
      (Session.handle_opens cfg q)
  · intro _ _ one two _ beside
    rw [run_get_bind one, run_get_bind two, beside.position]
    refine Follows.bind Behind.survives (readHeader_follows cfg same quiet beside) ?_ ?_
    · exact fun header => Session.handle_opens cfg q _ header
    · intro header header' one two sameHeader beside
      rw [sameHeader]
      exact handle_follows cfg same quiet _ header' beside

/-- The induction is on the turns: as long as the first run goes on, the second one
takes the same turns; from where the first one stops, the second one only adds. -/
theorem runLoop_behind (quiet : q.stopAt = none) (turns : Nat) :
    ∀ {one two : World}, Beside one two →
      Behind (finalState ((Session.runLoop cfg p turns).run one))
        (finalState ((Session.runLoop cfg q turns).run two)) := by
  induction turns with
  | zero => exact fun beside => beside.behind
  | succ turns ih =>
      intro one two beside
      have asked : Beside (one.seek one.position (one.asked + 1))
          (two.seek two.position (two.asked + 1)) :=
        ⟨beside.position, beside.base, beside.sent, beside.trace⟩
      rw [Session.runLoop, run_bind_ok (stopRequested_eq p one)]
      split
      · have adds := Session.runLoop_opens cfg q (turns + 1) two
        exact beside.behind.trans adds.steps
      · rw [Session.runLoop, run_bind_ok (stopRequested_run q quiet two)]
        refine Follows.bind_final Behind.survives (turn_follows cfg same quiet asked) ?_ ?_
        · exact fun _ => Session.runLoop_opens cfg q turns
        · exact fun _ _ one two _ beside => ih beside

end

namespace Session
variable (cfg : Config)

theorem stepsOfRun_behind {p q : Pipe} (same : SameStream p q) (quiet : q.stopAt = none) :
    stepsOfRun cfg p <+: stepsOfRun cfg q := by
  have started : Beside World.start World.start := ⟨rfl, rfl, rfl, rfl⟩
  have behind := runLoop_behind cfg same quiet (p.wire.length - 0 + 1) started
  unfold stepsOfRun run
  rw [run_get_bind World.start, run_get_bind World.start,
    ← same.wire]
  exact behind

/-! ## What has been read for a header -/

/-- All bytes of the header stand on the wire. -/
def Genuine (pipe : Pipe) (offset : Nat) (header : FrameHeader) : Prop :=
  ∃ image : Image, image.toList = (pipe.wire.drop offset).take 38 ∧
    header = FrameHeader.decode image

/-- The headers read so far were all there, and `Base` is that of the newest step. -/
structure Faithful (pipe : Pipe) (world : World) : Prop where
  heads : ∀ offset header passed, (offset, header, passed) ∈ world.heads →
    passed = header.validate cfg ∧ Genuine pipe offset header
  base : world.base = lastBase world.trace

variable {cfg}

theorem Faithful.reading {pipe : Pipe} {before after : World} (faithful : Faithful cfg pipe before)
    (seeks : Seeks before after) : Faithful cfg pipe after := by
  refine ⟨?_, ?_⟩
  · unfold World.heads
    rw [seeks.log]
    exact faithful.heads
  · rw [World.trace, seeks.log, seeks.same]
    exact faithful.base

/-- Handling a header adds it, and no other one. -/
theorem Faithful.handling {pipe : Pipe} {world : World} (faithful : Faithful cfg pipe world)
    {offset : Nat} {header : FrameHeader} (genuine : Genuine pipe offset header) :
    Faithful cfg pipe (finalState ((handle cfg pipe offset header).run world)) := by
  obtain ⟨event, head, new, log, headless, base⟩ := handle_amends cfg pipe offset header world
  refine ⟨?_, ?_⟩
  · have none_ : new.filterMap Event.head? = [] := List.filterMap_eq_nil_iff.mpr headless
    rw [heads_of_log _ new log, none_, List.append_nil, heads_of_log world [event] rfl]
    intro offset' header' passed member
    simp only [List.filterMap_cons, head, List.filterMap_nil, List.mem_append,
      List.mem_singleton, Prod.mk.injEq] at member
    rcases member with member | ⟨rfl, rfl, rfl⟩
    · exact faithful.heads offset' header' passed member
    · exact ⟨rfl, genuine⟩
  · have pushed : ∃ step, step.base = world.base ∧
        see world.trace event = step :: world.trace := by
      cases event with
      | rejected offset header => exact ⟨_, faithful.base.symm, rfl⟩
      | dispatched offset header => exact ⟨_, faithful.base.symm, rfl⟩
      | base value => cases head
      | wrote header => cases head
    obtain ⟨step, sameBase, pushed⟩ := pushed
    rw [base, trace_of_log _ new log, trace_of_log world [event] rfl, List.foldl_cons,
      List.foldl_nil, pushed, see_base new headless, sameBase]

theorem Faithful.turn {pipe : Pipe} {world : World} (faithful : Faithful cfg pipe world) :
    Faithful cfg pipe (finalState ((Session.turn cfg pipe).run world)) := by
  have searching := FrameReader.readUntilPreamble_seeks pipe cfg.preamble.toList world
  unfold Session.turn
  cases searched : (FrameReader.readUntilPreamble pipe cfg.preamble.toList).run world with
  | error failure found =>
      rw [searched] at searching
      rw [run_bind_error searched]
      exact faithful.reading searching
  | ok _ found =>
      rw [searched] at searching
      rw [run_bind_ok searched, run_get_bind found]
      have reading := (FrameReader.readHeader_reads cfg pipe).seeks found
      cases read : (FrameReader.readHeader cfg pipe).run found with
      | error failure after =>
          rw [read] at reading
          rw [run_bind_error read]
          exact (faithful.reading searching).reading reading
      | ok header after =>
          rw [read] at reading
          rw [run_bind_ok read]
          obtain ⟨image, middle, taken, done⟩ := run_bind_eq_ok.mp read
          cases done
          obtain ⟨_, _, content⟩ := PipeReader.read_ok pipe taken
          exact ((faithful.reading searching).reading reading).handling ⟨image, content, rfl⟩

theorem Faithful.runLoop {pipe : Pipe} (turns : Nat) : ∀ {world : World},
    Faithful cfg pipe world →
      Faithful cfg pipe (finalState ((Session.runLoop cfg pipe turns).run world)) := by
  induction turns with
  | zero => exact fun faithful => faithful
  | succ turns ih =>
      intro world faithful
      have asked := faithful.reading (seek_seeks world (Nat.le_refl _) (Nat.le_succ world.asked))
      rw [Session.runLoop, run_bind_ok (stopRequested_eq pipe world)]
      split
      · exact asked
      · have turned := asked.turn
        cases ran : (Session.turn cfg pipe).run (world.seek world.position (world.asked + 1)) with
        | ok _ after =>
            rw [ran] at turned
            rw [run_bind_ok ran]
            exact ih turned
        | error failure after =>
            rw [ran] at turned
            rw [run_bind_error ran]
            exact turned

theorem run_faithful (pipe : Pipe) :
    Faithful cfg pipe (finalState ((Session.run cfg pipe).run World.start)) := by
  unfold run
  rw [run_get_bind World.start]
  apply Faithful.runLoop
  exact ⟨fun _ _ _ member => absurd member (by simp [World.start, World.heads]), rfl⟩

variable (cfg)

/-- Two runs over one stream whose pieces may differ, of which one may be stopped; and
no run hands on a header that has not come whole. -/
theorem run_chunking :
    (∀ p q : Pipe, SameStream p q → q.stopAt = none → stepsOfRun cfg p <+: stepsOfRun cfg q) ∧
    (∀ p q : Pipe, SameStream p q → p.stopAt = none → q.stopAt = none →
      stepsOfRun cfg p = stepsOfRun cfg q) ∧
    ∀ p : Pipe, ∀ step ∈ stepsOfRun cfg p,
      step.passed = step.header.validate cfg ∧ Genuine p step.offset step.header := by
  refine ⟨fun p q same quiet => stepsOfRun_behind cfg same quiet, ?_, ?_⟩
  · intro p q same quiet quiet'
    have back : SameStream q p := ⟨same.wire.symm, same.accepted.symm, same.brokenAt.symm⟩
    have forth := stepsOfRun_behind cfg same quiet'
    exact forth.eq_of_length_le (stepsOfRun_behind cfg back quiet).length_le
  · intro p step member
    apply (run_faithful p).heads
    rw [← steps_heads]
    exact List.mem_map.mpr ⟨step, member, rfl⟩

end Session

namespace Sample

/-- One byte at a time; the token is set while the second header comes in. -/
def halted (wire : List UInt8) : Pipe :=
  { Pipe.waiting wire Wsac.Sample.nonce with
    served := fun position requested => min 1 (min requested (wire.length - position))
    stopAt := some 150
    served_pos := fun position requested more asked => by
      show 0 < min 1 (min requested (wire.length - position))
      change position < wire.length at more
      omega
    served_le := fun position requested => Nat.min_le_right _ _ }

/-- Two frames with a header of zero bytes. -/
def zeros : List UInt8 :=
  (Wsac.Sample.config.preamble.toList ++ List.replicate 38 0) ++
    (Wsac.Sample.config.preamble.toList ++ List.replicate 38 0)

theorem run_chunking_halted :
    Session.stepsOfRun Wsac.Sample.config (halted zeros) <+:
      Session.stepsOfRun Wsac.Sample.config (Pipe.waiting zeros Wsac.Sample.nonce) :=
  (Session.run_chunking Wsac.Sample.config).1 (halted zeros) _ ⟨rfl, rfl, rfl⟩ rfl

end Sample
end Wsac.Dll
