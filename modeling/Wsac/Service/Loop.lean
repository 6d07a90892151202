import Wsac.Service.Growth
import Wsac.Service.Turn

/-! # The loop of `RunAsyncInternal` on any pipe

The token may be cancelled at any question, writes may fail, budgets may run out.
What a completed turn adds to the log is an `Episode`; a turn that throws leaves
an episode cut short.  `Reached` are the windows and worlds at the head of the loop. -/

set_option autoImplicit false

namespace Wsac.Service

open Library Library.Exec

namespace FrameSession
variable (asm : Assembly) (client : Client)

/-- What handling an accepted frame logs in one state, and the state behind it. -/
inductive Handles : FrameSessionState → UInt16 → List Event → FrameSessionState → Prop where
  | readies (signature : UInt16) (found : findHandler asm signature = some .checkpoint) :
      Handles .none signature [.state .ready] .ready
  | answers (signature : UInt16) (reply : FrameHeader)
      (found : findHandler asm signature = some .checkpoint) :
      Handles .ready signature [.wrote reply] .ready
  | skips (signature : UInt16) (found : findHandler asm signature = some .regular) :
      Handles .none signature [] .none
  | passes (signature : UInt16) (found : findHandler asm signature = some .regular) :
      Handles .ready signature [.packet] .ready
  | tests (state : FrameSessionState) (signature : UInt16)
      (found : findHandler asm signature = some .test) : Handles state signature [] state
  | ignores (state : FrameSessionState) (signature : UInt16)
      (found : findHandler asm signature = none) : Handles state signature [] state

/-- What a completed turn logs behind a received preamble. -/
inductive Episode : FrameSessionState → List Event → FrameSessionState → Prop where
  | rejected (state : FrameSessionState) (offset : Nat) (header reply : FrameHeader)
      (broken : header.validate asm.toConfig = false) :
      Episode state
        [.received offset, .checked offset header false, .wrote reply, .state .none] .none
  | handled (state next : FrameSessionState) (offset : Nat) (header : FrameHeader)
      (events : List Event) (accepted : checkHeader asm.toConfig header = .ok true)
      (handles : Handles asm state header.signature events next) :
      Episode state
        ([.received offset, .checked offset header true, .entered offset header] ++ events) next

/-- What a turn that throws logs: a part of an episode, or a signed header with a
negative size. -/
inductive Cut : FrameSessionState → List Event → Prop where
  | nothing (state : FrameSessionState) : Cut state []
  | begun (state : FrameSessionState) (offset : Nat) : Cut state [.received offset]
  | part (state next : FrameSessionState) (whole new : List Event)
      (episode : Episode asm state whole next) (part : new <+: whole) : Cut state new
  | oversized (state : FrameSessionState) (offset : Nat) (header : FrameHeader)
      (signed : header.validate asm.toConfig = true) :
      Cut state [.received offset, .checked offset header false]

/-- A result that has logged `whole` and left `next`, or has thrown on the way. -/
def Logs {α : Type} (world : World) (whole : List Event) (next : FrameSessionState) :
    EStateM.Result Failure World α → Prop
  | .ok _ after => after.log = world.log ++ whole ∧ after.state = next
  | .error _ after => ∃ new, new <+: whole ∧ after.log = world.log ++ new

/-- A result that has logged an episode or nothing, or has thrown with one cut short. -/
def Turns {α : Type} (world : World) : EStateM.Result Failure World α → Prop
  | .ok _ after => (after.log = world.log ∧ after.state = world.state) ∨
      ∃ new, Episode asm world.state new after.state ∧ after.log = world.log ++ new
  | .error _ after => ∃ new, Cut asm world.state new ∧ after.log = world.log ++ new

variable {asm client}

theorem Seeks.log {before after : World} (seeks : Seeks before after) :
    after.log = before.log ∧ after.state = before.state := by
  rw [seeks.same]
  exact ⟨rfl, rfl⟩

theorem Logs.of_seeks {α : Type} {program : Worker α} (seeks : Moves Seeks program)
    (world : World) : Logs world [] world.state (program.run world) := by
  have moved := seeks world
  cases ran : program.run world with
  | ok value after =>
      rw [ran, finalState_ok] at moved
      exact ⟨by rw [(Seeks.log moved).1, List.append_nil], (Seeks.log moved).2⟩
  | error failure after =>
      rw [ran, finalState_error] at moved
      exact ⟨[], List.prefix_refl _, by rw [(Seeks.log moved).1, List.append_nil]⟩

/-- Two parts of a turn, one after the other. -/
theorem Logs.bind {α β : Type} {program : Worker α} {rest : α → Worker β} {world : World}
    {first second : List Event} {middle next : FrameSessionState}
    (one : Logs world first middle (program.run world))
    (two : ∀ value after, program.run world = .ok value after →
      Logs after second next ((rest value).run after)) :
    Logs world (first ++ second) next ((program >>= rest).run world) := by
  cases ran : program.run world with
  | error failure after =>
      rw [ran] at one
      rw [run_bind_error ran]
      obtain ⟨new, part, log⟩ := one
      exact ⟨new, part.trans (List.prefix_append _ _), log⟩
  | ok value after =>
      rw [ran] at one
      rw [run_bind_ok ran]
      have last := two value after ran
      cases ran' : (rest value).run after with
      | ok value' final =>
          rw [ran'] at last
          exact ⟨by rw [last.1, one.1, List.append_assoc], last.2⟩
      | error failure final =>
          rw [ran'] at last
          obtain ⟨new, part, log⟩ := last
          refine ⟨first ++ new, (List.prefix_append_right_inj first).mpr part, ?_⟩
          rw [log, one.1, List.append_assoc]

/-- Reading behind a part of a turn logs nothing more. -/
theorem Logs.bind_seeks {α β : Type} {program : Worker α} {rest : α → Worker β} {world : World}
    {whole : List Event} {next : FrameSessionState}
    (one : Logs world whole next (program.run world))
    (seeks : ∀ value, Moves Seeks (rest value)) :
    Logs world whole next ((program >>= rest).run world) := by
  rw [← List.append_nil whole]
  apply Logs.bind one
  intro value after ran
  rw [ran] at one
  rw [← one.2]
  exact Logs.of_seeks (seeks value) after

/-- So does reading in front of one. -/
theorem Logs.seeks_bind {α β : Type} {program : Worker α} {rest : α → Worker β} {world : World}
    {whole : List Event} {next : FrameSessionState} (seeks : Moves Seeks program)
    (two : ∀ value after, program.run world = .ok value after → after.state = world.state →
      Logs after whole next ((rest value).run after)) :
    Logs world whole next ((program >>= rest).run world) := by
  have one := Logs.of_seeks seeks world
  have both : Logs world ([] ++ whole) next ((program >>= rest).run world) := by
    apply Logs.bind one
    intro value after ran
    rw [ran] at one
    exact two value after ran one.2
  exact both

theorem record_logs (event : Event) (world : World) :
    Logs world [event] world.state ((record event).run world) := ⟨rfl, rfl⟩

theorem setState_logs (value : FrameSessionState) (world : World) :
    Logs world [.state value] value ((setState value).run world) := ⟨rfl, rfl⟩

theorem write_logs (client : Client) (bytes : List UInt8) (world : World) :
    Logs world [] world.state ((PipeWriter.write client bytes).run world) := by
  rw [PipeWriter.write, run_get_bind]
  split
  · exact ⟨[], List.prefix_refl _, (List.append_nil _).symm⟩
  · exact ⟨(List.append_nil _).symm, rfl⟩

theorem writeCheckpoint_logs (client : Client) (cfg : Config) (world : World) :
    ∃ reply, Logs world [.wrote reply] world.state
      ((FrameWriter.writeCheckpoint cfg client).run world) := by
  let header := FrameHeader.new cfg cfg.checkpointSignature 0 (client.nonce world.drawn)
  let drew : World := { world with drawn := world.drawn + 1 }
  have drawing : (FrameWriter.drawNonce client).run world =
      .ok (client.nonce world.drawn) drew := rfl
  have writing : Logs drew ([] ++ []) world.state
      ((FrameWriter.write cfg client header).run drew) := by
    apply Logs.bind (write_logs client _ drew)
    intro _ middle ran
    have wrote := write_logs client cfg.preamble.toList drew
    rw [ran] at wrote
    rw [← show middle.state = world.state from wrote.2]
    exact write_logs client _ middle
  refine ⟨header, ?_⟩
  have whole : Logs drew ([] ++ [.wrote header]) world.state
      ((FrameWriter.write cfg client header >>= fun _ => record (.wrote header)).run drew) := by
    apply Logs.bind writing
    intro _ after ran
    rw [ran] at writing
    rw [← show after.state = world.state from writing.2]
    exact record_logs _ after
  unfold FrameWriter.writeCheckpoint
  rw [run_bind_ok drawing]
  exact whole

/-- A handler that is entered, and the skip behind it. -/
theorem handleAsync_logs (asm : Assembly) (client : Client) (signature : UInt16)
    (handler : Handler) (found : findHandler asm signature = some handler) (world : World)
    (entered : ¬ (world.state = .none ∧ handler = .regular)) :
    ∃ events next, Handles asm world.state signature events next ∧
      Logs world events next
        ((handleAsync asm.toConfig client handler >>= fun _ => skipRest client).run world) := by
  have behind : ∀ (_ : Unit), Moves Seeks (skipRest client) := fun _ => skipRest_seeks client
  cases handler with
  | checkpoint =>
      cases state : world.state with
      | none =>
          refine ⟨_, _, Handles.readies signature found, Logs.bind_seeks ?_ behind⟩
          simp only [handleAsync]
          rw [run_get_bind, if_pos state]
          exact setState_logs .ready world
      | ready =>
          obtain ⟨reply, logs⟩ := writeCheckpoint_logs client asm.toConfig world
          rw [state] at logs
          refine ⟨_, _, Handles.answers signature reply found, Logs.bind_seeks ?_ behind⟩
          simp only [handleAsync]
          rw [run_get_bind, if_neg (by rw [state]; decide)]
          exact logs
  | regular =>
      cases state : world.state with
      | none => exact absurd ⟨state, rfl⟩ entered
      | ready =>
          have logs := record_logs .packet world
          rw [state] at logs
          exact ⟨_, _, Handles.passes signature found, Logs.bind_seeks logs behind⟩
  | test =>
      exact ⟨_, _, Handles.tests world.state signature found,
        Logs.bind_seeks (Logs.of_seeks (handleAsync_test_seeks client asm.toConfig) world) behind⟩

theorem dispatch_logs (asm : Assembly) (client : Client) (header : FrameHeader) (world : World) :
    ∃ events next, Handles asm world.state header.signature events next ∧
      Logs world events next ((dispatch asm client header).run world) := by
  unfold dispatch
  cases found : findHandler asm header.signature with
  | none =>
      exact ⟨_, _, Handles.ignores world.state header.signature found,
        Logs.of_seeks (PipeReader.skipAsync_seeks client _) world⟩
  | some handler =>
      simp only
      rw [run_get_bind]
      split
      · rename_i skipped
        obtain ⟨state, rfl⟩ := skipped
        have handles : Handles asm .none header.signature [] .none :=
          Handles.skips header.signature found
        rw [← state] at handles
        exact ⟨_, _, handles, Logs.of_seeks (PipeReader.skipAsync_seeks client _) world⟩
      · rename_i entered
        exact handleAsync_logs asm client header.signature handler found world entered

/-- What is logged behind the opening of an episode makes it one. -/
theorem Logs.turns {α : Type} {world opened : World} {opening rest : List Event}
    {next : FrameSessionState} {result : EStateM.Result Failure World α}
    (log : opened.log = world.log ++ opening)
    (episode : Episode asm world.state (opening ++ rest) next)
    (logs : Logs opened rest next result) : Turns asm world result := by
  cases result with
  | ok value after =>
      obtain ⟨whole, state⟩ := logs
      refine Or.inr ⟨opening ++ rest, state ▸ episode, ?_⟩
      rw [whole, log, List.append_assoc]
  | error failure after =>
      obtain ⟨new, part, whole⟩ := logs
      refine ⟨opening ++ new, Cut.part _ next _ _ episode ?_, ?_⟩
      · exact (List.prefix_append_right_inj opening).mpr part
      · rw [whole, log, List.append_assoc]

theorem requestCheckpoint_logs (client : Client) (cfg : Config) (world : World) :
    ∃ reply, Logs world [.wrote reply, .state .none] .none
      ((requestCheckpoint cfg client).run world) := by
  obtain ⟨reply, logs⟩ := writeCheckpoint_logs client cfg world
  exact ⟨reply, Logs.bind logs fun _ after _ => setState_logs .none after⟩

/-- A frame whose header was accepted. -/
theorem handleBody_logs (asm : Assembly) (client : Client) (offset : Nat) (header : FrameHeader)
    (world : World) :
    ∃ events next, Handles asm world.state header.signature events next ∧
      Logs world ([.entered offset header] ++ events) next ((do
        PipeReader.createChild header.dataSize
        handleFrameAsync asm client offset header
        PipeReader.releaseChild : Worker Unit).run world) := by
  have entering : ∀ lent : World, lent.state = world.state → ∃ events next,
      Handles asm world.state header.signature events next ∧
      Logs lent ([.entered offset header] ++ events) next
        ((handleFrameAsync asm client offset header).run lent) := by
    intro lent same
    obtain ⟨events, next, handles, logs⟩ := dispatch_logs asm client header
      { lent with log := lent.log ++ [.entered offset header] }
    simp only [same] at handles
    refine ⟨events, next, handles, Logs.bind (record_logs _ lent) ?_⟩
    intro _ after ran
    cases ran
    exact logs
  have making := PipeReader.createChild_seeks header.dataSize
  cases ran : (PipeReader.createChild header.dataSize).run world with
  | error failure after =>
      obtain ⟨events, next, handles, _⟩ := entering world rfl
      refine ⟨events, next, handles, Logs.seeks_bind making fun _ lent ran' _ => ?_⟩
      cases ran'.symm.trans ran
  | ok _ lent =>
      have made := making world
      rw [ran, finalState_ok] at made
      obtain ⟨events, next, handles, logs⟩ := entering lent (Seeks.log made).2
      refine ⟨events, next, handles, Logs.seeks_bind making fun _ other ran' _ => ?_⟩
      cases ran'.symm.trans ran
      exact Logs.bind_seeks logs fun _ => PipeReader.releaseChild_seeks

theorem checkHeader_error {cfg : Config} {header : FrameHeader} {failure : Failure}
    (refused : checkHeader cfg header = .error failure) : header.validate cfg = true := by
  unfold checkHeader at refused
  split at refused
  · cases refused
  · simp_all

theorem checkHeader_false {cfg : Config} {header : FrameHeader}
    (broken : checkHeader cfg header = .ok false) : header.validate cfg = false := by
  unfold checkHeader at broken
  split at broken
  · assumption
  · split at broken
    · cases broken
    · cases broken

theorem receiveFrame_turns (asm : Assembly) (client : Client) (world : World) :
    Turns asm world ((receiveFrame asm client).run world) := by
  let begun : World := { world with log := world.log ++ [.received world.position] }
  have received : (receiveFrame asm client).run world =
      (receiveHeader asm client world.position).run begun := rfl
  have reading := PipeReader.read_seeks client 38 begun
  rw [received]
  cases taken : (PipeReader.read client 38).run begun with
  | error failure after =>
      rw [taken, finalState_error] at reading
      have failed : (receiveHeader asm client world.position).run begun = .error failure after := by
        unfold receiveHeader readHeader
        rw [bind_assoc, run_get_bind, bind_assoc, run_bind_error taken]
      rw [failed]
      exact ⟨_, Cut.begun world.state world.position, (Seeks.log reading).1⟩
  | ok image read =>
      rw [taken, finalState_ok] at reading
      obtain ⟨log, state⟩ := Seeks.log reading
      let header := FrameHeader.decode image
      let checked (passed : Bool) : World :=
        { read with log := read.log ++ [.checked world.position header passed] }
      have opened : ∀ passed, (checked passed).log =
          world.log ++ [.received world.position, .checked world.position header passed] := by
        intro passed
        simp [checked, log, begun]
      rw [receiveHeader_eq client asm world.position taken]
      cases verdict : checkHeader asm.toConfig header with
      | error failure =>
          exact ⟨_, Cut.oversized world.state world.position header (checkHeader_error verdict),
            opened false⟩
      | ok passed =>
          cases passed with
          | false =>
              obtain ⟨reply, logs⟩ := requestCheckpoint_logs client asm.toConfig (checked false)
              exact Logs.turns (opened false) (Episode.rejected world.state world.position header
                reply (checkHeader_false verdict)) logs
          | true =>
              obtain ⟨events, next, handles, logs⟩ :=
                handleBody_logs asm client world.position header (checked true)
              have handles' : Handles asm world.state header.signature events next := by
                have same : (checked true).state = world.state := state
                rwa [same] at handles
              exact Logs.turns (opened true) (Episode.handled world.state next world.position
                header events verdict handles') logs

/-- Whatever happens in a turn, it logs an episode, a part of one, or nothing. -/
theorem turn_turns (asm : Assembly) (client : Client) (preamble : Bytes 6) (world : World) :
    Turns asm world ((turn asm client preamble).run world) := by
  have scanning := receiveBatch_seeks client asm.toConfig 6 preamble false world
  unfold turn
  cases ran : (receiveBatch asm.toConfig client 6 preamble false).run world with
  | error failure after =>
      rw [ran, finalState_error] at scanning
      rw [run_bind_error ran]
      exact ⟨[], Cut.nothing world.state, by rw [(Seeks.log scanning).1, List.append_nil]⟩
  | ok batch scanned =>
      rw [ran, finalState_ok] at scanning
      obtain ⟨log, state⟩ := Seeks.log scanning
      rw [run_bind_ok ran]
      by_cases missed : batch.2 = false
      · simp only [missed, if_true]
        exact Or.inl ⟨log, state⟩
      · simp only [missed]
        have framed := receiveFrame_turns asm client scanned
        cases frame : (receiveFrame asm client).run scanned with
        | error failure after =>
            rw [frame] at framed
            rw [if_neg (by decide), run_bind_error frame]
            rwa [Turns, state, log] at framed
        | ok _ after =>
            rw [frame] at framed
            rw [if_neg (by decide), run_bind_ok frame]
            rwa [Turns, state, log] at framed

variable (asm : Assembly) (client : Client) (reader : PipeReader)

/-- The windows and worlds in which the loop asks whether to go on. -/
inductive Reached : Bytes 6 → World → Prop where
  | start : Reached (List.Vector.replicate 6 0) (World.start reader)
  | turn {preamble pushed : Bytes 6} {world going after : World}
      (before : Reached preamble world)
      (asked : (cancellationRequested client).run world = .ok false going)
      (ran : (turn asm client preamble).run going = .ok pushed after) : Reached pushed after

/-- Complete episodes, one after the other. -/
inductive Logged : FrameSessionState → List Event → Prop where
  | start : Logged .none []
  | episode {state next : FrameSessionState} {log new : List Event} (before : Logged state log)
      (episode : Episode asm state new next) : Logged next (log ++ new)

variable {asm client reader}

theorem Reached.logged {preamble : Bytes 6} {world : World}
    (reached : Reached asm client reader preamble world) : Logged asm world.state world.log := by
  induction reached with
  | start => exact Logged.start
  | turn _ asked ran ih =>
      rename_i preamble pushed world going after _
      have question := (cancellationRequested_reads client).seeks world
      rw [asked, finalState_ok] at question
      obtain ⟨log, state⟩ := Seeks.log question
      have turned := turn_turns asm client preamble going
      rw [ran] at turned
      rcases turned with ⟨sameLog, sameState⟩ | ⟨new, episode, grown⟩
      · rwa [sameLog, sameState, log, state]
      · rw [grown, log]
        rw [state] at episode
        exact Logged.episode ih episode

/-- The log of a session that has ended: complete episodes, and one cut short. -/
theorem runLoop_logged (turns : Nat) : ∀ (preamble : Bytes 6) (world : World),
    Reached asm client reader preamble world → ∃ state log new, Logged asm state log ∧
      Cut asm state new ∧
      (finalState ((runLoop asm client turns preamble).run world)).log = log ++ new := by
  induction turns with
  | zero =>
      intro preamble world reached
      exact ⟨_, _, [], reached.logged, Cut.nothing _, (List.append_nil _).symm⟩
  | succ turns ih =>
      intro preamble world reached
      have ended := reached.logged
      have question := (cancellationRequested_reads client).seeks world
      rw [runLoop]
      cases asked : (cancellationRequested client).run world with
      | error failure going =>
          rw [asked, finalState_error] at question
          rw [run_bind_error asked]
          exact ⟨_, _, [], ended, Cut.nothing _, by
            rw [finalState_error, (Seeks.log question).1, List.append_nil]⟩
      | ok cancelled going =>
          rw [asked, finalState_ok] at question
          obtain ⟨log, state⟩ := Seeks.log question
          rw [run_bind_ok asked]
          cases cancelled with
          | true => exact ⟨_, _, [], ended, Cut.nothing _, by
              rw [← log, List.append_nil]
              rfl⟩
          | false =>
              simp only [Bool.false_eq_true, if_false]
              have turned := turn_turns asm client preamble going
              cases ran : (turn asm client preamble).run going with
              | ok pushed after =>
                  rw [run_bind_ok ran]
                  exact ih pushed after (Reached.turn reached asked ran)
              | error failure after =>
                  rw [ran] at turned
                  obtain ⟨new, cut, grown⟩ := turned
                  rw [run_bind_error ran]
                  rw [state] at cut
                  exact ⟨_, _, new, ended, cut, by rw [finalState_error, grown, log]⟩

theorem session_logged (asm : Assembly) (client : Client) (reader : PipeReader) :
    ∃ state log new, Logged asm state log ∧ Cut asm state new ∧
      (finalState (session asm client reader)).log = log ++ new := by
  unfold session runAsyncInternal
  rw [run_get_bind]
  exact runLoop_logged _ _ _ Reached.start

end FrameSession
end Wsac.Service
