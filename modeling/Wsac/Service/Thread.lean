import Wsac.Service.Framing
import Wsac.Service.Parting

/-! # `RunThread`: one reader for all clients of a thread

A new session has a new state, but it is given the thread's reader with whatever
`Available` the sessions before it have left. -/

set_option autoImplicit false

namespace Wsac.Service

open Library Library.Exec Relation

/-- What a client and a reader of the log can tell about a session. -/
structure Behaviour where
  ending : Option Failure
  log : List Event
  written : List UInt8
deriving DecidableEq

def behaviour : EStateM.Result Failure World Unit → Behaviour
  | .ok _ world => ⟨none, world.log, world.written⟩
  | .error failure world => ⟨some failure, world.log, world.written⟩

/-- The thread's reader after its clients, as the next one finds it.  A session
that nothing ends, or that is cancelled, has no next one. -/
def runThread (asm : Assembly) : PipeReader → List Client → Option PipeReader
  | reader, [] => some reader
  | reader, client :: rest =>
      match FrameSession.session asm client reader with
      | .ok _ _ => none
      | .error failure world =>
          if failure = .blocked ∨ failure = .operationCanceled then none
          else runThread asm world.reader.origin rest

namespace PipeReader

def IsRoot : PipeReader → Prop
  | .root _ => True
  | .child _ _ => False

theorem origin_isRoot (reader : PipeReader) : reader.origin.IsRoot := by
  induction reader with
  | root available => exact trivial
  | child available parent ih => exact ih

theorem eq_holding {reader : PipeReader} (root : reader.IsRoot) :
    reader = holding reader.available.toInt := by
  cases reader with
  | root budget => rw [holding, available, Int64.ofInt_toInt]
  | child available parent => exact absurd root id

end PipeReader

theorem runThread_isRoot (asm : Assembly) (history : List Client) : ∀ reader after : PipeReader,
    reader.IsRoot → runThread asm reader history = some after → after.IsRoot := by
  induction history with
  | nil =>
      rintro reader after root served
      cases served
      exact root
  | cons client rest ih =>
      intro reader after root served
      unfold runThread at served
      cases ended : FrameSession.session asm client reader with
      | ok result world =>
          rw [ended] at served
          exact absurd served (by simp)
      | error failure world =>
          rw [ended] at served
          by_cases last : failure = .blocked ∨ failure = .operationCanceled
          · simp only [if_pos last] at served
            exact absurd served (by simp)
          · simp only [if_neg last] at served
            exact ih _ after (PipeReader.origin_isRoot _) served

/-- What a root reader can pay for: `Available`, but the first charge wraps around from its
lowest value to the highest. -/
def PipeReader.budget (reader : PipeReader) : Int :=
  if reader.available = Int64.minValue then 2 ^ 63 else reader.available.toInt

theorem PipeReader.holding_budget {reader : PipeReader} (root : reader.IsRoot) :
    reader = holding reader.budget ∧ -2 ^ 63 < reader.budget ∧ reader.budget ≤ 2 ^ 63 := by
  have held := eq_holding root
  have lower := reader.available.le_toInt
  have upper := reader.available.toInt_lt
  unfold budget
  by_cases lowest : reader.available = Int64.minValue
  · rw [if_pos lowest]
    refine ⟨?_, by decide, by decide⟩
    rw [held, lowest]
    decide
  · rw [if_neg lowest]
    have other : reader.available.toInt ≠ -2 ^ 63 := by
      intro same
      exact lowest (Int64.toInt_inj.mp same)
    exact ⟨held, by omega, by omega⟩

theorem behaviour_of_twins {first second : EStateM.Result Failure World Unit}
    (twins : Twins first second) : behaviour first = behaviour second := by
  cases twins with
  | ok value same =>
      have shown := congrArg (fun world : World => Behaviour.mk none world.log world.written) same
      exact shown
  | @error failure _ _ _ same =>
      have shown := congrArg
        (fun world : World => Behaviour.mk (some failure) world.log world.written) same
      exact shown

theorem behaviour_log (result : EStateM.Result Failure World Unit) :
    (behaviour result).log = (finalState result).log := by
  cases result with
  | ok value world => rfl
  | error failure world => rfl

theorem behaviour_entered {first second : EStateM.Result Failure World Unit}
    (same : behaviour first = behaviour second) :
    (finalState first).entered = (finalState second).entered := by
  have logs := congrArg Behaviour.log same
  rw [behaviour_log, behaviour_log] at logs
  exact congrArg (List.filterMap Event.entered?) logs

namespace FrameSession

section
variable {client : Client} (calm : client.cancelAt = none)
  (short : client.wire.length < 2 ^ 62) {asm : Assembly} {head target : Head}
  {budget : Int} (limited : budget ≤ 2 ^ 63) {window : Bytes 6} {left right : World}
include calm

omit calm in
include short in
/-- A new budget does not run out before the wire does. -/
theorem runLoop_new (turns : Nat) (placed : head.Placed client)
    (at_ : head.At client (.holding (2 ^ 63 - 1)) window right) {failure : Failure} {after : World}
    (failed : (runLoop asm client turns window).run right = .error failure after) :
    failure ≠ .application := by
  have agreed : ∀ later, ReflTransGen (Block asm client) head later →
      later.Agreed asm client (2 ^ 63 - 1) (2 ^ 63 - 1) := by
    intro later onward
    refine ⟨fun demand charges => ?_, fun _ _ => Iff.rfl⟩
    have bound := (placed.steps onward).charges short charges
    omega
  exact (runLoop_twins (by decide) turns placed agreed rfl at_ at_).thrown failed

include short limited in
/-- Where a budget and a new one do not agree, the sessions do not. -/
theorem runLoop_parts (turns : Nat) (placed : head.Placed client)
    (first : head.At client (.holding budget) window left)
    (second : head.At client (.holding (2 ^ 63 - 1)) window right) (same : left.bare = right.bare)
    (lowest : -2 ^ 63 < budget - head.charged)
    (differs : ¬ head.Agreed asm client budget (2 ^ 63 - 1)) :
    behaviour ((runLoop asm client (turns + 1) window).run left) ≠
      behaviour ((runLoop asm client (turns + 1) window).run right) := by
  intro alike
  have covered : ∀ demand, Charges asm client head demand → (demand : Int) ≤ 2 ^ 63 - 1 := by
    intro demand charges
    have bound := placed.charges short charges
    omega
  have later : ∀ pushed, Moves (Later 0) (runLoop asm client turns pushed) :=
    fun pushed => runLoop_later client 0 asm turns pushed
  by_cases reads : ∀ demand, Charges asm client head demand → (demand : Int) ≤ budget
  · have shown := behaviour_entered alike
    rw [runLoop_calm calm, runLoop_calm calm] at shown
    apply differs
    refine ⟨fun demand charges => ⟨reads demand charges, covered demand charges⟩, ?_⟩
    intro demand asks
    cases asks with
    | read charges => exact iff_of_true (reads demand charges) (covered demand charges)
    | body image hit there verdict =>
        have inside := Head.holds_inside there
        have header := Charges.header (by omega) hit
        constructor
        · intro within
          by_contra beyond
          exact Head.At.shows calm hit there verdict ⟨limited, by decide⟩ first second same within
            (by omega) (covered _ header) later shown
        · intro within
          by_contra beyond
          exact Head.At.shows calm hit there verdict ⟨by decide, limited⟩ second first same.symm
            within (by omega) (reads _ header) later shown.symm
  · obtain ⟨demand, charges, beyond⟩ : ∃ demand, Charges asm client head demand ∧
        budget < demand := by
      simp only [not_forall, not_le] at reads
      obtain ⟨demand, charges, beyond⟩ := reads
      exact ⟨demand, charges, beyond⟩
    obtain ⟨after, failed⟩ := first.exhausts calm limited lowest charges beyond
    have left_ : (runLoop asm client (turns + 1) window).run left = .error .application after := by
      rw [runLoop_calm calm, run_bind_error failed]
    rw [left_] at alike
    cases ended : (runLoop asm client (turns + 1) window).run right with
    | ok value world =>
        rw [ended] at alike
        cases congrArg Behaviour.ending alike
    | error failure world =>
        rw [ended] at alike
        cases congrArg Behaviour.ending alike
        exact runLoop_new short _ placed second ended rfl

include short limited in
/-- Sessions that agree from a head on find budgets there that agree. -/
theorem agreed_here {turns : Nat} (placed : head.Placed client)
    (first : head.At client (.holding budget) window left)
    (second : head.At client (.holding (2 ^ 63 - 1)) window right) (same : left.bare = right.bare)
    (lowest : -2 ^ 63 < budget - head.charged) (long : client.wire.length < turns + head.start)
    (alike : behaviour ((runLoop asm client turns window).run left) =
      behaviour ((runLoop asm client turns window).run right)) :
    head.Agreed asm client budget (2 ^ 63 - 1) := by
  have inside := placed.inside
  obtain ⟨turns, rfl⟩ : ∃ fewer, turns = fewer + 1 := ⟨turns - 1, by omega⟩
  by_contra differs
  exact runLoop_parts calm short limited turns placed first second same lowest differs alike

include short limited in
/-- So they do at every head behind it. -/
theorem agreed_of_behaviour (onward : ReflTransGen (Block asm client) head target) :
    ∀ (turns : Nat) {window : Bytes 6} {left right : World}, head.Placed client →
      head.At client (.holding budget) window left →
      head.At client (.holding (2 ^ 63 - 1)) window right → left.bare = right.bare →
      -2 ^ 63 < budget - head.charged → client.wire.length < turns + head.start →
      behaviour ((runLoop asm client turns window).run left) =
        behaviour ((runLoop asm client turns window).run right) →
      target.Agreed asm client budget (2 ^ 63 - 1) := by
  induction onward using ReflTransGen.head_induction_on with
  | refl =>
      intro turns window left right placed first second same lowest long alike
      exact agreed_here calm short limited placed first second same lowest long alike
  | head block onward ih =>
      intro turns window left right placed first second same lowest long alike
      have agreed := agreed_here calm short limited placed first second same lowest long alike
      have covered := placed.covered short block
      have inside := placed.inside
      have further := block.onward
      obtain ⟨turns, rfl⟩ : ∃ fewer, turns = fewer + 1 := ⟨turns - 1, by omega⟩
      -- the new budget covers the block, so both turns complete
      obtain ⟨pushed, right', ran'⟩ := second.completes calm (by decide) covered block
      have twins := Head.At.turn_twins ⟨limited, by decide⟩ agreed same first second
      obtain ⟨left', ran, still⟩ := twins.of_ok ran'
      rw [runLoop_calm calm, runLoop_calm calm, run_bind_ok ran, run_bind_ok ran'] at alike
      obtain ⟨next, block', there⟩ := first.turn placed.six ran
      obtain ⟨other, block'', there'⟩ := second.turn placed.six ran'
      cases block.unique block'
      cases block.unique block''
      have paid := (agreed.bodies _ block.asks).mpr (covered _ block.asks)
      exact ih turns (placed.step block) there there' still (by omega) (by omega) alike

end
end FrameSession

/-- The session after a history behaves as on a new reader exactly when the reader it is given
covers what its client asks for, push by push, header by header and body by body, where a new
one does. -/
theorem next_session_isolated_iff (asm : Assembly) (history : List Client) (reader : PipeReader)
    (served : runThread asm PipeReader.new history = some reader) (next : Client)
    (calm : next.cancelAt = none) (short : next.wire.length < 2 ^ 62) :
    behaviour (FrameSession.session asm next reader) =
        behaviour (FrameSession.session asm next PipeReader.new) ↔
      ∀ head demand, Walk asm next head → Asks asm next head demand →
        ((demand : Int) ≤ reader.budget ↔ demand < 2 ^ 63) := by
  have root := runThread_isRoot asm history PipeReader.new reader trivial served
  obtain ⟨holds, lowest, limited⟩ := PipeReader.holding_budget root
  rw [PipeReader.new_eq_holding]
  constructor
  · intro alike head demand walk asks
    rw [holds] at alike
    have agreed := FrameSession.agreed_of_behaviour calm short limited walk
      (next.wire.length - 0 + 1) (Head.first_placed next) (Head.At.first next _)
      (Head.At.first next _) rfl (by simpa [Head.first] using lowest) (by simp [Head.first]) alike
    rw [agreed.bodies demand asks]
    omega
  · intro agree
    rw [holds]
    apply behaviour_of_twins
    apply session_twins ⟨limited, by decide⟩
    intro head walk
    refine ⟨fun demand charges => ?_, fun demand asks => ?_⟩
    · have bound := walk.placed.charges short charges
      have within := (agree head demand walk (Asks.read charges)).mpr (by omega)
      omega
    · rw [agree head demand walk asks]
      omega

/-- A client who sends nothing but a signed header that announces `size` bytes. -/
def announcing (cfg : Config) (nonce : Nonce) (size : Int64) : Client :=
  Client.waiting (cfg.preamble.toList ++
    (FrameHeader.new cfg cfg.checkpointSignature size nonce).encode.toList) nonce

namespace Sample
open Wsac.Sample

/-- Announces a body that takes what its header leaves of the budget, and hangs up. -/
def greedy : Client := announcing config nonce (2 ^ 63 - 45)

/-- Two frames behind a thread's first one: what they ask for is still there. -/
theorem next_session_isolated_iff_served :
    behaviour (FrameSession.session assembly (client [inner, inner]) (.root (2 ^ 63 - 46))) =
        behaviour (FrameSession.session assembly (client [inner, inner]) PipeReader.new) ∧
      ∀ head demand, Walk assembly (client [inner, inner]) head →
        Asks assembly (client [inner, inner]) head demand →
        ((demand : Int) ≤ (PipeReader.root (2 ^ 63 - 46)).budget ↔ demand < 2 ^ 63) := by
  have alike : behaviour (FrameSession.session assembly (client [inner, inner])
      (.root (2 ^ 63 - 46))) =
      behaviour (FrameSession.session assembly (client [inner, inner]) PipeReader.new) := by
    decide +kernel
  exact ⟨alike, (next_session_isolated_iff assembly [client [inner]] (.root (2 ^ 63 - 46))
    (by decide +kernel) (client [inner, inner]) rfl (by decide)).mp alike⟩

/-- The client behind the greedy one sends a checkpoint and is cut off at its first byte. -/
theorem next_client_is_cut_off :
    runThread assembly PipeReader.new [greedy] = some (.root 0) ∧
      behaviour (FrameSession.session assembly (client [inner]) (.root 0)) =
        ⟨some .application, [], []⟩ ∧
      behaviour (FrameSession.session assembly (client [inner]) PipeReader.new) =
        ⟨some .endOfStream, [.received 6, .checked 6 inner.header true, .entered 6 inner.header,
          .state .ready], []⟩ := by
  decide +kernel

end Sample
end Wsac.Service
