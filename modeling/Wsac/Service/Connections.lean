import Wsac.Library.Runs
import Wsac.Service.FrameSession

/-! # `RunThread`: one server end for all clients of a thread

The thread waits for a client, serves it and goes back to waiting on the same
`NamedPipeServerStream`.  That class is given by what `WaitForConnectionAsync` may end
with in each state of the server end; the source never calls `Disconnect`, so a server
end that has been connected stays so. -/

set_option autoImplicit false

namespace Wsac.Service

open Library Library.Exec

/-- Which `catch` of `RunAsync` took the exception, or none. -/
inductive Ended where
  | closedSuccessfully
  | unexpectedEof
  | connectionRefused
  | operationCancelled
  | unhandledException
deriving DecidableEq

namespace FrameSession

/-- The `catch` clauses of `RunAsync`; `none` is an exception of any other type. -/
def caught : Option Failure → Ended
  | some .endOfStream => .unexpectedEof
  | some .io => .connectionRefused
  | some .operationCanceled => .operationCancelled
  | _ => .unhandledException

/-- `RunAsync`: what it ends with, if it ends. -/
def runAsync : EStateM.Result Failure World Unit → Option Ended
  | .ok _ _ => some .closedSuccessfully
  | .error .blocked _ => none
  | .error failure _ => some (caught (some failure))

end FrameSession

namespace PipeSessionService

/-- The state of the server end. -/
inductive Connection where
  | initial
  | connected
  | disconnected
deriving DecidableEq

/-- What `WaitForConnectionAsync` ends with. -/
inductive Waited where
  | accepted
  | operationCanceled
  | io
  | invalidOperation
deriving DecidableEq

/-- `NamedPipeServerStream`: what a wait may end with, and what is documented of that. -/
structure PipeServer where
  ends : Connection → (cancelled : Bool) → Waited → Bool
  accepts_unconnected : ∀ cancelled, ends .connected cancelled .accepted = false
  /-- A wait throws `OperationCanceledException` when the token is cancelled. -/
  cancels : ∀ connection outcome, ends connection true outcome = true →
    outcome = .operationCanceled
  cancels_only : ∀ connection, ends connection false .operationCanceled = false
  /-- The other two exceptions are for server ends that have been connected. -/
  throws_connected : ∀ connection, connection ≠ .connected →
    ends connection false .io = false ∧ ends connection false .invalidOperation = false

inductive Phase where
  /-- The condition of the loop. -/
  | heading
  | waiting
  /-- `RunAsync` of a new session. -/
  | serving
  | left
  /-- An exception has escaped from `RunThread`. -/
  | crashed (exception : Waited)
deriving DecidableEq

structure Thread where
  phase : Phase
  connection : Connection
  cancelled : Bool
  reader : PipeReader
  /-- The sessions so far, with what each ended with. -/
  ended : List Ended
deriving DecidableEq

def Thread.start : Thread := ⟨.heading, .initial, false, .new, []⟩

inductive Move where
  /-- `StopAsync`, on another thread. -/
  | cancel
  | check
  | waited (outcome : Waited)
  | serve (client : Client)
  /-- An exception from outside the session's own code, with what it leaves of the reader. -/
  | fault (reader : PipeReader)

/-- A client is served under the token as it is now; it may be cancelled meanwhile. -/
def Thread.Serves (thread : Thread) (client : Client) : Prop :=
  thread.cancelled = true → client.cancelAt = some 0

instance (thread : Thread) (client : Client) : Decidable (thread.Serves client) :=
  inferInstanceAs (Decidable (thread.cancelled = true → client.cancelAt = some 0))

/-- Behind `catch (OperationCanceledException)`, which leaves the loop. -/
def Thread.afterWait (thread : Thread) : Waited → Thread
  | .accepted => { thread with phase := .serving, connection := .connected }
  | .operationCanceled => { thread with phase := .left }
  | exception => { thread with phase := .crashed exception }

def Thread.afterSession (thread : Thread) (ended : Ended) (reader : PipeReader)
    (cancelled : Bool) : Thread :=
  { thread with
    phase := .heading
    reader := reader.origin
    cancelled := cancelled
    ended := thread.ended ++ [ended] }

/-- A move of the thread, or of the one that stops it; `none` where it is not its turn. -/
def step (asm : Assembly) (server : PipeServer) : Move → Thread → Option Thread
  | .cancel, thread => some { thread with cancelled := true }
  -- `while (!ct.IsCancellationRequested)`
  | .check, thread =>
      if thread.phase = .heading then
        some { thread with phase := if thread.cancelled then .left else .waiting }
      else none
  | .waited outcome, thread =>
      if thread.phase = .waiting ∧ server.ends thread.connection thread.cancelled outcome = true then
        some (thread.afterWait outcome)
      else none
  -- a session that nothing ends gives no move
  | .serve client, thread =>
      if thread.phase = .serving ∧ thread.Serves client then
        let result := FrameSession.session asm client thread.reader
        (FrameSession.runAsync result).map fun ended =>
          thread.afterSession ended (finalState result).reader
            (thread.cancelled || client.cancelAt.isSome)
      else none
  | .fault reader, thread =>
      if thread.phase = .serving then
        some (thread.afterSession (FrameSession.caught none) reader thread.cancelled)
      else none

/-- `RunThread` has left its loop for the token only, and through no exception. -/
structure Thread.Outlives (thread : Thread) : Prop where
  left : thread.phase = .left → thread.cancelled = true
  unharmed : ∀ exception, thread.phase ≠ .crashed exception

/-- A wait ends on a server end that has had no client yet, or behind the cancellation. -/
def Tame : Move → Thread → Prop
  | .waited _, thread => thread.connection ≠ .connected ∨ thread.cancelled = true
  | _, _ => True

/-! ## One step -/

variable {asm : Assembly} {server : PipeServer} {before after : Thread}

theorem PipeServer.ends_connected (server : PipeServer) {outcome : Waited}
    (ends : server.ends .connected false outcome = true) :
    outcome = .io ∨ outcome = .invalidOperation := by
  cases outcome with
  | accepted => rw [server.accepts_unconnected] at ends; cases ends
  | operationCanceled => rw [server.cancels_only] at ends; cases ends
  | io => exact Or.inl rfl
  | invalidOperation => exact Or.inr rfl

theorem PipeServer.ends_unconnected (server : PipeServer) {connection : Connection}
    {outcome : Waited} (fresh : connection ≠ .connected)
    (ends : server.ends connection false outcome = true) : outcome = .accepted := by
  obtain ⟨noIo, noInvalid⟩ := server.throws_connected connection fresh
  cases outcome with
  | accepted => rfl
  | operationCanceled => rw [server.cancels_only] at ends; cases ends
  | io => rw [noIo] at ends; cases ends
  | invalidOperation => rw [noInvalid] at ends; cases ends

/-- What a move can do to the thread. -/
theorem step_eq_some {move : Move} (stepped : step asm server move before = some after) :
    (∃ cancelled, after = { before with cancelled := cancelled } ∧ cancelled = true) ∨
    (before.phase = .heading ∧
      after = { before with phase := if before.cancelled then .left else .waiting }) ∨
    (∃ outcome, move = .waited outcome ∧ before.phase = .waiting ∧
      server.ends before.connection before.cancelled outcome = true ∧
      after = before.afterWait outcome) ∨
    (∃ ended reader cancelled, before.phase = .serving ∧
      after = before.afterSession ended reader cancelled) := by
  cases move with
  | cancel =>
      cases stepped
      exact Or.inl ⟨true, rfl, rfl⟩
  | check =>
      simp only [step, Option.ite_none_right_eq_some, Option.some.injEq] at stepped
      exact Or.inr (Or.inl ⟨stepped.1, stepped.2.symm⟩)
  | waited outcome =>
      simp only [step, Option.ite_none_right_eq_some, Option.some.injEq] at stepped
      exact Or.inr (Or.inr (Or.inl ⟨outcome, rfl, stepped.1.1, stepped.1.2, stepped.2.symm⟩))
  | serve client =>
      simp only [step, Option.ite_none_right_eq_some, Option.map_eq_some_iff] at stepped
      obtain ⟨⟨serving, _⟩, ended, _, there⟩ := stepped
      exact Or.inr (Or.inr (Or.inr ⟨ended, _, _, serving, there.symm⟩))
  | fault reader =>
      simp only [step, Option.ite_none_right_eq_some, Option.some.injEq] at stepped
      exact Or.inr (Or.inr (Or.inr ⟨_, reader, before.cancelled, stepped.1, stepped.2.symm⟩))

theorem Thread.Outlives.running {thread : Thread}
    (on : thread.phase = .heading ∨ thread.phase = .waiting ∨ thread.phase = .serving) :
    thread.Outlives := by
  constructor
  · intro left
    rw [left] at on
    simp at on
  · intro exception crashed
    rw [crashed] at on
    simp at on

theorem Thread.Outlives.done {thread : Thread} (left : thread.phase = .left)
    (cancelled : thread.cancelled = true) : thread.Outlives := by
  refine ⟨fun _ => cancelled, fun exception crashed => ?_⟩
  rw [left] at crashed
  cases crashed

theorem outlives_step {move : Move} (outlives : before.Outlives)
    (stepped : step asm server move before = some after) (tame : Tame move before) :
    after.Outlives := by
  rcases step_eq_some stepped with ⟨cancelled, rfl, yes⟩ | ⟨_, rfl⟩ |
    ⟨outcome, rfl, _, ends, rfl⟩ | ⟨ended, reader, cancelled, _, rfl⟩
  · exact ⟨fun _ => yes, outlives.unharmed⟩
  · by_cases asked : before.cancelled = true
    · exact Thread.Outlives.done (if_pos asked) asked
    · exact Thread.Outlives.running (Or.inr (Or.inl (if_neg asked)))
  · by_cases asked : before.cancelled = true
    · rw [asked] at ends
      rw [server.cancels before.connection outcome ends]
      exact Thread.Outlives.done rfl asked
    · have fresh : before.connection ≠ .connected := tame.resolve_right asked
      rw [Bool.eq_false_of_not_eq_true asked] at ends
      rw [server.ends_unconnected fresh ends]
      exact Thread.Outlives.running (Or.inr (Or.inr rfl))
  · exact Thread.Outlives.running (Or.inl rfl)

/-- A wait on a connected server end throws what `RunThread` does not catch. -/
theorem crashes_of_untame {move : Move} (stepped : step asm server move before = some after)
    (untame : ¬ Tame move before) : ∃ exception, after.phase = .crashed exception := by
  cases move with
  | cancel => exact absurd trivial untame
  | check => exact absurd trivial untame
  | serve client => exact absurd trivial untame
  | fault reader => exact absurd trivial untame
  | waited outcome =>
      simp only [step, Option.ite_none_right_eq_some, Option.some.injEq] at stepped
      obtain ⟨⟨_, ends⟩, rfl⟩ := stepped
      simp only [Tame, ne_eq, not_or, Decidable.not_not, Bool.not_eq_true] at untame
      rw [untame.1, untame.2] at ends
      rcases server.ends_connected ends with rfl | rfl
      · exact ⟨.io, rfl⟩
      · exact ⟨.invalidOperation, rfl⟩

/-- Nothing brings the thread back. -/
theorem crashed_stays {move : Move} (crashed : ∃ exception, before.phase = .crashed exception)
    (stepped : step asm server move before = some after) :
    ∃ exception, after.phase = .crashed exception := by
  obtain ⟨exception, phase⟩ := crashed
  rcases step_eq_some stepped with ⟨_, rfl, _⟩ | ⟨heading, _⟩ | ⟨_, _, waiting, _⟩ |
    ⟨_, _, _, serving, _⟩
  · exact ⟨exception, phase⟩
  · rw [phase] at heading; cases heading
  · rw [phase] at waiting; cases waiting
  · rw [phase] at serving; cases serving

/-! ## Whole runs -/

/-- A run keeps the thread alive until the cancellation exactly if no wait of it ends on a
connected server end with the token uncancelled. -/
theorem outlives_iff_tame (asm : Assembly) (server : PipeServer) (moves : List Move)
    (final : Thread) (ran : runs (step asm server) moves .start = some final) :
    final.Outlives ↔ Along (step asm server) Tame moves .start := by
  constructor
  · intro outlives
    apply along_of_unharmed (fun thread => ∃ exception, thread.phase = .crashed exception)
      (fun _ _ _ crashed stepped => crashed_stays crashed stepped)
      (fun _ _ _ stepped untame => crashes_of_untame stepped untame) ran
    intro crashed
    obtain ⟨exception, phase⟩ := crashed
    exact outlives.unharmed exception phase
  · exact runs_invariant_along Thread.Outlives
      (fun _ _ _ outlives stepped tame => outlives_step outlives stepped tame)
      (Thread.Outlives.running (Or.inl rfl)) ran

/-! ## No second client -/

def Move.accepts : Move → Bool
  | .waited .accepted => true
  | _ => false

theorem Move.accepts_iff {move : Move} : move.accepts = true ↔ move = .waited .accepted := by
  cases move with
  | waited outcome => cases outcome <;> simp [Move.accepts]
  | cancel => simp [Move.accepts]
  | check => simp [Move.accepts]
  | serve client => simp [Move.accepts]
  | fault reader => simp [Move.accepts]

theorem connected_stays {move : Move} (connected : before.connection = .connected)
    (stepped : step asm server move before = some after) : after.connection = .connected := by
  rcases step_eq_some stepped with ⟨_, rfl, _⟩ | ⟨_, rfl⟩ | ⟨outcome, _, _, _, rfl⟩ |
    ⟨_, _, _, _, rfl⟩
  · exact connected
  · exact connected
  · cases outcome with
    | accepted => rfl
    | operationCanceled => exact connected
    | io => exact connected
    | invalidOperation => exact connected
  · exact connected

theorem accepts_unconnected {move : Move} (accepts : move.accepts = true)
    (stepped : step asm server move before = some after) :
    before.connection ≠ .connected ∧ after.connection = .connected := by
  rw [Move.accepts_iff.mp accepts] at stepped
  simp only [step, Option.ite_none_right_eq_some, Option.some.injEq] at stepped
  obtain ⟨⟨_, ends⟩, rfl⟩ := stepped
  refine ⟨fun connected => ?_, rfl⟩
  rw [connected, server.accepts_unconnected] at ends
  cases ends

theorem accepts_none {moves : List Move} {state final : Thread}
    (connected : state.connection = .connected)
    (ran : runs (step asm server) moves state = some final) : moves.countP Move.accepts = 0 := by
  induction moves generalizing state with
  | nil => rfl
  | cons move rest ih =>
      obtain ⟨middle, stepped, ran⟩ := (runs_cons_eq_some _).mp ran
      have refuses : ¬ move.accepts = true :=
        fun accepts => (accepts_unconnected accepts stepped).1 connected
      rw [List.countP_cons_of_neg refuses, ih (connected_stays connected stepped) ran]

/-- However a thread is run, it accepts one client at most. -/
theorem accepts_le_one {moves : List Move} {state final : Thread}
    (ran : runs (step asm server) moves state = some final) : moves.countP Move.accepts ≤ 1 := by
  induction moves generalizing state with
  | nil => exact Nat.zero_le 1
  | cons move rest ih =>
      obtain ⟨middle, stepped, ran⟩ := (runs_cons_eq_some _).mp ran
      by_cases accepts : move.accepts = true
      · rw [List.countP_cons_of_pos accepts,
          accepts_none (accepts_unconnected accepts stepped).2 ran]
      · rw [List.countP_cons_of_neg accepts]
        exact ih ran

namespace Sample

def documentedEnds : Connection → Bool → Waited → Bool
  | _, true, outcome => outcome == .operationCanceled
  | .connected, false, outcome => outcome == .io || outcome == .invalidOperation
  | _, false, outcome => outcome == .accepted

theorem documentedEnds_connected (cancelled : Bool) :
    documentedEnds .connected cancelled .accepted = false := by
  cases cancelled <;> rfl

theorem documentedEnds_cancelled (connection : Connection) (outcome : Waited)
    (ends : documentedEnds connection true outcome = true) : outcome = .operationCanceled := by
  cases connection <;> exact eq_of_beq ends

theorem documentedEnds_uncancelled (connection : Connection) :
    documentedEnds connection false .operationCanceled = false := by
  cases connection <;> rfl

theorem documentedEnds_unconnected (connection : Connection) (fresh : connection ≠ .connected) :
    documentedEnds connection false .io = false ∧
      documentedEnds connection false .invalidOperation = false := by
  cases connection with
  | initial => exact ⟨rfl, rfl⟩
  | connected => exact absurd rfl fresh
  | disconnected => exact ⟨rfl, rfl⟩

/-- A server end that does just what is documented. -/
def documented : PipeServer where
  ends := documentedEnds
  accepts_unconnected := documentedEnds_connected
  cancels := documentedEnds_cancelled
  cancels_only := documentedEnds_uncancelled
  throws_connected := documentedEnds_unconnected

/-- Connects and hangs up. -/
def hasty : Client := Client.waiting [] Wsac.Sample.nonce

/-- The client hangs up, then the service stops. -/
def oneClient : List Move := [.check, .waited .accepted, .serve hasty, .cancel, .check]

def stopped : Thread :=
  ⟨.left, .connected, true, .root (Int64.maxValue - 1), [.unexpectedEof]⟩

theorem oneClient_outlives : stopped.Outlives ↔
    Along (step Service.Sample.assembly documented) Tame oneClient .start :=
  outlives_iff_tame Service.Sample.assembly documented oneClient stopped (by decide +kernel)

/-- The client hangs up, and the thread waits for the next one. -/
def nextClient : List Move := [.check, .waited .accepted, .serve hasty, .check, .waited .io]

theorem nextClient_crashes :
    ∃ final, runs (step Service.Sample.assembly documented) nextClient .start = some final ∧
      ¬ final.Outlives := by
  have ran : runs (step Service.Sample.assembly documented) nextClient .start =
      some ⟨.crashed .io, .connected, false, .root (Int64.maxValue - 1), [.unexpectedEof]⟩ := by
    decide +kernel
  exact ⟨_, ran, fun outlives => outlives.unharmed .io rfl⟩

end Sample
end PipeSessionService
end Wsac.Service
