import Wsac.Library.View
import Wsac.Service.Stops

/-! # What budgets do not change

Behind the charge, reading the pipe and reacting to a frame see nothing of the readers. -/

set_option autoImplicit false

namespace Wsac.Service

open Library Library.Exec

/-- A world but for its readers. -/
def World.bare (world : World) : World := { world with reader := .root 0 }

/-- Results that differ in nothing but the readers, and no charge is refused. -/
abbrev Twins {α : Type} (first second : EStateM.Result Failure World α) : Prop :=
  Alike World.bare (fun failure => failure ≠ .application) first second

/-- The readers make no difference to a program, and it refuses no charge. -/
abbrev Careless {α : Type} (program : Worker α) : Prop :=
  Blind World.bare (fun failure => failure ≠ .application) program

theorem bare_position {one two : World} (same : one.bare = two.bare) :
    one.position = two.position := by
  show one.bare.position = two.bare.position
  rw [same]

theorem bare_state {one two : World} (same : one.bare = two.bare) : one.state = two.state := by
  show one.bare.state = two.bare.state
  rw [same]

theorem bare_log {one two : World} (same : one.bare = two.bare) : one.log = two.log := by
  show one.bare.log = two.bare.log
  rw [same]

/-- A change that neither reads nor touches the readers. -/
theorem modifyGet_blind {α : Type} {change : World → α × World}
    (value : ∀ world, (change world).1 = (change world.bare).1)
    (state : ∀ world, (change world).2.bare = (change world.bare).2.bare) :
    Careless (modifyGet change : Worker α) := by
  apply Blind.modifyGet
  intro one two same
  rw [value one, value two, state one, state two, same]
  exact ⟨rfl, rfl⟩

section
variable (client : Client)

theorem cancellationRequested_blind : Careless (cancellationRequested client) := by
  unfold cancellationRequested
  cases client.cancelAt with
  | none => exact Blind.pure false
  | some first => exact modifyGet_blind (fun _ => rfl) fun _ => rfl

theorem throwIfCancellationRequested_blind : Careless (throwIfCancellationRequested client) := by
  apply Blind.bind (cancellationRequested_blind client)
  intro requested
  exact Blind.ite (Blind.throw (by decide)) (Blind.pure _)

theorem take_blind (requested : Nat) : Careless (client.take requested) :=
  modifyGet_blind (fun _ => rfl) fun _ => rfl

namespace PipeStream

theorem waitForData_blind : Careless (waitForData client) := by
  apply Blind.get_bind
  · intro one two same
    rw [bare_position same]
  · intro world
    apply Blind.ite (Blind.pure _)
    cases client.ending with
    | closed => exact Blind.throw (by decide)
    | failing => exact Blind.throw (by decide)
    | silent =>
        cases client.cancelAt with
        | none => exact Blind.throw (by decide)
        | some first => exact modifyGet_blind (fun _ => rfl) fun _ => rfl

theorem readTurn_blind {size : Nat} (i : Nat) (buffer : Bytes size)
    {next : List UInt8 → Worker (Bytes size)} (onward : ∀ chunk, Careless (next chunk)) :
    Careless (readTurn client i buffer next) := by
  unfold readTurn
  apply Blind.ite _ (Blind.pure _)
  apply Blind.bind (cancellationRequested_blind client)
  intro requested
  apply Blind.ite (Blind.pure _)
  apply Blind.bind (waitForData_blind client)
  intro _
  apply Blind.bind (cancellationRequested_blind client)
  intro requested
  apply Blind.ite (Blind.pure _)
  apply Blind.bind (take_blind client _)
  intro chunk
  exact Blind.ite (Blind.throw (by decide)) (onward chunk)

theorem readLoop_blind {size : Nat} (bytesLeft : Nat) : ∀ (i : Nat) (buffer : Bytes size),
    Careless (readLoop client bytesLeft i buffer) := by
  induction bytesLeft with
  | zero =>
      intro i buffer
      rw [readLoop_zero]
      exact readTurn_blind client i buffer fun _ => Blind.throw (by decide)
  | succ bytesLeft ih =>
      intro i buffer
      rw [readLoop_succ]
      exact readTurn_blind client i buffer fun chunk => ih _ _

theorem read_blind (size : Nat) : Careless (read client size) := by
  apply Blind.get_bind
  · intro one two same
    rw [bare_position same]
  · intro world
    apply Blind.bind (readLoop_blind client _ _ _)
    intro buffer
    apply Blind.bind (throwIfCancellationRequested_blind client)
    intro _
    exact Blind.pure _

theorem readAsync_blind (requested : Nat) : Careless (readAsync client requested) := by
  apply Blind.bind (throwIfCancellationRequested_blind client)
  intro _
  apply Blind.get_bind
  · intro one two same
    rw [bare_position same]
  · intro world
    apply Blind.ite (take_blind client _)
    cases client.ending with
    | closed => exact Blind.pure _
    | failing => exact Blind.throw (by decide)
    | silent =>
        cases client.cancelAt with
        | none => exact Blind.throw (by decide)
        | some first => exact Blind.throw (by simp)

end PipeStream

namespace PipeReader

theorem readAsyncTurn_blind (size : Int64) (buffer : Nat) (i : Int64) (stream : List UInt8)
    {next : List UInt8 → Worker (List UInt8)} (onward : ∀ chunk, Careless (next chunk)) :
    Careless (readAsyncTurn client size buffer i stream next) := by
  unfold readAsyncTurn
  apply Blind.ite _ (Blind.pure _)
  apply Blind.bind (cancellationRequested_blind client)
  intro requested
  apply Blind.ite (Blind.pure _)
  apply Blind.bind (PipeStream.readAsync_blind client _)
  intro chunk
  exact Blind.ite (Blind.throw (by decide)) (onward chunk)

theorem readAsyncLoop_blind (size : Int64) (buffer bytesLeft : Nat) :
    ∀ (i : Int64) (stream : List UInt8),
      Careless (readAsyncLoop client size buffer bytesLeft i stream) := by
  induction bytesLeft with
  | zero =>
      intro i stream
      rw [readAsyncLoop_zero]
      exact readAsyncTurn_blind client size buffer i stream fun _ => Blind.throw (by decide)
  | succ bytesLeft ih =>
      intro i stream
      rw [readAsyncLoop_succ]
      exact readAsyncTurn_blind client size buffer i stream fun chunk => ih _ _

theorem readAsyncInternal_blind (size : Int64) : Careless (readAsyncInternal client size) := by
  apply Blind.get_bind
  · intro one two same
    rw [bare_position same]
  · intro world
    apply Blind.bind (readAsyncLoop_blind client _ _ _ _ _)
    intro stream
    apply Blind.bind (throwIfCancellationRequested_blind client)
    intro _
    exact Blind.pure _

end PipeReader

theorem releaseChild_blind : Careless PipeReader.releaseChild :=
  modifyGet_blind (fun _ => rfl) fun _ => rfl

theorem record_blind (event : Event) : Careless (record event) :=
  modifyGet_blind (fun _ => rfl) fun _ => rfl

theorem setState_blind (value : FrameSessionState) : Careless (FrameSession.setState value) := by
  apply Blind.bind _ fun _ => record_blind _
  exact modifyGet_blind (fun _ => rfl) fun _ => rfl

theorem refusal_ne_application : client.refusal ≠ .application := by
  unfold Client.refusal
  split <;> decide

theorem write_blind (bytes : List UInt8) : Careless (PipeWriter.write client bytes) := by
  intro one two same
  have refuses : client.refuses one = client.refuses two := by
    show client.refuses one.bare = client.refuses two.bare
    rw [same]
  rw [PipeWriter.write, run_get_bind, run_get_bind, refuses]
  split
  · exact Alike.error (refusal_ne_application client) same
  · exact Alike.ok _ (congrArg
      (fun world : World => { world with written := world.written ++ bytes }) same)

theorem writeCheckpoint_blind (cfg : Config) :
    Careless (FrameWriter.writeCheckpoint cfg client) := by
  unfold FrameWriter.writeCheckpoint FrameWriter.write FrameWriter.drawNonce
  apply Blind.bind (modifyGet_blind (fun _ => rfl) fun _ => rfl)
  intro nonce
  apply Blind.bind _ fun _ => record_blind _
  exact Blind.bind (write_blind client _) fun _ => write_blind client _

theorem requestCheckpoint_blind (cfg : Config) :
    Careless (FrameSession.requestCheckpoint cfg client) :=
  Blind.bind (writeCheckpoint_blind client cfg) fun _ => setState_blind .none

end
end Wsac.Service
