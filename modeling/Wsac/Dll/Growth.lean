import Wsac.Dll.Session
import Wsac.Dll.Writes

/-! # The log of a worker only grows

Construct by construct, through every failure and every stop.  Reads and writes
log nothing; what follows a header in the log is no header, and tells of every
change of `Base`. -/

set_option autoImplicit false

namespace Wsac.Dll

open Library Library.Exec

def LogGrows (before after : World) : Prop := before.log <+: after.log

theorem LogGrows.refl (world : World) : LogGrows world world := List.prefix_refl _

theorem LogGrows.trans (first second third : World) (left : LogGrows first second)
    (right : LogGrows second third) : LogGrows first third := List.IsPrefix.trans left right

theorem LogGrows.heads {before after : World} (grows : LogGrows before after) :
    before.heads <+: after.heads := List.IsPrefix.filterMap Event.head? grows

def Event.rebase (base : Base) : Event → Base
  | .rejected _ _ => base
  | .dispatched _ _ => base
  | .base value => value
  | .wrote _ => base

/-- No header has been read, and `Base` is what the new entries make of it. -/
def Amends (before after : World) : Prop :=
  ∃ new, after.log = before.log ++ new ∧ (∀ event ∈ new, event.head? = none) ∧
    after.base = new.foldl Event.rebase before.base

namespace Amends

theorem of_same {before after : World} (log : after.log = before.log)
    (base : after.base = before.base) : Amends before after :=
  ⟨[], by rw [log, List.append_nil], by simp, base⟩

theorem refl (world : World) : Amends world world := of_same rfl rfl

theorem trans (first second third : World) (left : Amends first second)
    (right : Amends second third) : Amends first third := by
  obtain ⟨new, log, headless, base⟩ := left
  obtain ⟨new', log', headless', base'⟩ := right
  refine ⟨new ++ new', by rw [log', log, List.append_assoc], fun event member => ?_, ?_⟩
  · rcases List.mem_append.mp member with member | member
    · exact headless event member
    · exact headless' event member
  · rw [base', base, List.foldl_append]

theorem grows {before after : World} (amends : Amends before after) : LogGrows before after := by
  obtain ⟨new, log, _⟩ := amends
  rw [LogGrows, log]
  exact List.prefix_append _ _

end Amends

theorem Seeks.amends {before after : World} (seeks : Seeks before after) : Amends before after := by
  apply Amends.of_same seeks.log
  rw [seeks.same]
  rfl

theorem Writes.amends {before after : World} (writes : Writes before after) :
    Amends before after := by
  unfold Writes at writes
  apply Amends.of_same
  · rw [writes]
  · rw [writes]

theorem Reads.amends {α : Type} {program : Worker α} (reads : Reads program) :
    Moves Amends program := reads.seeks.mono fun _ _ => Seeks.amends

/-- A checkpoint costs a nonce, two writes and an entry of the log. -/
theorem FrameWriter.writeCheckpoint_moves {R : World → World → Prop}
    (trans : ∀ first second third, R first second → R second third → R first third)
    (writes : ∀ before after, Writes before after → R before after)
    (draws : ∀ world : World, R world { world with drawn := world.drawn + 1 })
    (logs : ∀ (world : World) (header : FrameHeader),
      R world { world with log := world.log ++ [.wrote header] })
    (cfg : Config) (pipe : Pipe) : Moves R (FrameWriter.writeCheckpoint cfg pipe) := by
  have written : ∀ v, Moves R (PipeWriter.write pipe v) :=
    fun v => (PipeWriter.write_writes pipe v).mono writes
  have drawn : Moves R (FrameWriter.drawNonce pipe) := draws
  apply Moves.bind trans drawn
  intro nonce
  apply Moves.bind trans
  · apply Moves.bind trans (written _)
    intro _
    exact written _
  · intro _ world
    exact logs world _

theorem FrameWriter.writeCheckpoint_amends (cfg : Config) (pipe : Pipe) :
    Moves Amends (FrameWriter.writeCheckpoint cfg pipe) := by
  apply FrameWriter.writeCheckpoint_moves Amends.trans
  · exact fun _ _ => Writes.amends
  · exact fun _ => Amends.of_same rfl rfl
  · exact fun _ _ => ⟨[.wrote _], rfl, by simp [Event.head?], rfl⟩

namespace Session

theorem setBase_amends (value : Base) : Moves Amends (setBase value) :=
  fun _ => ⟨[.base value], rfl, by simp [Event.head?], rfl⟩

/-- A test frame is only read. -/
theorem handleTestSignal_seeks (pipe : Pipe) (dataSize : Nat) :
    Moves Seeks (handleTestSignal pipe dataSize) := by
  apply Moves.ite (Moves.throw Seeks.refl _)
  apply Moves.bind Seeks.trans (PipeReader.read_reads pipe _).seeks
  intro buffer
  exact Moves.pure Seeks.refl _

theorem switch_amends (cfg : Config) (pipe : Pipe) (header : FrameHeader) :
    Moves Amends (switch cfg pipe header) := by
  unfold switch
  cases signalOf cfg header.sig with
  | checkpoint =>
      apply Moves.bind Amends.trans Reads.get.amends
      intro world
      exact Moves.ite (setBase_amends _) (FrameWriter.writeCheckpoint_amends cfg pipe)
  | regular => exact Moves.pure Amends.refl _
  | test => exact (handleTestSignal_seeks pipe _).mono fun _ _ => Seeks.amends
  | invalid => exact FrameWriter.writeCheckpoint_amends cfg pipe

theorem reject_amends (cfg : Config) (pipe : Pipe) : Moves Amends (do
    FrameWriter.writeCheckpoint cfg pipe
    setBase .none) := by
  apply Moves.bind Amends.trans (FrameWriter.writeCheckpoint_amends cfg pipe)
  intro _
  exact setBase_amends _

/-- Whatever becomes of it, handling a header logs it first. -/
theorem handle_amends (cfg : Config) (pipe : Pipe) (offset : Nat) (header : FrameHeader)
    (world : World) :
    ∃ event : Event, event.head? = some (offset, header, header.validate cfg) ∧
      Amends { world with log := world.log ++ [event] }
        (finalState ((handle cfg pipe offset header).run world)) := by
  have recorded : ∀ (event : Event), (record event).run world =
      .ok () { world with log := world.log ++ [event] } := fun _ => rfl
  unfold handle
  by_cases invalid : header.validate cfg = false
  · refine ⟨.rejected offset header, by simp [Event.head?, invalid], ?_⟩
    rw [if_pos invalid, run_bind_ok (recorded _)]
    exact reject_amends cfg pipe _
  · refine ⟨.dispatched offset header, by simp [Event.head?, invalid], ?_⟩
    rw [if_neg invalid, run_bind_ok (recorded _)]
    exact switch_amends cfg pipe header _

theorem handle_grows (cfg : Config) (pipe : Pipe) (offset : Nat) (header : FrameHeader) :
    Moves LogGrows (handle cfg pipe offset header) := by
  intro world
  obtain ⟨event, _, amends⟩ := handle_amends cfg pipe offset header world
  exact (List.prefix_append world.log [event]).trans amends.grows

section
variable {R : World → World → Prop}
  (trans : ∀ first second third, R first second → R second third → R first third)
  (reads : ∀ before after, Seeks before after → R before after) (cfg : Config) (pipe : Pipe)
  (handles : ∀ offset header, Moves R (handle cfg pipe offset header))
include trans reads handles

/-- What follows the preamble in a turn. -/
theorem behindPreamble_moves : Moves R (do
    let world ← get
    let header ← FrameReader.readHeader cfg pipe
    handle cfg pipe world.position header) := by
  apply Moves.bind trans (Reads.get.seeks.mono reads)
  intro world
  apply Moves.bind trans ((FrameReader.readHeader_reads cfg pipe).seeks.mono reads)
  intro header
  exact handles world.position header

theorem turn_moves : Moves R (turn cfg pipe) := by
  apply Moves.bind trans
    ((FrameReader.readUntilPreamble_seeks pipe cfg.preamble.toList).mono reads)
  intro _
  exact behindPreamble_moves trans reads cfg pipe handles

/-- A run moves along whatever reads and the handling of headers move along. -/
theorem runLoop_moves (turns : Nat) : Moves R (runLoop cfg pipe turns) := by
  have refl : ∀ world, R world world := fun world => reads world world (Seeks.refl world)
  induction turns with
  | zero => exact Moves.throw refl _
  | succ turns ih =>
      apply Moves.bind trans ((stopRequested_reads pipe).seeks.mono reads)
      intro stopped
      apply Moves.ite (Moves.pure refl _)
      apply Moves.bind trans (turn_moves trans reads cfg pipe handles)
      intro _
      exact ih

end

theorem turn_grows (cfg : Config) (pipe : Pipe) : Moves LogGrows (turn cfg pipe) :=
  turn_moves LogGrows.trans (fun _ _ seeks => seeks.amends.grows) cfg pipe (handle_grows cfg pipe)

theorem runLoop_grows (cfg : Config) (pipe : Pipe) (turns : Nat) :
    Moves LogGrows (runLoop cfg pipe turns) :=
  runLoop_moves LogGrows.trans (fun _ _ seeks => seeks.amends.grows) cfg pipe
    (handle_grows cfg pipe) turns

end Session
end Wsac.Dll
