import Wsac.Service.Stops
import Mathlib.Data.Int.Basic

/-! # Reads of a session that nobody cancels

`Read<T>` completes if the bytes of a `T` are on the wire, and fails if they are not. -/

set_option autoImplicit false

namespace Wsac.Service

open Library Library.Exec

/-- The same world at another place of the wire, with other readers. -/
def World.move (world : World) (position : Nat) (reader : PipeReader) : World :=
  { world with position := position, reader := reader }

@[simp] theorem move_position (world : World) (position : Nat) (reader : PipeReader) :
    (world.move position reader).position = position := rfl
@[simp] theorem move_reader (world : World) (position : Nat) (reader : PipeReader) :
    (world.move position reader).reader = reader := rfl
@[simp] theorem move_state (world : World) (position : Nat) (reader : PipeReader) :
    (world.move position reader).state = world.state := rfl
@[simp] theorem move_log (world : World) (position : Nat) (reader : PipeReader) :
    (world.move position reader).log = world.log := rfl
@[simp] theorem move_written (world : World) (position : Nat) (reader : PipeReader) :
    (world.move position reader).written = world.written := rfl
@[simp] theorem move_move (world : World) (first second : Nat) (one two : PipeReader) :
    (world.move first one).move second two = world.move second two := rfl

section Calm
variable (client : Client) (calm : client.cancelAt = none)
include calm

theorem cancellationRequested_run (world : World) :
    (cancellationRequested client).run world = .ok false world := by
  unfold cancellationRequested
  rw [calm]
  rfl

theorem throwIfCancellationRequested_run (world : World) :
    (throwIfCancellationRequested client).run world = .ok () world := by
  unfold throwIfCancellationRequested
  rw [run_bind_ok (cancellationRequested_run client calm world)]
  rfl

omit calm in
theorem take_run (requested : Nat) (world : World) :
    (client.take requested).run world =
      .ok ((client.wire.drop world.position).take (client.served world.position requested))
        (world.move (world.position + client.served world.position requested) world.reader) := by
  simp only [Client.take, EStateM.run_modifyGet, take_length]
  rfl

namespace PipeStream

omit calm in
theorem waitForData_run (world : World) (more : world.position < client.wire.length) :
    (waitForData client).run world = .ok () world := by
  rw [waitForData, run_get_bind, if_pos more]
  rfl

theorem waitForData_end (world : World) (ended : client.wire.length ≤ world.position) :
    ∃ failure, (waitForData client).run world = .error failure world := by
  rw [waitForData, run_get_bind, if_neg (by omega)]
  cases client.ending with
  | closed => exact ⟨.endOfStream, rfl⟩
  | failing => exact ⟨.win32, rfl⟩
  | silent =>
      simp only [calm]
      exact ⟨.blocked, rfl⟩

omit calm in
theorem readLoop_full {size : Nat} (bytesLeft : Nat) (buffer : Bytes size) (world : World) :
    (readLoop client bytesLeft size buffer).run world = .ok buffer world := by
  unfold readLoop
  rw [if_neg (Nat.lt_irrefl size)]
  rfl

theorem readLoop_ended {size : Nat} (bytesLeft i : Nat) (buffer : Bytes size) (world : World)
    (filling : i < size) (ended : client.wire.length ≤ world.position) :
    ∃ failure, (readLoop client bytesLeft i buffer).run world = .error failure world := by
  obtain ⟨failure, waited⟩ := waitForData_end client calm world ended
  refine ⟨failure, ?_⟩
  unfold readLoop
  rw [if_pos filling, run_bind_ok (cancellationRequested_run client calm world)]
  simp only [Bool.false_eq_true, if_false]
  rw [run_bind_error waited]

theorem readLoop_turn {size : Nat} (bytesLeft i : Nat) (buffer : Bytes size) (world : World)
    (filling : i < size) (more : world.position < client.wire.length) :
    ∃ count, 0 < count ∧ i + count ≤ size ∧ world.position + count ≤ client.wire.length ∧
      (readLoop client (bytesLeft + 1) i buffer).run world =
        (readLoop client bytesLeft (i + count)
          (buffer.overwrite i ((client.wire.drop world.position).take count))).run
            (world.move (world.position + count) world.reader) := by
  have bound := client.served_le world.position (size - i)
  have positive := client.served_pos world.position (size - i) more (by omega)
  have length := take_length client world.position (size - i)
  refine ⟨client.served world.position (size - i), positive, by omega, by omega, ?_⟩
  rw [readLoop, if_pos filling, run_bind_ok (cancellationRequested_run client calm world)]
  simp only [Bool.false_eq_true, if_false]
  rw [run_bind_ok (waitForData_run client world more),
    run_bind_ok (cancellationRequested_run client calm world)]
  simp only [Bool.false_eq_true, if_false]
  rw [run_bind_ok (take_run client (size - i) world), if_neg (by omega), length]

theorem readLoop_run {size : Nat} (bytesLeft : Nat) :
    ∀ (i : Nat) (buffer : Bytes size) (world : World), i ≤ size →
      client.wire.length - world.position ≤ bytesLeft →
      world.position + (size - i) ≤ client.wire.length →
      ∃ filled, (readLoop client bytesLeft i buffer).run world =
        .ok filled (world.move (world.position + (size - i)) world.reader) := by
  induction bytesLeft with
  | zero =>
      intro i buffer world inside left enough
      have full : i = size := by omega
      subst full
      refine ⟨buffer, ?_⟩
      rw [readLoop_full client, Nat.sub_self]
      rfl
  | succ bytesLeft ih =>
      intro i buffer world inside left enough
      by_cases filling : i < size
      · obtain ⟨count, positive, fits, onWire, turn⟩ :=
          readLoop_turn client calm bytesLeft i buffer world filling (by omega)
        obtain ⟨filled, ran⟩ := ih (i + count)
          (buffer.overwrite i ((client.wire.drop world.position).take count))
          (world.move (world.position + count) world.reader) fits (by simp; omega)
          (by simp; omega)
        have there : world.position + count + (size - (i + count)) =
            world.position + (size - i) := by omega
        refine ⟨filled, ?_⟩
        rw [turn, ran, move_position, there]
        rfl
      · have full : i = size := by omega
        subst full
        refine ⟨buffer, ?_⟩
        rw [readLoop_full client, Nat.sub_self]
        rfl

theorem readLoop_short {size : Nat} (bytesLeft : Nat) :
    ∀ (i : Nat) (buffer : Bytes size) (world : World), i < size →
      world.position ≤ client.wire.length →
      client.wire.length - world.position ≤ bytesLeft →
      client.wire.length < world.position + (size - i) →
      ∃ (failure : Failure) (position : Nat), (readLoop client bytesLeft i buffer).run world =
        .error failure (world.move position world.reader) := by
  induction bytesLeft with
  | zero =>
      intro i buffer world filling onWire left short
      obtain ⟨failure, ran⟩ := readLoop_ended client calm 0 i buffer world filling (by omega)
      exact ⟨failure, world.position, ran⟩
  | succ bytesLeft ih =>
      intro i buffer world filling onWire left short
      by_cases more : world.position < client.wire.length
      · obtain ⟨count, positive, fits, onWire', turn⟩ :=
          readLoop_turn client calm bytesLeft i buffer world filling more
        obtain ⟨failure, position, ran⟩ := ih (i + count)
          (buffer.overwrite i ((client.wire.drop world.position).take count))
          (world.move (world.position + count) world.reader) (by omega) (by simp; omega)
          (by simp; omega) (by simp; omega)
        exact ⟨failure, position, turn.trans ran⟩
      · obtain ⟨failure, ran⟩ :=
          readLoop_ended client calm (bytesLeft + 1) i buffer world filling (by omega)
        exact ⟨failure, world.position, ran⟩

theorem read_run (size : Nat) (world : World)
    (enough : world.position + size ≤ client.wire.length) :
    ∃ filled : Bytes size,
      (read client size).run world =
        .ok filled (world.move (world.position + size) world.reader) ∧
      filled.toList = (client.wire.drop world.position).take size := by
  obtain ⟨filled, looped⟩ := readLoop_run client calm (client.wire.length - world.position) 0
    (List.Vector.replicate size 0) world (by omega) (by omega) (by omega)
  have ran : (read client size).run world =
      .ok filled (world.move (world.position + size) world.reader) := by
    rw [read, run_get_bind, run_bind_ok looped,
      run_bind_ok (throwIfCancellationRequested_run client calm _)]
    rfl
  exact ⟨filled, ran, (read_ok client ran).2⟩

theorem read_short (size : Nat) (world : World) (onWire : world.position ≤ client.wire.length)
    (short : client.wire.length < world.position + size) :
    ∃ failure position,
      (read client size).run world = .error failure (world.move position world.reader) := by
  obtain ⟨failure, position, ran⟩ := readLoop_short client calm
    (client.wire.length - world.position) 0 (List.Vector.replicate size 0) world (by omega) onWire
    (by omega) (by omega)
  refine ⟨failure, position, ?_⟩
  rw [read, run_get_bind, run_bind_error ran]

theorem readAsync_run (requested : Nat) (world : World)
    (more : world.position < client.wire.length) :
    (readAsync client requested).run world =
      .ok ((client.wire.drop world.position).take (client.served world.position requested))
        (world.move (world.position + client.served world.position requested) world.reader) := by
  unfold readAsync
  rw [run_bind_ok (throwIfCancellationRequested_run client calm world),
    run_get_bind, if_pos more, take_run]

end PipeStream
end Calm
end Wsac.Service
