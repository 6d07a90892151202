import Wsac.Dll.Stops

/-! # Reads of a worker that nobody stops

With no stop requested, `Read` completes if as many bytes as the buffer holds are on
the wire, whatever the pieces `ReadFile` returns, and fails when the wire ends first. -/

set_option autoImplicit false

namespace Wsac.Dll

open Library Library.Exec

/-- What becomes of a read behind the last byte that nobody stops. -/
def Pipe.afterEnd (pipe : Pipe) : Exit :=
  match pipe.ending with
  | .silent => .spinning
  | .broken _ => .pipeReadException

section Quiet
variable (pipe : Pipe) (quiet : pipe.stopAt = none)
include quiet

theorem stopRequested_run (world : World) :
    (stopRequested pipe).run world = .ok false (world.seek world.position (world.asked + 1)) := by
  have never : pipe.stopped world.asked = false := by simp [Pipe.stopped, quiet]
  simp only [stopRequested, EStateM.run_modifyGet, never]
  rfl

namespace PipeReader

theorem poll_run (outcome : Worker Unit) (fruitless : Nat) : ∀ world : World,
    (poll pipe outcome fruitless).run world =
      outcome.run (world.seek world.position (world.asked + fruitless)) := by
  induction fruitless with
  | zero => intro world; rfl
  | succ fruitless ih =>
      intro world
      rw [poll, run_bind_ok (stopRequested_run pipe quiet world)]
      simp only [Bool.false_eq_true, if_false, ih, seek_position, seek_asked, seek_seek]
      congr 2
      omega

theorem waitForBytes_run (world : World) (more : world.position < pipe.wire.length) :
    ∃ asked, (waitForBytes pipe).run world = .ok () (world.seek world.position asked) := by
  refine ⟨world.asked + pipe.idle world.position, ?_⟩
  rw [waitForBytes, run_get_bind, if_pos more, poll_run pipe quiet]
  rfl

theorem waitForBytes_end (world : World) (ended : pipe.wire.length ≤ world.position) :
    ∃ asked,
      (waitForBytes pipe).run world = .error pipe.afterEnd (world.seek world.position asked) := by
  unfold waitForBytes Pipe.afterEnd
  rw [run_get_bind, if_neg (by omega)]
  cases pipe.ending with
  | broken polls =>
      refine ⟨world.asked + polls, ?_⟩
      rw [poll_run pipe quiet]
      rfl
  | silent =>
      refine ⟨world.asked, ?_⟩
      simp only [quiet]
      rfl

omit quiet in
theorem readLoop_full {size : Nat} (bytesLeft : Nat) (v : Bytes size) (world : World) :
    (readLoop pipe bytesLeft size v).run world = .ok v world := by
  unfold readLoop
  rw [if_neg (Nat.lt_irrefl size)]
  rfl

theorem readLoop_ended {size : Nat} (bytesLeft i : Nat) (v : Bytes size) (world : World)
    (filling : i < size) (ended : pipe.wire.length ≤ world.position) :
    ∃ asked, (readLoop pipe bytesLeft i v).run world =
      .error pipe.afterEnd (world.seek world.position asked) := by
  obtain ⟨asked, waited⟩ := waitForBytes_end pipe quiet
    (world.seek world.position (world.asked + 1)) ended
  refine ⟨asked, ?_⟩
  unfold readLoop
  rw [if_pos filling, run_bind_ok (stopRequested_run pipe quiet world)]
  simp only [Bool.false_eq_true, if_false]
  rw [run_bind_error waited]
  rfl

/-- A turn while bytes are left on the wire: one `ReadFile`, whose empty answer is an error. -/
theorem readTurn_more {size : Nat} (i : Nat) (v : Bytes size)
    (next : List UInt8 → Worker (Bytes size)) (world : World) (filling : i < size)
    (more : world.position < pipe.wire.length) :
    ∃ asked, (readTurn pipe i v next).run world =
      (if pipe.served world.position ((size - i) % 2 ^ 32) = 0 then
          throw .pipeReadException
        else
          next ((pipe.wire.drop world.position).take
            (pipe.served world.position ((size - i) % 2 ^ 32)))).run
        (world.seek (world.position + pipe.served world.position ((size - i) % 2 ^ 32))
          asked) := by
  obtain ⟨asked, waited⟩ := waitForBytes_run pipe quiet
    (world.seek world.position (world.asked + 1)) more
  have read := readFile_run pipe ((size - i) % 2 ^ 32) (world.seek world.position (asked + 1))
  refine ⟨asked + 1, ?_⟩
  simp only [seek_position, seek_asked, seek_seek] at read waited
  rw [readTurn, if_pos filling, run_bind_ok (stopRequested_run pipe quiet world)]
  simp only [Bool.false_eq_true, if_false]
  rw [run_bind_ok waited, run_bind_ok (stopRequested_run pipe quiet _)]
  simp only [Bool.false_eq_true, if_false, seek_position, seek_asked, seek_seek]
  rw [run_bind_ok read, piece_length]

/-- A turn of the loop that asks for some bytes while bytes are left on the wire. -/
theorem readLoop_piece {size : Nat} (bytesLeft i : Nat) (v : Bytes size) (world : World)
    (filling : i < size) (more : world.position < pipe.wire.length) {request : Nat}
    (asks : (size - i) % 2 ^ 32 = request) (some_ : 0 < request) (inside : i + request < 2 ^ 32) :
    ∃ count asked, 0 < count ∧ count ≤ request ∧ world.position + count ≤ pipe.wire.length ∧
      (readLoop pipe (bytesLeft + 1) i v).run world =
        (readLoop pipe bytesLeft (i + count)
          (v.overwrite i ((pipe.wire.drop world.position).take count))).run
            (world.seek (world.position + count) asked) := by
  have bound := pipe.served_le world.position request
  have positive := pipe.served_pos world.position request more some_
  obtain ⟨asked, turn⟩ := readTurn_more pipe quiet i v (fun chunk =>
    readLoop pipe bytesLeft ((i + chunk.length) % 2 ^ 32) (v.overwrite i chunk)) world filling more
  rw [asks, if_neg (by omega), piece_length, Nat.mod_eq_of_lt (by omega)] at turn
  refine ⟨pipe.served world.position request, asked, positive, by omega, by omega, ?_⟩
  rw [readLoop_succ, turn]

theorem readLoop_turn {size : Nat} (small : size < 2 ^ 32) (bytesLeft i : Nat) (v : Bytes size)
    (world : World) (filling : i < size) (more : world.position < pipe.wire.length) :
    ∃ count asked, 0 < count ∧ i + count ≤ size ∧
      world.position + count ≤ pipe.wire.length ∧
      (readLoop pipe (bytesLeft + 1) i v).run world =
        (readLoop pipe bytesLeft (i + count)
          (v.overwrite i ((pipe.wire.drop world.position).take count))).run
            (world.seek (world.position + count) asked) := by
  obtain ⟨count, asked, positive, fits, onWire, turn⟩ := readLoop_piece pipe quiet bytesLeft i v
    world filling more (Nat.mod_eq_of_lt (by omega)) (by omega) (by omega)
  exact ⟨count, asked, positive, by omega, onWire, turn⟩

theorem readLoop_run {size : Nat} (small : size < 2 ^ 32) (bytesLeft : Nat) :
    ∀ (i : Nat) (v : Bytes size) (world : World), i ≤ size →
      pipe.wire.length - world.position ≤ bytesLeft →
      world.position + (size - i) ≤ pipe.wire.length →
      ∃ filled asked, (readLoop pipe bytesLeft i v).run world =
        .ok filled (world.seek (world.position + (size - i)) asked) := by
  induction bytesLeft with
  | zero =>
      intro i v world inside left enough
      have full : i = size := by omega
      subst full
      refine ⟨v, world.asked, ?_⟩
      rw [readLoop_full pipe, Nat.sub_self]
      rfl
  | succ bytesLeft ih =>
      intro i v world inside left enough
      by_cases filling : i < size
      · obtain ⟨count, asked, positive, fits, onWire, turn⟩ :=
          readLoop_turn pipe quiet small bytesLeft i v world filling (by omega)
        obtain ⟨filled, asked', ran⟩ := ih (i + count)
          (v.overwrite i ((pipe.wire.drop world.position).take count))
          (world.seek (world.position + count) asked) fits (by simp; omega) (by simp; omega)
        have there : world.position + count + (size - (i + count)) =
            world.position + (size - i) := by omega
        refine ⟨filled, asked', ?_⟩
        rw [turn, ran, seek_position, seek_seek, there]
      · have full : i = size := by omega
        subst full
        refine ⟨v, world.asked, ?_⟩
        rw [readLoop_full pipe, Nat.sub_self]
        rfl

theorem readLoop_short {size : Nat} (small : size < 2 ^ 32) (bytesLeft : Nat) :
    ∀ (i : Nat) (v : Bytes size) (world : World), i < size →
      world.position ≤ pipe.wire.length →
      pipe.wire.length - world.position ≤ bytesLeft →
      pipe.wire.length < world.position + (size - i) →
      ∃ asked, (readLoop pipe bytesLeft i v).run world =
        .error pipe.afterEnd (world.seek pipe.wire.length asked) := by
  have ended : ∀ (bytesLeft i : Nat) (v : Bytes size) (world : World), i < size →
      world.position = pipe.wire.length → ∃ asked, (readLoop pipe bytesLeft i v).run world =
        .error pipe.afterEnd (world.seek pipe.wire.length asked) := by
    intro bytesLeft i v world filling atEnd
    obtain ⟨asked, ran⟩ := readLoop_ended pipe quiet bytesLeft i v world filling (by omega)
    exact ⟨asked, by rw [ran, atEnd]⟩
  induction bytesLeft with
  | zero =>
      intro i v world filling onWire left short
      exact ended 0 i v world filling (by omega)
  | succ bytesLeft ih =>
      intro i v world filling onWire left short
      by_cases more : world.position < pipe.wire.length
      · obtain ⟨count, asked, positive, fits, onWire', turn⟩ :=
          readLoop_turn pipe quiet small bytesLeft i v world filling more
        obtain ⟨asked', ran⟩ := ih (i + count)
          (v.overwrite i ((pipe.wire.drop world.position).take count))
          (world.seek (world.position + count) asked) (by omega) (by simp; omega)
          (by simp; omega) (by simp; omega)
        exact ⟨asked', turn.trans ran⟩
      · exact ended (bytesLeft + 1) i v world filling (by omega)

/-- `Read` with enough bytes on the wire: the buffer is the next `size` bytes. -/
theorem read_run {size : Nat} (small : size < 2 ^ 32) (v : Bytes size) (world : World)
    (enough : world.position + size ≤ pipe.wire.length) :
    ∃ (filled : Bytes size) (asked : Nat),
      (read pipe v).run world = .ok filled (world.seek (world.position + size) asked) ∧
      filled.toList = (pipe.wire.drop world.position).take size := by
  obtain ⟨filled, asked, looped⟩ := readLoop_run pipe quiet small
    (pipe.wire.length - world.position) 0 v world (by omega) (by omega) (by omega)
  have ran : (read pipe v).run world =
      .ok filled (world.seek (world.position + size) (asked + 1)) := by
    rw [read, run_get_bind, run_bind_ok looped,
      run_bind_ok (stopRequested_run pipe quiet _)]
    simp only [Bool.false_eq_true, if_false]
    rfl
  exact ⟨filled, asked + 1, ran, (read_ok pipe ran).2.2⟩

/-- `Read` when the wire ends inside the buffer. -/
theorem read_short {size : Nat} (small : size < 2 ^ 32) (v : Bytes size) (world : World)
    (onWire : world.position ≤ pipe.wire.length)
    (short : pipe.wire.length < world.position + size) :
    ∃ asked, (read pipe v).run world =
      .error pipe.afterEnd (world.seek pipe.wire.length asked) := by
  obtain ⟨asked, ran⟩ := readLoop_short pipe quiet small
    (pipe.wire.length - world.position) 0 v world (by omega) onWire (by omega) (by omega)
  refine ⟨asked, ?_⟩
  rw [read, run_get_bind, run_bind_error ran]

end PipeReader
end Quiet

end Wsac.Dll
