import Wsac.Service.Pieces
import Wsac.Service.Reads

/-! # Charged reads

Budgets are written as integers: `holding` is a root reader whose `Available` is
that integer modulo `2 ^ 64`.  Every read below says what it takes off the wire
and what it charges, to the child and to the root alike. -/

set_option autoImplicit false

namespace Wsac.Service

open Library Library.Exec

theorem ofInt_neg_iff {value : Int} (below : -2 ^ 63 ≤ value) (above : value < 2 ^ 63) :
    Int64.ofInt value < 0 ↔ value < 0 := by
  rw [Int64.lt_iff_toInt_lt, Int64.toInt_ofInt_of_le below above]
  rfl

theorem ofInt_sub_size (value : Int) (size : Int64) :
    Int64.ofInt value - size = Int64.ofInt (value - size.toInt) := by
  rw [Int64.ofInt_sub, Int64.ofInt_toInt]

namespace PipeReader

def holding (budget : Int) : PipeReader := .root (Int64.ofInt budget)

/-- The body reader of a frame, with so many bytes of the body left. -/
def lending (left budget : Int) : PipeReader := .child (Int64.ofInt left) (holding budget)

theorem new_eq_holding : new = holding (2 ^ 63 - 1) := by decide

theorem new_limited : (2 ^ 63 - 1 : Int) ≤ 2 ^ 63 := by decide

theorem charge_holding (world : World) (budget : Int) (size : Int64)
    (holds : world.reader = holding budget) (within : size.toInt ≤ budget)
    (bounded : budget - size.toInt < 2 ^ 63) :
    (charge size).run world =
      .ok () (world.move world.position (holding (budget - size.toInt))) := by
  have nonneg : ¬ Int64.ofInt (budget - size.toInt) < 0 := by
    rw [ofInt_neg_iff (by omega) bounded]
    omega
  rw [charge, run_get_bind, holds]
  simp only [holding, shrinkAvailable, ofInt_sub_size, nonneg, not_false_eq_true, decide_true]
  rfl

/-- The charge stays even though it is refused. -/
theorem charge_holding_refused (world : World) (budget : Int) (size : Int64)
    (holds : world.reader = holding budget) (beyond : budget < size.toInt)
    (bounded : -2 ^ 63 ≤ budget - size.toInt) :
    (charge size).run world =
      .error .application (world.move world.position (holding (budget - size.toInt))) := by
  have negative : Int64.ofInt (budget - size.toInt) < 0 := by
    rw [ofInt_neg_iff bounded (by omega)]
    omega
  rw [charge, run_get_bind, holds]
  simp only [holding, shrinkAvailable, ofInt_sub_size, negative, not_true_eq_false, decide_false]
  rfl

theorem charge_lending (world : World) (left budget : Int) (size : Int64)
    (lends : world.reader = lending left budget) (within : size.toInt ≤ left)
    (positive : 0 ≤ size.toInt) (covered : left ≤ budget) (bounded : budget < 2 ^ 63) :
    (charge size).run world = .ok () (world.move world.position
      (lending (left - size.toInt) (budget - size.toInt))) := by
  have rootNonneg : ¬ Int64.ofInt (budget - size.toInt) < 0 := by
    rw [ofInt_neg_iff (by omega) (by omega)]
    omega
  have childNonneg : ¬ Int64.ofInt (left - size.toInt) < 0 := by
    rw [ofInt_neg_iff (by omega) (by omega)]
    omega
  rw [charge, run_get_bind, lends]
  simp only [lending, holding, shrinkAvailable, ofInt_sub_size, rootNonneg, childNonneg,
    not_false_eq_true, decide_true]
  rfl

theorem createChild_run (world : World) (budget : Int) (size : Int64)
    (holds : world.reader = holding budget) (within : size.toInt ≤ budget)
    (bounded : budget < 2 ^ 63) :
    (createChild size).run world =
      .ok () (world.move world.position (lending size.toInt budget)) := by
  have lower := size.le_toInt
  have covered : ¬ (holding budget).available < size := by
    show ¬ Int64.ofInt budget < size
    rw [Int64.lt_iff_toInt_lt, Int64.toInt_ofInt_of_le (by omega) bounded]
    omega
  rw [createChild, run_get_bind, holds, if_neg covered, lending, Int64.ofInt_toInt]
  rfl

theorem createChild_refused (world : World) (budget : Int) (size : Int64)
    (holds : world.reader = holding budget) (beyond : budget < size.toInt)
    (bounded : -2 ^ 63 ≤ budget) :
    (createChild size).run world = .error .argumentOutOfRange world := by
  have upper := size.toInt_lt
  have short : (holding budget).available < size := by
    show Int64.ofInt budget < size
    rw [Int64.lt_iff_toInt_lt, Int64.toInt_ofInt_of_le bounded (by omega)]
    exact beyond
  rw [createChild, run_get_bind, holds, if_pos short]
  rfl

section Calm
variable (client : Client) (calm : client.cancelAt = none)
include calm

/-- A read of `size` bytes by the thread's own reader. -/
theorem read_run (size : Nat) (small : size < 2 ^ 63) (world : World) (budget : Int)
    (holds : world.reader = holding budget) (within : (size : Int) ≤ budget)
    (bounded : budget - size < 2 ^ 63)
    (enough : world.position + size ≤ client.wire.length) :
    ∃ filled : Bytes size,
      (read client size).run world =
        .ok filled (world.move (world.position + size) (holding (budget - size))) ∧
      filled.toList = (client.wire.drop world.position).take size := by
  have exact : (Int64.ofNat size).toInt = size := Int64.toInt_ofNat_of_lt small
  obtain ⟨filled, ran, content⟩ := PipeStream.read_run client calm size
    (world.move world.position (holding (budget - size))) enough
  refine ⟨filled, ?_, content⟩
  unfold read
  rw [run_bind_ok (charge_holding world budget (Int64.ofNat size) holds (by omega) (by omega)),
    exact, ran]
  rfl

/-- A read that fails for want of bytes or of budget leaves the log alone. -/
theorem read_short (size : Nat) (small : size < 2 ^ 63) (world : World) (budget : Int)
    (holds : world.reader = holding budget) (lowest : -2 ^ 63 ≤ budget - size)
    (bounded : budget - size < 2 ^ 63) (onWire : world.position ≤ client.wire.length)
    (short : budget < size ∨ client.wire.length < world.position + size) :
    ∃ failure position reader,
      (read client size).run world = .error failure (world.move position reader) := by
  have exact : (Int64.ofNat size).toInt = size := Int64.toInt_ofNat_of_lt small
  unfold read
  by_cases within : (size : Int) ≤ budget
  · obtain ⟨failure, position, ran⟩ := PipeStream.read_short client calm size
      (world.move world.position (holding (budget - size))) onWire (by
        rcases short with poor | ended
        · omega
        · exact ended)
    refine ⟨failure, position, holding (budget - size), ?_⟩
    rw [run_bind_ok (charge_holding world budget (Int64.ofNat size) holds (by omega) (by omega)),
      exact, ran]
    rfl
  · exact ⟨.application, world.position, _, run_bind_error
      (charge_holding_refused world budget (Int64.ofNat size) holds (by omega) (by omega))⟩

omit calm in
theorem readAsyncLoop_done (size : Int64) (buffer bytesLeft : Nat) (i : Int64)
    (stream : List UInt8) (world : World) (full : size.toInt ≤ i.toInt) :
    (readAsyncLoop client size buffer bytesLeft i stream).run world =
      .ok stream (world.move world.position world.reader) := by
  have finished : ¬ i < size := by
    rw [Int64.lt_iff_toInt_lt]
    omega
  unfold readAsyncLoop
  rw [if_neg finished]
  rfl

theorem readAsyncLoop_turn (size : Int64) (buffer : Nat) (room : 0 < buffer) (bytesLeft : Nat)
    (i : Int64) (stream : List UInt8) (world : World) (unfinished : i.toInt < size.toInt)
    (more : world.position < client.wire.length) :
    (readAsyncLoop client size buffer (bytesLeft + 1) i stream).run world =
      (readAsyncLoop client size buffer bytesLeft
        (i + Int64.ofNat (client.served world.position buffer))
        (stream ++ (client.wire.drop world.position).take
          (client.served world.position buffer))).run
        (world.move (world.position + client.served world.position buffer) world.reader) := by
  have positive := client.served_pos world.position buffer more room
  rw [readAsyncLoop, if_pos (Int64.lt_iff_toInt_lt.mpr unfinished),
    run_bind_ok (cancellationRequested_run client calm world)]
  simp only [Bool.false_eq_true, if_false]
  rw [run_bind_ok (PipeStream.readAsync_run client calm buffer world (by omega)),
    if_neg (by rw [take_length]; omega)]
  simp only [take_length]

/-- With the bytes on the wire, the loop of `ReadAsyncInternal` goes on to their end at
least. -/
theorem readAsyncLoop_run (size : Int64) (buffer : Nat) (room : 0 < buffer) (bytesLeft : Nat) :
    ∀ (i : Int64) (stream : List UInt8) (world : World) (stop : Nat),
      0 ≤ i.toInt → world.position ≤ stop → stop ≤ client.wire.length →
      client.wire.length - world.position ≤ bytesLeft →
      i.toInt + (stop - world.position : Nat) = size.toInt →
      (world.position < stop →
        i.toInt + (client.wire.length - world.position : Nat) < 2 ^ 63) →
      ∃ (last : Nat) (rest : List UInt8),
        (readAsyncLoop client size buffer bytesLeft i stream).run world =
          .ok rest (world.move last world.reader) ∧
        stop ≤ last ∧ last ≤ client.wire.length := by
  induction bytesLeft with
  | zero =>
      intro i stream world stop nonneg before inside left exact bounded
      exact ⟨world.position, stream, readAsyncLoop_done client size buffer 0 i stream world
        (by omega), by omega, by omega⟩
  | succ bytesLeft ih =>
      intro i stream world stop nonneg before inside left exact bounded
      by_cases more : world.position < stop
      · have room' := bounded more
        have bound := client.served_le world.position buffer
        have positive := client.served_pos world.position buffer (by omega) room
        have counted : (Int64.ofNat (client.served world.position buffer)).toInt =
            client.served world.position buffer := Int64.toInt_ofNat_of_lt (by omega)
        have advanced : (i + Int64.ofNat (client.served world.position buffer)).toInt =
            i.toInt + client.served world.position buffer := by
          rw [Int64.toInt_add, counted]
          apply Int.bmod_eq_of_le <;> omega
        rw [readAsyncLoop_turn client calm size buffer room bytesLeft i stream world (by omega)
          (by omega)]
        by_cases crossed : stop ≤ world.position + client.served world.position buffer
        · exact ⟨world.position + client.served world.position buffer, _,
            readAsyncLoop_done client _ _ _ _ _ _ (by omega), crossed, by omega⟩
        · refine ih _ _ (world.move (world.position + client.served world.position buffer)
            world.reader) stop ?_ ?_ inside ?_ ?_ ?_ <;> simp only [move_position, advanced] <;>
            omega
      · exact ⟨world.position, stream, readAsyncLoop_done client size buffer _ i stream world
          (by omega), by omega, by omega⟩

/-- It goes on to the first piece boundary that is not before that end. -/
theorem readAsyncInternal_run (size : Int64) (nonneg : 0 ≤ size.toInt) (world : World) (stop : Nat)
    (exact : (stop : Int) = world.position + size.toInt) (inside : stop ≤ client.wire.length)
    (short : 0 < size.toInt → client.wire.length - world.position < 2 ^ 63) :
    ∃ (last : Nat) (rest : List UInt8),
      (readAsyncInternal client size).run world = .ok rest (world.move last world.reader) ∧
      stop ≤ last ∧ last ≤ client.wire.length ∧
      (last = stop ↔ Pieces client (client.rented world.position) world.position stop) := by
  have room := client.rented_ge world.position
  obtain ⟨last, rest, looped, beyond, onWire⟩ := readAsyncLoop_run client calm size
    (client.rented world.position) (by omega) (client.wire.length - world.position) 0 [] world stop
    (by decide) (by omega) inside (Nat.le_refl _) (by rw [Int64.toInt_zero]; omega)
    (by
      intro more
      have bound := short (by omega)
      rw [Int64.toInt_zero]
      omega)
  have ran : (readAsyncInternal client size).run world =
      .ok rest (world.move last world.reader) := by
    rw [readAsyncInternal, run_get_bind, run_bind_ok looped,
      run_bind_ok (throwIfCancellationRequested_run client calm _)]
    rfl
  obtain ⟨taken, asked, moved, _, met⟩ := readAsyncInternal_ok client nonneg ran
  have place : last = world.position + taken := congrArg World.position moved
  have there : world.position + size.toInt.toNat = stop := by omega
  rw [there] at met
  refine ⟨last, rest, ran, beyond, onWire, ?_⟩
  rw [← met]
  omega

/-- `SkipAsync` on the body reader of a frame whose bytes are all on the wire. -/
theorem skipAsync_run (size : Int64) (world : World) (left budget : Int)
    (lends : world.reader = lending left budget) (positive : 0 ≤ size.toInt)
    (within : size.toInt ≤ left) (covered : left ≤ budget)
    (bounded : budget < 2 ^ 63)
    (short : 0 < size.toInt → client.wire.length - world.position < 2 ^ 63) (stop : Nat)
    (exact : (stop : Int) = world.position + size.toInt) (inside : stop ≤ client.wire.length) :
    ∃ last : Nat,
      (skipAsync client size).run world = .ok () (world.move last
        (lending (left - size.toInt) (budget - size.toInt))) ∧
      stop ≤ last ∧ last ≤ client.wire.length ∧
      (last = stop ↔ Pieces client (client.rented world.position) world.position stop) := by
  obtain ⟨last, rest, ran, lands⟩ := readAsyncInternal_run client calm size positive
    (world.move world.position (lending (left - size.toInt) (budget - size.toInt))) stop exact
    inside short
  refine ⟨last, ?_, lands⟩
  unfold skipAsync
  rw [run_bind_ok (charge_lending world left budget size lends within positive covered bounded),
    run_bind_ok ran]
  rfl

end Calm
end PipeReader
end Wsac.Service
