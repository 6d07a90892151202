import Wsac.Service.Stops

/-! # What the loop of `ReadAsyncInternal` takes off the pipe

The loop asks for a whole rented buffer every time, whatever is left of `size`, so
it stops at the first boundary between two pieces at or behind the end: `Pieces`
says when that is the end itself.  The token may be cancelled at any question. -/

set_option autoImplicit false

namespace Wsac.Service

open Library Library.Exec

/-- Reads of `requested` bytes that start at the first offset meet the second one. -/
inductive Pieces (client : Client) (requested : Nat) : Nat → Nat → Prop where
  | done (stop : Nat) : Pieces client requested stop stop
  | piece (position stop : Nat) (before : position < stop)
      (rest : Pieces client requested (position + client.served position requested) stop) :
      Pieces client requested position stop

theorem Pieces.le {client : Client} {requested position stop : Nat}
    (pieces : Pieces client requested position stop) : position ≤ stop := by
  cases pieces with
  | done => exact Nat.le_refl _
  | piece _ _ before _ => exact Nat.le_of_lt before

theorem pieces_iff {client : Client} {requested position stop : Nat} (before : position < stop) :
    Pieces client requested position stop ↔
      Pieces client requested (position + client.served position requested) stop := by
  constructor
  · intro pieces
    cases pieces with
    | done => exact absurd before (Nat.lt_irrefl _)
    | piece _ _ _ rest => exact rest
  · exact Pieces.piece position stop before

namespace PipeReader
section
variable (client : Client)

/-- One read of the pipe: nothing, an exception, or the next piece. -/
theorem readAsync_outcome (requested : Nat) (world : World) :
    ∃ asked, (PipeStream.readAsync client requested).run world =
        .ok [] (world.seek world.position asked world.reader) ∨
      (∃ failure after, (PipeStream.readAsync client requested).run world =
        .error failure after) ∨
      (PipeStream.readAsync client requested).run world =
        .ok ((client.wire.drop world.position).take (client.served world.position requested))
          (world.seek (world.position + client.served world.position requested) asked
            world.reader) := by
  unfold PipeStream.readAsync
  cases checked : (throwIfCancellationRequested client).run world with
  | error failure after =>
      rw [run_bind_error checked]
      exact ⟨world.asked, Or.inr (Or.inl ⟨failure, after, rfl⟩)⟩
  | ok _ middle =>
      obtain ⟨_, asked, middleIs⟩ := throwIfCancellationRequested_ok client checked
      refine ⟨asked, ?_⟩
      subst middleIs
      rw [run_bind_ok checked, run_get_bind]
      split
      · exact Or.inr (Or.inr (take_eq client requested _))
      · cases client.ending with
        | closed => exact Or.inl rfl
        | failing => exact Or.inr (Or.inl ⟨_, _, rfl⟩)
        | silent => exact Or.inr (Or.inl ⟨_, _, rfl⟩)

/-- A turn that does not throw leaves the loop where it is, or hands a piece on. -/
theorem readAsyncTurn_run (size : Int64) (buffer : Nat) (i : Int64) (stream : List UInt8)
    (next : List UInt8 → Worker (List UInt8)) (world : World) :
    (∃ asked, (¬ i < size ∨ client.cancelled asked = true) ∧
      (readAsyncTurn client size buffer i stream next).run world =
        .ok stream (world.seek world.position asked world.reader)) ∨
    (∃ failure after,
      (readAsyncTurn client size buffer i stream next).run world = .error failure after) ∨
    ∃ asked, i < size ∧ (readAsyncTurn client size buffer i stream next).run world =
      (next ((client.wire.drop world.position).take
        (client.served world.position buffer))).run
          (world.seek (world.position + client.served world.position buffer) asked
            world.reader) := by
  unfold readAsyncTurn
  by_cases unfinished : i < size
  · rw [if_pos unfinished]
    obtain ⟨asked, later, question⟩ := cancellationRequested_eq client world
    rw [run_bind_ok question]
    by_cases early : client.cancelled world.asked = true
    · rw [if_pos early]
      exact Or.inl ⟨asked, Or.inr (client.cancelled_mono later early), rfl⟩
    · rw [if_neg early]
      obtain ⟨last, empty | ⟨failure, after, failed⟩ | piece⟩ :=
        readAsync_outcome client buffer (world.seek world.position asked world.reader)
      · rw [run_bind_ok empty]
        exact Or.inr (Or.inl ⟨_, _, rfl⟩)
      · rw [run_bind_error failed]
        exact Or.inr (Or.inl ⟨_, _, rfl⟩)
      · rw [run_bind_ok piece]
        split
        · exact Or.inr (Or.inl ⟨_, _, rfl⟩)
        · exact Or.inr (Or.inr ⟨_, unfinished, rfl⟩)
  · rw [if_neg unfinished]
    exact Or.inl ⟨world.asked, Or.inl unfinished, rfl⟩

/-- What the loop hands on is what it has taken off the wire. -/
theorem readAsyncLoop_stream (size : Int64) (buffer bytesLeft : Nat) :
    ∀ (i : Int64) (stream filled : List UInt8) (world after : World),
      (readAsyncLoop client size buffer bytesLeft i stream).run world = .ok filled after →
      ∃ taken asked, after = world.seek (world.position + taken) asked world.reader ∧
        filled = stream ++ (client.wire.drop world.position).take taken := by
  induction bytesLeft with
  | zero =>
      intro i stream filled world after ran
      rw [readAsyncLoop_zero] at ran
      rcases readAsyncTurn_run client size buffer i stream _ world with
        ⟨asked, _, left⟩ | ⟨_, _, left⟩ | ⟨_, _, onward⟩
      · cases left.symm.trans ran
        exact ⟨0, asked, rfl, by simp⟩
      · cases left.symm.trans ran
      · cases onward.symm.trans ran
  | succ bytesLeft ih =>
      intro i stream filled world after ran
      rw [readAsyncLoop_succ] at ran
      rcases readAsyncTurn_run client size buffer i stream _ world with
        ⟨asked, _, left⟩ | ⟨_, _, left⟩ | ⟨_, _, onward⟩
      · cases left.symm.trans ran
        exact ⟨0, asked, rfl, by simp⟩
      · cases left.symm.trans ran
      · obtain ⟨taken, asked, moved, content⟩ := ih _ _ _ _ _ (onward.symm.trans ran)
        refine ⟨client.served world.position buffer + taken, asked, ?_, ?_⟩
        · rw [moved, ← Nat.add_assoc]
          rfl
        · rw [content, List.append_assoc, List.take_add, List.drop_drop]
          rfl

/-- The loop ends at `stop` if a piece ends there.  A piece that crosses `stop` has
taken too much, even where it makes the counter wrap. -/
theorem readAsyncLoop_pieces (size : Int64) (buffer bytesLeft stop : Nat) :
    ∀ (i : Int64) (stream filled : List UInt8) (world after : World),
      (readAsyncLoop client size buffer bytesLeft i stream).run world = .ok filled after →
      client.cancelled after.asked = false → world.position ≤ stop → 0 ≤ i.toInt →
      i.toInt + (stop - world.position : Nat) = size.toInt →
      (after.position = stop ↔ Pieces client buffer world.position stop) := by
  have finished : ∀ (i : Int64) (world : World), ¬ i < size → world.position ≤ stop →
      i.toInt + (stop - world.position : Nat) = size.toInt →
      (world.position = stop ↔ Pieces client buffer world.position stop) := by
    intro i world full inside count
    rw [Int64.lt_iff_toInt_lt] at full
    have there : world.position = stop := by omega
    rw [there]
    exact iff_of_true rfl (Pieces.done stop)
  induction bytesLeft with
  | zero =>
      intro i stream filled world after ran calm inside nonneg count
      rw [readAsyncLoop_zero] at ran
      rcases readAsyncTurn_run client size buffer i stream _ world with
        ⟨asked, full | stopped, left⟩ | ⟨_, _, left⟩ | ⟨_, _, onward⟩
      · cases left.symm.trans ran
        exact finished i world full inside count
      · cases left.symm.trans ran
        exact absurd (stopped.symm.trans calm) (by simp)
      · cases left.symm.trans ran
      · cases onward.symm.trans ran
  | succ bytesLeft ih =>
      intro i stream filled world after ran calm inside nonneg count
      rw [readAsyncLoop_succ] at ran
      rcases readAsyncTurn_run client size buffer i stream _ world with
        ⟨asked, full | stopped, left⟩ | ⟨_, _, left⟩ | ⟨asked, unfinished, onward⟩
      · cases left.symm.trans ran
        exact finished i world full inside count
      · cases left.symm.trans ran
        exact absurd (stopped.symm.trans calm) (by simp)
      · cases left.symm.trans ran
      · have rest := onward.symm.trans ran
        rw [Int64.lt_iff_toInt_lt] at unfinished
        have upper := size.toInt_lt
        rw [pieces_iff (by omega)]
        by_cases crossed : stop < world.position + client.served world.position buffer
        · obtain ⟨further, _, moved, _⟩ := readAsyncLoop_stream client _ _ _ _ _ _ _ _ rest
          have there := congrArg World.position moved
          simp only [World.seek] at there
          refine iff_of_false (by omega) fun pieces => ?_
          have le := pieces.le
          omega
        · have counted : (Int64.ofNat (client.served world.position buffer)).toInt =
              client.served world.position buffer := Int64.toInt_ofNat_of_lt (by omega)
          have advanced : (i + Int64.ofNat (client.served world.position buffer)).toInt =
              i.toInt + client.served world.position buffer := by
            rw [Int64.toInt_add, counted]
            apply Int.bmod_eq_of_le <;> omega
          rw [take_length] at rest
          refine ih _ _ _ _ _ rest calm ?_ ?_ ?_
          · show world.position + client.served world.position buffer ≤ stop
            omega
          · omega
          · show _ +
              ((stop - (world.position + client.served world.position buffer) : Nat) : Int) = _
            omega

theorem readAsyncInternal_ok {size : Int64} (nonneg : 0 ≤ size.toInt) {stream : List UInt8}
    {world after : World} (ran : (readAsyncInternal client size).run world = .ok stream after) :
    ∃ taken asked, after = world.seek (world.position + taken) asked world.reader ∧
      stream = (client.wire.drop world.position).take taken ∧
      ((taken : Int) = size.toInt ↔ Pieces client (client.rented world.position) world.position
        (world.position + size.toInt.toNat)) := by
  unfold readAsyncInternal at ran
  rw [run_get_bind] at ran
  obtain ⟨filled, middle, looped, ran⟩ := run_bind_eq_ok.mp ran
  obtain ⟨_, last, checked, done⟩ := run_bind_eq_ok.mp ran
  cases done
  obtain ⟨calm, asked, lastIs⟩ := throwIfCancellationRequested_ok client checked
  obtain ⟨taken, asked', moved, content⟩ := readAsyncLoop_stream client _ _ _ _ _ _ _ _ looped
  have pieces := readAsyncLoop_pieces client size _ _ (world.position + size.toInt.toNat) _ _ _ _ _
    looped calm (Nat.le_add_right _ _) (Int.le_refl 0) (by
      rw [Int64.toInt_zero]
      omega)
  refine ⟨taken, asked, ?_, content, ?_⟩
  · rw [lastIs, moved]
    rfl
  · rw [← pieces, moved]
    simp only [World.seek]
    omega

end
end PipeReader
end Wsac.Service
