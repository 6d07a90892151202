import Wsac.Dll.Pipe

/-! # Reads of a worker that may be stopped at any question

The stop token never takes an answer back, so a `Read` that returns was never
stopped: its buffer is the next bytes of the wire, however they came.  A `Read`
that throws has moved the cursor and done nothing else. -/

set_option autoImplicit false

namespace Wsac.Dll

open Library Library.Exec

/-- Only the cursor and the token have moved, both forward. -/
structure Seeks (before after : World) : Prop where
  same : after = before.seek after.position after.asked
  onward : before.position ≤ after.position
  later : before.asked ≤ after.asked

theorem Seeks.refl (world : World) : Seeks world world :=
  ⟨rfl, Nat.le_refl _, Nat.le_refl _⟩

theorem Seeks.trans (first second third : World) (left : Seeks first second)
    (right : Seeks second third) : Seeks first third := by
  refine ⟨?_, Nat.le_trans left.onward right.onward, Nat.le_trans left.later right.later⟩
  rw [right.same, left.same]
  rfl

theorem seek_seeks (world : World) {position asked : Nat} (onward : world.position ≤ position)
    (later : world.asked ≤ asked) : Seeks world (world.seek position asked) :=
  ⟨rfl, onward, later⟩

theorem Pipe.stopped_mono (pipe : Pipe) {first second : Nat} (le : first ≤ second)
    (stopped : pipe.stopped first = true) : pipe.stopped second = true := by
  unfold Pipe.stopped at stopped ⊢
  cases limit : pipe.stopAt with
  | none => rw [limit] at stopped; exact absurd stopped (by simp)
  | some limit' =>
      rw [limit] at stopped
      simp only [decide_eq_true_eq] at stopped ⊢
      omega

theorem Seeks.log {before after : World} (seeks : Seeks before after) : after.log = before.log := by
  rw [seeks.same]
  rfl

theorem stopRequested_eq (pipe : Pipe) (world : World) :
    (stopRequested pipe).run world =
      .ok (pipe.stopped world.asked) (world.seek world.position (world.asked + 1)) := rfl

/-- A program that only reads the wire, and indexes no array outside its bounds. -/
structure Reads {α : Type} (program : Worker α) : Prop where
  seeks : Moves Seeks program
  inside : ∀ world failure after, program.run world = .error failure after →
    failure ≠ .outOfBounds

namespace Reads
variable {α β : Type}

theorem pure (result : α) : Reads (Pure.pure result : Worker α) :=
  ⟨Moves.pure Seeks.refl result, fun _ _ _ failed => by cases failed⟩

theorem throw {failure : Exit} (inside : failure ≠ .outOfBounds) :
    Reads (MonadExcept.throw failure : Worker α) := by
  refine ⟨Moves.throw Seeks.refl failure, fun _ _ _ failed => ?_⟩
  cases failed
  exact inside

theorem get : Reads (MonadState.get : Worker World) :=
  ⟨Seeks.refl, fun _ _ _ failed => by cases failed⟩

theorem bind {program : Worker α} {rest : α → Worker β} (first : Reads program)
    (second : ∀ result, Reads (rest result)) : Reads (program >>= rest) := by
  refine ⟨Moves.bind Seeks.trans first.seeks fun result => (second result).seeks, ?_⟩
  intro world failure after failed
  rcases run_bind_eq_error.mp failed with failed | ⟨result, middle, _, failed⟩
  · exact first.inside world failure after failed
  · exact (second result).inside middle failure after failed

theorem ite {condition : Prop} [Decidable condition] {first second : Worker α}
    (left : Reads first) (right : Reads second) :
    Reads (if condition then first else second) := by
  split
  · exact left
  · exact right

end Reads

theorem stopRequested_reads (pipe : Pipe) : Reads (stopRequested pipe) := by
  refine ⟨fun world => seek_seeks world (Nat.le_refl _) (Nat.le_succ _), fun _ _ _ failed => ?_⟩
  rw [stopRequested_eq] at failed
  cases failed

namespace PipeReader
variable (pipe : Pipe)

theorem poll_reads {outcome : Worker Unit} (reads : Reads outcome) (fruitless : Nat) :
    Reads (poll pipe outcome fruitless) := by
  induction fruitless with
  | zero => exact reads
  | succ fruitless ih =>
      apply Reads.bind (stopRequested_reads pipe)
      intro stopped
      exact Reads.ite (Reads.pure _) ih

theorem waitForBytes_reads : Reads (waitForBytes pipe) := by
  apply Reads.bind Reads.get
  intro world
  apply Reads.ite (poll_reads pipe (Reads.pure _) _)
  cases pipe.ending with
  | broken polls => exact poll_reads pipe (Reads.throw (by decide)) _
  | silent =>
      cases pipe.stopAt with
      | none => exact Reads.throw (by decide)
      | some first =>
          refine ⟨fun world => seek_seeks world (Nat.le_refl _) (by omega), ?_⟩
          intro world failure after failed
          cases failed

/-- Polling leaves the cursor where it is. -/
theorem poll_position {outcome : Worker Unit}
    (still : ∀ world, (finalState (outcome.run world)).position = world.position)
    (fruitless : Nat) : ∀ world,
      (finalState ((poll pipe outcome fruitless).run world)).position = world.position := by
  induction fruitless with
  | zero => exact still
  | succ fruitless ih =>
      intro world
      rw [poll, run_bind_ok (stopRequested_eq pipe world)]
      split
      · rfl
      · exact ih _

theorem waitForBytes_position (world : World) :
    (finalState ((waitForBytes pipe).run world)).position = world.position := by
  rw [waitForBytes, run_get_bind]
  split
  · exact poll_position pipe (fun _ => rfl) _ world
  · cases pipe.ending with
    | broken polls => exact poll_position pipe (fun _ => rfl) _ world
    | silent =>
        cases pipe.stopAt with
        | none => rfl
        | some first => rfl

theorem waitForBytes_outcome (world : World) :
    ∃ asked, (waitForBytes pipe).run world = .ok () (world.seek world.position asked) ∨
      ∃ failure, (waitForBytes pipe).run world =
        .error failure (world.seek world.position asked) := by
  have moved := (waitForBytes_reads pipe).seeks world
  have still := waitForBytes_position pipe world
  cases waited : (waitForBytes pipe).run world with
  | ok _ middle =>
      rw [waited] at moved still
      refine ⟨middle.asked, Or.inl ?_⟩
      rw [← still]
      exact congrArg (EStateM.Result.ok ()) moved.same
  | error failure middle =>
      rw [waited] at moved still
      refine ⟨middle.asked, Or.inr ⟨failure, ?_⟩⟩
      rw [← still]
      exact congrArg (EStateM.Result.error failure) moved.same

/-- What comes back from the wire is as long as it is served. -/
theorem piece_length (position requested : Nat) :
    ((pipe.wire.drop position).take (pipe.served position requested)).length =
      pipe.served position requested := by
  have bound := pipe.served_le position requested
  rw [List.length_take, List.length_drop]
  omega

theorem readFile_run (requested : Nat) (world : World) :
    (readFile pipe requested).run world =
      .ok ((pipe.wire.drop world.position).take (pipe.served world.position requested))
        (world.seek (world.position + pipe.served world.position requested) world.asked) := by
  simp only [readFile, EStateM.run_modifyGet, piece_length]
  rfl

theorem readFile_reads (requested : Nat) : Reads (readFile pipe requested) :=
  ⟨fun world => seek_seeks world (Nat.le_add_right _ _) (Nat.le_refl _),
    fun _ _ _ failed => by cases failed⟩

/-- A turn of the loop of `Read`, with the rest of the loop as `next`. -/
def readTurn {size : Nat} (i : Nat) (v : Bytes size)
    (next : List UInt8 → Worker (Bytes size)) : Worker (Bytes size) :=
  if i < size then do
    if ← stopRequested pipe then pure v
    else
      waitForBytes pipe
      if ← stopRequested pipe then throw .stopTokenRequestedException
      else
        let chunk ← readFile pipe ((size - i) % 2 ^ 32)
        if chunk.length = 0 then throw .pipeReadException else next chunk
  else pure v

theorem readLoop_zero {size : Nat} (i : Nat) (v : Bytes size) :
    readLoop pipe 0 i v = readTurn pipe i v fun _ => throw .spinning := by
  rw [readLoop, readTurn]

theorem readLoop_succ {size : Nat} (bytesLeft i : Nat) (v : Bytes size) :
    readLoop pipe (bytesLeft + 1) i v = readTurn pipe i v fun chunk =>
      readLoop pipe bytesLeft ((i + chunk.length) % 2 ^ 32) (v.overwrite i chunk) := by
  rw [readLoop, readTurn]

theorem readTurn_reads {size : Nat} (i : Nat) (v : Bytes size)
    {next : List UInt8 → Worker (Bytes size)} (reads : ∀ chunk, Reads (next chunk)) :
    Reads (readTurn pipe i v next) := by
  unfold readTurn
  apply Reads.ite _ (Reads.pure _)
  apply Reads.bind (stopRequested_reads pipe)
  intro stopped
  apply Reads.ite (Reads.pure _)
  apply Reads.bind (waitForBytes_reads pipe)
  intro _
  apply Reads.bind (stopRequested_reads pipe)
  intro stopped
  apply Reads.ite (Reads.throw (by decide))
  apply Reads.bind (readFile_reads pipe _)
  intro chunk
  exact Reads.ite (Reads.throw (by decide)) (reads chunk)

theorem readLoop_reads {size : Nat} (bytesLeft : Nat) :
    ∀ (i : Nat) (v : Bytes size), Reads (readLoop pipe bytesLeft i v) := by
  induction bytesLeft with
  | zero =>
      intro i v
      rw [readLoop_zero]
      exact readTurn_reads pipe i v fun _ => Reads.throw (by decide)
  | succ bytesLeft ih =>
      intro i v
      rw [readLoop_succ]
      exact readTurn_reads pipe i v fun chunk => ih _ _

theorem read_reads {size : Nat} (v : Bytes size) : Reads (read pipe v) := by
  apply Reads.bind Reads.get
  intro world
  apply Reads.bind (readLoop_reads pipe _ _ _)
  intro v
  apply Reads.bind (stopRequested_reads pipe)
  intro stopped
  exact Reads.ite (Reads.throw (by decide)) (Reads.pure _)

/-- A turn leaves the loop with the cursor where it was, or hands the bytes of one
`ReadFile` on. -/
theorem readTurn_run {size : Nat} (i : Nat) (v : Bytes size)
    (next : List UInt8 → Worker (Bytes size)) (world : World) :
    (∃ asked, (size ≤ i ∨ pipe.stopped asked = true) ∧
      (readTurn pipe i v next).run world = .ok v (world.seek world.position asked)) ∨
    (∃ failure asked,
      (readTurn pipe i v next).run world = .error failure (world.seek world.position asked)) ∨
    ∃ asked, i < size ∧ (readTurn pipe i v next).run world =
      (next ((pipe.wire.drop world.position).take
        (pipe.served world.position ((size - i) % 2 ^ 32)))).run
          (world.seek (world.position + pipe.served world.position ((size - i) % 2 ^ 32))
            asked) := by
  unfold readTurn
  by_cases filling : i < size
  · rw [if_pos filling, run_bind_ok (stopRequested_eq pipe world)]
    by_cases early : pipe.stopped world.asked = true
    · rw [if_pos early]
      exact Or.inl ⟨_, Or.inr (pipe.stopped_mono (Nat.le_succ _) early), rfl⟩
    · rw [if_neg early]
      obtain ⟨asked, waited | ⟨failure, waited⟩⟩ :=
        waitForBytes_outcome pipe (world.seek world.position (world.asked + 1))
      · rw [run_bind_ok waited, run_bind_ok (stopRequested_eq pipe _)]
        split
        · exact Or.inr (Or.inl ⟨_, _, rfl⟩)
        · rw [run_bind_ok (readFile_run pipe _ _)]
          simp only [seek_position, seek_seek, piece_length]
          split
          · rename_i empty
            rw [empty]
            exact Or.inr (Or.inl ⟨_, _, rfl⟩)
          · exact Or.inr (Or.inr ⟨_, filling, rfl⟩)
      · rw [run_bind_error waited]
        exact Or.inr (Or.inl ⟨failure, asked, rfl⟩)
  · rw [if_neg filling]
    exact Or.inl ⟨world.asked, Or.inl (by omega), rfl⟩

/-- A buffer of `2 ^ 32` bytes or more is never full: the `DWORD` stays below it. -/
theorem readLoop_large {size : Nat} (large : 2 ^ 32 ≤ size) (bytesLeft : Nat) :
    ∀ (i : Nat) (v filled : Bytes size) (world after : World), i < 2 ^ 32 →
      (readLoop pipe bytesLeft i v).run world = .ok filled after →
      pipe.stopped after.asked = true := by
  induction bytesLeft with
  | zero =>
      intro i v filled world after inside ran
      rw [readLoop_zero] at ran
      rcases readTurn_run pipe i v _ world with
        ⟨_, full | stopped, left⟩ | ⟨_, _, left⟩ | ⟨_, _, onward⟩
      · omega
      · cases left.symm.trans ran
        exact stopped
      · cases left.symm.trans ran
      · cases onward.symm.trans ran
  | succ bytesLeft ih =>
      intro i v filled world after inside ran
      rw [readLoop_succ] at ran
      rcases readTurn_run pipe i v _ world with
        ⟨_, full | stopped, left⟩ | ⟨_, _, left⟩ | ⟨_, _, onward⟩
      · omega
      · cases left.symm.trans ran
        exact stopped
      · cases left.symm.trans ran
      · exact ih _ _ _ _ _ (Nat.mod_lt _ (by decide)) (onward.symm.trans ran)

/-- In a buffer below `2 ^ 32` bytes, what a turn reads fits behind `i`. -/
theorem readTurn_fits {size : Nat} (small : size < 2 ^ 32) {i : Nat} (filling : i < size)
    (position : Nat) :
    (size - i) % 2 ^ 32 = size - i ∧ i + pipe.served position (size - i) ≤ size ∧
      ((pipe.wire.drop position).take (pipe.served position (size - i))).length =
        pipe.served position (size - i) ∧
      (i + pipe.served position (size - i)) % 2 ^ 32 = i + pipe.served position (size - i) := by
  have bound := pipe.served_le position (size - i)
  exact ⟨Nat.mod_eq_of_lt (by omega), by omega, piece_length pipe position (size - i),
    Nat.mod_eq_of_lt (by omega)⟩

theorem readLoop_ok {size : Nat} (small : size < 2 ^ 32) (bytesLeft : Nat) :
    ∀ (i : Nat) (v filled : Bytes size) (world after : World), i ≤ size →
      (readLoop pipe bytesLeft i v).run world = .ok filled after →
      pipe.stopped after.asked = true ∨ (after.position = world.position + (size - i) ∧
        filled.toList =
          v.toList.take i ++ (pipe.wire.drop world.position).take (size - i)) := by
  have done : ∀ (i : Nat) (v : Bytes size) (world : World), i ≤ size → size ≤ i →
      world.position = world.position + (size - i) ∧
        v.toList = v.toList.take i ++ (pipe.wire.drop world.position).take (size - i) := by
    intro i v world inside full
    have exact_ : i = size := by omega
    subst exact_
    simp
  induction bytesLeft with
  | zero =>
      intro i v filled world after inside ran
      rw [readLoop_zero] at ran
      rcases readTurn_run pipe i v _ world with
        ⟨_, full | stopped, left⟩ | ⟨_, _, left⟩ | ⟨_, _, onward⟩
      · cases left.symm.trans ran
        exact Or.inr (done i v world inside full)
      · cases left.symm.trans ran
        exact Or.inl stopped
      · cases left.symm.trans ran
      · cases onward.symm.trans ran
  | succ bytesLeft ih =>
      intro i v filled world after inside ran
      rw [readLoop_succ] at ran
      rcases readTurn_run pipe i v _ world with
        ⟨_, full | stopped, left⟩ | ⟨_, _, left⟩ | ⟨asked, filling, onward⟩
      · cases left.symm.trans ran
        exact Or.inr (done i v world inside full)
      · cases left.symm.trans ran
        exact Or.inl stopped
      · cases left.symm.trans ran
      · obtain ⟨request, fits, length, offset⟩ := readTurn_fits pipe small filling world.position
        rw [request, length, offset] at onward
        rcases ih _ _ _ _ _ fits (onward.symm.trans ran) with stopped | ⟨position, content⟩
        · exact Or.inl stopped
        · have kept := Bytes.overwrite_take v i ((pipe.wire.drop world.position).take
            (pipe.served world.position (size - i))) (by omega)
          rw [length] at kept
          have split : size - i = pipe.served world.position (size - i) +
            (size - (i + pipe.served world.position (size - i))) := by omega
          refine Or.inr ⟨by rw [position, seek_position]; omega, ?_⟩
          rw [content, kept, seek_position, ← List.drop_drop, List.append_assoc,
            ← List.take_add, ← split]

/-- No more bytes than the buffer holds are taken, even when the read fails. -/
theorem readLoop_within {size : Nat} (small : size < 2 ^ 32) (bytesLeft : Nat) :
    ∀ (i : Nat) (v : Bytes size) (world : World), i ≤ size →
      (finalState ((readLoop pipe bytesLeft i v).run world)).position ≤
        world.position + (size - i) := by
  induction bytesLeft with
  | zero =>
      intro i v world inside
      rw [readLoop_zero]
      rcases readTurn_run pipe i v (fun _ => throw .spinning) world with
        ⟨_, _, left⟩ | ⟨_, _, left⟩ | ⟨_, filling, onward⟩
      · rw [left]
        exact Nat.le_add_right _ _
      · rw [left]
        exact Nat.le_add_right _ _
      · obtain ⟨request, fits, _, _⟩ := readTurn_fits pipe small filling world.position
        rw [onward, request]
        show world.position + pipe.served world.position (size - i) ≤ _
        omega
  | succ bytesLeft ih =>
      intro i v world inside
      rw [readLoop_succ]
      rcases readTurn_run pipe i v _ world with
        ⟨_, _, left⟩ | ⟨_, _, left⟩ | ⟨asked, filling, onward⟩
      · rw [left]
        exact Nat.le_add_right _ _
      · rw [left]
        exact Nat.le_add_right _ _
      · obtain ⟨request, fits, length, offset⟩ := readTurn_fits pipe small filling world.position
        rw [onward, request, length, offset]
        have rest := ih _ (v.overwrite i ((pipe.wire.drop world.position).take
          (pipe.served world.position (size - i)))) (world.seek
            (world.position + pipe.served world.position (size - i)) asked) fits
        rw [seek_position] at rest
        omega

theorem read_within {size : Nat} (small : size < 2 ^ 32) (v : Bytes size) (world : World) :
    (finalState ((read pipe v).run world)).position ≤ world.position + size := by
  have looped := readLoop_within pipe small (pipe.wire.length - world.position) 0 v world
    (Nat.zero_le _)
  rw [read, run_get_bind]
  cases ran : (readLoop pipe (pipe.wire.length - world.position) 0 v).run world with
  | error failure middle =>
      rw [ran] at looped
      rw [run_bind_error ran]
      exact looped
  | ok filled middle =>
      rw [ran] at looped
      rw [run_bind_ok ran, run_bind_ok (stopRequested_eq pipe middle)]
      split
      · exact looped
      · exact looped

/-- Whatever pieces came and whenever the token was set: a `Read` that returns has
taken the next bytes of the wire. -/
theorem read_ok {size : Nat} {v filled : Bytes size} {world after : World}
    (ran : (read pipe v).run world = .ok filled after) :
    size < 2 ^ 32 ∧ after = world.seek (world.position + size) after.asked ∧
      filled.toList = (pipe.wire.drop world.position).take size := by
  have moved := (read_reads pipe v).seeks world
  rw [ran] at moved
  unfold read at ran
  rw [run_get_bind] at ran
  obtain ⟨filled', middle, looped, ran⟩ := run_bind_eq_ok.mp ran
  rw [run_bind_ok (stopRequested_eq pipe middle)] at ran
  by_cases stopped : pipe.stopped middle.asked = true
  · rw [if_pos stopped] at ran
    cases ran
  · rw [if_neg stopped] at ran
    cases ran
    have small : size < 2 ^ 32 := by
      by_contra large
      exact stopped (readLoop_large pipe (by omega) _ 0 _ _ _ _ (by decide) looped)
    rcases readLoop_ok pipe small _ 0 _ _ _ _ (Nat.zero_le _) looped with
      stopped' | ⟨position, content⟩
    · exact absurd stopped' stopped
    · refine ⟨small, ?_, by simpa using content⟩
      rw [Nat.sub_zero] at position
      rw [← position]
      exact moved.same

end PipeReader
end Wsac.Dll
