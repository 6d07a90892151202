import Wsac.Service.FrameSession

/-! # Reads of a session that may be cancelled at any question

The token never takes an answer back, so a read that returns was not cancelled and
has taken the next bytes of the wire.  Whatever a read does, it moves nothing but
the cursor, the token and the budgets, and the budgets move before it begins. -/

set_option autoImplicit false

namespace Wsac.Service

open Library Library.Exec

/-- The same world after reads. -/
def World.seek (world : World) (position asked : Nat) (reader : PipeReader) : World :=
  { world with position := position, asked := asked, reader := reader }

/-- Only the cursor, the token and the budgets have moved, the cursor forward. -/
structure Seeks (before after : World) : Prop where
  same : after = before.seek after.position after.asked after.reader
  onward : before.position ≤ after.position

theorem Seeks.refl (world : World) : Seeks world world := ⟨rfl, Nat.le_refl _⟩

theorem Seeks.trans (first second third : World) (left : Seeks first second)
    (right : Seeks second third) : Seeks first third := by
  refine ⟨?_, Nat.le_trans left.onward right.onward⟩
  rw [right.same, left.same]
  rfl

theorem seek_seeks (world : World) {position : Nat} (onward : world.position ≤ position)
    (asked : Nat) (reader : PipeReader) : Seeks world (world.seek position asked reader) :=
  ⟨rfl, onward⟩

section
variable {α β : Type} {program : Worker α} {rest : α → Worker β}

theorem pure_seeks (result : α) : Moves Seeks (pure result : Worker α) :=
  Moves.pure Seeks.refl result

theorem get_seeks : Moves Seeks (get : Worker World) := Seeks.refl

theorem bind_seeks (first : Moves Seeks program) (second : ∀ result, Moves Seeks (rest result)) :
    Moves Seeks (program >>= rest) := Moves.bind Seeks.trans first second

end

/-- A program that only reads the pipe: no budget is touched, and none is refused. -/
structure Reads {α : Type} (program : Worker α) : Prop where
  seeks : Moves Seeks program
  reader : Moves (fun before after => after.reader = before.reader) program
  unrefused : ∀ world failure after, program.run world = .error failure after →
    failure ≠ .application ∧ failure ≠ .argumentOutOfRange

namespace Reads
variable {α β : Type}

theorem pure (result : α) : Reads (Pure.pure result : Worker α) :=
  ⟨Moves.pure Seeks.refl result, fun _ => rfl, fun _ _ _ failed => by cases failed⟩

theorem throw {failure : Failure}
    (unrefused : failure ≠ .application ∧ failure ≠ .argumentOutOfRange) :
    Reads (MonadExcept.throw failure : Worker α) := by
  refine ⟨Moves.throw Seeks.refl failure, fun _ => rfl, fun _ _ _ failed => ?_⟩
  cases failed
  exact unrefused

theorem get : Reads (MonadState.get : Worker World) :=
  ⟨Seeks.refl, fun _ => rfl, fun _ _ _ failed => by cases failed⟩

theorem bind {program : Worker α} {rest : α → Worker β} (first : Reads program)
    (second : ∀ result, Reads (rest result)) : Reads (program >>= rest) := by
  refine ⟨Moves.bind Seeks.trans first.seeks fun result => (second result).seeks,
    Moves.bind (fun _ _ _ left right => right.trans left) first.reader
      fun result => (second result).reader, ?_⟩
  intro world failure after failed
  rcases run_bind_eq_error.mp failed with failed | ⟨result, middle, _, failed⟩
  · exact first.unrefused world failure after failed
  · exact (second result).unrefused middle failure after failed

theorem ite {condition : Prop} [Decidable condition] {first second : Worker α}
    (left : Reads first) (right : Reads second) :
    Reads (if condition then first else second) := by
  split
  · exact left
  · exact right

end Reads

/-- What the token answers. -/
def Client.cancelled (client : Client) (asked : Nat) : Bool :=
  match client.cancelAt with
  | none => false
  | some first => decide (first ≤ asked)

theorem Client.cancelled_mono (client : Client) {first second : Nat} (le : first ≤ second)
    (cancelled : client.cancelled first = true) : client.cancelled second = true := by
  unfold Client.cancelled at cancelled ⊢
  cases limit : client.cancelAt with
  | none => rw [limit] at cancelled; exact absurd cancelled (by simp)
  | some limit' =>
      rw [limit] at cancelled
      simp only [decide_eq_true_eq] at cancelled ⊢
      omega

section
variable (client : Client)

theorem cancellationRequested_eq (world : World) :
    ∃ asked, world.asked ≤ asked ∧ (cancellationRequested client).run world =
      .ok (client.cancelled world.asked) (world.seek world.position asked world.reader) := by
  unfold cancellationRequested Client.cancelled
  cases client.cancelAt with
  | none => exact ⟨world.asked, Nat.le_refl _, rfl⟩
  | some first => exact ⟨world.asked + 1, Nat.le_succ _, rfl⟩

theorem cancellationRequested_reads : Reads (cancellationRequested client) := by
  refine ⟨fun world => ?_, fun world => ?_, fun world failure after failed => ?_⟩
  all_goals obtain ⟨asked, _, ran⟩ := cancellationRequested_eq client world
  · rw [ran]
    exact seek_seeks world (Nat.le_refl _) _ _
  · rw [ran]
    rfl
  · rw [ran] at failed
    cases failed

theorem throwIfCancellationRequested_reads : Reads (throwIfCancellationRequested client) := by
  apply Reads.bind (cancellationRequested_reads client)
  intro requested
  exact Reads.ite (Reads.throw (by decide)) (Reads.pure _)

/-- Behind `ThrowIfCancellationRequested` nothing has been cancelled before. -/
theorem throwIfCancellationRequested_ok {world after : World}
    (ran : (throwIfCancellationRequested client).run world = .ok () after) :
    client.cancelled world.asked = false ∧
      ∃ asked, after = world.seek world.position asked world.reader := by
  unfold throwIfCancellationRequested at ran
  obtain ⟨asked, _, question⟩ := cancellationRequested_eq client world
  rw [run_bind_ok question] at ran
  cases answer : client.cancelled world.asked with
  | true =>
      rw [answer] at ran
      cases ran
  | false =>
      rw [answer] at ran
      cases ran
      exact ⟨rfl, asked, rfl⟩

theorem take_length (position requested : Nat) :
    ((client.wire.drop position).take (client.served position requested)).length =
      client.served position requested := by
  have bound := client.served_le position requested
  rw [List.length_take, List.length_drop]
  omega

theorem take_eq (requested : Nat) (world : World) :
    (client.take requested).run world =
      .ok ((client.wire.drop world.position).take (client.served world.position requested))
        (world.seek (world.position + client.served world.position requested) world.asked
          world.reader) := by
  simp only [Client.take, EStateM.run_modifyGet, take_length]
  rfl

theorem take_reads (requested : Nat) : Reads (client.take requested) := by
  refine ⟨fun world => ?_, fun world => ?_, fun world failure after failed => ?_⟩
  · rw [take_eq]
    exact seek_seeks world (Nat.le_add_right _ _) _ _
  · rw [take_eq]
    rfl
  · rw [take_eq] at failed
    cases failed

namespace PipeStream

theorem waitForData_outcome (world : World) :
    ∃ asked, (waitForData client).run world =
        .ok () (world.seek world.position asked world.reader) ∨
      ∃ failure, (waitForData client).run world =
        .error failure (world.seek world.position asked world.reader) := by
  rw [waitForData, run_get_bind]
  split
  · exact ⟨world.asked, Or.inl rfl⟩
  · cases client.ending with
    | closed => exact ⟨world.asked, Or.inr ⟨_, rfl⟩⟩
    | failing => exact ⟨world.asked, Or.inr ⟨_, rfl⟩⟩
    | silent =>
        cases client.cancelAt with
        | none => exact ⟨world.asked, Or.inr ⟨_, rfl⟩⟩
        | some first => exact ⟨max world.asked first, Or.inl rfl⟩

theorem waitForData_reads : Reads (waitForData client) := by
  apply Reads.bind Reads.get
  intro world
  apply Reads.ite (Reads.pure _)
  cases client.ending with
  | closed => exact Reads.throw (by decide)
  | failing => exact Reads.throw (by decide)
  | silent =>
      cases client.cancelAt with
      | none => exact Reads.throw (by decide)
      | some first =>
          refine ⟨fun world => ⟨rfl, Nat.le_refl _⟩, fun _ => rfl, ?_⟩
          intro world failure after failed
          cases failed

/-- A turn of the loop of `Read`, with the rest of the loop as `next`. -/
def readTurn {size : Nat} (i : Nat) (buffer : Bytes size)
    (next : List UInt8 → Worker (Bytes size)) : Worker (Bytes size) :=
  if i < size then do
    if ← cancellationRequested client then pure buffer
    else
      waitForData client
      if ← cancellationRequested client then pure buffer
      else
        let chunk ← client.take (size - i)
        if chunk.length = 0 then throw .endOfStream else next chunk
  else pure buffer

theorem readLoop_zero {size : Nat} (i : Nat) (buffer : Bytes size) :
    readLoop client 0 i buffer = readTurn client i buffer fun _ => throw .blocked := by
  rw [readLoop, readTurn]

theorem readLoop_succ {size : Nat} (bytesLeft i : Nat) (buffer : Bytes size) :
    readLoop client (bytesLeft + 1) i buffer = readTurn client i buffer fun chunk =>
      readLoop client bytesLeft (i + chunk.length) (buffer.overwrite i chunk) := by
  rw [readLoop, readTurn]

/-- A turn leaves the loop with the cursor where it was, or hands the bytes of one
read on. -/
theorem readTurn_run {size : Nat} (i : Nat) (buffer : Bytes size)
    (next : List UInt8 → Worker (Bytes size)) (world : World) :
    (∃ asked, (size ≤ i ∨ client.cancelled asked = true) ∧
      (readTurn client i buffer next).run world =
        .ok buffer (world.seek world.position asked world.reader)) ∨
    (∃ failure asked, (readTurn client i buffer next).run world =
      .error failure (world.seek world.position asked world.reader)) ∨
    ∃ asked, i < size ∧ (readTurn client i buffer next).run world =
      (next ((client.wire.drop world.position).take
        (client.served world.position (size - i)))).run
          (world.seek (world.position + client.served world.position (size - i)) asked
            world.reader) := by
  unfold readTurn
  by_cases filling : i < size
  · rw [if_pos filling]
    obtain ⟨asked, later, question⟩ := cancellationRequested_eq client world
    rw [run_bind_ok question]
    by_cases early : client.cancelled world.asked = true
    · rw [if_pos early]
      exact Or.inl ⟨asked, Or.inr (client.cancelled_mono later early), rfl⟩
    · rw [if_neg early]
      obtain ⟨middle, waited | ⟨failure, waited⟩⟩ :=
        waitForData_outcome client (world.seek world.position asked world.reader)
      · have arrived : (waitForData client).run (world.seek world.position asked world.reader) =
            .ok () (world.seek world.position middle world.reader) := waited
        obtain ⟨last, later', question'⟩ := cancellationRequested_eq client
          (world.seek world.position middle world.reader)
        rw [run_bind_ok arrived, run_bind_ok question']
        split
        · rename_i late
          exact Or.inl ⟨last, Or.inr (client.cancelled_mono later' late), rfl⟩
        · rw [run_bind_ok (take_eq client _ _), take_length]
          split
          · rename_i empty
            rw [empty]
            exact Or.inr (Or.inl ⟨_, _, rfl⟩)
          · exact Or.inr (Or.inr ⟨_, filling, rfl⟩)
      · rw [run_bind_error waited]
        exact Or.inr (Or.inl ⟨failure, middle, rfl⟩)
  · rw [if_neg filling]
    exact Or.inl ⟨world.asked, Or.inl (by omega), rfl⟩

theorem readTurn_reads {size : Nat} (i : Nat) (buffer : Bytes size)
    {next : List UInt8 → Worker (Bytes size)} (reads : ∀ chunk, Reads (next chunk)) :
    Reads (readTurn client i buffer next) := by
  unfold readTurn
  apply Reads.ite _ (Reads.pure _)
  apply Reads.bind (cancellationRequested_reads client)
  intro requested
  apply Reads.ite (Reads.pure _)
  apply Reads.bind (waitForData_reads client)
  intro _
  apply Reads.bind (cancellationRequested_reads client)
  intro requested
  apply Reads.ite (Reads.pure _)
  apply Reads.bind (take_reads client _)
  intro chunk
  exact Reads.ite (Reads.throw (by decide)) (reads chunk)

theorem readLoop_reads {size : Nat} (bytesLeft : Nat) : ∀ (i : Nat) (buffer : Bytes size),
    Reads (readLoop client bytesLeft i buffer) := by
  induction bytesLeft with
  | zero =>
      intro i buffer
      rw [readLoop_zero]
      exact readTurn_reads client i buffer fun _ => Reads.throw (by decide)
  | succ bytesLeft ih =>
      intro i buffer
      rw [readLoop_succ]
      exact readTurn_reads client i buffer fun chunk => ih _ _

theorem read_reads (size : Nat) : Reads (read client size) := by
  apply Reads.bind Reads.get
  intro world
  apply Reads.bind (readLoop_reads client _ _ _)
  intro buffer
  apply Reads.bind (throwIfCancellationRequested_reads client)
  intro _
  exact Reads.pure _

theorem readLoop_ok {size : Nat} (bytesLeft : Nat) :
    ∀ (i : Nat) (buffer filled : Bytes size) (world after : World), i ≤ size →
      (readLoop client bytesLeft i buffer).run world = .ok filled after →
      client.cancelled after.asked = true ∨
        (∃ asked, after = world.seek (world.position + (size - i)) asked world.reader) ∧
          filled.toList =
            buffer.toList.take i ++ (client.wire.drop world.position).take (size - i) := by
  have done : ∀ (i : Nat) (buffer : Bytes size) (world : World) (asked : Nat), i ≤ size →
      size ≤ i →
      (∃ asked', world.seek world.position asked world.reader =
        world.seek (world.position + (size - i)) asked' world.reader) ∧
      buffer.toList =
        buffer.toList.take i ++ (client.wire.drop world.position).take (size - i) := by
    intro i buffer world asked inside full
    have exact_ : i = size := by omega
    subst exact_
    exact ⟨⟨asked, by simp⟩, by simp⟩
  induction bytesLeft with
  | zero =>
      intro i buffer filled world after inside ran
      rw [readLoop_zero] at ran
      rcases readTurn_run client i buffer _ world with
        ⟨asked, full | stopped, left⟩ | ⟨_, _, left⟩ | ⟨_, _, onward⟩
      · cases left.symm.trans ran
        exact Or.inr (done i buffer world asked inside full)
      · cases left.symm.trans ran
        exact Or.inl stopped
      · cases left.symm.trans ran
      · cases onward.symm.trans ran
  | succ bytesLeft ih =>
      intro i buffer filled world after inside ran
      rw [readLoop_succ] at ran
      rcases readTurn_run client i buffer _ world with
        ⟨asked, full | stopped, left⟩ | ⟨_, _, left⟩ | ⟨asked, filling, onward⟩
      · cases left.symm.trans ran
        exact Or.inr (done i buffer world asked inside full)
      · cases left.symm.trans ran
        exact Or.inl stopped
      · cases left.symm.trans ran
      · have bound := client.served_le world.position (size - i)
        have length := take_length client world.position (size - i)
        rw [length] at onward
        rcases ih _ _ _ _ _ (by omega) (onward.symm.trans ran) with
          stopped | ⟨⟨asked', moved⟩, content⟩
        · exact Or.inl stopped
        · have kept := Bytes.overwrite_take buffer i ((client.wire.drop world.position).take
            (client.served world.position (size - i))) (by omega)
          rw [length] at kept
          have split : size - i = client.served world.position (size - i) +
            (size - (i + client.served world.position (size - i))) := by omega
          have there : world.position + client.served world.position (size - i) +
              (size - (i + client.served world.position (size - i))) =
                world.position + (size - i) := by omega
          refine Or.inr ⟨⟨asked', ?_⟩, ?_⟩
          · rw [moved, ← there]
            rfl
          · rw [content, kept, World.seek, ← List.drop_drop, List.append_assoc, ← List.take_add,
              ← split]

/-- A `Read` that returns has taken the next bytes of the wire. -/
theorem read_ok {size : Nat} {filled : Bytes size} {world after : World}
    (ran : (read client size).run world = .ok filled after) :
    (∃ asked, after = world.seek (world.position + size) asked world.reader) ∧
      filled.toList = (client.wire.drop world.position).take size := by
  unfold read at ran
  rw [run_get_bind] at ran
  obtain ⟨filled', middle, looped, ran⟩ := run_bind_eq_ok.mp ran
  obtain ⟨_, last, checked, done⟩ := run_bind_eq_ok.mp ran
  cases done
  obtain ⟨calm, asked, lastIs⟩ := throwIfCancellationRequested_ok client checked
  rcases readLoop_ok client _ 0 _ _ _ _ (Nat.zero_le _) looped with
    stopped | ⟨⟨asked', moved⟩, content⟩
  · rw [stopped] at calm
    cases calm
  · refine ⟨⟨asked, ?_⟩, by simpa using content⟩
    rw [lastIs, moved]
    rfl

theorem readAsync_reads (requested : Nat) : Reads (readAsync client requested) := by
  apply Reads.bind (throwIfCancellationRequested_reads client)
  intro _
  apply Reads.bind Reads.get
  intro world
  apply Reads.ite (take_reads client _)
  cases client.ending with
  | closed => exact Reads.pure _
  | failing => exact Reads.throw (by decide)
  | silent =>
      cases client.cancelAt with
      | none => exact Reads.throw (by decide)
      | some first => exact Reads.throw (by simp)

end PipeStream

namespace PipeReader

theorem charge_seeks (size : Int64) : Moves Seeks (charge size) := by
  intro world
  rw [charge, run_get_bind]
  cases within : (world.reader.shrinkAvailable size).2 with
  | true =>
      simp only [within]
      exact seek_seeks world (Nat.le_refl _) world.asked _
  | false =>
      simp only [within]
      exact seek_seeks world (Nat.le_refl _) world.asked _

theorem charge_ok {size : Int64} {world after : World}
    (ran : (charge size).run world = .ok () after) :
    after = world.seek world.position world.asked (world.reader.shrinkAvailable size).1 ∧
      (world.reader.shrinkAvailable size).2 = true := by
  unfold charge at ran
  rw [run_get_bind] at ran
  cases within : (world.reader.shrinkAvailable size).2 with
  | true =>
      simp only [within] at ran
      cases ran
      exact ⟨rfl, rfl⟩
  | false =>
      simp only [within] at ran
      cases ran

theorem createChild_seeks (size : Int64) : Moves Seeks (createChild size) := by
  intro world
  rw [createChild, run_get_bind]
  split
  · exact Seeks.refl world
  · exact seek_seeks world (Nat.le_refl _) world.asked _

theorem releaseChild_seeks : Moves Seeks releaseChild :=
  fun world => seek_seeks world (Nat.le_refl _) world.asked _

theorem read_seeks (size : Nat) : Moves Seeks (read client size) := by
  apply bind_seeks (charge_seeks _)
  intro _
  exact (PipeStream.read_reads client size).seeks

theorem read_ok {size : Nat} {filled : Bytes size} {world after : World}
    (ran : (read client size).run world = .ok filled after) :
    (∃ asked reader, after = world.seek (world.position + size) asked reader) ∧
      filled.toList = (client.wire.drop world.position).take size := by
  obtain ⟨_, charged, paid, ran⟩ := run_bind_eq_ok.mp ran
  obtain ⟨chargedIs, _⟩ := charge_ok paid
  obtain ⟨⟨asked, moved⟩, content⟩ := PipeStream.read_ok client ran
  subst chargedIs
  exact ⟨⟨asked, _, moved⟩, content⟩

/-- A turn of the loop of `ReadAsyncInternal`, with the rest of the loop as `next`. -/
def readAsyncTurn (size : Int64) (buffer : Nat) (i : Int64) (stream : List UInt8)
    (next : List UInt8 → Worker (List UInt8)) : Worker (List UInt8) :=
  if i < size then do
    if ← cancellationRequested client then pure stream
    else
      let chunk ← PipeStream.readAsync client buffer
      if chunk.length = 0 then throw .endOfStream else next chunk
  else pure stream

theorem readAsyncLoop_zero (size : Int64) (buffer : Nat) (i : Int64) (stream : List UInt8) :
    readAsyncLoop client size buffer 0 i stream =
      readAsyncTurn client size buffer i stream fun _ => throw .blocked := by
  rw [readAsyncLoop, readAsyncTurn]

theorem readAsyncLoop_succ (size : Int64) (buffer bytesLeft : Nat) (i : Int64)
    (stream : List UInt8) :
    readAsyncLoop client size buffer (bytesLeft + 1) i stream =
      readAsyncTurn client size buffer i stream fun chunk =>
        readAsyncLoop client size buffer bytesLeft (i + Int64.ofNat chunk.length)
          (stream ++ chunk) := by
  rw [readAsyncLoop, readAsyncTurn]

theorem readAsyncTurn_reads (size : Int64) (buffer : Nat) (i : Int64) (stream : List UInt8)
    {next : List UInt8 → Worker (List UInt8)} (reads : ∀ chunk, Reads (next chunk)) :
    Reads (readAsyncTurn client size buffer i stream next) := by
  unfold readAsyncTurn
  apply Reads.ite _ (Reads.pure _)
  apply Reads.bind (cancellationRequested_reads client)
  intro requested
  apply Reads.ite (Reads.pure _)
  apply Reads.bind (PipeStream.readAsync_reads client _)
  intro chunk
  exact Reads.ite (Reads.throw (by decide)) (reads chunk)

theorem readAsyncLoop_reads (size : Int64) (buffer bytesLeft : Nat) :
    ∀ (i : Int64) (stream : List UInt8),
      Reads (readAsyncLoop client size buffer bytesLeft i stream) := by
  induction bytesLeft with
  | zero =>
      intro i stream
      rw [readAsyncLoop_zero]
      exact readAsyncTurn_reads client size buffer i stream fun _ => Reads.throw (by decide)
  | succ bytesLeft ih =>
      intro i stream
      rw [readAsyncLoop_succ]
      exact readAsyncTurn_reads client size buffer i stream fun chunk => ih _ _

theorem readAsyncInternal_reads (size : Int64) : Reads (readAsyncInternal client size) := by
  apply Reads.bind Reads.get
  intro world
  apply Reads.bind (readAsyncLoop_reads client _ _ _ _ _)
  intro stream
  apply Reads.bind (throwIfCancellationRequested_reads client)
  intro _
  exact Reads.pure _

theorem skipAsync_seeks (size : Int64) : Moves Seeks (skipAsync client size) := by
  apply bind_seeks (charge_seeks _)
  intro _
  apply bind_seeks (readAsyncInternal_reads client size).seeks
  intro _
  exact pure_seeks _

end PipeReader
end
end Wsac.Service
