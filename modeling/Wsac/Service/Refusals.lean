import Wsac.Service.Stops

/-! # Calls that a reader refuses

`CreateChild` looks at `Available` before it does anything.  `Read`, `ReadAsync` and
`SkipAsync` subtract first, ancestors before descendants, and throw afterwards: what
has been subtracted until then is not given back. -/

set_option autoImplicit false

namespace Wsac.Service

open Library Library.Exec

namespace PipeReader

/-- `Available` of a reader and of its ancestors. -/
def availables : PipeReader → List Int64
  | .root available => [available]
  | .child available parent => available :: parent.availables

/-- A chain of readers, the innermost first, nested in a reader. -/
def nest : List Int64 → PipeReader → PipeReader
  | [], reader => reader
  | available :: rest, reader => .child available (nest rest reader)

theorem availables_nest (below : List Int64) (reader : PipeReader) :
    (nest below reader).availables = below ++ reader.availables := by
  induction below with
  | nil => rfl
  | cons available below ih => rw [nest, availables, ih, List.cons_append]

theorem sub_eq_self_iff (available size : Int64) : available - size = available ↔ size = 0 := by
  rw [Int64.sub_eq_iff_eq_add, eq_comm, Int64.add_eq_left]

/-- The outermost reader is always charged. -/
theorem shrinkAvailable_unchanged_iff (size : Int64) (reader : PipeReader) :
    (reader.shrinkAvailable size).1.availables = reader.availables ↔ size = 0 := by
  induction reader with
  | root available =>
      simp only [shrinkAvailable, availables, List.cons.injEq, and_true]
      exact sub_eq_self_iff available size
  | child available parent ih =>
      rw [shrinkAvailable]
      cases charged : parent.shrinkAvailable size with
      | mk parent' within =>
          rw [charged] at ih
          cases within with
          | false => simpa only [availables, List.cons.injEq, true_and] using ih
          | true =>
              simp only [availables, List.cons.injEq, sub_eq_self_iff, ih, and_self]

end PipeReader

inductive Call where
  | createChild (size : Int64)
  /-- `Read<T>` of an unmanaged `T` of that many bytes. -/
  | read (size : Nat)
  | readAsync (size : Int64)
  | skipAsync (size : Int64)

namespace Call

def size : Call → Int64
  | .createChild size => size
  | .read size => Int64.ofNat size
  | .readAsync size => size
  | .skipAsync size => size

def perform (client : Client) : Call → Worker Unit
  | .createChild size => PipeReader.createChild size
  | .read size => do
      let _ ← PipeReader.read client size
      pure ()
  | .readAsync size => do
      let _ ← PipeReader.readAsync client size
      pure ()
  | .skipAsync size => PipeReader.skipAsync client size

/-- The three calls that take bytes: a charge, then reads that touch no budget. -/
theorem perform_charges (client : Client) (call : Call)
    (taking : ∀ size, call ≠ .createChild size) :
    ∃ rest : Worker Unit, Reads rest ∧
      call.perform client = PipeReader.charge call.size >>= fun _ => rest := by
  cases call with
  | createChild size => exact absurd rfl (taking size)
  | read size =>
      refine ⟨PipeStream.read client size >>= fun _ => pure (), ?_, ?_⟩
      · exact Reads.bind (PipeStream.read_reads client size) fun _ => Reads.pure _
      · rw [perform, PipeReader.read, bind_assoc]
        rfl
  | readAsync size =>
      refine ⟨PipeReader.readAsyncInternal client size >>= fun _ => pure (), ?_, ?_⟩
      · exact Reads.bind (PipeReader.readAsyncInternal_reads client size) fun _ => Reads.pure _
      · rw [perform, PipeReader.readAsync, bind_assoc]
        rfl
  | skipAsync size =>
      refine ⟨PipeReader.readAsyncInternal client size >>= fun _ => pure (), ?_, rfl⟩
      exact Reads.bind (PipeReader.readAsyncInternal_reads client size) fun _ => Reads.pure _

/-- A charge is admitted, or it throws and stays. -/
theorem charge_outcome (size : Int64) (world : World) :
    let charged := { world with reader := (world.reader.shrinkAvailable size).1 }
    ((world.reader.shrinkAvailable size).2 = true ∧
      (PipeReader.charge size).run world = .ok () charged) ∨
    ((world.reader.shrinkAvailable size).2 = false ∧
      (PipeReader.charge size).run world = .error .application charged) := by
  rw [PipeReader.charge, run_get_bind]
  cases within : (world.reader.shrinkAvailable size).2 with
  | true =>
      simp only [within]
      exact Or.inl ⟨trivial, rfl⟩
  | false =>
      simp only [within]
      exact Or.inr ⟨trivial, rfl⟩

/-- Whatever becomes of it, a call that takes bytes has charged what `ShrinkAvailable`
charges, and throws for want of budget exactly when that refuses. -/
theorem perform_reader (client : Client) (call : Call)
    (taking : ∀ size, call ≠ .createChild size) (world : World) :
    (finalState ((call.perform client).run world)).reader =
        (world.reader.shrinkAvailable call.size).1 ∧
      ((∃ after, (call.perform client).run world = .error .application after) ↔
        (world.reader.shrinkAvailable call.size).2 = false) := by
  obtain ⟨rest, reads, performs⟩ := call.perform_charges client taking
  rw [performs]
  rcases charge_outcome call.size world with ⟨within, ran⟩ | ⟨refused, ran⟩
  · rw [run_bind_ok ran, within]
    refine ⟨reads.reader _, iff_of_false ?_ (by simp)⟩
    rintro ⟨after, failed⟩
    exact (reads.unrefused _ _ _ failed).1 rfl
  · rw [run_bind_error ran, refused]
    exact ⟨rfl, iff_of_true ⟨_, rfl⟩ rfl⟩

/-- A refused call has moved nothing but budgets, and those are what they were only
where `CreateChild` refuses, or nothing was asked for. -/
theorem refused_unchanged_iff (client : Client) (call : Call) (below : List Int64)
    (world after : World) (failure : Failure)
    (ran : (call.perform client).run world = .error failure after)
    (refusal : failure = .application ∨ failure = .argumentOutOfRange) :
    after = { world with reader := after.reader } ∧
      ((PipeReader.nest below after.reader).availables =
          (PipeReader.nest below world.reader).availables ↔
        (∃ size, call = .createChild size) ∨ call.size = 0) := by
  by_cases taking : ∀ size, call ≠ .createChild size
  · obtain ⟨rest, reads, performs⟩ := call.perform_charges client taking
    rw [performs] at ran
    rcases charge_outcome call.size world with ⟨_, charged⟩ | ⟨_, charged⟩
    · rw [run_bind_ok charged] at ran
      obtain ⟨other, other'⟩ := reads.unrefused _ _ _ ran
      exact absurd refusal (by simp [other, other'])
    · rw [run_bind_error charged] at ran
      cases ran
      refine ⟨rfl, ?_⟩
      rw [PipeReader.availables_nest, PipeReader.availables_nest, List.append_cancel_left_eq,
        PipeReader.shrinkAvailable_unchanged_iff]
      have noChild : ¬ ∃ size, call = .createChild size := fun ⟨size, same⟩ => taking size same
      simp only [noChild, false_or]
  · simp only [ne_eq, not_forall, not_not] at taking
    obtain ⟨size, rfl⟩ := taking
    simp only [perform, PipeReader.createChild] at ran
    rw [run_get_bind] at ran
    split at ran
    · cases ran
      exact ⟨rfl, iff_of_true rfl (Or.inl ⟨size, rfl⟩)⟩
    · cases ran

end Call

namespace Sample

/-- A body reader of one byte in the pipe's reader. -/
def oneByte : World := World.start (.child 1 .new)

/-- `CreateChild` on it, for two bytes. -/
theorem refused_unchanged_createChild :
    oneByte = { oneByte with reader := oneByte.reader } ∧
      ((PipeReader.nest [] oneByte.reader).availables =
          (PipeReader.nest [] oneByte.reader).availables ↔
        (∃ size, Call.createChild 2 = .createChild size) ∨ (Call.createChild 2).size = 0) :=
  Call.refused_unchanged_iff (Client.waiting [] Wsac.Sample.nonce) (.createChild 2) [] oneByte
    oneByte .argumentOutOfRange rfl (Or.inr rfl)

/-- `SkipAsync` on it, for two bytes: both readers have lost them. -/
theorem refused_skip_charges :
    ¬ ∀ (client : Client) (call : Call) (below : List Int64) (world after : World)
      (failure : Failure), 0 ≤ call.size.toInt →
      (call.perform client).run world = .error failure after →
      (failure = .application ∨ failure = .argumentOutOfRange) →
      (PipeReader.nest below after.reader).availables =
        (PipeReader.nest below world.reader).availables := by
  intro claimed
  have same := claimed (Client.waiting [] Wsac.Sample.nonce) (.skipAsync 2) [] oneByte
    { oneByte with reader := .child (-1) (.root (Int64.maxValue - 2)) } .application (by decide)
    rfl (Or.inl rfl)
  exact absurd same (by decide)

end Sample
end Wsac.Service
