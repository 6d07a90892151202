import Wsac.Service.Stops

/-! # A session only moves forward

Whatever a part of the session does, through every failure and every
cancellation: the place on the wire never goes back, the log only grows, and no
new entry names a place before the one where the part began. -/

set_option autoImplicit false

namespace Wsac.Service

open Library Library.Exec

def Event.offset? : Event → Option Nat
  | .received offset => some offset
  | .checked offset _ _ => some offset
  | .entered offset _ => some offset
  | .packet => none
  | .state _ => none
  | .wrote _ => none

/-- From a place not before `limit` on, nothing before `limit` is logged. -/
def Later (limit : Nat) (before after : World) : Prop :=
  limit ≤ before.position → before.position ≤ after.position ∧
    ∃ new, after.log = before.log ++ new ∧
      ∀ event ∈ new, ∀ offset, event.offset? = some offset → limit ≤ offset

theorem Later.of_same_log {limit : Nat} {before after : World}
    (forward : before.position ≤ after.position) (same : after.log = before.log) :
    Later limit before after :=
  fun _ => ⟨forward, [], by rw [same, List.append_nil], by simp⟩

theorem Later.refl (limit : Nat) (world : World) : Later limit world world :=
  Later.of_same_log (Nat.le_refl _) rfl

theorem Later.trans (limit : Nat) (first second third : World) (left : Later limit first second)
    (right : Later limit second third) : Later limit first third := by
  intro start
  obtain ⟨forward, new, log, places⟩ := left start
  obtain ⟨forward', new', log', places'⟩ := right (Nat.le_trans start forward)
  refine ⟨Nat.le_trans forward forward', new ++ new', ?_, ?_⟩
  · rw [log', log, List.append_assoc]
  · intro event member
    rcases List.mem_append.mp member with early | late
    · exact places event early
    · exact places' event late

section
variable {α β : Type} {program : Worker α} {rest : α → Worker β} {limit : Nat}

theorem pure_later (result : α) : Moves (Later limit) (pure result : Worker α) :=
  Moves.pure (Later.refl limit) result

theorem throw_later (failure : Failure) : Moves (Later limit) (throw failure : Worker α) :=
  Moves.throw (Later.refl limit) failure

theorem bind_later (first : Moves (Later limit) program)
    (second : ∀ result, Moves (Later limit) (rest result)) :
    Moves (Later limit) (program >>= rest) := Moves.bind (Later.trans limit) first second

theorem get_later : Moves (Later limit) (get : Worker World) := Later.refl limit

/-- A program that first looks at the world, judged world by world. -/
theorem get_bind_later {rest : World → Worker β}
    (each : ∀ world, Later limit world (finalState ((rest world).run world))) :
    Moves (Later limit) (get >>= rest) := each

theorem modify_later (change : World → World)
    (same : ∀ world, (change world).position = world.position ∧ (change world).log = world.log) :
    Moves (Later limit) (modify change : Worker PUnit) :=
  fun world => Later.of_same_log (Nat.le_of_eq (same world).1.symm) (same world).2

theorem record_later (event : Event)
    (place : ∀ offset, event.offset? = some offset → limit ≤ offset) :
    Moves (Later limit) (record event) := by
  intro world _
  refine ⟨Nat.le_refl _, [event], rfl, ?_⟩
  intro other member
  rw [List.mem_singleton.mp member]
  exact place

theorem record_here (event : Event) (silent : event.offset? = none) :
    Moves (Later limit) (record event) :=
  record_later event fun offset named => by rw [silent] at named; exact absurd named (by simp)

end

theorem Seeks.later {before after : World} (seeks : Seeks before after) (limit : Nat) :
    Later limit before after := by
  apply Later.of_same_log seeks.onward
  rw [seeks.same]
  rfl

theorem seeks_later {α : Type} {program : Worker α} (seeks : Moves Seeks program) (limit : Nat) :
    Moves (Later limit) program := seeks.mono fun _ _ moved => moved.later limit

section
variable (client : Client)

namespace FrameSession

theorem skipRest_seeks : Moves Seeks (skipRest client) := by
  apply bind_seeks get_seeks
  intro world
  exact Moves.ite (PipeReader.skipAsync_seeks client _) (pure_seeks _)

theorem handleAsync_test_seeks (cfg : Config) : Moves Seeks (handleAsync cfg client .test) := by
  apply bind_seeks get_seeks
  intro world
  exact PipeReader.skipAsync_seeks client _

theorem receivePreamble_seeks (cfg : Config) (preamble : Bytes 6) :
    Moves Seeks (receivePreamble cfg client preamble) := by
  apply bind_seeks (PipeReader.read_seeks client 1)
  intro byte
  exact pure_seeks _

/-- Looking for a preamble, a session only reads. -/
theorem receiveBatch_seeks (cfg : Config) (left : Nat) : ∀ (preamble : Bytes 6) (found : Bool),
    Moves Seeks (receiveBatch cfg client left preamble found) := by
  induction left with
  | zero => exact fun preamble found => pure_seeks _
  | succ left ih =>
      intro preamble found
      apply bind_seeks (receivePreamble_seeks client cfg preamble)
      rintro ⟨pushed, hit⟩
      exact ih _ _

end FrameSession

variable (limit : Nat)

theorem write_later (bytes : List UInt8) : Moves (Later limit) (PipeWriter.write client bytes) := by
  intro world
  rw [PipeWriter.write, run_get_bind]
  split
  · exact Later.refl limit world
  · exact Later.of_same_log (Nat.le_refl _) rfl

theorem writeCheckpoint_later (cfg : Config) :
    Moves (Later limit) (FrameWriter.writeCheckpoint cfg client) := by
  apply bind_later
  · exact fun world => Later.of_same_log (Nat.le_refl _) rfl
  · intro nonce
    apply bind_later
    · apply bind_later (write_later client limit _)
      intro _
      exact write_later client limit _
    · intro _
      exact record_here _ rfl

namespace FrameSession

theorem setState_later (value : FrameSessionState) : Moves (Later limit) (setState value) := by
  apply bind_later
  · exact modify_later _ fun world => ⟨rfl, rfl⟩
  · intro _
    exact record_here _ rfl

theorem handleAsync_later (cfg : Config) (handler : Handler) :
    Moves (Later limit) (handleAsync cfg client handler) := by
  cases handler with
  | checkpoint =>
      apply bind_later get_later
      intro world
      exact Moves.ite (setState_later limit _) (writeCheckpoint_later client limit cfg)
  | regular => exact record_here _ rfl
  | test => exact seeks_later (handleAsync_test_seeks client cfg) limit

theorem dispatch_later (asm : Assembly) (header : FrameHeader) :
    Moves (Later limit) (dispatch asm client header) := by
  unfold dispatch
  cases findHandler asm header.signature with
  | none => exact seeks_later (PipeReader.skipAsync_seeks client _) limit
  | some handler =>
      apply bind_later get_later
      intro world
      apply Moves.ite (seeks_later (PipeReader.skipAsync_seeks client _) limit)
      apply bind_later (handleAsync_later client limit _ handler)
      intro _
      exact seeks_later (skipRest_seeks client) limit

theorem handleFrameAsync_later (asm : Assembly) (offset : Nat) (header : FrameHeader)
    (behind : limit ≤ offset) :
    Moves (Later limit) (handleFrameAsync asm client offset header) := by
  apply bind_later
  · apply record_later
    rintro place named
    cases named
    exact behind
  · intro _
    exact dispatch_later client limit asm header

theorem requestCheckpoint_later (cfg : Config) :
    Moves (Later limit) (requestCheckpoint cfg client) := by
  apply bind_later (writeCheckpoint_later client limit cfg)
  intro _
  exact setState_later limit _

/-- What follows the read of a header that started at `offset`. -/
theorem readHeader_later (cfg : Config) : Moves (Later limit) (readHeader cfg client) := by
  apply get_bind_later
  intro world start
  refine (bind_later (seeks_later (PipeReader.read_seeks client 38) limit) ?_) world start
  intro image
  apply bind_later
  · apply record_later
    rintro place named
    cases named
    exact start
  · intro _
    cases checkHeader cfg (FrameHeader.decode image) with
    | ok passed => exact pure_later _
    | error failure => exact throw_later _

theorem receiveHeader_later (asm : Assembly) (offset : Nat) (behind : limit ≤ offset) :
    Moves (Later limit) (receiveHeader asm client offset) := by
  apply bind_later (readHeader_later client limit asm.toConfig)
  rintro ⟨header, passed⟩
  apply Moves.ite (requestCheckpoint_later client limit asm.toConfig)
  apply bind_later (seeks_later (PipeReader.createChild_seeks _) limit)
  intro _
  apply bind_later (handleFrameAsync_later client limit asm _ _ behind)
  intro _
  exact seeks_later PipeReader.releaseChild_seeks limit

theorem receiveFrame_later (asm : Assembly) : Moves (Later limit) (receiveFrame asm client) := by
  apply get_bind_later
  intro world start
  refine (bind_later (record_later (.received world.position) ?_) ?_) world start
  · rintro place named
    cases named
    exact start
  · intro _
    exact receiveHeader_later client limit asm _ start

theorem turn_later (asm : Assembly) (preamble : Bytes 6) :
    Moves (Later limit) (turn asm client preamble) := by
  apply bind_later (seeks_later (receiveBatch_seeks client asm.toConfig 6 _ _) limit)
  rintro ⟨pushed, found⟩
  apply Moves.ite (pure_later _)
  apply bind_later (receiveFrame_later client limit asm)
  intro _
  exact pure_later _

theorem runLoop_later (asm : Assembly) (turns : Nat) : ∀ preamble : Bytes 6,
    Moves (Later limit) (runLoop asm client turns preamble) := by
  induction turns with
  | zero => intro preamble; exact throw_later _
  | succ turns ih =>
      intro preamble
      apply bind_later (seeks_later (cancellationRequested_reads client).seeks limit)
      intro requested
      apply Moves.ite (pure_later _)
      apply bind_later (turn_later client limit asm preamble)
      intro pushed
      exact ih pushed

/-- A handover is logged before anything else happens to the frame. -/
theorem receiveFrame_received (asm : Assembly) {rest : Worker Unit}
    (later : Moves (Later 0) rest) (world : World) :
    world.received ++ [world.position] <+:
      (finalState ((receiveFrame asm client >>= fun _ => rest).run world)).received := by
  have logged : (record (.received world.position)).run world =
      .ok () { world with log := world.log ++ [.received world.position] } := rfl
  have onward : Moves (Later 0) (receiveHeader asm client world.position >>= fun _ => rest) :=
    bind_later (receiveHeader_later client 0 asm _ (Nat.zero_le _)) fun _ => later
  obtain ⟨_, new, log, _⟩ := onward { world with log := world.log ++ [.received world.position] }
    (Nat.zero_le _)
  unfold receiveFrame
  rw [bind_assoc, run_get_bind, bind_assoc, run_bind_ok logged]
  unfold World.received
  rw [log, List.filterMap_append, List.filterMap_append]
  exact List.prefix_append _ _

/-- So is the entry of `HandleFrameAsync`. -/
theorem handleFrameAsync_entered (asm : Assembly) (offset : Nat) (header : FrameHeader)
    {rest : Worker Unit} (later : Moves (Later 0) rest) (world : World) :
    world.entered ++ [(offset, header)] <+:
      (finalState ((handleFrameAsync asm client offset header >>= fun _ => rest).run
        world)).entered := by
  have logged : (record (.entered offset header)).run world =
      .ok () { world with log := world.log ++ [.entered offset header] } := rfl
  have onward : Moves (Later 0) (dispatch asm client header >>= fun _ => rest) :=
    bind_later (dispatch_later client 0 asm header) fun _ => later
  obtain ⟨_, new, log, _⟩ := onward { world with log := world.log ++ [.entered offset header] }
    (Nat.zero_le _)
  unfold handleFrameAsync
  rw [bind_assoc, run_bind_ok logged]
  unfold World.entered
  rw [log, List.filterMap_append, List.filterMap_append]
  exact List.prefix_append _ _

end FrameSession
end
end Wsac.Service
