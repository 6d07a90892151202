import Wsac.Service.Refusals
import Wsac.Service.Budget

/-! # What a frame costs

The bytes of a body are paid for by the handler or by one of the three skips of
`HandleFrameAsync`.  The handler is free: it may do anything that leaves the readers
alone, and reads of the body of any size within `body.Available`, whose exceptions it may
catch.  `frame` is a turn behind `ReadHeader` with such a handler in the place of the
three of the source. -/

set_option autoImplicit false

namespace Wsac.Service

open Library Library.Exec

/-- A run of a handler from `world`; `raised` are the exceptions of its reads. -/
inductive Handles (client : Client) :
    World → List Failure → EStateM.Result Failure World Unit → Prop where
  | returns (world : World) : Handles client world [] (.ok () world)
  | throws (world : World) (failure : Failure) : Handles client world [] (.error failure world)
  | acts {world after : World} {raised : List Failure}
      {result : EStateM.Result Failure World Unit} (untouched : after.reader = world.reader)
      (rest : Handles client after raised result) : Handles client world raised result
  | takes {world after : World} {raised : List Failure}
      {result : EStateM.Result Failure World Unit} (call : Call)
      (taking : ∀ size, call ≠ .createChild size) (nonneg : 0 ≤ call.size.toInt)
      (within : call.size.toInt ≤ world.reader.available.toInt)
      (ran : (call.perform client).run world = .ok () after)
      (rest : Handles client after raised result) : Handles client world raised result
  | fails {world after : World} {raised : List Failure} {failure : Failure}
      {result : EStateM.Result Failure World Unit} (call : Call)
      (taking : ∀ size, call ≠ .createChild size) (nonneg : 0 ≤ call.size.toInt)
      (within : call.size.toInt ≤ world.reader.available.toInt)
      (ran : (call.perform client).run world = .error failure after)
      (rest : Handles client after raised result) :
      Handles client world (failure :: raised) result

/-- A program all of whose runs on a body reader are runs of a handler. -/
def Handling (client : Client) (program : Worker Unit) : Prop :=
  ∀ world : World, 0 ≤ world.reader.available.toInt →
    ∃ raised, Handles client world raised (program.run world)

namespace FrameSession

/-- `HandleFrameAsync` behind its first line, with any three handlers. -/
def dispatchTo (handling : Handler → Worker Unit) (asm : Assembly) (client : Client)
    (header : FrameHeader) : Worker Unit :=
  match findHandler asm header.signature with
  | none => PipeReader.skipAsync client header.dataSize
  | some handler => do
      let world ← get
      if world.state = .none ∧ handler = .regular then
        PipeReader.skipAsync client header.dataSize
      else
        handling handler
        skipRest client

def handleFrameTo (handling : Handler → Worker Unit) (asm : Assembly) (client : Client)
    (offset : Nat) (header : FrameHeader) : Worker Unit := do
  record (.entered offset header)
  dispatchTo handling asm client header

/-- A turn behind `ReadHeader`. -/
def frame (handling : Handler → Worker Unit) (asm : Assembly) (client : Client)
    (offset : Nat) (header : FrameHeader) : Worker Unit := do
  PipeReader.createChild header.dataSize
  handleFrameTo handling asm client offset header
  PipeReader.releaseChild

/-- The turn of the source is `frame` with the handlers of the source. -/
theorem receiveHeader_frame (asm : Assembly) (client : Client) (offset : Nat) :
    receiveHeader asm client offset = (do
      let (header, passed) ← readHeader asm.toConfig client
      if passed = false then requestCheckpoint asm.toConfig client
      else frame (handleAsync asm.toConfig client) asm client offset header) := rfl

end FrameSession

/-! ## Runs of a handler -/

namespace Handles
variable {client : Client} {world after : World} {raised : List Failure}
  {result : EStateM.Result Failure World Unit}

/-- A run that returns, and a run from where it stands then. -/
theorem append {later : List Failure} {first : EStateM.Result Failure World Unit}
    (handles : Handles client world raised first) (returned : first = .ok () after)
    (rest : Handles client after later result) :
    Handles client world (raised ++ later) result := by
  induction handles with
  | returns => cases returned; exact rest
  | throws => cases returned
  | acts untouched _ ih => exact .acts untouched (ih returned)
  | takes call taking nonneg within ran _ ih =>
      exact .takes call taking nonneg within ran (ih returned)
  | fails call taking nonneg within ran _ ih =>
      exact .fails call taking nonneg within ran (ih returned)

theorem bind {program : Worker Unit} {rest : Unit → Worker Unit}
    (first : ∃ raised, Handles client world raised (program.run world))
    (second : ∀ raised middle, Handles client world raised (program.run world) →
      program.run world = .ok () middle →
      ∃ later, Handles client middle later ((rest ()).run middle)) :
    ∃ raised, Handles client world raised ((program >>= rest).run world) := by
  obtain ⟨raised, handles⟩ := first
  cases ran : program.run world with
  | ok value middle =>
      obtain ⟨later, goes⟩ := second raised middle handles ran
      rw [run_bind_ok ran]
      exact ⟨raised ++ later, handles.append ran goes⟩
  | error failure middle =>
      rw [run_bind_error ran]
      rw [ran] at handles
      exact ⟨raised, handles⟩

/-- One read within `Available`, whose exception is passed on. -/
theorem of_call (call : Call) (taking : ∀ size, call ≠ .createChild size)
    (nonneg : 0 ≤ call.size.toInt)
    (within : call.size.toInt ≤ world.reader.available.toInt) :
    ∃ raised, Handles client world raised ((call.perform client).run world) := by
  cases ran : (call.perform client).run world with
  | ok value after => exact ⟨[], .takes call taking nonneg within ran (.returns after)⟩
  | error failure after =>
      exact ⟨[failure], .fails call taking nonneg within ran (.throws after failure)⟩

end Handles

/-! ## The body reader and the root -/

theorem available_lending (left budget : Int) (nonneg : 0 ≤ left) (bounded : left < 2 ^ 63) :
    (PipeReader.lending left budget).available.toInt = left :=
  Int64.toInt_ofInt_of_le (by omega) bounded

theorem PipeReader.holding_of_root {world : World} {budget : Int64}
    (root : world.reader = .root budget) : world.reader = holding budget.toInt := by
  rw [root, holding, Int64.ofInt_toInt]

/-- A read within `Available` takes its size from both readers, whatever becomes of it, and
is not what throws for want of budget. -/
theorem Call.perform_lending (client : Client) (call : Call)
    (taking : ∀ size, call ≠ .createChild size) {world : World} {left budget : Int}
    (lends : world.reader = PipeReader.lending left budget) (nonneg : 0 ≤ call.size.toInt)
    (within : call.size.toInt ≤ left) (covered : left ≤ budget) (bounded : budget < 2 ^ 63) :
    (finalState ((call.perform client).run world)).reader =
        PipeReader.lending (left - call.size.toInt) (budget - call.size.toInt) ∧
      ∀ failure after, (call.perform client).run world = .error failure after →
        failure ≠ .application := by
  obtain ⟨rest, reads, performs⟩ := call.perform_charges client taking
  have charged := PipeReader.charge_lending world left budget call.size lends within nonneg
    covered bounded
  rw [performs, run_bind_ok charged]
  exact ⟨reads.reader _, fun failure after failed => (reads.unrefused _ failure after failed).1⟩

/-- What a handler spends, it spends from both readers, and no read of it is over the limit. -/
theorem Handles.spends {client : Client} {world : World} {raised : List Failure}
    {result : EStateM.Result Failure World Unit} (handles : Handles client world raised result) :
    ∀ left budget : Int, world.reader = PipeReader.lending left budget → 0 ≤ left →
      left ≤ budget → budget < 2 ^ 63 →
      .application ∉ raised ∧ ∃ spent, 0 ≤ spent ∧ spent ≤ left ∧
        (finalState result).reader = PipeReader.lending (left - spent) (budget - spent) := by
  induction handles with
  | returns world =>
      intro left budget lends nonneg covered bounded
      refine ⟨List.not_mem_nil, 0, Int.le_refl 0, nonneg, ?_⟩
      rw [Int.sub_zero, Int.sub_zero]
      exact lends
  | throws world failure =>
      intro left budget lends nonneg covered bounded
      refine ⟨List.not_mem_nil, 0, Int.le_refl 0, nonneg, ?_⟩
      rw [Int.sub_zero, Int.sub_zero]
      exact lends
  | acts untouched _ ih =>
      intro left budget lends
      exact ih left budget (untouched.trans lends)
  | takes call taking size_nonneg within ran _ ih =>
      intro left budget lends nonneg covered bounded
      rw [lends, available_lending left budget nonneg (by omega)] at within
      obtain ⟨reader, _⟩ := call.perform_lending _ taking lends size_nonneg within covered bounded
      rw [ran] at reader
      obtain ⟨clean, spent, less, most, final⟩ := ih (left - call.size.toInt)
        (budget - call.size.toInt) reader (by omega) (by omega) (by omega)
      refine ⟨clean, call.size.toInt + spent, by omega, by omega, ?_⟩
      rw [final, Int.sub_sub, Int.sub_sub]
  | fails call taking size_nonneg within ran _ ih =>
      intro left budget lends nonneg covered bounded
      rw [lends, available_lending left budget nonneg (by omega)] at within
      obtain ⟨reader, unrefused⟩ :=
        call.perform_lending _ taking lends size_nonneg within covered bounded
      rw [ran] at reader
      obtain ⟨clean, spent, less, most, final⟩ := ih (left - call.size.toInt)
        (budget - call.size.toInt) reader (by omega) (by omega) (by omega)
      refine ⟨?_, call.size.toInt + spent, by omega, by omega, ?_⟩
      · rw [List.mem_cons, not_or]
        exact ⟨(unrefused _ _ ran).symm, clean⟩
      · rw [final, Int.sub_sub, Int.sub_sub]

namespace FrameSession
variable (asm : Assembly) (client : Client) (handling : Handler → Worker Unit)
  (behaves : ∀ handler, Handling client (handling handler))

/-- `SkipAsync` of all that is left. -/
theorem skip_left {world : World} {left budget : Int} {size : Int64}
    (lends : world.reader = PipeReader.lending left budget) (nonneg : 0 ≤ left)
    (covered : left ≤ budget) (bounded : budget < 2 ^ 63) (all : size.toInt = left) :
    (∃ raised, Handles client world raised ((PipeReader.skipAsync client size).run world)) ∧
      (finalState ((PipeReader.skipAsync client size).run world)).reader =
        PipeReader.lending 0 (budget - left) := by
  have taking : ∀ other, Call.skipAsync size ≠ .createChild other := fun _ same => by cases same
  have available := available_lending left budget nonneg (by omega)
  have sized : (Call.skipAsync size).size.toInt = left := all
  constructor
  · exact Handles.of_call (.skipAsync size) taking (by omega) (by rw [lends]; omega)
  · have paid := (Call.perform_lending client (.skipAsync size) taking lends (by omega) (by omega)
      covered bounded).1
    rw [sized, Int.sub_self] at paid
    exact paid

theorem skipRest_left {world : World} {left budget : Int}
    (lends : world.reader = PipeReader.lending left budget) (nonneg : 0 ≤ left)
    (covered : left ≤ budget) (bounded : budget < 2 ^ 63) :
    (∃ raised, Handles client world raised ((skipRest client).run world)) ∧
      (finalState ((skipRest client).run world)).reader =
        PipeReader.lending 0 (budget - left) := by
  have available := available_lending left budget nonneg (by omega)
  rw [← lends] at available
  rw [skipRest, run_get_bind]
  by_cases rest : world.reader.available ≠ 0
  · rw [if_pos rest]
    exact skip_left client lends nonneg covered bounded available
  · rw [if_neg rest]
    have none_left : left = 0 := by
      rw [← available, not_ne_iff.mp rest]
      rfl
    refine ⟨⟨[], .returns world⟩, ?_⟩
    rw [none_left] at lends ⊢
    rw [Int.sub_zero]
    exact lends

/-- From here on, `program` is a run of a handler, and has spent the body when it returns. -/
def Spends (left budget : Int) (program : Worker Unit) (world : World) : Prop :=
  (∃ raised, Handles client world raised (program.run world)) ∧
    ∀ after, program.run world = .ok () after →
      after.reader = PipeReader.lending 0 (budget - left)

theorem skip_spends {world : World} {budget : Int} {size : Int64}
    (lends : world.reader = PipeReader.lending size.toInt budget) (nonneg : 0 ≤ size.toInt)
    (covered : size.toInt ≤ budget) (bounded : budget < 2 ^ 63) :
    Spends client size.toInt budget (PipeReader.skipAsync client size) world := by
  obtain ⟨handles, reader⟩ := skip_left client lends nonneg covered bounded rfl
  refine ⟨handles, fun after ran => ?_⟩
  rw [ran] at reader
  exact reader

/-- A handler, and then the skip of what it has left. -/
theorem handled_spends {program : Worker Unit} (behaves : Handling client program)
    {world : World} {left budget : Int}
    (lends : world.reader = PipeReader.lending left budget) (nonneg : 0 ≤ left)
    (covered : left ≤ budget) (bounded : budget < 2 ^ 63) :
    Spends client left budget (program >>= fun _ => skipRest client) world := by
  have available := available_lending left budget nonneg (by omega)
  rw [← lends] at available
  have rest : ∀ raised middle, Handles client world raised (program.run world) →
      program.run world = .ok () middle →
      (∃ later, Handles client middle later ((skipRest client).run middle)) ∧
        (finalState ((skipRest client).run middle)).reader =
          PipeReader.lending 0 (budget - left) := by
    intro raised middle handles ran
    rw [ran] at handles
    obtain ⟨_, spent, less, most, reader⟩ := handles.spends left budget lends nonneg covered bounded
    have paid := skipRest_left client reader (by omega) (by omega) (by omega)
    rw [show budget - spent - (left - spent) = budget - left by omega] at paid
    exact paid
  have first := behaves world (by omega)
  refine ⟨Handles.bind first fun raised middle handles ran => (rest raised middle handles ran).1,
    fun after ran => ?_⟩
  obtain ⟨_, middle, ranFirst, ranRest⟩ := run_bind_eq_ok.mp ran
  obtain ⟨raised, handles⟩ := first
  have reader := (rest raised middle handles ranFirst).2
  rw [ranRest] at reader
  exact reader

include behaves

theorem dispatchTo_spends (header : FrameHeader) (nonneg : 0 ≤ header.dataSize.toInt)
    {world : World} {budget : Int}
    (lends : world.reader = PipeReader.lending header.dataSize.toInt budget)
    (covered : header.dataSize.toInt ≤ budget) (bounded : budget < 2 ^ 63) :
    Spends client header.dataSize.toInt budget (dispatchTo handling asm client header) world := by
  have skipped := skip_spends client lends nonneg covered bounded
  cases found : findHandler asm header.signature with
  | none =>
      simp only [dispatchTo, found]
      exact skipped
  | some handler =>
      have entered : (dispatchTo handling asm client header).run world =
          (if world.state = .none ∧ handler = .regular then
            PipeReader.skipAsync client header.dataSize
          else handling handler >>= fun _ => skipRest client).run world := by
        simp only [dispatchTo, found]
        rw [run_get_bind]
      rw [Spends, entered]
      by_cases early : world.state = .none ∧ handler = .regular
      · rw [if_pos early]
        exact skipped
      · rw [if_neg early]
        exact handled_spends client (behaves handler) lends nonneg covered bounded

theorem handleFrameTo_spends (offset : Nat) (header : FrameHeader)
    (nonneg : 0 ≤ header.dataSize.toInt) {world : World} {budget : Int}
    (lends : world.reader = PipeReader.lending header.dataSize.toInt budget)
    (covered : header.dataSize.toInt ≤ budget) (bounded : budget < 2 ^ 63) :
    Spends client header.dataSize.toInt budget
      (handleFrameTo handling asm client offset header) world := by
  have recorded : (record (.entered offset header)).run world =
      .ok () { world with log := world.log ++ [.entered offset header] } := rfl
  have spends : Spends client header.dataSize.toInt budget (dispatchTo handling asm client header)
      { world with log := world.log ++ [.entered offset header] } :=
    dispatchTo_spends asm client handling behaves header nonneg lends covered bounded
  obtain ⟨⟨raised, handles⟩, reader⟩ := spends
  rw [Spends, handleFrameTo, run_bind_ok recorded]
  refine ⟨⟨raised, Handles.acts ?_ handles⟩, reader⟩
  rfl

end FrameSession

/-! ## The frame -/

/-- With the body reader of a frame. -/
def World.lend (world : World) (size : Int64) : World :=
  { world with reader := .child size world.reader }

/-- Either the frame is refused before anything has happened, or a return of
`HandleFrameAsync` leaves nothing of the body and takes its size from the root; no read on
the way is over the limit. -/
def Accounted (asm : Assembly) (client : Client) (handling : Handler → Worker Unit)
    (offset : Nat) (header : FrameHeader) (budget : Int64) (world : World) : Prop :=
  (budget.toInt < header.dataSize.toInt ∧
    (FrameSession.frame handling asm client offset header).run world =
      .error .argumentOutOfRange world) ∨
  (header.dataSize.toInt ≤ budget.toInt ∧
    (PipeReader.createChild header.dataSize).run world = .ok () (world.lend header.dataSize) ∧
    (∃ raised, Handles client (world.lend header.dataSize) raised
      ((FrameSession.handleFrameTo handling asm client offset header).run
        (world.lend header.dataSize))) ∧
    (∀ raised, Handles client (world.lend header.dataSize) raised
      ((FrameSession.handleFrameTo handling asm client offset header).run
        (world.lend header.dataSize)) → .application ∉ raised) ∧
    ∀ after, (FrameSession.handleFrameTo handling asm client offset header).run
        (world.lend header.dataSize) = .ok () after →
      after.reader = .child 0 (.root (budget - header.dataSize)) ∧
        (budget - header.dataSize).toInt = budget.toInt - header.dataSize.toInt)

theorem frame_accounted (asm : Assembly) (client : Client) (handling : Handler → Worker Unit)
    (behaves : ∀ handler, Handling client (handling handler)) (offset : Nat)
    (header : FrameHeader) (nonneg : 0 ≤ header.dataSize.toInt) (budget : Int64) (world : World)
    (root : world.reader = .root budget) :
    Accounted asm client handling offset header budget world := by
  have bounded := budget.toInt_lt
  have lowest := budget.le_toInt
  have holds := PipeReader.holding_of_root root
  by_cases covered : header.dataSize.toInt ≤ budget.toInt
  · have lends : (world.lend header.dataSize).reader =
        PipeReader.lending header.dataSize.toInt budget.toInt := by
      rw [PipeReader.lending, Int64.ofInt_toInt, ← holds]
      rfl
    have made : (PipeReader.createChild header.dataSize).run world =
        .ok () (world.lend header.dataSize) := by
      rw [PipeReader.createChild_run world budget.toInt header.dataSize holds covered bounded,
        ← lends]
      rfl
    have difference : Int64.ofInt (budget.toInt - header.dataSize.toInt) =
        budget - header.dataSize := by
      rw [← ofInt_sub_size, Int64.ofInt_toInt]
    obtain ⟨handles, returned⟩ := FrameSession.handleFrameTo_spends asm client handling behaves
      offset header nonneg lends covered bounded
    refine Or.inr ⟨covered, made, handles, fun raised handles => ?_, fun after ran => ⟨?_, ?_⟩⟩
    · exact (handles.spends _ _ lends nonneg covered bounded).1
    · rw [returned after ran, PipeReader.lending, PipeReader.holding, difference]
      rfl
    · rw [← difference, Int64.toInt_ofInt_of_le (by omega) (by omega)]
  · exact Or.inl ⟨by omega, run_bind_error (PipeReader.createChild_refused world budget.toInt
      header.dataSize holds (by omega) lowest)⟩

namespace Sample

/-- A handler that takes one byte of the body if there is one. -/
def taste (client : Client) : Worker Unit := do
  let world ← get
  if 0 < world.reader.available.toInt then (Call.readAsync 1).perform client else pure ()

theorem taste_handling (client : Client) : Handling client (taste client) := by
  intro world _
  rw [taste, run_get_bind]
  by_cases more : 0 < world.reader.available.toInt
  · rw [if_pos more]
    exact Handles.of_call (.readAsync 1) (fun _ same => by cases same) (by decide) more
  · rw [if_neg more]
    exact ⟨[], .returns world⟩

def threeBytes : Client := Client.waiting [7, 8, 9] Wsac.Sample.nonce

def announced : FrameHeader :=
  FrameHeader.new Wsac.Sample.config Wsac.Sample.config.testSignature 3 Wsac.Sample.nonce

theorem frame_accounted_taste :
    Accounted assembly threeBytes (fun _ => taste threeBytes) 0 announced 10
      (World.start (.root 10)) :=
  frame_accounted assembly threeBytes (fun _ => taste threeBytes)
    (fun _ => taste_handling threeBytes) 0 announced (by decide) 10 (World.start (.root 10)) rfl

example : (finalState ((FrameSession.handleFrameTo (fun _ => pure ()) assembly threeBytes 0
    announced).run ((World.start (.root 10)).lend 3))).reader = .child 0 (.root 7) := by
  decide +kernel

end Sample

/-! ## The handlers of the source -/

def Untouched (before after : World) : Prop := after.reader = before.reader

theorem Untouched.refl (world : World) : Untouched world world := rfl

theorem Untouched.trans (first second third : World) (left : Untouched first second)
    (right : Untouched second third) : Untouched first third := Eq.trans right left

theorem Handling.of_untouched {client : Client} {program : Worker Unit}
    (untouched : Moves Untouched program) : Handling client program := by
  intro world _
  have same := untouched world
  cases ran : program.run world with
  | ok value after =>
      rw [ran] at same
      exact ⟨[], .acts same (.returns after)⟩
  | error failure after =>
      rw [ran] at same
      exact ⟨[], .acts same (.throws after failure)⟩

namespace FrameSession
variable (cfg : Config) (client : Client)

theorem setState_untouched (value : FrameSessionState) : Moves Untouched (setState value) :=
  fun _ => rfl

theorem pipeWriter_untouched (bytes : List UInt8) :
    Moves Untouched (PipeWriter.write client bytes) := by
  intro world
  rw [PipeWriter.write, run_get_bind]
  split
  · exact Untouched.refl world
  · exact Untouched.refl world

theorem writeCheckpoint_untouched :
    Moves Untouched (FrameWriter.writeCheckpoint cfg client) := by
  have drawn : Moves Untouched (FrameWriter.drawNonce client) := fun _ => rfl
  have recorded : ∀ event, Moves Untouched (record event) := fun _ _ => rfl
  apply Moves.bind Untouched.trans drawn
  intro nonce
  refine Moves.bind Untouched.trans ?_ fun _ => recorded _
  exact Moves.bind Untouched.trans (pipeWriter_untouched client _)
    fun _ => pipeWriter_untouched client _

/-- None of the three handlers of the source spends more than the body. -/
theorem handleAsync_handling (handler : Handler) :
    Handling client (handleAsync cfg client handler) := by
  cases handler with
  | checkpoint =>
      have got : Moves Untouched (get : Worker World) := Untouched.refl
      apply Handling.of_untouched
      apply Moves.bind Untouched.trans got
      intro world
      exact Moves.ite (setState_untouched _) (writeCheckpoint_untouched cfg client)
  | regular => exact Handling.of_untouched fun _ => rfl
  | test =>
      intro world nonneg
      rw [handleAsync, run_get_bind]
      exact Handles.of_call (.skipAsync world.reader.available) (fun _ same => by cases same)
        nonneg (Int.le_refl _)

/-- A frame that is handled to its end has taken its size from the root. -/
theorem frame_returns (asm : Assembly) (handling : Handler → Worker Unit)
    (behaves : ∀ handler, Handling client (handling handler)) (offset : Nat)
    (header : FrameHeader) (nonneg : 0 ≤ header.dataSize.toInt) {budget : Int64}
    {world after : World} (root : world.reader = .root budget)
    (ran : (frame handling asm client offset header).run world = .ok () after) :
    after.reader = .root (budget - header.dataSize) := by
  have bounded := budget.toInt_lt
  have holds := PipeReader.holding_of_root root
  obtain ⟨_, lent, made, ran⟩ := run_bind_eq_ok.mp ran
  obtain ⟨_, spent, handled, released⟩ := run_bind_eq_ok.mp ran
  by_cases covered : header.dataSize.toInt ≤ budget.toInt
  · rw [PipeReader.createChild_run world budget.toInt header.dataSize holds covered bounded] at made
    cases made
    have reader := (handleFrameTo_spends asm client handling behaves offset header nonneg rfl
      covered bounded).2 spent handled
    cases released
    show spent.reader.released = _
    rw [reader, PipeReader.lending, PipeReader.released, PipeReader.holding, ← ofInt_sub_size,
      Int64.ofInt_toInt]
  · rw [PipeReader.createChild_refused world budget.toInt header.dataSize holds (by omega)
      budget.le_toInt] at made
    cases made

theorem checkHeader_passed {header : FrameHeader}
    (passed : checkHeader cfg header = .ok true) : 0 ≤ header.dataSize.toInt := by
  rw [checkHeader] at passed
  split at passed
  · cases passed
  · split at passed
    · cases passed
    · rename_i fits
      rw [Int64.lt_iff_toInt_lt, Int64.toInt_zero] at fits
      omega

theorem readHeader_returns {header : FrameHeader} {passed : Bool} {budget : Int64}
    {world after : World} (root : world.reader = .root budget)
    (ran : (readHeader cfg client).run world = .ok (header, passed) after) :
    after.reader = .root (budget - 38) ∧ checkHeader cfg header = .ok passed := by
  obtain ⟨_, _, got, ran⟩ := run_bind_eq_ok.mp ran
  cases got
  obtain ⟨image, middle, read, ran⟩ := run_bind_eq_ok.mp ran
  obtain ⟨_, recorded, wrote, ran⟩ := run_bind_eq_ok.mp ran
  have performed : ((Call.read 38).perform client).run world = .ok () middle := by
    rw [Call.perform, run_bind_ok read]
    rfl
  have paid := (Call.perform_reader client (.read 38) (fun _ same => by cases same) world).1
  rw [performed, root] at paid
  cases wrote
  cases checked : checkHeader cfg (FrameHeader.decode image) with
  | error failure =>
      simp only [checked] at ran
      cases ran
  | ok verdict =>
      simp only [checked] at ran
      cases ran
      exact ⟨paid, checked⟩

/-- A turn of the source behind "preamble received", if it returns: a rejected header costs
its 38 bytes, a frame those and its body. -/
theorem receiveHeader_returns (asm : Assembly) (offset : Nat) {budget : Int64}
    {world after : World} (root : world.reader = .root budget)
    (ran : (receiveHeader asm client offset).run world = .ok () after) :
    ∃ header passed middle,
      (readHeader asm.toConfig client).run world = .ok (header, passed) middle ∧
        after.reader =
          .root (if passed = true then budget - 38 - header.dataSize else budget - 38) := by
  rw [receiveHeader_frame] at ran
  obtain ⟨⟨header, passed⟩, middle, read, ran⟩ := run_bind_eq_ok.mp ran
  obtain ⟨paid, checked⟩ := readHeader_returns asm.toConfig client root read
  refine ⟨header, passed, middle, read, ?_⟩
  cases passed with
  | false =>
      have same : Moves Untouched (requestCheckpoint asm.toConfig client) :=
        Moves.bind Untouched.trans (writeCheckpoint_untouched asm.toConfig client)
          fun _ => setState_untouched _
      have still := same middle
      simp only [if_true] at ran
      rw [ran] at still
      exact Eq.trans still paid
  | true =>
      simp only [Bool.true_eq_false, if_false] at ran
      exact frame_returns client asm (handleAsync asm.toConfig client)
        (handleAsync_handling asm.toConfig client) offset header
        (checkHeader_passed asm.toConfig checked) paid ran

end FrameSession
end Wsac.Service
