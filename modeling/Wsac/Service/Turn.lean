import Wsac.Service.Scan
import Wsac.Layer1

/-! # What the service does behind a received preamble

`react` is the layer 1 state machine of the session seen from outside.  A header
that fails validation costs its 38 bytes; a frame that is handled costs the
whole body, in budget always, on the wire when the pieces of the pipe meet its
end. -/

set_option autoImplicit false

namespace Wsac.Service

open Library Library.Exec

def Event.reply? : Event → Option UInt16
  | .wrote header => some header.signature
  | _ => none

/-- The signatures of the frames written. -/
def World.replies (world : World) : List UInt16 := world.log.filterMap Event.reply?

namespace FrameSession

/-- New state, and the number of checkpoints written. -/
def react (asm : Assembly) (state : FrameSessionState) :
    Layer1.Received → FrameSessionState × Nat
  | .broken => (.none, 1)
  | .frame signature =>
      match findHandler asm signature with
      | some .checkpoint => if state = .none then (.ready, 0) else (state, 1)
      | some .regular => (state, 0)
      | some .test => (state, 0)
      | none => (state, 0)

/-- From `before` to `after` no header was read, and layer 1 came to `outcome`. -/
structure Reacts (cfg : Config) (before after : World) (outcome : FrameSessionState × Nat) :
    Prop where
  heads : after.heads = before.heads
  entered : after.entered = before.entered
  received : after.received = before.received
  state : after.state = outcome.1
  replies : after.replies = before.replies ++ List.replicate outcome.2 cfg.checkpointSignature

theorem Reacts.trans {cfg : Config} {first second third : World}
    {state last : FrameSessionState} {left right : Nat}
    (one : Reacts cfg first second (state, left)) (two : Reacts cfg second third (last, right)) :
    Reacts cfg first third (last, left + right) := by
  refine ⟨two.heads.trans one.heads, two.entered.trans one.entered,
    two.received.trans one.received, two.state, ?_⟩
  rw [two.replies, one.replies, List.append_assoc, List.replicate_append_replicate]

theorem Reacts.move (cfg : Config) (world : World) (position : Nat) (reader : PipeReader) :
    Reacts cfg world (world.move position reader) (world.state, 0) :=
  ⟨rfl, rfl, rfl, rfl, (List.append_nil _).symm⟩

theorem Reacts.moved {cfg : Config} {before after : World} {outcome : FrameSessionState × Nat}
    (reacts : Reacts cfg before after outcome) (position : Nat) (reader : PipeReader) :
    Reacts cfg before (after.move position reader) outcome :=
  ⟨reacts.heads, reacts.entered, reacts.received, reacts.state, reacts.replies⟩

/-- The frame at `offset` has been dealt with: its header was read once, and
`HandleFrameAsync` was entered for `entries`. -/
structure Settles (cfg : Config) (before after : World) (offset : Nat)
    (head : FrameHeader × Bool) (entries : List (Nat × FrameHeader))
    (outcome : FrameSessionState × Nat) : Prop where
  heads : after.heads = before.heads ++ [(offset, head)]
  entered : after.entered = before.entered ++ entries
  received : after.received = before.received ++ [offset]
  state : after.state = outcome.1
  replies : after.replies = before.replies ++ List.replicate outcome.2 cfg.checkpointSignature

/-- The events logged before layer 1 reacts. -/
def opening (offset : Nat) (header : FrameHeader) (passed entered : Bool) : List Event :=
  [.received offset, .checked offset header passed] ++
    if entered then [.entered offset header] else []

theorem Reacts.settles {cfg : Config} {before logged after : World} {offset : Nat}
    {header : FrameHeader} (passed entered : Bool) {outcome : FrameSessionState × Nat}
    (log : logged.log = before.log ++ opening offset header passed entered)
    (reacts : Reacts cfg logged after outcome) :
    Settles cfg before after offset (header, passed)
      (if entered = true then [(offset, header)] else []) outcome := by
  have heads : logged.heads = before.heads ++ [(offset, header, passed)] := by
    unfold World.heads
    rw [log, List.filterMap_append]
    cases entered <;> rfl
  have entries : logged.entered =
      before.entered ++ if entered = true then [(offset, header)] else [] := by
    unfold World.entered
    rw [log, List.filterMap_append]
    cases entered <;> rfl
  have received : logged.received = before.received ++ [offset] := by
    unfold World.received
    rw [log, List.filterMap_append]
    cases entered <;> rfl
  have replies : logged.replies = before.replies := by
    unfold World.replies
    rw [log, List.filterMap_append]
    cases entered <;> exact List.append_nil _
  refine ⟨?_, ?_, ?_, reacts.state, ?_⟩
  · rw [reacts.heads, heads]
  · rw [reacts.entered, entries]
  · rw [reacts.received, received]
  · rw [reacts.replies, replies]

/-- The loop of a skip from `start` has stopped at `last`, asked to stop at `stop`. -/
structure Lands (client : Client) (start stop last : Nat) : Prop where
  beyond : stop ≤ last
  onWire : last ≤ client.wire.length
  met : last = stop ↔ Pieces client (client.rented start) start stop

/-- The reader lends the `size` bytes of a body that is on the wire, out of `budget`. -/
structure Lent (client : Client) (world : World) (size : Nat) (budget : Int) : Prop where
  lends : world.reader = PipeReader.lending size budget
  covered : (size : Int) ≤ budget
  bounded : budget < 2 ^ 63
  short : 0 < size → client.wire.length - world.position < 2 ^ 63
  inside : world.position + size ≤ client.wire.length

/-- The body is behind, and layer 1 came to `outcome`. -/
structure Consumes (client : Client) (cfg : Config) (size : Nat) (budget : Int)
    (before after : World) (outcome : FrameSessionState × Nat) : Prop where
  reader : after.reader = PipeReader.lending 0 (budget - size)
  lands : Lands client before.position (before.position + size) after.position
  reacts : Reacts cfg before after outcome

theorem checkHeader_broken {cfg : Config} {header : FrameHeader}
    (invalid : header.validate cfg = false) : checkHeader cfg header = .ok false := by
  unfold checkHeader
  rw [if_pos invalid]

theorem checkHeader_signed {cfg : Config} {header : FrameHeader}
    (valid : header.validate cfg = true) (nonneg : 0 ≤ header.dataSize.toInt) :
    checkHeader cfg header = .ok true := by
  have fits : ¬ header.dataSize < 0 := by
    rw [Int64.lt_iff_toInt_lt]
    exact Int.not_lt.mpr nonneg
  unfold checkHeader
  rw [if_neg (by rw [valid]; decide), if_neg fits]

section
variable (client : Client)

theorem record_run (event : Event) (world : World) :
    (record event).run world = .ok () { world with log := world.log ++ [event] } := rfl

theorem setState_reacts (cfg : Config) (value : FrameSessionState) (world : World) :
    ∃ after, (setState value).run world = .ok () after ∧ Reacts cfg world after (value, 0) ∧
      after.position = world.position ∧ after.reader = world.reader := by
  refine ⟨{ world with state := value, log := world.log ++ [.state value] }, rfl, ?_, rfl, rfl⟩
  constructor <;>
    simp [World.heads, World.entered, World.received, World.replies, Event.head?, Event.entered?,
      Event.received?, Event.reply?]

theorem packetSession_reacts (cfg : Config) (world : World) :
    Reacts cfg world { world with log := world.log ++ [.packet] } (world.state, 0) := by
  constructor <;>
    simp [World.heads, World.entered, World.received, World.replies, Event.head?, Event.entered?,
      Event.received?, Event.reply?]

theorem writeCheckpoint_reacts (up : client.brokenAt = none) (cfg : Config) (world : World) :
    ∃ after, (FrameWriter.writeCheckpoint cfg client).run world = .ok () after ∧
      Reacts cfg world after (world.state, 1) ∧
      after.position = world.position ∧ after.reader = world.reader := by
  have wrote : ∀ (bytes : List UInt8) (world : World), (PipeWriter.write client bytes).run world =
      .ok () { world with written := world.written ++ bytes } := by
    intro bytes world
    rw [PipeWriter.write, run_get_bind, Client.refuses, up]
    rfl
  have drew : (FrameWriter.drawNonce client).run world =
      .ok (client.nonce world.drawn) { world with drawn := world.drawn + 1 } := rfl
  let header := FrameHeader.new cfg cfg.checkpointSignature 0 (client.nonce world.drawn)
  let after : World := { world with
    drawn := world.drawn + 1
    written := world.written ++ cfg.preamble.toList ++ header.encode.toList
    log := world.log ++ [.wrote header] }
  refine ⟨after, ?_, ?_, rfl, rfl⟩
  · unfold FrameWriter.writeCheckpoint FrameWriter.write
    rw [run_bind_ok drew]
    simp only
    rw [bind_assoc, run_bind_ok (wrote _ _), run_bind_ok (wrote _ _)]
    rfl
  · have signature : header.signature = cfg.checkpointSignature := rfl
    constructor <;>
      simp [after, World.heads, World.entered, World.received, World.replies, Event.head?,
        Event.entered?, Event.received?, Event.reply?, signature]

theorem requestCheckpoint_reacts (up : client.brokenAt = none) (cfg : Config) (world : World) :
    ∃ after, (requestCheckpoint cfg client).run world = .ok () after ∧
      Reacts cfg world after (.none, 1) ∧
      after.position = world.position ∧ after.reader = world.reader := by
  obtain ⟨middle, wrote, first, position, reader⟩ := writeCheckpoint_reacts client up cfg world
  obtain ⟨after, reset, second, position', reader'⟩ := setState_reacts cfg .none middle
  refine ⟨after, ?_, first.trans second, position'.trans position, reader'.trans reader⟩
  unfold requestCheckpoint
  rw [run_bind_ok wrote, reset]

/-- `ReadHeader` behind a read that returned: the verdict is logged. -/
theorem receiveHeader_eq (asm : Assembly) (offset : Nat) {world read : World}
    {image : Image} (taken : (PipeReader.read client 38).run world = .ok image read) :
    (receiveHeader asm client offset).run world =
      (match checkHeader asm.toConfig (FrameHeader.decode image) with
        | .error failure => throw failure
        | .ok false => requestCheckpoint asm.toConfig client
        | .ok true => do
            PipeReader.createChild (FrameHeader.decode image).dataSize
            handleFrameAsync asm client offset (FrameHeader.decode image)
            PipeReader.releaseChild : Worker Unit).run
        { read with log := read.log ++ [.checked world.position (FrameHeader.decode image)
            (passes (checkHeader asm.toConfig (FrameHeader.decode image)))] } := by
  unfold receiveHeader readHeader
  have recorded : ∀ event, (record event).run read =
      .ok () { read with log := read.log ++ [event] } := fun _ => rfl
  rw [bind_assoc, run_get_bind, bind_assoc, run_bind_ok taken, bind_assoc,
    run_bind_ok (recorded _)]
  cases checkHeader asm.toConfig (FrameHeader.decode image) with
  | error failure => rfl
  | ok passed => cases passed <;> rfl

end

section
variable (client : Client) (calm : client.cancelAt = none)
include calm

theorem Lent.skipAsync_run {world : World} {size : Nat} {budget : Int}
    (lent : Lent client world size budget) (bodySize : Int64) (exact : bodySize.toInt = size) :
    ∃ last, (PipeReader.skipAsync client bodySize).run world =
        .ok () (world.move last (PipeReader.lending 0 (budget - size))) ∧
      Lands client world.position (world.position + size) last := by
  have covered := lent.covered
  have bounded := lent.bounded
  obtain ⟨last, ran, beyond, onWire, met⟩ := PipeReader.skipAsync_run client calm bodySize world
    size budget lent.lends (by omega) (by omega) covered bounded
    (fun some_ => lent.short (by omega)) (world.position + size)
    (by rw [exact]; exact Int.natCast_add _ _) lent.inside
  refine ⟨last, ?_, beyond, onWire, met⟩
  rw [ran, exact, Int.sub_self]

/-- The skip at the end of `HandleFrameAsync`, with the whole body left. -/
theorem Lent.skipRest_run {world : World} {size : Nat} {budget : Int}
    (lent : Lent client world size budget) : ∃ last, (skipRest client).run world =
        .ok () (world.move last (PipeReader.lending 0 (budget - size))) ∧
      Lands client world.position (world.position + size) last := by
  have covered := lent.covered
  have bounded := lent.bounded
  have exact : (Int64.ofInt (size : Int)).toInt = size :=
    Int64.toInt_ofInt_of_le (by omega) (by omega)
  rw [skipRest, run_get_bind, lent.lends]
  by_cases empty : size = 0
  · subst empty
    have none_ : ¬ (PipeReader.lending ((0 : Nat) : Int) budget).available ≠ 0 := by
      intro some_
      exact some_ rfl
    have same : world.move world.position (PipeReader.lending 0 budget) = world := by
      have zero : PipeReader.lending 0 budget = world.reader := lent.lends.symm
      rw [zero]
      rfl
    refine ⟨world.position, ?_, Nat.le_refl _, lent.inside, ?_⟩
    · rw [if_neg none_, Int.natCast_zero, Int.sub_zero, same]
      rfl
    · exact ⟨fun _ => Pieces.done _, fun _ => rfl⟩
  · have some_ : (PipeReader.lending (size : Int) budget).available ≠ 0 := by
      intro zero
      have value := congrArg Int64.toInt zero
      change (Int64.ofInt (size : Int)).toInt = 0 at value
      omega
    rw [if_pos some_]
    exact lent.skipAsync_run client calm (Int64.ofInt (size : Int)) exact

/-- A frame that no handler takes: the body is skipped. -/
theorem Lent.skips {world : World} {size : Nat} {budget : Int}
    (lent : Lent client world size budget) (cfg : Config) (bodySize : Int64)
    (exact : bodySize.toInt = size) :
    ∃ after, (PipeReader.skipAsync client bodySize).run world = .ok () after ∧
      Consumes client cfg size budget world after (world.state, 0) := by
  obtain ⟨last, ran, lands⟩ := lent.skipAsync_run client calm bodySize exact
  exact ⟨_, ran, rfl, lands, Reacts.move cfg world last _⟩

/-- A handler that leaves the body alone: the rest of the frame is skipped. -/
theorem Lent.handled {world middle : World} {size : Nat} {budget : Int}
    (lent : Lent client world size budget) (cfg : Config) (handler : Handler)
    {outcome : FrameSessionState × Nat}
    (ran : (handleAsync cfg client handler).run world = .ok () middle)
    (reacts : Reacts cfg world middle outcome) (place : middle.position = world.position)
    (reader : middle.reader = world.reader) :
    ∃ after, (do handleAsync cfg client handler; skipRest client : Worker Unit).run world =
        .ok () after ∧
      Consumes client cfg size budget world after outcome := by
  have still : Lent client middle size budget := by
    refine ⟨reader.trans lent.lends, lent.covered, lent.bounded, ?_, ?_⟩
    · rw [place]
      exact lent.short
    · rw [place]
      exact lent.inside
  obtain ⟨last, rest, lands⟩ := still.skipRest_run client calm
  rw [place] at lands
  refine ⟨middle.move last (PipeReader.lending 0 (budget - size)), ?_, rfl, lands,
    reacts.moved last _⟩
  rw [run_bind_ok ran, rest]

omit calm in
theorem handleAsync_checkpoint (up : client.brokenAt = none) (cfg : Config) (world : World) :
    ∃ after, (handleAsync cfg client .checkpoint).run world = .ok () after ∧
      Reacts cfg world after
        (if world.state = .none then (.ready, 0) else (world.state, 1)) ∧
      after.position = world.position ∧ after.reader = world.reader := by
  simp only [handleAsync]
  rw [run_get_bind]
  by_cases idle : world.state = .none
  · rw [if_pos idle, if_pos idle]
    exact setState_reacts cfg .ready world
  · rw [if_neg idle, if_neg idle]
    exact writeCheckpoint_reacts client up cfg world

/-- `TestHandler` skips the whole body itself. -/
theorem Lent.tested {world : World} {size : Nat} {budget : Int}
    (lent : Lent client world size budget) (cfg : Config) :
    ∃ after, (do handleAsync cfg client .test; skipRest client : Worker Unit).run world =
        .ok () after ∧
      Consumes client cfg size budget world after (world.state, 0) := by
  have covered := lent.covered
  have bounded := lent.bounded
  obtain ⟨after, ran, consumes⟩ := lent.skips client calm cfg (Int64.ofInt (size : Int))
    (Int64.toInt_ofInt_of_le (by omega) (by omega))
  have handled : (handleAsync cfg client .test).run world = .ok () after := by
    have available : world.reader.available = Int64.ofInt (size : Int) := by
      rw [lent.lends]
      rfl
    simp only [handleAsync]
    rw [run_get_bind, available, ran]
  refine ⟨after, ?_, consumes⟩
  rw [run_bind_ok handled]
  rw [skipRest, run_get_bind, consumes.reader, if_neg]
  · rfl
  · intro some_
    exact some_ rfl

/-- The whole of `HandleFrameAsync` on a body that is on the wire. -/
theorem handleFrameAsync_run (up : client.brokenAt = none) (asm : Assembly) (offset : Nat)
    (header : FrameHeader) (world : World) (size : Nat) (budget : Int)
    (sized : header.dataSize.toInt = size) (lent : Lent client world size budget) :
    ∃ after, (handleFrameAsync asm client offset header).run world = .ok () after ∧
      Consumes client asm.toConfig size budget
        { world with log := world.log ++ [.entered offset header] } after
        (react asm world.state (.frame header.signature)) := by
  let entered : World := { world with log := world.log ++ [.entered offset header] }
  have still : Lent client entered size budget :=
    ⟨lent.lends, lent.covered, lent.bounded, lent.short, lent.inside⟩
  unfold handleFrameAsync
  rw [run_bind_ok (record_run _ world)]
  unfold dispatch
  simp only [react]
  cases findHandler asm header.signature with
  | none => exact still.skips client calm asm.toConfig header.dataSize sized
  | some handler =>
      simp only
      rw [run_get_bind]
      by_cases gated : world.state = .none ∧ handler = .regular
      · rw [if_pos gated, gated.2]
        exact still.skips client calm asm.toConfig header.dataSize sized
      · rw [if_neg gated]
        cases handler with
        | checkpoint =>
            obtain ⟨middle, ran, reacts, place, reader⟩ :=
              handleAsync_checkpoint client up asm.toConfig entered
            exact still.handled client calm asm.toConfig .checkpoint ran reacts place reader
        | regular =>
            exact still.handled client calm asm.toConfig .regular rfl
              (packetSession_reacts asm.toConfig entered) rfl rfl
        | test => exact still.tested client calm asm.toConfig

section
variable (asm : Assembly) (total : Int) (limited : total ≤ 2 ^ 63)
include limited

/-- With 38 bytes and their budget left, the header is read and checked. -/
theorem receiveFrame_reads (world : World) (funded : Funded total world)
    (within : ((world.position + 38 : Nat) : Int) ≤ total) (image : Image)
    (content : image.toList = (client.wire.drop world.position).take 38) :
    (receiveFrame asm client).run world =
      (match checkHeader asm.toConfig (FrameHeader.decode image) with
        | .error failure => throw failure
        | .ok false => requestCheckpoint asm.toConfig client
        | .ok true => do
            PipeReader.createChild (FrameHeader.decode image).dataSize
            handleFrameAsync asm client world.position (FrameHeader.decode image)
            PipeReader.releaseChild : Worker Unit).run
        { world.shift total (world.position + 38) with
          log := world.log ++ opening world.position (FrameHeader.decode image)
            (passes (checkHeader asm.toConfig (FrameHeader.decode image))) false } := by
  let logged : World := { world with log := world.log ++ [.received world.position] }
  have enough : world.position + 38 ≤ client.wire.length := by
    have size : ((client.wire.drop world.position).take 38).length = 38 := by
      rw [← content, List.Vector.toList_length]
    rw [List.length_take, List.length_drop] at size
    omega
  obtain ⟨filled, ran, same⟩ := read_funded client calm 38 (by decide) (by decide) logged total
    funded limited within enough
  have exact : filled = image := List.Vector.eq _ _ (same.trans content.symm)
  rw [exact] at ran
  have log : ∀ passed, logged.log ++ [.checked world.position (FrameHeader.decode image) passed] =
      world.log ++ opening world.position (FrameHeader.decode image) passed false := by
    intro passed
    simp [logged, opening]
  rw [← log]
  rw [receiveFrame, run_get_bind, run_bind_ok (record_run _ world)]
  exact receiveHeader_eq client asm world.position ran

/-- A preamble with too few bytes or too little budget behind it. -/
theorem receiveFrame_short (world : World) (funded : Funded total world)
    (lowest : (world.position : Int) ≤ total) (onWire : world.position ≤ client.wire.length)
    (short : total < (world.position + 38 : Nat) ∨ client.wire.length < world.position + 38) :
    ∃ failure after, (receiveFrame asm client).run world = .error failure after ∧
      after.heads = world.heads ∧ after.entered = world.entered := by
  let logged : World := { world with log := world.log ++ [.received world.position] }
  obtain ⟨failure, position, reader, ran⟩ := read_unfunded client calm 38 (by decide) (by decide)
    logged total funded limited (by simp only [logged]; omega) onWire short
  refine ⟨failure, logged.move position reader, ?_, ?_, ?_⟩
  · unfold receiveFrame receiveHeader readHeader
    rw [run_get_bind, run_bind_ok (record_run _ world)]
    simp only [bind_assoc]
    rw [run_get_bind, run_bind_error ran]
  · simp [logged, World.heads, Event.head?]
  · simp [logged, World.entered, Event.entered?]

theorem receiveFrame_broken (up : client.brokenAt = none) (world : World)
    (funded : Funded total world) (within : ((world.position + 38 : Nat) : Int) ≤ total)
    (image : Image) (content : image.toList = (client.wire.drop world.position).take 38)
    (invalid : (FrameHeader.decode image).validate asm.toConfig = false) :
    ∃ after, (receiveFrame asm client).run world = .ok () after ∧
      after.position = world.position + 38 ∧ Funded total after ∧
      Settles asm.toConfig world after world.position (FrameHeader.decode image, false) []
        (react asm world.state .broken) := by
  let read : World := { world.shift total (world.position + 38) with
    log := world.log ++ opening world.position (FrameHeader.decode image) false false }
  have rejected := receiveFrame_reads client calm asm total limited world funded within image
    content
  simp only [checkHeader_broken invalid] at rejected
  obtain ⟨after, asked, reacts, position, reader⟩ :=
    requestCheckpoint_reacts client up asm.toConfig read
  refine ⟨after, rejected.trans asked, position, ?_, Reacts.settles false false rfl reacts⟩
  unfold Funded
  rw [reader, position]
  rfl

/-- The steps up to `CreateChild` of a signed header. -/
theorem receiveFrame_checked (world : World) (funded : Funded total world)
    (within : ((world.position + 38 : Nat) : Int) ≤ total) (image : Image)
    (content : image.toList = (client.wire.drop world.position).take 38)
    (valid : (FrameHeader.decode image).validate asm.toConfig = true)
    (nonneg : 0 ≤ (FrameHeader.decode image).dataSize.toInt) :
    (receiveFrame asm client).run world =
      ((PipeReader.createChild (FrameHeader.decode image).dataSize >>= fun _ =>
        handleFrameAsync asm client world.position (FrameHeader.decode image) >>= fun _ =>
          PipeReader.releaseChild).run { world.shift total (world.position + 38) with
        log := world.log ++ opening world.position (FrameHeader.decode image) true false }) := by
  have accepted := receiveFrame_reads client calm asm total limited world funded within image
    content
  simp only [checkHeader_signed valid nonneg] at accepted
  exact accepted

/-- A signed header whose body is on the wire and within the budget. -/
theorem receiveFrame_signed (up : client.brokenAt = none) (world : World)
    (funded : Funded total world) (image : Image)
    (content : image.toList = (client.wire.drop world.position).take 38)
    (valid : (FrameHeader.decode image).validate asm.toConfig = true) (size : Nat)
    (sized : (FrameHeader.decode image).dataSize.toInt = size)
    (within : ((world.position + 38 + size : Nat) : Int) ≤ total)
    (short : 0 < size → client.wire.length - (world.position + 38) < 2 ^ 63)
    (inside : world.position + 38 + size ≤ client.wire.length) :
    ∃ after last, (receiveFrame asm client).run world = .ok () after ∧
      after.position = last ∧
      after.reader = PipeReader.holding (total - (world.position + 38 + size : Nat)) ∧
      Lands client (world.position + 38) (world.position + 38 + size) last ∧
      Settles asm.toConfig world after world.position (FrameHeader.decode image, true)
        [(world.position, FrameHeader.decode image)]
        (react asm world.state (.frame (FrameHeader.decode image).signature)) := by
  let read : World := { world.shift total (world.position + 38) with
    log := world.log ++ opening world.position (FrameHeader.decode image) true false }
  let opened := read.move read.position
    (PipeReader.lending size (total - (world.position + 38 : Nat)))
  have created := PipeReader.createChild_run read (total - (world.position + 38 : Nat))
    (FrameHeader.decode image).dataSize rfl (by omega) (by omega)
  rw [sized] at created
  have lent : Lent client opened size (total - (world.position + 38 : Nat)) :=
    ⟨rfl, by omega, by omega, short, inside⟩
  obtain ⟨after, handled, consumes⟩ := handleFrameAsync_run client calm up asm world.position
    (FrameHeader.decode image) opened size (total - (world.position + 38 : Nat)) sized lent
  refine ⟨{ after with reader := after.reader.released }, after.position, ?_, rfl, ?_,
    consumes.lands, ?_⟩
  · rw [receiveFrame_checked client calm asm total limited world funded (by omega) image content
      valid (by omega), run_bind_ok created, run_bind_ok handled]
    rfl
  · have left : total - (world.position + 38 : Nat) - size =
        total - (world.position + 38 + size : Nat) := by omega
    rw [consumes.reader, left]
    rfl
  · refine Reacts.settles true true ?_ (consumes.reacts.moved after.position after.reader.released)
    simp [read, opened, opening]

end
end
end FrameSession
end Wsac.Service
