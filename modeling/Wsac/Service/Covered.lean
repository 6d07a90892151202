import Wsac.Service.Walk

/-! # The turns that a budget covers

Without a cancellation, a session whose budget covers what a head asks for completes the turn
of every block.  Where the budget ends, the turn ends with it. -/

set_option autoImplicit false

namespace Wsac.Service

open Library Library.Exec Relation

section Calm
variable {client : Client} (calm : client.cancelAt = none)
include calm

namespace PipeReader

theorem readAsyncLoop_completes {requested : Nat} (room : 0 < requested) {size : Int64}
    {position last : Nat} {i : Int64} (lands : Landing client requested size position i last) :
    ∀ (bytesLeft : Nat) (stream : List UInt8) (world : World), world.position = position →
      client.wire.length - position ≤ bytesLeft →
      ∃ filled, (readAsyncLoop client size requested bytesLeft i stream).run world =
        .ok filled (world.move last world.reader) := by
  induction lands with
  | done position i full =>
      rintro bytesLeft stream world rfl _
      rw [Int64.lt_iff_toInt_lt] at full
      exact ⟨stream, readAsyncLoop_done client size requested bytesLeft i stream world (by omega)⟩
  | piece position i last unfinished rest ih =>
      rintro bytesLeft stream world rfl left
      have more := (Landing.piece _ _ _ unfinished rest).more unfinished
      have positive := client.served_pos world.position requested more room
      obtain ⟨bytesLeft, rfl⟩ : ∃ fewer, bytesLeft = fewer + 1 := ⟨bytesLeft - 1, by omega⟩
      rw [Int64.lt_iff_toInt_lt] at unfinished
      rw [readAsyncLoop_turn client calm size requested room bytesLeft i stream world unfinished
        more]
      exact ih bytesLeft _ _ rfl (by omega)

theorem readAsyncInternal_completes {size : Int64} {world : World} {last : Nat}
    (lands : Landing client (client.rented world.position) size world.position 0 last) :
    ∃ stream, (readAsyncInternal client size).run world =
      .ok stream (world.move last world.reader) := by
  have room := client.rented_ge world.position
  obtain ⟨filled, looped⟩ := readAsyncLoop_completes calm (by omega) lands
    (client.wire.length - world.position) [] world rfl (Nat.le_refl _)
  refine ⟨filled, ?_⟩
  rw [readAsyncInternal, run_get_bind, run_bind_ok looped,
    run_bind_ok (throwIfCancellationRequested_run client calm _)]
  rfl

theorem skipAsync_completes {size : Int64} {world : World} {left budget : Int} {last : Nat}
    (lends : world.reader = lending left budget) (positive : 0 ≤ size.toInt)
    (within : size.toInt ≤ left) (covered : left ≤ budget) (bounded : budget < 2 ^ 63)
    (lands : Landing client (client.rented world.position) size world.position 0 last) :
    (skipAsync client size).run world = .ok () (world.move last
      (lending (left - size.toInt) (budget - size.toInt))) := by
  let charged := world.move world.position (lending (left - size.toInt) (budget - size.toInt))
  have onward :
      Landing client (client.rented charged.position) size charged.position 0 last := lands
  obtain ⟨stream, ran⟩ := readAsyncInternal_completes calm onward
  unfold skipAsync
  rw [run_bind_ok (charge_lending world left budget size lends within positive covered bounded),
    run_bind_ok ran]
  rfl

end PipeReader

namespace FrameSession

/-- The reader lends a body whose pieces lead to `last`. -/
structure Lends (client : Client) (size : Int64) (budget : Int) (last : Nat) (world : World) :
    Prop where
  lends : world.reader = PipeReader.lending size.toInt budget
  nonneg : 0 ≤ size.toInt
  covered : size.toInt ≤ budget
  bounded : budget < 2 ^ 63
  lands : Landing client (client.rented world.position) size world.position 0 last

namespace Lends
variable {size : Int64} {budget : Int} {last : Nat} {world : World}

theorem skips (lends : Lends client size budget last world) :
    (PipeReader.skipAsync client size).run world =
      .ok () (world.move last (PipeReader.lending 0 (budget - size.toInt))) := by
  have ran := PipeReader.skipAsync_completes calm lends.lends lends.nonneg (Int.le_refl _)
    lends.covered lends.bounded lends.lands
  rwa [Int.sub_self] at ran

omit calm in
theorem available (lends : Lends client size budget last world) :
    world.reader.available = size := by
  rw [lends.lends]
  exact Int64.ofInt_toInt size

theorem rest (lends : Lends client size budget last world) :
    ∃ after, (skipRest client).run world = .ok () after := by
  unfold skipRest
  rw [run_get_bind, lends.available]
  by_cases empty : size = 0
  · rw [if_neg (not_not.mpr empty)]
    exact ⟨world, rfl⟩
  · rw [if_pos empty]
    exact ⟨_, lends.skips calm⟩

omit calm in
/-- What a handler does in front of the skip leaves the body where it is. -/
theorem behind (lends : Lends client size budget last world) {middle : World}
    (place : middle.position = world.position) (reader : middle.reader = world.reader) :
    Lends client size budget last middle := by
  refine ⟨reader.trans lends.lends, lends.nonneg, lends.covered, lends.bounded, ?_⟩
  rw [place]
  exact lends.lands

theorem handles (lends : Lends client size budget last world) {asm : Assembly}
    {signature : UInt16} {handler : Handler}
    (found : findHandler asm signature = some handler)
    (takes : (react asm world.state (.frame signature)).2 = 0 ∨
      client.Takes world.written.length) :
    ∃ after, (handleAsync asm.toConfig client handler >>= fun _ => skipRest client).run world =
      .ok () after := by
  simp only [react, found] at takes
  cases handler with
  | checkpoint =>
      simp only [handleAsync, bind_assoc]
      rw [run_get_bind]
      by_cases idle : world.state = .none
      · rw [if_pos idle]
        have ready : (setState .ready).run world =
            .ok () { world with state := .ready, log := world.log ++ [.state .ready] } := rfl
        rw [run_bind_ok ready]
        refine rest calm (lends.behind ?_ ?_)
        · rfl
        · rfl
      · rw [if_neg idle] at takes ⊢
        have taken : client.Takes world.written.length := by
          rcases takes with none_ | taken
          · cases none_
          · exact taken
        rw [run_bind_ok (writeCheckpoint_iff.mpr ⟨taken, rfl⟩)]
        refine rest calm (lends.behind ?_ ?_)
        · rfl
        · rfl
  | regular =>
      have packet : (handleAsync asm.toConfig client .regular).run world =
          .ok () { world with log := world.log ++ [.packet] } := rfl
      rw [run_bind_ok packet]
      refine rest calm (lends.behind ?_ ?_)
      · rfl
      · rfl
  | test =>
      simp only [handleAsync, bind_assoc]
      rw [run_get_bind, lends.available, run_bind_ok (lends.skips calm)]
      exact ⟨_, rfl⟩

end Lends

theorem dispatch_completes {asm : Assembly} {header : FrameHeader} {budget : Int} {last : Nat}
    {world : World} (lends : Lends client header.dataSize budget last world)
    (takes : (react asm world.state (.frame header.signature)).2 = 0 ∨
      client.Takes world.written.length) :
    ∃ after, (dispatch asm client header).run world = .ok () after := by
  unfold dispatch
  cases found : findHandler asm header.signature with
  | none => exact ⟨_, lends.skips calm⟩
  | some handler =>
      simp only
      rw [run_get_bind]
      by_cases gated : world.state = .none ∧ handler = .regular
      · rw [if_pos gated]
        exact ⟨_, lends.skips calm⟩
      · rw [if_neg gated]
        exact lends.handles calm found takes

/-- A body that is lent in front of it and released behind it. -/
theorem handleFrameAsync_completes {asm : Assembly} {header : FrameHeader} {budget : Int}
    {last : Nat} {world : World} (offset : Nat) (holds : world.reader = .holding budget)
    (nonneg : 0 ≤ header.dataSize.toInt) (covered : header.dataSize.toInt ≤ budget)
    (bounded : budget < 2 ^ 63)
    (lands : Landing client (client.rented world.position) header.dataSize world.position 0 last)
    (takes : (react asm world.state (.frame header.signature)).2 = 0 ∨
      client.Takes world.written.length) :
    ∃ after, (do
      PipeReader.createChild header.dataSize
      handleFrameAsync asm client offset header
      PipeReader.releaseChild : Worker Unit).run world = .ok () after := by
  let lent := world.move world.position (.lending header.dataSize.toInt budget)
  let entered : World := { lent with log := lent.log ++ [.entered offset header] }
  have entering : (handleFrameAsync asm client offset header).run lent =
      (dispatch asm client header).run entered := rfl
  have lends : Lends client header.dataSize budget last entered :=
    ⟨rfl, nonneg, covered, bounded, lands⟩
  obtain ⟨after, dispatched⟩ := dispatch_completes calm lends takes
  rw [run_bind_ok (PipeReader.createChild_run world budget _ holds covered bounded),
    run_bind_ok (entering.trans dispatched)]
  exact ⟨_, rfl⟩

omit calm in
theorem requestCheckpoint_completes {cfg : Config} {world : World}
    (takes : client.Takes world.written.length) :
    ∃ after, (requestCheckpoint cfg client).run world = .ok () after := by
  unfold requestCheckpoint
  rw [run_bind_ok (writeCheckpoint_iff.mpr ⟨takes, rfl⟩)]
  exact ⟨_, rfl⟩

end FrameSession

/-- The budget covers what a head asks for. -/
def Head.Covered (asm : Assembly) (client : Client) (total : Int) (head : Head) : Prop :=
  ∀ demand, Asks asm client head demand → (demand : Int) ≤ total

omit calm in
theorem Head.Covered.batch {asm : Assembly} {head : Head} {total : Int}
    (covered : head.Covered asm client total) (whole : head.start + 6 ≤ client.wire.length) :
    ((head.charged + 6 : Nat) : Int) ≤ total :=
  covered _ (Asks.read (Charges.push 6 (by decide) (by decide) (by omega)))

omit calm in
/-- A new reader covers what is asked in front of a block. -/
theorem Head.Placed.covered {asm : Assembly} {head next : Head} (placed : head.Placed client)
    (short : client.wire.length < 2 ^ 62) (block : Block asm client head next) :
    head.Covered asm client (2 ^ 63 - 1) := by
  intro demand asks
  have bound := placed.asks short block asks
  omega

section
variable {asm : Assembly} {head next : Head} {total : Int} (limited : total ≤ 2 ^ 63)
  {count : Nat} {found : Bool} {window : Bytes 6} {world : World}
include limited

namespace Head.Within

omit calm limited in
theorem holding (within : head.Within asm client (.holding total) count found window world) :
    world.reader = .holding (total - (head.charged + count : Nat)) :=
  within.pays total rfl

theorem pushes (within : head.Within asm client (.holding total) count found window world)
    (covered : ((head.charged + count + 1 : Nat) : Int) ≤ total)
    (more : head.start + count + 1 ≤ client.wire.length) :
    ∃ pushed after, (FrameSession.receivePreamble asm.toConfig client window).run world =
      .ok pushed after := by
  obtain ⟨byte, ran, _⟩ := PipeReader.read_run client calm 1 (by decide) world _ within.holding
    (by omega) (by omega) (by rw [within.position]; exact more)
  unfold FrameSession.receivePreamble
  rw [run_bind_ok ran]
  exact ⟨_, _, rfl⟩

theorem batches (left : Nat) : ∀ {count : Nat} {found : Bool} {window : Bytes 6} {world : World},
    head.Within asm client (.holding total) count found window world →
    ((head.charged + count + left : Nat) : Int) ≤ total →
    head.start + count + left ≤ client.wire.length →
    ∃ pushed after, (FrameSession.receiveBatch asm.toConfig client left window found).run world =
      .ok pushed after := by
  induction left with
  | zero => exact fun _ _ _ => ⟨_, _, rfl⟩
  | succ left ih =>
      intro count found window world within covered more
      obtain ⟨⟨next, hit⟩, middle, ran⟩ := within.pushes calm limited (by omega) (by omega)
      obtain ⟨last, after, rest⟩ := ih (within.push ran) (by omega) (by omega)
      unfold FrameSession.receiveBatch
      rw [run_bind_ok ran]
      exact ⟨last, after, rest⟩

/-- Behind the batch, a header that is there and covered is read. -/
theorem reads (within : head.Within asm client (.holding total) 6 true window world)
    {image : Image} (there : head.holds client image)
    (covered : ((head.charged + 44 : Nat) : Int) ≤ total) :
    (FrameSession.receiveFrame asm client).run world =
      (match FrameSession.checkHeader asm.toConfig (FrameHeader.decode image) with
        | .error failure => throw failure
        | .ok false => FrameSession.requestCheckpoint asm.toConfig client
        | .ok true => do
            PipeReader.createChild (FrameHeader.decode image).dataSize
            FrameSession.handleFrameAsync asm client world.position (FrameHeader.decode image)
            PipeReader.releaseChild : Worker Unit).run
        { world.move (head.start + 44) (.holding (total - (head.charged + 44 : Nat))) with
          log := world.log ++ FrameSession.opening world.position (FrameHeader.decode image)
            (FrameSession.passes
              (FrameSession.checkHeader asm.toConfig (FrameHeader.decode image))) false } := by
  let begun : World := { world with log := world.log ++ [.received world.position] }
  have inside := Head.holds_inside there
  have place : world.position = head.start + 6 := within.position
  have left : total - (head.charged + 6 : Nat) - (38 : Nat) =
      total - (head.charged + 44 : Nat) := by omega
  obtain ⟨filled, ran, content⟩ := PipeReader.read_run client calm 38 (by decide) begun _
    within.holding (by omega) (by omega) (by rw [show begun.position = _ from place]; omega)
  rw [left, show begun.position = _ from place] at ran
  have same : filled = image := by
    apply List.Vector.eq
    rw [content, there, ← place]
  subst same
  have opened : (FrameSession.receiveFrame asm client).run world =
      (FrameSession.receiveHeader asm client world.position).run begun := rfl
  rw [opened, FrameSession.receiveHeader_eq client asm world.position ran]
  have log : ∀ passed, begun.log ++
      [.checked world.position (FrameHeader.decode filled) passed] =
      world.log ++ FrameSession.opening world.position (FrameHeader.decode filled) passed
        false := by
    intro passed
    simp [begun, FrameSession.opening]
  rw [← log]
  rfl

/-- So is the frame behind it, if that makes a block. -/
theorem frames (within : head.Within asm client (.holding total) 6 true window world)
    (covered : head.Covered asm client total) (block : Block asm client head next) :
    ∃ after, (FrameSession.receiveFrame asm client).run world = .ok () after := by
  cases block with
  | missed _ miss => exact absurd within.hit miss
  | rejected image hit there verdict takes =>
      have inside := Head.holds_inside there
      have whole : head.start + 6 ≤ client.wire.length := by omega
      have demand := covered _ (Asks.read (Charges.header whole hit))
      have read := within.reads calm limited there demand
      simp only [verdict] at read
      rw [← within.sent] at takes
      rw [read]
      exact FrameSession.requestCheckpoint_completes takes
  | handled image hit there verdict outcome reacts takes last lands =>
      have demand := covered _ (Asks.body image hit there verdict)
      have nonneg := checkHeader_true verdict
      have read := within.reads calm limited there (by omega)
      simp only [verdict] at read
      subst reacts
      rw [← within.sent, ← within.state] at takes
      rw [read]
      exact FrameSession.handleFrameAsync_completes calm _ rfl nonneg (by omega) (by omega) lands
        takes

end Head.Within

namespace Head.At

/-- A whole batch, and what it found. -/
theorem batches (at_ : head.At client (.holding total) window world)
    (demand : ((head.charged + 6 : Nat) : Int) ≤ total)
    (whole : head.start + 6 ≤ client.wire.length) :
    ∃ last found after, (FrameSession.receiveBatch asm.toConfig client 6 window false).run world =
      .ok (last, found) after ∧ head.Within asm client (.holding total) 6 found last after := by
  obtain ⟨⟨last, found⟩, after, ran⟩ :=
    at_.within.batches calm limited 6 (by simpa using demand) (by simpa using whole)
  have within := at_.within.batch ran
  rw [Nat.zero_add] at within
  exact ⟨last, found, after, ran, within⟩

/-- The turn of a block completes. -/
theorem completes (at_ : head.At client (.holding total) window world)
    (covered : head.Covered asm client total) (block : Block asm client head next) :
    ∃ pushed after, (FrameSession.turn asm client window).run world = .ok pushed after := by
  obtain ⟨last, found, middle, batch, within⟩ :=
    at_.batches calm limited (covered.batch block.whole) block.whole
  unfold FrameSession.turn
  rw [run_bind_ok batch]
  cases found with
  | false => exact ⟨last, middle, rfl⟩
  | true =>
      obtain ⟨after, framed⟩ := within.frames calm limited covered block
      simp only [Bool.true_eq_false, if_false]
      rw [run_bind_ok framed]
      exact ⟨last, after, rfl⟩

end Head.At

end

end Calm
end Wsac.Service
