import Wsac.Service.Twins

/-! # Where two budgets part

A session that nobody cancels ends where a read is not covered, and a frame whose body is not
covered is not handed on.  So a budget shows at the first head where it covers less than a new
one, or more. -/

set_option autoImplicit false

namespace Wsac.Service

open Library Library.Exec Relation

theorem FrameSession.runLoop_calm {client : Client} (calm : client.cancelAt = none)
    {asm : Assembly} {window : Bytes 6} (turns : Nat) (world : World) :
    (runLoop asm client (turns + 1) window).run world =
      (turn asm client window >>= runLoop asm client turns).run world := by
  rw [runLoop, run_bind_ok (cancellationRequested_run client calm world)]
  rfl

section Calm
variable {client : Client} (calm : client.cancelAt = none) {asm : Assembly} {head next : Head}
  {total : Int} (limited : total ≤ 2 ^ 63) {found : Bool} {window : Bytes 6} {world : World}
include calm limited

/-- The batch in which the budget ends. -/
theorem Head.Within.exhausts (remaining : Nat) : ∀ {count : Nat} {found : Bool}
    {window : Bytes 6} {world : World},
    head.Within asm client (.holding total) count found window world →
    -2 ^ 63 < total - (head.charged + count : Nat) → ∀ k, count < k → k ≤ count + remaining →
    head.start + k ≤ client.wire.length + 1 → total < (head.charged + k : Nat) →
    ∃ after, (FrameSession.receiveBatch asm.toConfig client remaining window found).run world =
      .error .application after := by
  induction remaining with
  | zero =>
      intro count found window world within lowest k low high
      omega
  | succ remaining ih =>
      intro count found window world within lowest k low high more beyond
      unfold FrameSession.receiveBatch
      by_cases covered : ((head.charged + count + 1 : Nat) : Int) ≤ total
      · have later : k ≠ count + 1 := by
          rintro rfl
          omega
        obtain ⟨⟨pushed, hit⟩, middle, ran⟩ := within.pushes calm limited covered (by omega)
        obtain ⟨after, failed⟩ :=
          ih (within.push ran) (by omega) k (by omega) (by omega) more beyond
        rw [run_bind_ok ran]
        exact ⟨after, failed⟩
      · have size : (Int64.ofNat 1).toInt = (1 : Nat) := Int64.toInt_ofNat_of_lt (by decide)
        have refused := PipeReader.charge_holding_refused world _ (Int64.ofNat 1) within.holding
          (by omega) (by omega)
        unfold FrameSession.receivePreamble PipeReader.read
        rw [bind_assoc, bind_assoc, run_bind_error refused]
        exact ⟨_, rfl⟩

/-- A read that is not covered ends the turn. -/
theorem Head.At.exhausts (at_ : head.At client (.holding total) window world)
    (lowest : -2 ^ 63 < total - head.charged) {demand : Nat}
    (charges : Charges asm client head demand) (beyond : total < demand) :
    ∃ after, (FrameSession.turn asm client window).run world = .error .application after := by
  have batch : ∀ k, 1 ≤ k → k ≤ 6 → head.start + k ≤ client.wire.length + 1 →
      total < (head.charged + k : Nat) → ∃ after,
        (FrameSession.turn asm client window).run world = .error .application after := by
    intro k low high more short
    have start : -2 ^ 63 < total - (head.charged + 0 : Nat) := by simpa using lowest
    obtain ⟨after, failed⟩ := at_.within.exhausts calm limited 6 start k (by omega) (by omega)
      more short
    unfold FrameSession.turn
    rw [run_bind_error failed]
    exact ⟨after, rfl⟩
  cases charges with
  | push k low high more => exact batch k low high more beyond
  | header whole hit =>
      by_cases covered : ((head.charged + 6 : Nat) : Int) ≤ total
      · obtain ⟨last, found, middle, ran, within⟩ := at_.batches calm limited covered whole
        cases within.found.mpr hit
        have size : (Int64.ofNat 38).toInt = (38 : Nat) := Int64.toInt_ofNat_of_lt (by decide)
        let begun : World := { middle with log := middle.log ++ [.received middle.position] }
        have refused := PipeReader.charge_holding_refused begun _ (Int64.ofNat 38) within.holding
          (by omega) (by omega)
        unfold FrameSession.turn FrameSession.receiveFrame FrameSession.receiveHeader
          FrameSession.readHeader PipeReader.read
        rw [run_bind_ok ran]
        simp only [Bool.true_eq_false, if_false, bind_assoc]
        rw [run_get_bind, run_bind_ok (FrameSession.record_run _ _), run_get_bind,
          run_bind_error refused]
        exact ⟨_, rfl⟩
      · exact batch 6 (by decide) (by decide) (by omega) (by omega)

section
variable {image : Image} (hit : head.hit asm client) (there : head.holds client image)
  (verdict : FrameSession.checkHeader asm.toConfig (FrameHeader.decode image) = .ok true)
include hit there verdict

/-- The turn of a header that passes, up to its body. -/
theorem Head.At.opens (at_ : head.At client (.holding total) window world)
    (covered : ((head.charged + 44 : Nat) : Int) ≤ total) :
    ∃ last read, read.entered = world.entered ∧ read.state = world.state ∧
      read.reader = .holding (total - (head.charged + 44 : Nat)) ∧
      ∀ rest : Bytes 6 → Worker Unit,
        (FrameSession.turn asm client window >>= rest).run world =
          ((do
            PipeReader.createChild (FrameHeader.decode image).dataSize
            FrameSession.handleFrameAsync asm client (head.start + 6) (FrameHeader.decode image)
            PipeReader.releaseChild) >>= fun _ => rest last : Worker Unit).run read := by
  have inside := Head.holds_inside there
  obtain ⟨last, found, middle, ran, within⟩ := at_.batches calm limited (by omega) (by omega)
  cases within.found.mpr hit
  have scanned := FrameSession.receiveBatch_seeks client asm.toConfig 6 window false world
  rw [ran, finalState_ok] at scanned
  obtain ⟨log, state⟩ := FrameSession.Seeks.log scanned
  let read : World :=
    { middle.move (head.start + 44) (.holding (total - (head.charged + 44 : Nat))) with
      log := middle.log ++ FrameSession.opening (head.start + 6) (FrameHeader.decode image) true
        false }
  have framed := within.reads calm limited there covered
  simp only [verdict, within.position] at framed
  refine ⟨last, read, ?_, state, rfl, fun rest => ?_⟩
  · show (middle.log ++ FrameSession.opening _ _ true false).filterMap Event.entered? = _
    rw [List.filterMap_append, log]
    exact List.append_nil _
  · unfold FrameSession.turn
    rw [bind_assoc, run_bind_ok ran]
    simp only [Bool.true_eq_false, if_false, bind_assoc, pure_bind]
    rw [EStateM.run_bind, framed, ← EStateM.run_bind]
    simp only [bind_assoc]
    rfl

/-- A body that is not covered ends the session. -/
theorem Head.At.refuses (at_ : head.At client (.holding total) window world)
    (covered : ((head.charged + 44 : Nat) : Int) ≤ total)
    (beyond : total < (head.charged + 44 +
      (FrameHeader.decode image).dataSize.toInt.toNat : Nat)) (rest : Bytes 6 → Worker Unit) :
    (finalState ((FrameSession.turn asm client window >>= rest).run world)).entered =
      world.entered := by
  have nonneg := checkHeader_true verdict
  obtain ⟨last, read, entered, _, holds, onward⟩ :=
    at_.opens calm limited hit there verdict covered
  rw [onward, bind_assoc, run_bind_error (PipeReader.createChild_refused read _ _ holds
    (by omega) (by omega))]
  exact entered

/-- A body that is covered is handed on, whatever comes then. -/
theorem Head.At.enters (at_ : head.At client (.holding total) window world)
    (covered : ((head.charged + 44 +
      (FrameHeader.decode image).dataSize.toInt.toNat : Nat) : Int) ≤ total)
    {rest : Bytes 6 → Worker Unit} (later : ∀ pushed, Moves (Later 0) (rest pushed)) :
    world.entered ++ [(head.start + 6, FrameHeader.decode image)] <+:
      (finalState ((FrameSession.turn asm client window >>= rest).run world)).entered := by
  have nonneg := checkHeader_true verdict
  obtain ⟨last, read, entered, _, holds, onward⟩ :=
    at_.opens calm limited hit there verdict (by omega)
  have lent := PipeReader.createChild_run read _ (FrameHeader.decode image).dataSize holds
    (by omega) (by omega)
  have handed := FrameSession.handleFrameAsync_entered client asm (head.start + 6)
    (FrameHeader.decode image)
    (bind_later (seeks_later PipeReader.releaseChild_seeks 0) fun _ => later last)
    (read.move read.position
      (.lending (FrameHeader.decode image).dataSize.toInt (total - (head.charged + 44 : Nat))))
  rw [onward, bind_assoc, run_bind_ok lent, bind_assoc, ← entered]
  exact handed

omit limited in
/-- A body that one budget covers and another does not shows in what is handed on. -/
theorem Head.At.shows {one two : Int} (limits : one ≤ 2 ^ 63 ∧ two ≤ 2 ^ 63)
    {left right : World} (first : head.At client (.holding one) window left)
    (second : head.At client (.holding two) window right) (same : left.bare = right.bare)
    (covered : ((head.charged + 44 +
      (FrameHeader.decode image).dataSize.toInt.toNat : Nat) : Int) ≤ one)
    (beyond : two < (head.charged + 44 +
      (FrameHeader.decode image).dataSize.toInt.toNat : Nat))
    (reads : ((head.charged + 44 : Nat) : Int) ≤ two)
    {rest : Bytes 6 → Worker Unit} (later : ∀ pushed, Moves (Later 0) (rest pushed)) :
    (finalState ((FrameSession.turn asm client window >>= rest).run left)).entered ≠
      (finalState ((FrameSession.turn asm client window >>= rest).run right)).entered := by
  have enters := first.enters calm limits.1 hit there verdict covered later
  have refused := second.refuses calm limits.2 hit there verdict reads beyond rest
  have before : left.entered = right.entered :=
    congrArg (List.filterMap Event.entered?) (bare_log same)
  intro alike
  rw [alike, refused, before] at enters
  have length := enters.length_le
  rw [List.length_append, List.length_singleton] at length
  omega

end

end Calm
end Wsac.Service
