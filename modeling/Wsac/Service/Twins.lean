import Wsac.Service.Blind
import Wsac.Service.Covered

/-! # Two sessions with different budgets

Where both budgets cover what a turn asks for, or neither does, the two turns differ in nothing
but what is left of the budgets. -/

set_option autoImplicit false

namespace Wsac.Service

open Library Library.Exec Relation

namespace PipeReader
variable {left right : World} {one two : Int}

/-- Two root readers that cover a read. -/
theorem read_twins (client : Client) {size : Nat} (small : size < 2 ^ 63)
    (same : left.bare = right.bare) (first : left.reader = holding one)
    (second : right.reader = holding two) (within : (size : Int) ≤ one ∧ (size : Int) ≤ two)
    (bounded : one - size < 2 ^ 63 ∧ two - size < 2 ^ 63) :
    Twins ((read client size).run left) ((read client size).run right) := by
  have exact_ : (Int64.ofNat size).toInt = size := Int64.toInt_ofNat_of_lt small
  unfold read
  rw [run_bind_ok (charge_holding left one _ first (by omega) (by omega)),
    run_bind_ok (charge_holding right two _ second (by omega) (by omega))]
  exact PipeStream.read_blind client size _ _ same

end PipeReader

/-- Two worlds that lend the same body out of different budgets. -/
structure Lendings (size : Int64) (one two : Int) (left right : World) : Prop where
  same : left.bare = right.bare
  first : left.reader = .lending size.toInt one
  second : right.reader = .lending size.toInt two
  nonneg : 0 ≤ size.toInt
  covered : size.toInt ≤ one ∧ size.toInt ≤ two
  bounded : one < 2 ^ 63 ∧ two < 2 ^ 63

namespace Lendings
variable {size : Int64} {one two : Int} {left right : World}
  (lendings : Lendings size one two left right) (client : Client)
include lendings

theorem available : left.reader.available = size ∧ right.reader.available = size := by
  rw [lendings.first, lendings.second]
  exact ⟨Int64.ofInt_toInt size, Int64.ofInt_toInt size⟩

theorem skips : Twins ((PipeReader.skipAsync client size).run left)
    ((PipeReader.skipAsync client size).run right) := by
  have nonneg := lendings.nonneg
  unfold PipeReader.skipAsync
  rw [run_bind_ok (PipeReader.charge_lending left _ one size lendings.first (Int.le_refl _) nonneg
      lendings.covered.1 lendings.bounded.1),
    run_bind_ok (PipeReader.charge_lending right _ two size lendings.second (Int.le_refl _) nonneg
      lendings.covered.2 lendings.bounded.2)]
  exact Blind.bind (PipeReader.readAsyncInternal_blind client size) (fun _ => Blind.pure _) _ _
    lendings.same

theorem rest : Twins ((FrameSession.skipRest client).run left)
    ((FrameSession.skipRest client).run right) := by
  unfold FrameSession.skipRest
  rw [run_get_bind, run_get_bind, lendings.available.1, lendings.available.2]
  by_cases empty : size = 0
  · rw [if_neg (not_not.mpr empty)]
    exact Alike.ok _ lendings.same
  · rw [if_pos empty]
    exact lendings.skips client

omit client in
/-- What a handler does in front of the skip, if it leaves the readers alone. -/
theorem behind {left' right' : World} (same : left'.bare = right'.bare)
    (first : left'.reader = left.reader) (second : right'.reader = right.reader) :
    Lendings size one two left' right' :=
  ⟨same, first.trans lendings.first, second.trans lendings.second, lendings.nonneg,
    lendings.covered, lendings.bounded⟩

theorem handles (cfg : Config) (handler : Handler) :
    Twins ((FrameSession.handleAsync cfg client handler >>= fun _ =>
        FrameSession.skipRest client).run left)
      ((FrameSession.handleAsync cfg client handler >>= fun _ =>
        FrameSession.skipRest client).run right) := by
  cases handler with
  | checkpoint =>
      have state : left.state = right.state := bare_state lendings.same
      simp only [FrameSession.handleAsync, bind_assoc]
      rw [run_get_bind, run_get_bind, state]
      by_cases idle : right.state = .none
      · rw [if_pos idle]
        apply Alike.bind (setState_blind .ready left right lendings.same)
        intro _ left' right' ran ran' still
        cases ran
        cases ran'
        exact (lendings.behind still rfl rfl).rest client
      · rw [if_neg idle]
        apply Alike.bind (writeCheckpoint_blind client cfg left right lendings.same)
        intro _ left' right' ran ran' still
        obtain ⟨_, rfl⟩ := FrameSession.writeCheckpoint_iff.mp ran
        obtain ⟨_, rfl⟩ := FrameSession.writeCheckpoint_iff.mp ran'
        exact (lendings.behind still rfl rfl).rest client
  | regular =>
      apply Alike.bind (record_blind .packet left right lendings.same)
      intro _ left' right' ran ran' still
      cases ran
      cases ran'
      exact (lendings.behind still rfl rfl).rest client
  | test =>
      simp only [FrameSession.handleAsync, bind_assoc]
      rw [run_get_bind, run_get_bind, lendings.available.1, lendings.available.2]
      apply Alike.bind (lendings.skips client)
      intro _ left' right' ran ran' still
      have spent : ∀ {world after : World} {budget : Int},
          world.reader = .lending size.toInt budget →
          (PipeReader.skipAsync client size).run world = .ok () after →
          after.reader.available = 0 := by
        intro world after budget lends ran
        obtain ⟨_, parent, reader⟩ := FrameSession.skipAsync_handled lends ran
        rw [reader, Int64.ofInt_toInt, PipeReader.available_child, Int64.sub_self]
      unfold FrameSession.skipRest
      rw [run_get_bind, run_get_bind, spent lendings.first ran, spent lendings.second ran',
        if_neg (by simp)]
      exact Alike.ok _ still

theorem dispatches (asm : Assembly) {header : FrameHeader} (sized : header.dataSize = size) :
    Twins ((FrameSession.dispatch asm client header).run left)
      ((FrameSession.dispatch asm client header).run right) := by
  have state : left.state = right.state := bare_state lendings.same
  unfold FrameSession.dispatch
  rw [sized]
  cases FrameSession.findHandler asm header.signature with
  | none => exact lendings.skips client
  | some handler =>
      simp only
      rw [run_get_bind, run_get_bind, state]
      split
      · exact lendings.skips client
      · exact lendings.handles client asm.toConfig handler

end Lendings

/-- Both budgets cover what the reads of a head charge, and both cover its body or neither. -/
structure Head.Agreed (asm : Assembly) (client : Client) (one two : Int) (head : Head) : Prop where
  reads : ∀ demand, Charges asm client head demand → (demand : Int) ≤ one ∧ (demand : Int) ≤ two
  bodies : ∀ demand, Asks asm client head demand → ((demand : Int) ≤ one ↔ (demand : Int) ≤ two)

theorem checkHeader_unread {cfg : Config} {header : FrameHeader} {failure : Failure}
    (refused : FrameSession.checkHeader cfg header = .error failure) :
    failure ≠ .application := by
  unfold FrameSession.checkHeader at refused
  split at refused
  · cases refused
  · split at refused
    · cases refused
      decide
    · cases refused

section
variable {asm : Assembly} {client : Client} {head : Head} {one two : Int} {window : Bytes 6}
  (limited : one ≤ 2 ^ 63 ∧ two ≤ 2 ^ 63) (agreed : head.Agreed asm client one two)
include limited agreed

namespace Head.Within

theorem batch_twins (remaining : Nat) : ∀ {count : Nat} {found : Bool} {window : Bytes 6}
    {left right : World}, left.bare = right.bare → count + remaining = 6 →
    head.Within asm client (.holding one) count found window left →
    head.Within asm client (.holding two) count found window right →
    Twins ((FrameSession.receiveBatch asm.toConfig client remaining window found).run left)
      ((FrameSession.receiveBatch asm.toConfig client remaining window found).run right) := by
  induction remaining with
  | zero => exact fun same _ _ _ => Alike.ok _ same
  | succ remaining ih =>
      intro count found window left right same six first second
      have inside := first.inside
      have demand := agreed.reads _ (Charges.push (count + 1) (by omega) (by omega) (by omega))
      unfold FrameSession.receiveBatch
      refine Alike.bind ?_ fun pushed left' right' ran ran' still =>
        ih still (by omega) (first.push ran) (second.push ran')
      unfold FrameSession.receivePreamble
      refine Alike.bind ?_ fun byte left' right' ran ran' still => Alike.ok _ still
      exact PipeReader.read_twins client (by decide) same first.holding second.holding (by omega)
        (by omega)

/-- Behind the header. -/
theorem body_twins {image : Image} (hit : head.hit asm client) (there : head.holds client image)
    (verdict : FrameSession.checkHeader asm.toConfig (FrameHeader.decode image) = .ok true)
    {offset : Nat} {left right : World} (same : left.bare = right.bare)
    (first : left.reader = .holding (one - (head.charged + 44 : Nat)))
    (second : right.reader = .holding (two - (head.charged + 44 : Nat))) :
    let body := do
      PipeReader.createChild (FrameHeader.decode image).dataSize
      FrameSession.handleFrameAsync asm client offset (FrameHeader.decode image)
      PipeReader.releaseChild
    Twins (body.run left) (body.run right) := by
  intro body
  have nonneg := checkHeader_true verdict
  have whole : head.start + 6 ≤ client.wire.length := by
    have inside := Head.holds_inside there
    omega
  have reads := agreed.reads _ (Charges.header whole hit)
  have bodies := agreed.bodies _ (Asks.body image hit there verdict)
  by_cases covered : ((head.charged + 44 +
      (FrameHeader.decode image).dataSize.toInt.toNat : Nat) : Int) ≤ one
  · have covered' := bodies.mp covered
    simp only [body]
    rw [run_bind_ok (PipeReader.createChild_run left _ _ first (by omega) (by omega)),
      run_bind_ok (PipeReader.createChild_run right _ _ second (by omega) (by omega))]
    refine Alike.bind ?_ fun _ _ _ _ _ still => releaseChild_blind _ _ still
    refine Alike.bind (record_blind (.entered offset (FrameHeader.decode image)) _ _ same) ?_
    intro _ left' right' ran ran' still
    cases ran
    cases ran'
    have lendings : Lendings (FrameHeader.decode image).dataSize
        (one - (head.charged + 44 : Nat)) (two - (head.charged + 44 : Nat)) _ _ :=
      ⟨still, rfl, rfl, nonneg, by omega, by omega⟩
    exact lendings.dispatches client asm rfl
  · have beyond := mt bodies.mpr covered
    simp only [body]
    rw [run_bind_error (PipeReader.createChild_refused left _ _ first (by omega) (by omega)),
      run_bind_error (PipeReader.createChild_refused right _ _ second (by omega) (by omega))]
    exact Alike.error (by decide) same

omit limited agreed in
theorem logged {reader : PipeReader} {count : Nat} {found : Bool} {world : World}
    (within : head.Within asm client reader count found window world) (event : Event) :
    head.Within asm client reader count found window
      { world with log := world.log ++ [event] } :=
  ⟨within.position, within.inside, within.text, within.found, within.state, within.sent,
    within.pays⟩

theorem header_twins {offset : Nat} {left right : World} (same : left.bare = right.bare)
    (first : head.Within asm client (.holding one) 6 true window left)
    (second : head.Within asm client (.holding two) 6 true window right) :
    Twins ((FrameSession.receiveHeader asm client offset).run left)
      ((FrameSession.receiveHeader asm client offset).run right) := by
  have reads := agreed.reads _ (Charges.header first.inside first.hit)
  have position : right.position = left.position := (bare_position same).symm
  unfold FrameSession.receiveHeader FrameSession.readHeader
  simp only [bind_assoc]
  rw [run_get_bind, run_get_bind, position]
  refine Alike.bind (PipeReader.read_twins client (by decide) same first.holding second.holding
    (by omega) (by omega)) ?_
  intro image read read' ran ran' same
  obtain ⟨_, reader, rfl, pays, content⟩ := PipeReader.read_pays (by decide) ran
  obtain ⟨_, reader', rfl, pays', _⟩ := PipeReader.read_pays (by decide) ran'
  have there : head.holds client image := by
    rw [first.position] at content
    exact content
  have left_ : ∀ total : Int, total - (head.charged + 6 : Nat) - (38 : Nat) =
      total - (head.charged + 44 : Nat) := by
    intro total
    omega
  have lefts := (pays _ first.holding).trans (congrArg PipeReader.holding (left_ one))
  have rights := (pays' _ second.holding).trans (congrArg PipeReader.holding (left_ two))
  refine Alike.bind (record_blind _ _ _ same) ?_
  intro _ begun begun' logged logged' same
  cases logged
  cases logged'
  cases verdict : FrameSession.checkHeader asm.toConfig (FrameHeader.decode image) with
  | error failure =>
      rw [verdict] at same
      exact Alike.error (checkHeader_unread verdict) same
  | ok passed =>
      rw [verdict] at same
      cases passed with
      | false => exact requestCheckpoint_blind client asm.toConfig _ _ same
      | true => exact body_twins limited agreed first.hit there verdict same lefts rights

theorem frame_twins {left right : World} (same : left.bare = right.bare)
    (first : head.Within asm client (.holding one) 6 true window left)
    (second : head.Within asm client (.holding two) 6 true window right) :
    Twins ((FrameSession.receiveFrame asm client).run left)
      ((FrameSession.receiveFrame asm client).run right) := by
  have position : right.position = left.position := (bare_position same).symm
  unfold FrameSession.receiveFrame
  rw [run_get_bind, run_get_bind, position]
  refine Alike.bind (record_blind (.received left.position) _ _ same) ?_
  intro _ begun begun' logged logged' same
  cases logged
  cases logged'
  exact header_twins limited agreed same (first.logged _) (second.logged _)

end Head.Within

theorem Head.At.turn_twins {left right : World} (same : left.bare = right.bare)
    (first : head.At client (.holding one) window left)
    (second : head.At client (.holding two) window right) :
    Twins ((FrameSession.turn asm client window).run left)
      ((FrameSession.turn asm client window).run right) := by
  unfold FrameSession.turn
  refine Alike.bind
    (Head.Within.batch_twins limited agreed 6 same rfl first.within second.within) ?_
  rintro ⟨pushed, found⟩ left' right' ran ran' still
  cases found with
  | false => exact Alike.ok _ still
  | true =>
      have within := first.within.batch ran
      have within' := second.within.batch ran'
      refine Alike.bind (Head.Within.frame_twins limited agreed still within within') ?_
      exact fun _ _ _ _ _ after => Alike.ok _ after

end

section
variable {asm : Assembly} {client : Client} {one two : Int}
  (limited : one ≤ 2 ^ 63 ∧ two ≤ 2 ^ 63)
include limited

/-- Two runs that pass the same heads, as long as the budgets agree at each of them. -/
theorem runLoop_twins (turns : Nat) : ∀ {head : Head} {window : Bytes 6} {left right : World},
    head.Placed client →
    (∀ later, ReflTransGen (Block asm client) head later → later.Agreed asm client one two) →
    left.bare = right.bare → head.At client (.holding one) window left →
    head.At client (.holding two) window right →
    Twins ((FrameSession.runLoop asm client turns window).run left)
      ((FrameSession.runLoop asm client turns window).run right) := by
  induction turns with
  | zero => exact fun _ _ same _ _ => Alike.error (by decide) same
  | succ turns ih =>
      intro head window left right placed agreed same first second
      refine Alike.bind (cancellationRequested_blind client left right same) ?_
      intro answer left' right' asked asked' same
      have first := first.ask asked
      have second := second.ask asked'
      split
      · exact Alike.ok _ same
      · refine Alike.bind (Head.At.turn_twins limited (agreed head .refl) same first second) ?_
        intro pushed left' right' ran ran' same
        obtain ⟨next, block, there⟩ := first.turn placed.six ran
        obtain ⟨other, block', there'⟩ := second.turn placed.six ran'
        cases block.unique block'
        exact ih (placed.step block) (fun later onward => agreed later (.head block onward)) same
          there there'

theorem session_twins (agreed : ∀ head, Walk asm client head → head.Agreed asm client one two) :
    Twins (FrameSession.session asm client (.holding one))
      (FrameSession.session asm client (.holding two)) :=
  runLoop_twins limited _ (Head.first_placed client) agreed rfl (Head.At.first client _)
    (Head.At.first client _)

end
end Wsac.Service
