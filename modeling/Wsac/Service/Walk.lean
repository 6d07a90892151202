import Wsac.Service.Blocks
import Wsac.Service.Loop

/-! # Sessions walk along the blocks

A turn that completes, on any client and any reader, is a block of the wire.  A session that
nobody cancels completes the turn of every block that its budget covers. -/

set_option autoImplicit false

namespace Wsac.Service

open Library Library.Exec Relation

namespace PipeReader

/-- Where one is a root that holds a budget, the other holds so much less. -/
def Pays (before after : PipeReader) (amount : Int) : Prop :=
  ∀ budget, before = holding budget → after = holding (budget - amount)

theorem Pays.refl (reader : PipeReader) : Pays reader reader 0 := by
  intro budget holds
  rw [holds, Int.sub_zero]

theorem Pays.trans {first second third : PipeReader} {one two : Int}
    (left : Pays first second one) (right : Pays second third two) :
    Pays first third (one + two) := by
  intro budget holds
  rw [right _ (left budget holds), Int.sub_sub]

@[simp] theorem available_child (left : Int64) (parent : PipeReader) :
    (child left parent).available = left := rfl

theorem shrinkAvailable_pays (reader : PipeReader) (size : Int64) :
    Pays reader (reader.shrinkAvailable size).1 size.toInt := by
  intro budget holds
  rw [holds, holding, shrinkAvailable, ofInt_sub_size]
  rfl

variable {client : Client} {world after : World}

theorem createChild_ok {size : Int64} (ran : (createChild size).run world = .ok () after) :
    after = { world with reader := .child size world.reader } := by
  unfold createChild at ran
  rw [run_get_bind] at ran
  split at ran
  · cases ran
  · cases ran
    rfl

theorem read_pays {size : Nat} (small : size < 2 ^ 63) {filled : Bytes size}
    (ran : (read client size).run world = .ok filled after) :
    ∃ asked reader, after = world.seek (world.position + size) asked reader ∧
      Pays world.reader reader size ∧
      filled.toList = (client.wire.drop world.position).take size := by
  obtain ⟨_, charged, paid, ran⟩ := run_bind_eq_ok.mp ran
  obtain ⟨chargedIs, _⟩ := charge_ok paid
  obtain ⟨⟨asked, moved⟩, content⟩ := PipeStream.read_ok client ran
  have pays := shrinkAvailable_pays world.reader (Int64.ofNat size)
  rw [Int64.toInt_ofNat_of_lt small] at pays
  subst chargedIs
  exact ⟨asked, _, moved, pays, content⟩

theorem readAsyncLoop_lands (size : Int64) (buffer bytesLeft : Nat) :
    ∀ (i : Int64) (stream filled : List UInt8) (world after : World),
      (readAsyncLoop client size buffer bytesLeft i stream).run world = .ok filled after →
      client.cancelled after.asked = false →
      Landing client buffer size world.position i after.position := by
  induction bytesLeft with
  | zero =>
      intro i stream filled world after ran calm
      rw [readAsyncLoop_zero] at ran
      rcases readAsyncTurn_run client size buffer i stream _ world with
        ⟨asked, full | stopped, left⟩ | ⟨_, _, left⟩ | ⟨_, _, onward⟩
      · cases left.symm.trans ran
        exact Landing.done _ _ full
      · cases left.symm.trans ran
        exact absurd (stopped.symm.trans calm) (by simp)
      · cases left.symm.trans ran
      · cases onward.symm.trans ran
  | succ bytesLeft ih =>
      intro i stream filled world after ran calm
      rw [readAsyncLoop_succ] at ran
      rcases readAsyncTurn_run client size buffer i stream _ world with
        ⟨asked, full | stopped, left⟩ | ⟨_, _, left⟩ | ⟨_, unfinished, onward⟩
      · cases left.symm.trans ran
        exact Landing.done _ _ full
      · cases left.symm.trans ran
        exact absurd (stopped.symm.trans calm) (by simp)
      · cases left.symm.trans ran
      · have rest := onward.symm.trans ran
        rw [take_length] at rest
        exact Landing.piece _ _ _ unfinished (ih _ _ _ _ _ rest calm)

/-- A read that returns was not cancelled, and has gone from piece to piece. -/
theorem readAsyncInternal_lands {size : Int64} {stream : List UInt8}
    (ran : (readAsyncInternal client size).run world = .ok stream after) :
    ∃ asked, after = world.seek after.position asked world.reader ∧
      Landing client (client.rented world.position) size world.position 0 after.position := by
  unfold readAsyncInternal at ran
  rw [run_get_bind] at ran
  obtain ⟨filled, middle, looped, ran⟩ := run_bind_eq_ok.mp ran
  obtain ⟨_, last, checked, done⟩ := run_bind_eq_ok.mp ran
  cases done
  obtain ⟨calm, asked, lastIs⟩ := throwIfCancellationRequested_ok client checked
  obtain ⟨taken, asked', moved, _⟩ := readAsyncLoop_stream client _ _ _ _ _ _ _ _ looped
  have lands := readAsyncLoop_lands _ _ _ _ _ _ _ _ looped calm
  subst lastIs
  refine ⟨asked, ?_, lands⟩
  rw [moved]
  rfl

end PipeReader

/-- The body of a frame is behind, and layer 1 came to `outcome`. -/
structure Handled (client : Client) (outcome : FrameSessionState × Nat) (size : Int64)
    (parent : PipeReader) (before after : World) : Prop where
  lands : Landing client (client.rented before.position) size before.position 0 after.position
  state : after.state = outcome.1
  takes : outcome.2 = 0 ∨ client.Takes before.written.length
  sent : after.written.length = before.written.length + 44 * outcome.2
  pays : parent.Pays after.reader.released size.toInt

namespace FrameSession
section
variable {client : Client} {world after : World}

/-- The world behind a checkpoint that has been written. -/
def answered (cfg : Config) (client : Client) (world : World) : World :=
  let header := FrameHeader.new cfg cfg.checkpointSignature 0 (client.nonce world.drawn)
  { world with
    written := world.written ++ cfg.preamble.toList ++ header.encode.toList
    drawn := world.drawn + 1
    log := world.log ++ [.wrote header] }

theorem answered_sent (cfg : Config) (client : Client) (world : World) :
    (answered cfg client world).written.length = world.written.length + 44 := by
  simp only [answered, List.length_append, List.Vector.toList_length]

theorem refuses_iff {world : World} :
    client.refuses world = false ↔
      ∀ limit, client.brokenAt = some limit → world.written.length < limit := by
  unfold Client.refuses
  cases client.brokenAt <;> simp

/-- A checkpoint is written exactly when both of its writes are taken. -/
theorem writeCheckpoint_iff {cfg : Config} :
    (FrameWriter.writeCheckpoint cfg client).run world = .ok () after ↔
      client.Takes world.written.length ∧ after = answered cfg client world := by
  let header := FrameHeader.new cfg cfg.checkpointSignature 0 (client.nonce world.drawn)
  let drew : World := { world with drawn := world.drawn + 1 }
  have drawing : (FrameWriter.drawNonce client).run world =
      .ok (client.nonce world.drawn) drew := rfl
  have six : cfg.preamble.toList.length = 6 := List.Vector.toList_length _
  let middle : World := { drew with written := world.written ++ cfg.preamble.toList }
  have place : middle.written.length = world.written.length + 6 := by
    rw [List.length_append, six]
  have wrote : ∀ (bytes : List UInt8) (world : World), client.refuses world = false →
      (PipeWriter.write client bytes).run world =
        .ok () { world with written := world.written ++ bytes } := by
    intro bytes world taken
    rw [PipeWriter.write, run_get_bind, taken]
    rfl
  have refused : ∀ (bytes : List UInt8) (world : World), client.refuses world = true →
      (PipeWriter.write client bytes).run world = .error client.refusal world := by
    intro bytes world refuses
    rw [PipeWriter.write, run_get_bind, refuses]
    rfl
  unfold FrameWriter.writeCheckpoint FrameWriter.write
  rw [run_bind_ok drawing]
  simp only [bind_assoc]
  by_cases takes : client.Takes world.written.length
  · have first : client.refuses drew = false :=
      refuses_iff.mpr fun limit set => by
        have room := takes limit set
        show world.written.length < limit
        omega
    have second : client.refuses middle = false :=
      refuses_iff.mpr fun limit set => by
        rw [place]
        exact takes limit set
    rw [run_bind_ok (wrote _ drew first), run_bind_ok (wrote _ middle second)]
    constructor
    · intro ran
      cases ran
      exact ⟨takes, rfl⟩
    · rintro ⟨_, rfl⟩
      rfl
  · refine iff_of_false (fun ran => takes ?_) fun both => takes both.1
    obtain ⟨_, _, first, ran⟩ := run_bind_eq_ok.mp ran
    cases refuses : client.refuses drew with
    | true => cases (refused _ _ refuses).symm.trans first
    | false =>
        cases (wrote _ _ refuses).symm.trans first
        obtain ⟨_, _, second, _⟩ := run_bind_eq_ok.mp ran
        cases refuses' : client.refuses middle with
        | true => cases (refused _ _ refuses').symm.trans second
        | false =>
            intro limit set
            have room := refuses_iff.mp refuses' limit set
            rwa [place] at room

theorem skipAsync_handled {left size : Int64} {parent : PipeReader}
    (lent : world.reader = .child left parent)
    (ran : (PipeReader.skipAsync client size).run world = .ok () after) :
    Handled client (world.state, 0) size parent world after ∧
      ∃ parent', after.reader = .child (left - size) parent' := by
  obtain ⟨_, charged, paid, ran⟩ := run_bind_eq_ok.mp ran
  obtain ⟨stream, last, took, done⟩ := run_bind_eq_ok.mp ran
  cases done
  obtain ⟨chargedIs, admitted⟩ := PipeReader.charge_ok paid
  obtain ⟨asked, moved, lands⟩ := PipeReader.readAsyncInternal_lands took
  have pays := PipeReader.shrinkAvailable_pays parent size
  have shrunk : (world.reader.shrinkAvailable size).1 =
      .child (left - size) (parent.shrinkAvailable size).1 := by
    rw [lent, PipeReader.shrinkAvailable] at admitted ⊢
    cases above : parent.shrinkAvailable size with
    | mk parent' within =>
        rw [above] at admitted
        cases within with
        | false => cases admitted
        | true => rfl
  subst chargedIs
  rw [shrunk] at moved
  rw [moved]
  exact ⟨⟨lands, rfl, Or.inl rfl, rfl, pays⟩, _, rfl⟩

/-- The skip at the end of `HandleFrameAsync`, with the whole body left. -/
theorem skipRest_handled {size : Int64} {parent : PipeReader}
    (lent : world.reader = .child size parent)
    (ran : (skipRest client).run world = .ok () after) :
    Handled client (world.state, 0) size parent world after := by
  unfold skipRest at ran
  rw [run_get_bind, lent, PipeReader.available_child] at ran
  by_cases some_ : size = 0
  · subst some_
    rw [if_neg (by simp)] at ran
    cases ran
    refine ⟨Landing.done _ _ (by decide), rfl, Or.inl rfl, rfl, ?_⟩
    rw [lent]
    exact PipeReader.Pays.refl parent
  · rw [if_pos some_] at ran
    exact (skipAsync_handled lent ran).1

/-- What a handler does in front of that skip, if it leaves the stream alone. -/
theorem Handled.behind {middle : World} {outcome : FrameSessionState × Nat} {size : Int64}
    {parent : PipeReader} (place : middle.position = world.position)
    (state : middle.state = outcome.1)
    (takes : outcome.2 = 0 ∨ client.Takes world.written.length)
    (sent : middle.written.length = world.written.length + 44 * outcome.2)
    (rest : Handled client (middle.state, 0) size parent middle after) :
    Handled client outcome size parent world after := by
  obtain ⟨lands, same, _, more, pays⟩ := rest
  rw [place] at lands
  exact ⟨lands, same.trans state, takes, more.trans sent, pays⟩

/-- The three handlers, each with the skip behind it. -/
theorem handleAsync_handled {asm : Assembly} {handler : Handler} {signature : UInt16}
    (found : findHandler asm signature = some handler) {size : Int64} {parent : PipeReader}
    (lent : world.reader = .child size parent)
    (ran : (handleAsync asm.toConfig client handler >>= fun _ => skipRest client).run world =
      .ok () after) :
    Handled client (react asm world.state (.frame signature)) size parent world after := by
  obtain ⟨_, middle, handled, rest⟩ := run_bind_eq_ok.mp ran
  simp only [react, found]
  cases handler with
  | checkpoint =>
      simp only [handleAsync] at handled
      rw [run_get_bind] at handled
      by_cases idle : world.state = .none
      · rw [if_pos idle] at handled ⊢
        cases handled
        refine Handled.behind ?_ ?_ (Or.inl rfl) ?_ (skipRest_handled ?_ rest)
        · rfl
        · rfl
        · rfl
        · exact lent
      · rw [if_neg idle] at handled ⊢
        obtain ⟨takes, rfl⟩ := writeCheckpoint_iff.mp handled
        refine Handled.behind ?_ ?_ (Or.inr takes) ?_ (skipRest_handled ?_ rest)
        · rfl
        · rfl
        · exact answered_sent _ _ _
        · exact lent
  | regular =>
      cases handled
      refine Handled.behind ?_ ?_ (Or.inl rfl) ?_ (skipRest_handled ?_ rest)
      · rfl
      · rfl
      · rfl
      · exact lent
  | test =>
      simp only [handleAsync] at handled
      rw [run_get_bind, lent, PipeReader.available_child] at handled
      obtain ⟨consumed, parent', reader⟩ := skipAsync_handled lent handled
      unfold skipRest at rest
      rw [run_get_bind, reader, PipeReader.available_child, Int64.sub_self,
        if_neg (by simp)] at rest
      cases rest
      exact consumed

theorem dispatch_handled {asm : Assembly} {header : FrameHeader} {parent : PipeReader}
    (lent : world.reader = .child header.dataSize parent)
    (ran : (dispatch asm client header).run world = .ok () after) :
    Handled client (react asm world.state (.frame header.signature)) header.dataSize parent world
      after := by
  unfold dispatch at ran
  cases found : findHandler asm header.signature with
  | none =>
      rw [found] at ran
      simp only [react, found]
      exact (skipAsync_handled lent ran).1
  | some handler =>
      rw [found] at ran
      simp only at ran
      rw [run_get_bind] at ran
      by_cases gated : world.state = .none ∧ handler = .regular
      · rw [if_pos gated] at ran
        rw [gated.2] at found
        simp only [react, found]
        exact (skipAsync_handled lent ran).1
      · rw [if_neg gated] at ran
        exact handleAsync_handled found lent ran

end
end FrameSession

/-- `count` bytes of the batch behind a head have been pushed. -/
structure Head.Within (asm : Assembly) (client : Client) (reader : PipeReader) (head : Head)
    (count : Nat) (found : Bool) (window : Bytes 6) (world : World) : Prop where
  position : world.position = head.start + count
  inside : head.start + count ≤ client.wire.length
  text : window.toList ++ client.wire.drop (head.start + count) = (head.text client).drop count
  found : found = true ↔
    ∃ k, 1 ≤ k ∧ k ≤ count ∧ OccursAt asm.preamble.toList (head.text client) k
  state : world.state = head.state
  sent : world.written.length = head.sent
  pays : reader.Pays world.reader (head.charged + count : Nat)

/-- The world is that of a head, in a session that was given this reader. -/
structure Head.At (client : Client) (reader : PipeReader) (head : Head) (window : Bytes 6)
    (world : World) : Prop where
  position : world.position = head.start
  inside : head.start ≤ client.wire.length
  window : window.toList = head.window
  state : world.state = head.state
  sent : world.written.length = head.sent
  pays : reader.Pays world.reader head.charged

section
variable {asm : Assembly} {client : Client} {reader : PipeReader} {head : Head}
  {count : Nat} {found : Bool} {window : Bytes 6} {world after : World}

theorem Head.At.first (client : Client) (reader : PipeReader) :
    Head.first.At client reader (List.Vector.replicate 6 0) (World.start reader) :=
  ⟨rfl, Nat.zero_le _, rfl, rfl, rfl, PipeReader.Pays.refl reader⟩

/-- The token makes no difference. -/
theorem Head.At.ask (at_ : head.At client reader window world) {answer : Bool}
    (asked : (cancellationRequested client).run world = .ok answer after) :
    head.At client reader window after := by
  obtain ⟨count, _, answered⟩ := cancellationRequested_eq client world
  cases asked.symm.trans answered
  exact ⟨at_.position, at_.inside, at_.window, at_.state, at_.sent, at_.pays⟩

theorem Head.At.within (at_ : head.At client reader window world) :
    head.Within asm client reader 0 false window world := by
  refine ⟨at_.position, at_.inside, ?_, ?_, at_.state, at_.sent, at_.pays⟩
  · rw [at_.window]
    rfl
  · constructor
    · intro impossible
      cases impossible
    · rintro ⟨k, low, high, _⟩
      omega

namespace Head.Within

theorem ask (within : head.Within asm client reader count found window world) {answer : Bool}
    (asked : (cancellationRequested client).run world = .ok answer after) :
    head.Within asm client reader count found window after := by
  obtain ⟨_, _, answered⟩ := cancellationRequested_eq client world
  cases asked.symm.trans answered
  exact ⟨within.position, within.inside, within.text, within.found, within.state, within.sent,
    within.pays⟩

theorem push (within : head.Within asm client reader count found window world) {next : Bytes 6}
    {hit : Bool} (ran : (FrameSession.receivePreamble asm.toConfig client window).run world =
      .ok (next, hit) after) :
    head.Within asm client reader (count + 1) (found || hit) next after := by
  obtain ⟨byte, middle, read, done⟩ := run_bind_eq_ok.mp ran
  cases done
  obtain ⟨asked, reader', moved, pays, content⟩ := PipeReader.read_pays (by decide) read
  have inside : world.position < client.wire.length := by
    have length := congrArg List.length content
    rw [List.Vector.toList_length, List.length_take, List.length_drop] at length
    omega
  have text : (Preamble.push window byte.head).toList ++ client.wire.drop (world.position + 1) =
      (window.toList ++ client.wire.drop world.position).drop 1 := by
    have nonempty : window.toList ≠ [] := by
      intro empty
      have six : window.toList.length = 6 := List.Vector.toList_length _
      rw [empty] at six
      exact absurd six (by decide)
    have head : byte.head = client.wire[world.position] := by
      rw [List.drop_eq_getElem_cons inside, List.take_succ_cons, List.take_zero] at content
      have same : byte = client.wire[world.position] ::ᵥ List.Vector.nil :=
        List.Vector.eq _ _ content
      rw [same, List.Vector.head_cons]
    rw [Preamble.push, Bytes.ofList_toList, head, List.append_assoc, List.singleton_append,
      ← List.drop_eq_getElem_cons inside, List.drop_one, List.tail_append_of_ne_nil nonempty]
  rw [within.position] at text inside
  rw [within.text, List.drop_drop] at text
  subst moved
  refine ⟨?_, by omega, text, ?_, within.state, within.sent, ?_⟩
  · rw [World.seek, within.position, Nat.add_assoc]
  · rw [Bool.or_eq_true, within.found, FrameSession.window_eq_iff asm.toConfig _
      (client.wire.drop (head.start + (count + 1))), ← Nat.add_assoc, text, occursAt_drop]
    constructor
    · rintro (⟨k, low, high, occurs⟩ | occurs)
      · exact ⟨k, low, by omega, occurs⟩
      · exact ⟨count + 1, by omega, Nat.le_refl _, occurs⟩
    · rintro ⟨k, low, high, occurs⟩
      by_cases last : k = count + 1
      · rw [last] at occurs
        exact Or.inr occurs
      · exact Or.inl ⟨k, low, by omega, occurs⟩
  · have both := within.pays.trans pays
    exact both

theorem batch {left : Nat} : ∀ {count : Nat} {found foundAll : Bool} {window last : Bytes 6}
    {world : World}, head.Within asm client reader count found window world →
      (FrameSession.receiveBatch asm.toConfig client left window found).run world =
        .ok (last, foundAll) after →
      head.Within asm client reader (count + left) foundAll last after := by
  induction left with
  | zero =>
      intro count found foundAll window last world within ran
      cases ran
      exact within
  | succ left ih =>
      intro count found foundAll window last world within ran
      obtain ⟨⟨next, hit⟩, middle, pushes, ran⟩ := run_bind_eq_ok.mp ran
      have onward := ih (within.push pushes) ran
      rw [Nat.add_assoc, Nat.add_comm 1 left] at onward
      exact onward

/-- Behind a whole batch, the window is that batch. -/
theorem batched (within : head.Within asm client reader 6 found window world)
    (six : head.window.length = 6) : window.toList = head.batch client := by
  have text := congrArg (List.take 6) within.text
  rw [Head.text, List.drop_left' six, List.take_left' (List.Vector.toList_length _)] at text
  exact text

theorem hit (within : head.Within asm client reader 6 true window world) :
    head.hit asm client := within.found.mp rfl

theorem missed (within : head.Within asm client reader 6 false window world)
    (six : head.window.length = 6) :
    ∃ next, Block asm client head next ∧ next.At client reader window world := by
  refine ⟨_, Block.missed within.inside fun hit => ?_, within.position, within.inside,
    within.batched six, within.state, within.sent, within.pays⟩
  have found := within.found.mpr hit
  cases found

end Head.Within

/-- A frame behind its header. -/
theorem Head.handles {image : Image} (hit : head.hit asm client) (there : head.holds client image)
    (verdict : FrameSession.checkHeader asm.toConfig (FrameHeader.decode image) = .ok true)
    (batched : window.toList = head.batch client) {offset : Nat} {read : World}
    (place : read.position = head.start + 44) (state : read.state = head.state)
    (sent : read.written.length = head.sent)
    (pays : reader.Pays read.reader (head.charged + 44 : Nat))
    (ran : (do
      PipeReader.createChild (FrameHeader.decode image).dataSize
      FrameSession.handleFrameAsync asm client offset (FrameHeader.decode image)
      PipeReader.releaseChild : Worker Unit).run read = .ok () after) :
    ∃ next, Block asm client head next ∧ next.At client reader window after := by
  obtain ⟨_, lent, created, ran⟩ := run_bind_eq_ok.mp ran
  obtain ⟨_, middle, handled, done⟩ := run_bind_eq_ok.mp ran
  cases done
  have lentIs := PipeReader.createChild_ok created
  subst lentIs
  unfold FrameSession.handleFrameAsync at handled
  rw [run_bind_ok (FrameSession.record_run _ _)] at handled
  obtain ⟨lands, stated, takes, more, rest⟩ := FrameSession.dispatch_handled rfl handled
  simp only [place, state, sent] at lands stated takes more
  have nonneg := checkHeader_true verdict
  have total : ((head.charged + 44 : Nat) : Int) + (FrameHeader.decode image).dataSize.toInt =
      (head.charged + 44 + (FrameHeader.decode image).dataSize.toInt.toNat : Nat) := by omega
  have spent := pays.trans rest
  rw [total] at spent
  exact ⟨_, Block.handled image hit there verdict _ rfl takes middle.position lands,
    rfl, lands.onWire (Head.holds_inside there), batched, stated, more, spent⟩

namespace Head.Within

/-- A frame that is received is a block, with the header that stands behind the batch. -/
theorem frame (within : head.Within asm client reader 6 true window world)
    (six : head.window.length = 6)
    (ran : (FrameSession.receiveFrame asm client).run world = .ok () after) :
    ∃ next, Block asm client head next ∧ next.At client reader window after := by
  let begun : World := { world with log := world.log ++ [.received world.position] }
  have opened : (FrameSession.receiveHeader asm client world.position).run begun =
      .ok () after := ran
  cases taken : (PipeReader.read client 38).run begun with
  | error failure failed =>
      unfold FrameSession.receiveHeader FrameSession.readHeader at opened
      rw [bind_assoc, run_get_bind, bind_assoc, run_bind_error taken] at opened
      cases opened
  | ok image read =>
      obtain ⟨asked, reader', moved, pays, content⟩ := PipeReader.read_pays (by decide) taken
      have place : begun.position = head.start + 6 := within.position
      have there : head.holds client image := by
        rw [Head.holds, ← place]
        exact content
      have inside := Head.holds_inside there
      have spent := within.pays.trans pays
      have forty : ((head.charged + 6 : Nat) : Int) + (38 : Nat) = (head.charged + 44 : Nat) := by
        omega
      rw [forty] at spent
      rw [FrameSession.receiveHeader_eq client asm _ taken] at opened
      subst moved
      cases verdict : FrameSession.checkHeader asm.toConfig (FrameHeader.decode image) with
      | error failure =>
          rw [verdict] at opened
          cases opened
      | ok passed =>
          rw [verdict] at opened
          cases passed with
          | false =>
              obtain ⟨_, middle, wrote, done⟩ := run_bind_eq_ok.mp opened
              cases done
              obtain ⟨takes, middleIs⟩ := FrameSession.writeCheckpoint_iff.mp wrote
              subst middleIs
              refine ⟨_, Block.rejected image within.hit there verdict ?_, ?_, inside,
                within.batched six, rfl, ?_, spent⟩
              · rw [← within.sent]
                exact takes
              · show begun.position + 38 = _
                rw [place]
              · rw [← within.sent]
                exact FrameSession.answered_sent _ _ _
          | true =>
              refine Head.handles within.hit there verdict (within.batched six) ?_ ?_ ?_ spent
                opened
              · show begun.position + 38 = _
                rw [place]
              · exact within.state
              · exact within.sent

end Head.Within

/-- A turn that completes leads from a head to the next one. -/
theorem Head.At.turn (at_ : head.At client reader window world) (six : head.window.length = 6)
    {pushed : Bytes 6} (ran : (FrameSession.turn asm client window).run world = .ok pushed after) :
    ∃ next, Block asm client head next ∧ next.At client reader pushed after := by
  obtain ⟨⟨last, found⟩, middle, batch, ran⟩ := run_bind_eq_ok.mp ran
  have within := at_.within.batch batch
  rw [Nat.zero_add] at within
  cases found with
  | false =>
      cases ran
      exact within.missed six
  | true =>
      obtain ⟨_, _, framed, done⟩ := run_bind_eq_ok.mp ran
      cases done
      exact within.frame six framed

/-- Wherever the loop asks whether to go on, the session is at a head of the wire. -/
theorem FrameSession.Reached.walks (reached : Reached asm client reader window world) :
    ∃ head, Walk asm client head ∧ head.At client reader window world := by
  induction reached with
  | start => exact ⟨Head.first, ReflTransGen.refl, Head.At.first client reader⟩
  | turn _ asked ran ih =>
      obtain ⟨head, walk, at_⟩ := ih
      obtain ⟨next, block, there⟩ := (at_.ask asked).turn walk.placed.six ran
      exact ⟨next, walk.tail block, there⟩

end
end Wsac.Service
