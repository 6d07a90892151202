import Wsac.Service.Framing

/-! # How the service finds a frame behind garbage

The scan loop divides the wire into blocks: six bytes when no push of the batch
completed the preamble, forty-four when one did and a header was read.  With
empty bodies no other reads happen, so a frame is received exactly when a block
starts with it, and from then on every block is a frame. -/

set_option autoImplicit false

namespace Wsac.Service

open Library Library.Exec

/-- A block starts at the last offset when one starts at the first, and the
window then holds the six bytes given. -/
inductive Grid (preamble wire : List UInt8) : Nat → List UInt8 → Nat → Prop where
  | here (start : Nat) (window : List UInt8) : Grid preamble wire start window start
  | scan (start : Nat) (window : List UInt8) (stop : Nat)
      (miss : ¬ Hit preamble (window ++ wire.drop start))
      (rest : Grid preamble wire (start + 6) ((wire.drop start).take 6) stop) :
      Grid preamble wire start window stop
  | frame (start : Nat) (window : List UInt8) (stop : Nat)
      (hit : Hit preamble (window ++ wire.drop start))
      (rest : Grid preamble wire (start + 44) ((wire.drop start).take 6) stop) :
      Grid preamble wire start window stop

theorem Grid.le {preamble wire window : List UInt8} {start stop : Nat}
    (grid : Grid preamble wire start window stop) : start ≤ stop := by
  induction grid with
  | here => exact Nat.le_refl _
  | scan start window stop miss rest ih => omega
  | frame start window stop hit rest ih => omega

theorem Grid.next {preamble wire window : List UInt8} {start stop : Nat}
    (grid : Grid preamble wire start window stop) (before : start < stop) :
    (¬ Hit preamble (window ++ wire.drop start) ∧
        Grid preamble wire (start + 6) ((wire.drop start).take 6) stop) ∨
      (Hit preamble (window ++ wire.drop start) ∧
        Grid preamble wire (start + 44) ((wire.drop start).take 6) stop) := by
  cases grid with
  | here => exact absurd before (Nat.lt_irrefl _)
  | scan _ _ _ miss rest => exact Or.inl ⟨miss, rest⟩
  | frame _ _ _ hit rest => exact Or.inr ⟨hit, rest⟩

/-- The blocks of a fresh session. -/
def BlockAt (preamble wire : List UInt8) (place : Nat) : Prop :=
  Grid preamble wire 0 (List.replicate 6 0) place

section
variable {preamble wire : List UInt8} {count : Nat}

/-- Batches before the first match do not matter for later blocks. -/
theorem blockAt_iff_behind (quiet : ∀ place, 1 ≤ place → place < count + 6 →
    ¬ OccursAt preamble (text wire) place) (skipped : Nat) :
    6 * skipped < count + 6 → (BlockAt preamble wire (count + 44) ↔
      Grid preamble wire (6 * skipped) (((text wire).drop (6 * skipped)).take 6) (count + 44)) := by
  induction skipped with
  | zero => intro _; exact Iff.rfl
  | succ skipped ih =>
      intro before
      rw [ih (by omega)]
      have view : ((text wire).drop (6 * skipped)).take 6 ++ wire.drop (6 * skipped) =
          (text wire).drop (6 * skipped) := by
        rw [← text_drop wire (6 * skipped), Nat.add_comm 6, ← List.drop_drop,
          List.take_append_drop]
      have next : ((text wire).drop (6 * (skipped + 1))).take 6 =
          (wire.drop (6 * skipped)).take 6 := by
        rw [Nat.mul_succ, Nat.add_comm, text_drop]
      have miss : ¬ Hit preamble (((text wire).drop (6 * skipped)).take 6 ++
          wire.drop (6 * skipped)) := by
        rw [view]
        rintro ⟨k, low, high, occurs⟩
        exact quiet (6 * skipped + k) (by omega) (by omega) (occursAt_drop.mp occurs)
      rw [next]
      constructor
      · intro grid
        rcases grid.next (by omega) with ⟨_, rest⟩ | ⟨hit, _⟩
        · exact rest
        · exact absurd hit miss
      · exact Grid.scan _ _ _ miss

/-- When nothing before the first frame completes a preamble, it takes garbage of
a length divisible by six to have the second frame at the start of a block. -/
theorem blockAt_iff_dvd (first : OccursAt preamble wire count)
    (quiet : ∀ place, 1 ≤ place → place < count + 6 → ¬ OccursAt preamble (text wire) place) :
    BlockAt preamble wire (count + 44) ↔ 6 ∣ count := by
  obtain ⟨skipped, low, high⟩ : ∃ skipped, 6 * skipped < count + 6 ∧ count ≤ 6 * skipped :=
    ⟨(count + 5) / 6, by omega, by omega⟩
  rw [blockAt_iff_behind quiet skipped low]
  have view : ((text wire).drop (6 * skipped)).take 6 ++ wire.drop (6 * skipped) =
      (text wire).drop (6 * skipped) := by
    rw [← text_drop wire (6 * skipped), Nat.add_comm 6, ← List.drop_drop, List.take_append_drop]
  have hit : Hit preamble (((text wire).drop (6 * skipped)).take 6 ++ wire.drop (6 * skipped)) := by
    rw [view]
    refine ⟨count + 6 - 6 * skipped, by omega, by omega, occursAt_drop.mpr ?_⟩
    have place : 6 * skipped + (count + 6 - 6 * skipped) = 6 + count := by omega
    rw [place]
    exact occursAt_append_left.mpr first
  constructor
  · intro grid
    rcases grid.next (by omega) with ⟨miss, _⟩ | ⟨_, rest⟩
    · exact absurd hit miss
    · have bound := rest.le
      exact ⟨skipped, by omega⟩
  · rintro ⟨blocks, rfl⟩
    have same : blocks = skipped := by omega
    rw [same]
    exact Grid.frame _ _ _ hit (Grid.here _ _)

end

/-- Garbage, then frames without bodies; nothing but their headers passes `Validate`. -/
structure Garbled (asm : Assembly) (wire garbage : List UInt8)
    (frames : List (SignedFrame asm.toConfig)) : Prop where
  whole : wire = garbage ++ stream SignedFrame.bytes frames
  bodiless : ∀ frame ∈ frames, frame.body = []
  sole : ∀ (offset : Nat) (image : Image), image.toList = (wire.drop offset).take 38 →
    (FrameHeader.decode image).validate asm.toConfig = true →
      ∃ place ∈ places SignedFrame.bytes garbage.length frames, offset = place.1 + 6

section
variable {asm : Assembly} {wire garbage : List UInt8} {frames : List (SignedFrame asm.toConfig)}

/-- At its place a frame's header is what the wire holds behind the preamble. -/
theorem Garbled.header_at (garbled : Garbled asm wire garbage frames)
    {place : Nat × SignedFrame asm.toConfig}
    (member : place ∈ places SignedFrame.bytes garbage.length frames) {image : Image}
    (content : image.toList = (wire.drop (place.1 + 6)).take 38) :
    FrameHeader.decode image = place.2.header := by
  obtain ⟨before, after, split, exact⟩ := split_of_mem_places frames garbage.length place member
  have behind : (wire.drop (place.1 + 6)).take 38 = place.2.header.encode.toList := by
    have six : asm.preamble.toList.length = 6 := List.Vector.toList_length _
    rw [garbled.whole, exact, ← List.drop_drop, ← List.drop_drop, List.drop_left, split,
      stream_append, List.drop_left, stream_cons, SignedFrame.bytes, List.append_assoc,
      List.drop_left' six, List.append_assoc, List.take_left' (List.Vector.toList_length _)]
  have same : image = place.2.header.encode := List.Vector.eq _ _ (content.trans behind)
  rw [same]
  exact Codec.service_decode_encode place.2.header

theorem Garbled.empty_at (garbled : Garbled asm wire garbage frames)
    {place : Nat × SignedFrame asm.toConfig}
    (member : place ∈ places SignedFrame.bytes garbage.length frames) :
    place.2.body = [] := by
  obtain ⟨before, after, split, _⟩ := split_of_mem_places frames garbage.length place member
  apply garbled.bodiless
  rw [split]
  exact List.mem_append_right _ List.mem_cons_self

theorem Garbled.first_length {lost : SignedFrame asm.toConfig}
    {rest : List (SignedFrame asm.toConfig)} (garbled : Garbled asm wire garbage (lost :: rest)) :
    lost.bytes.length = 44 := by
  rw [lost.bytes_length, garbled.bodiless lost List.mem_cons_self]
  rfl

end

namespace FrameSession

/-- How a turn leaves such a wire: a batch without a match, a header that fails
`Validate`, or a genuine frame. -/
inductive Turned (asm : Assembly) (client : Client) (garbage : List UInt8)
    (frames : List (SignedFrame asm.toConfig)) (preamble : Bytes 6) (world after : World) :
    Prop where
  | missed
      (miss : ¬ Hit asm.preamble.toList (preamble.toList ++ client.wire.drop world.position))
      (moved : after.position = world.position + 6) (same : after.entered = world.entered)
  | rejected
      (hit : Hit asm.preamble.toList (preamble.toList ++ client.wire.drop world.position))
      (moved : after.position = world.position + 44) (same : after.entered = world.entered)
  | taken
      (hit : Hit asm.preamble.toList (preamble.toList ++ client.wire.drop world.position))
      (moved : after.position = world.position + 44) (place : Nat × SignedFrame asm.toConfig)
      (member : place ∈ places SignedFrame.bytes garbage.length frames)
      (there : place.1 = world.position)
      (entered : after.entered = world.entered ++ [SignedFrame.entry place])

section
variable (client : Client) (calm : client.cancelAt = none) (up : client.brokenAt = none)
  (asm : Assembly) (garbage : List UInt8) (frames : List (SignedFrame asm.toConfig))
  (garbled : Garbled asm client.wire garbage frames)
include calm up garbled

/-- Behind a match at the end of a batch, with 38 bytes left. -/
theorem receiveFrame_garbled (preamble : Bytes 6) (world : World)
    (hit : Hit asm.preamble.toList (preamble.toList ++ client.wire.drop world.position))
    (budget : world.position + 44 < 2 ^ 63)
    (readable : world.position + 44 ≤ client.wire.length) :
    ∃ after : World, (receiveFrame asm client).run
        (world.shift (2 ^ 63 - 1) (world.position + 6)) = .ok () after ∧
      Funded (2 ^ 63 - 1) after ∧ after.position = world.position + 44 ∧
      Turned asm client garbage frames preamble world after := by
  let batch := world.shift (2 ^ 63 - 1) (world.position + 6)
  have size : ((client.wire.drop (world.position + 6)).take 38).length = 38 := by
    rw [List.length_take, List.length_drop]
    omega
  let image : Image := Bytes.ofList _ size
  by_cases broken : (FrameHeader.decode image).validate asm.toConfig = false
  · obtain ⟨after, received, place, funded, settles⟩ := receiveFrame_broken client calm asm
      (2 ^ 63 - 1) PipeReader.new_limited up batch (funded_shift _ _ _)
      (by simp only [batch, shift_position]; omega) image rfl broken
    exact ⟨after, received, funded, place,
      .rejected hit place (settles.entered.trans (List.append_nil _))⟩
  · have valid : (FrameHeader.decode image).validate asm.toConfig = true := by
      simpa using broken
    obtain ⟨place, member, there⟩ := garbled.sole _ image rfl valid
    have start : place.1 = world.position := by omega
    have header : FrameHeader.decode image = place.2.header :=
      garbled.header_at member (by rw [start]; rfl)
    have sized : (FrameHeader.decode image).dataSize.toInt = (0 : Nat) := by
      rw [header, place.2.sized, garbled.empty_at member]
      rfl
    obtain ⟨after, last, received, place', reader, lands, settles⟩ := receiveFrame_signed
      client calm asm (2 ^ 63 - 1) PipeReader.new_limited up batch (funded_shift _ _ _) image rfl
      valid 0 sized (by simp only [batch, shift_position]; omega) (by omega)
      (by simp only [batch, shift_position]; omega)
    have stop : last = world.position + 44 := lands.met.mpr (Pieces.done _)
    rw [stop] at place'
    have funded : Funded (2 ^ 63 - 1) after := by
      unfold Funded
      rw [reader, place']
      rfl
    refine ⟨after, received, funded, place', .taken hit place' place member start ?_⟩
    rw [settles.entered, header, SignedFrame.entry, start]
    rfl

/-- A turn either is the last one and enters nothing, or leaves the wire as `Turned` says. -/
theorem runLoop_turn (turns : Nat) (preamble : Bytes 6) (world : World)
    (onWire : world.position ≤ client.wire.length) (below : world.position < 2 ^ 63)
    (funded : Funded (2 ^ 63 - 1) world) :
    ((client.wire.length < world.position + 44 ∨ 2 ^ 63 ≤ world.position + 44) ∧
      (finalState ((runLoop asm client (turns + 1) preamble).run world)).entered =
        world.entered) ∨
    ∃ pushed : Bytes 6, pushed.toList = (client.wire.drop world.position).take 6 ∧
      ∃ after : World, (runLoop asm client (turns + 1) preamble).run world =
          (runLoop asm client turns pushed).run after ∧
        Funded (2 ^ 63 - 1) after ∧ after.position ≤ client.wire.length ∧
        after.position < 2 ^ 63 ∧ Turned asm client garbage frames preamble world after := by
  by_cases whole : world.position + 6 < 2 ^ 63 ∧ world.position + 6 ≤ client.wire.length
  · obtain ⟨pushed, content, onMiss, onHit⟩ := runLoop_batch client calm asm (2 ^ 63 - 1)
      PipeReader.new_limited turns preamble world funded (by omega) whole.2
    by_cases hit : Hit asm.preamble.toList (preamble.toList ++ client.wire.drop world.position)
    · by_cases readable : world.position + 44 < 2 ^ 63 ∧
          world.position + 44 ≤ client.wire.length
      · right
        obtain ⟨after, received, funded', moved, turned⟩ := receiveFrame_garbled client calm up asm
          garbage frames garbled preamble world hit readable.1 readable.2
        refine ⟨pushed, content, after, ?_, funded', by omega, by omega, turned⟩
        rw [onHit hit, run_bind_ok received]
      · left
        obtain ⟨failure, after, received, _, same⟩ := receiveFrame_short client calm asm
          (2 ^ 63 - 1) PipeReader.new_limited (world.shift (2 ^ 63 - 1) (world.position + 6))
          (funded_shift _ _ _) (by rw [shift_position]; omega)
          (by rw [shift_position]; exact whole.2) (by rw [shift_position]; omega)
        refine ⟨by omega, ?_⟩
        rw [onHit hit, run_bind_error received]
        exact same
    · right
      exact ⟨pushed, content, world.shift (2 ^ 63 - 1) (world.position + 6), onMiss hit,
        funded_shift _ _ _, whole.2, whole.1, .missed hit rfl rfl⟩
  · left
    obtain ⟨failure, position, reader, ran⟩ := runLoop_short client calm asm (2 ^ 63 - 1)
      PipeReader.new_limited turns preamble world funded (by omega) onWire (by omega)
    refine ⟨by omega, ?_⟩
    rw [ran]
    rfl

/-- Only frames at the start of a block are entered, once each and in order. -/
theorem runLoop_entered (turns : Nat) : ∀ (preamble : Bytes 6) (world : World),
    world.position ≤ client.wire.length → world.position < 2 ^ 63 →
    Funded (2 ^ 63 - 1) world →
    ∃ new, (finalState ((runLoop asm client turns preamble).run world)).entered =
        world.entered ++ new ∧
      (∀ entry ∈ new, ∃ place ∈ places SignedFrame.bytes garbage.length frames,
        entry = SignedFrame.entry place ∧ world.position ≤ place.1 ∧ place.1 + 44 < 2 ^ 63 ∧
        Grid asm.preamble.toList client.wire world.position preamble.toList place.1) ∧
      new.Pairwise fun first second => first.1 < second.1 := by
  induction turns with
  | zero =>
      intro preamble world onWire below funded
      exact ⟨[], (List.append_nil _).symm, by simp, List.Pairwise.nil⟩
  | succ turns ih =>
      intro preamble world onWire below funded
      rcases runLoop_turn client calm up asm garbage frames garbled turns preamble world onWire
        below funded with
        ⟨_, same⟩ | ⟨pushed, content, after, ran, funded', onWire', below', turned⟩
      · exact ⟨[], by rw [same, List.append_nil], by simp, List.Pairwise.nil⟩
      · obtain ⟨new, grown, sound, sorted⟩ := ih pushed after onWire' below' funded'
        rw [content] at sound
        cases turned with
        | missed miss moved same =>
            rw [moved] at sound
            refine ⟨new, by rw [ran, grown, same], fun entry inside => ?_, sorted⟩
            obtain ⟨place, member, exact, behind, fits, grid⟩ := sound entry inside
            exact ⟨place, member, exact, by omega, fits, Grid.scan _ _ _ miss grid⟩
        | rejected hit moved same =>
            rw [moved] at sound
            refine ⟨new, by rw [ran, grown, same], fun entry inside => ?_, sorted⟩
            obtain ⟨place, member, exact, behind, fits, grid⟩ := sound entry inside
            exact ⟨place, member, exact, by omega, fits, Grid.frame _ _ _ hit grid⟩
        | taken hit moved place member start entered =>
            rw [moved] at sound
            refine ⟨SignedFrame.entry place :: new, ?_, ?_, ?_⟩
            · rw [ran, grown, entered, List.append_assoc]
              rfl
            · intro entry inside
              rcases List.mem_cons.mp inside with rfl | later
              · refine ⟨place, member, rfl, by omega, by omega, ?_⟩
                rw [start]
                exact Grid.here _ _
              · obtain ⟨other, member', exact, behind, fits, grid⟩ := sound entry later
                exact ⟨other, member', exact, by omega, fits, Grid.frame _ _ _ hit grid⟩
            · refine List.Pairwise.cons (fun entry later => ?_) sorted
              obtain ⟨other, _, exact, behind, _, _⟩ := sound entry later
              rw [exact]
              simp only [SignedFrame.entry]
              omega

end

section
variable (client : Client) (calm : client.cancelAt = none) (up : client.brokenAt = none)
  (asm : Assembly) (garbage : List UInt8) (lost : SignedFrame asm.toConfig)
  (rest : List (SignedFrame asm.toConfig))
  (garbled : Garbled asm client.wire garbage (lost :: rest))
  (short : client.wire.length < 2 ^ 63)
include calm up garbled short

/-- With a block at the second frame, all frames from there on are entered. -/
theorem runLoop_from_second (turns : Nat) (preamble : Bytes 6) (world : World)
    (at_ : world.position = garbage.length + 44) (funded : Funded (2 ^ 63 - 1) world)
    (fuel : client.wire.length - world.position < turns) :
    (finalState ((runLoop asm client turns preamble).run world)).entered =
      world.entered ++ entriesOf (garbage.length + 44) rest := by
  have size : lost.bytes.length = 44 := garbled.first_length
  have ahead : client.wire.drop world.position = stream SignedFrame.bytes rest := by
    rw [garbled.whole, at_, ← List.drop_drop, List.drop_left, stream_cons, ← size, List.drop_left]
  have onWire : world.position ≤ client.wire.length := by
    rw [garbled.whole, List.length_append, stream_cons, List.length_append]
    omega
  have inStep := (runLoop_frames_iff client calm asm up short rest turns preamble world onWire ahead
    funded fuel).mpr (by
      intro place member
      have bodiless : place.2.body = [] := by
        obtain ⟨before, after, split, _⟩ := split_of_mem_places rest _ place member
        apply garbled.bodiless
        rw [split]
        exact List.mem_cons_of_mem _ (List.mem_append_right _ List.mem_cons_self)
      unfold BodyInPieces
      rw [place.2.bytes_length, bodiless]
      exact Pieces.done _)
  rw [inStep.2, at_]

/-- The induction follows the blocks up to the second frame. -/
theorem runLoop_to_second (more : rest ≠ []) {start stop : Nat} {window : List UInt8}
    (grid : Grid asm.preamble.toList client.wire start window stop) :
    stop = garbage.length + 44 → ∀ (turns : Nat) (preamble : Bytes 6) (world : World),
      preamble.toList = window → world.position = start → Funded (2 ^ 63 - 1) world →
      client.wire.length - world.position < turns →
      (finalState ((runLoop asm client turns preamble).run world)).entered =
          world.entered ++ entriesOf garbage.length (lost :: rest) ∨
        (finalState ((runLoop asm client turns preamble).run world)).entered =
          world.entered ++ entriesOf (garbage.length + 44) rest := by
  have size : lost.bytes.length = 44 := garbled.first_length
  have length : garbage.length + 88 ≤ client.wire.length := by
    obtain ⟨next, others, rfl⟩ := List.exists_cons_of_ne_nil more
    rw [garbled.whole, List.length_append, SignedFrame.stream_length, SignedFrame.stream_length]
    omega
  induction grid with
  | here start window =>
      intro second turns preamble world _ at_ funded fuel
      right
      exact runLoop_from_second client calm up asm garbage lost rest garbled short turns preamble
        world (at_.trans second) funded fuel
  | scan start window stop miss onward ih =>
      rintro second turns preamble world rfl rfl funded fuel
      obtain ⟨turns, rfl⟩ : ∃ fewer, turns = fewer + 1 := ⟨turns - 1, by omega⟩
      have bound := onward.le
      rcases runLoop_turn client calm up asm garbage (lost :: rest) garbled turns preamble world
        (by omega) (by omega) funded with
        ⟨ended, _⟩ | ⟨pushed, content, after, ran, funded', onWire', below', turned⟩
      · omega
      · cases turned with
        | missed _ moved same =>
            rw [ran, ← same]
            exact ih second turns pushed after content moved funded' (by omega)
        | rejected hit => exact absurd hit miss
        | taken hit => exact absurd hit miss
  | frame start window stop hit onward ih =>
      rintro second turns preamble world rfl rfl funded fuel
      obtain ⟨turns, rfl⟩ : ∃ fewer, turns = fewer + 1 := ⟨turns - 1, by omega⟩
      have bound := onward.le
      rcases runLoop_turn client calm up asm garbage (lost :: rest) garbled turns preamble world
        (by omega) (by omega) funded with
        ⟨ended, _⟩ | ⟨pushed, content, after, ran, funded', onWire', below', turned⟩
      · omega
      · cases turned with
        | missed miss => exact absurd hit miss
        | rejected _ moved same =>
            rw [ran, ← same]
            exact ih second turns pushed after content moved funded' (by omega)
        | taken _ moved place member there entered =>
            left
            rcases List.mem_cons.mp member with rfl | later
            · have second' : after.position = garbage.length + 44 := by rw [moved, ← there]
              rw [ran, runLoop_from_second client calm up asm garbage lost rest garbled short turns
                pushed after second' funded' (by omega), entered, List.append_assoc]
              have next : garbage.length + lost.bytes.length = garbage.length + 44 := by rw [size]
              rw [← next]
              rfl
            · have behind := le_of_mem_places rest _ place later
              omega

end

section
variable (client : Client) (calm : client.cancelAt = none) (up : client.brokenAt = none)
  (asm : Assembly) (garbage : List UInt8) (frames : List (SignedFrame asm.toConfig))
  (garbled : Garbled asm client.wire garbage frames)
include calm up garbled

/-- What a fresh session enters: frames at the start of a block, within the budget. -/
theorem session_entered : ∃ new,
    (finalState (session asm client PipeReader.new)).entered = new ∧
    (∀ entry ∈ new, ∃ place ∈ places SignedFrame.bytes garbage.length frames,
      entry = SignedFrame.entry place ∧ place.1 + 44 < 2 ^ 63 ∧
      BlockAt asm.preamble.toList client.wire place.1) ∧
    new.Pairwise fun first second => first.1 < second.1 := by
  obtain ⟨new, entered, sound, sorted⟩ := runLoop_entered client calm up asm garbage frames garbled
    (client.wire.length - 0 + 1) (List.Vector.replicate 6 0) (World.start PipeReader.new)
    (Nat.zero_le _) (by decide) PipeReader.new_eq_holding
  refine ⟨new, entered, fun entry member => ?_, sorted⟩
  obtain ⟨place, inside, same, _, fits, grid⟩ := sound entry member
  exact ⟨place, inside, same, fits, grid⟩

/-- Of no frame or of one, at most the first is lost in any case. -/
theorem session_loses_few (few : frames.length ≤ 1) :
    (finalState (session asm client PipeReader.new)).entered = entriesOf garbage.length frames ∨
      (finalState (session asm client PipeReader.new)).entered =
        (entriesOf garbage.length frames).tail := by
  obtain ⟨new, entered, sound, sorted⟩ :=
    session_entered client calm up asm garbage frames garbled
  rw [entered]
  cases frames with
  | nil =>
      left
      apply List.eq_nil_iff_forall_not_mem.mpr
      intro entry member
      obtain ⟨place, inside, _⟩ := sound entry member
      cases inside
  | cons lost others =>
      obtain rfl : others = [] := List.eq_nil_of_length_eq_zero (by simpa using few)
      have single : ∀ entry ∈ new, entry = SignedFrame.entry (garbage.length, lost) := by
        intro entry member
        obtain ⟨place, inside, same, _⟩ := sound entry member
        rw [same, List.mem_singleton.mp inside]
      cases new with
      | nil => exact Or.inr rfl
      | cons first more =>
          left
          have alone : more = [] := by
            apply List.eq_nil_iff_forall_not_mem.mpr
            intro entry member
            have before := List.rel_of_pairwise_cons sorted member
            rw [single first List.mem_cons_self,
              single entry (List.mem_cons_of_mem _ member)] at before
            exact absurd before (Nat.lt_irrefl _)
          rw [alone, single first List.mem_cons_self]
          rfl

end

section
variable (client : Client) (calm : client.cancelAt = none) (up : client.brokenAt = none)
  (asm : Assembly) (garbage : List UInt8) (lost next : SignedFrame asm.toConfig)
  (rest : List (SignedFrame asm.toConfig))
  (garbled : Garbled asm client.wire garbage (lost :: next :: rest))
include calm up garbled

/-- Where all frames from the second on are entered, each of them starts a block. -/
theorem blockAt_second
    (all : ∀ entry ∈ entriesOf (garbage.length + 44) (next :: rest),
      entry ∈ (finalState (session asm client PipeReader.new)).entered) :
    BlockAt asm.preamble.toList client.wire (garbage.length + 44) ∧
      client.wire.length < 2 ^ 63 := by
  obtain ⟨new, entered, sound, _⟩ :=
    session_entered client calm up asm garbage (lost :: next :: rest) garbled
  rw [entered] at all
  have size : lost.bytes.length = 44 := garbled.first_length
  have bounded : ∀ place ∈ places SignedFrame.bytes (garbage.length + 44) (next :: rest),
      BlockAt asm.preamble.toList client.wire place.1 ∧ place.1 + 44 < 2 ^ 63 := by
    intro place member
    obtain ⟨other, _, same, fits, grid⟩ :=
      sound _ (all _ (List.mem_map.mpr ⟨place, member, rfl⟩))
    have there : place.1 + 6 = other.1 + 6 := congrArg Prod.fst same
    have offset : place.1 = other.1 := by omega
    rw [offset]
    exact ⟨grid, fits⟩
  refine ⟨(bounded (garbage.length + 44, next) List.mem_cons_self).1, ?_⟩
  obtain ⟨place, member, ends⟩ := exists_last_place SignedFrame.bytes
    (garbage.length + 44) (next :: rest) (List.cons_ne_nil _ _)
  have last := (bounded place member).2
  have empty : place.2.body = [] := by
    apply garbled.empty_at
    rw [places, size]
    exact List.mem_cons_of_mem _ member
  rw [place.2.bytes_length, empty, List.length_nil] at ends
  rw [garbled.whole, List.length_append, stream_cons, List.length_append, size]
  omega

theorem session_resyncs_many :
    ((finalState (session asm client PipeReader.new)).entered =
          entriesOf garbage.length (lost :: next :: rest) ∨
        (finalState (session asm client PipeReader.new)).entered =
          (entriesOf garbage.length (lost :: next :: rest)).tail) ↔
      BlockAt asm.preamble.toList client.wire (garbage.length + 44) ∧
        client.wire.length < 2 ^ 63 := by
  have size : lost.bytes.length = 44 := garbled.first_length
  constructor
  · intro either
    apply blockAt_second client calm up asm garbage lost next rest garbled
    intro entry member
    rw [← size] at member
    rcases either with whole | tail
    · rw [whole]
      exact List.mem_cons_of_mem _ member
    · rw [tail]
      exact member
  · intro held
    rcases runLoop_to_second client calm up asm garbage lost (next :: rest) garbled held.2
      (List.cons_ne_nil _ _) held.1 rfl (client.wire.length - 0 + 1) (List.Vector.replicate 6 0)
      (World.start PipeReader.new) rfl rfl PipeReader.new_eq_holding (Nat.lt_succ_self _) with
      whole | tail
    · exact Or.inl whole
    · right
      rw [entriesOf, places, size]
      exact tail

end

section
variable (client : Client) (calm : client.cancelAt = none) (up : client.brokenAt = none)
  (asm : Assembly) (garbage : List UInt8) (frames : List (SignedFrame asm.toConfig))
  (garbled : Garbled asm client.wire garbage frames)
include calm up garbled

/-- A fresh session loses at most the first frame behind the garbage exactly when
there is no second one, or a block of the scan loop starts with the second and
the budget lasts to the end of the wire. -/
theorem session_resyncs_iff :
    ((finalState (session asm client PipeReader.new)).entered = entriesOf garbage.length frames ∨
        (finalState (session asm client PipeReader.new)).entered =
          (entriesOf garbage.length frames).tail) ↔
      frames.length ≤ 1 ∨
        (BlockAt asm.preamble.toList client.wire (garbage.length + 44) ∧
          client.wire.length < 2 ^ 63) := by
  by_cases few : frames.length ≤ 1
  · have lost := session_loses_few client calm up asm garbage frames garbled few
    exact ⟨fun _ => Or.inl few, fun _ => lost⟩
  · rw [or_iff_right few]
    rcases frames with _ | ⟨lost, _ | ⟨next, rest⟩⟩
    · exact absurd (Nat.zero_le 1) few
    · exact absurd (Nat.le_refl 1) few
    · exact session_resyncs_many client calm up asm garbage lost next rest garbled

end
end FrameSession

namespace Sample
open Wsac.Sample

theorem garbled_of_windows {wire garbage : List UInt8} {frames : List (SignedFrame config)}
    (whole : wire = garbage ++ stream SignedFrame.bytes frames)
    (bodiless : ∀ frame ∈ frames, frame.body = [])
    (windows : ∀ offset, offset < wire.length →
      ∀ size : ((wire.drop offset).take 38).length = 38,
        (FrameHeader.decode (Bytes.ofList _ size)).validate config = true →
          offset ∈ (places SignedFrame.bytes garbage.length frames).map fun place => place.1 + 6) :
    Garbled assembly wire garbage frames := by
  refine ⟨whole, bodiless, fun offset image content valid => ?_⟩
  have size : ((wire.drop offset).take 38).length = 38 := by
    rw [← content, List.Vector.toList_length]
  have same : image = Bytes.ofList _ size := List.Vector.eq _ _ content
  have inside : offset < wire.length := by
    rw [List.length_take, List.length_drop] at size
    omega
  rw [same] at valid
  obtain ⟨place, member, exact⟩ := List.mem_map.mp (windows offset inside size valid)
  exact ⟨place, member, exact.symm⟩

def noisy (garbage : List UInt8) : Client :=
  Client.waiting (garbage ++ stream SignedFrame.bytes [inner, inner]) nonce

theorem bodiless : ∀ frame ∈ [inner, inner], frame.body = [] := by
  intro frame member
  have same : frame = inner := by simpa using member
  rw [same]
  rfl

theorem session_resyncs_iff_noisy :
    ((finalState (FrameSession.session assembly (noisy [1]) PipeReader.new)).entered =
          entriesOf 1 [inner, inner] ∨
        (finalState (FrameSession.session assembly (noisy [1]) PipeReader.new)).entered =
          (entriesOf 1 [inner, inner]).tail) ↔
      [inner, inner].length ≤ 1 ∨
        (BlockAt config.preamble.toList (noisy [1]).wire 45 ∧ (noisy [1]).wire.length < 2 ^ 63) :=
  FrameSession.session_resyncs_iff (noisy [1]) rfl rfl assembly [1] [inner, inner]
    (garbled_of_windows rfl bodiless (by decide +kernel))

/-- One byte of garbage, and both frames are lost. -/
theorem frames_lost_behind_one_byte :
    OnlyAtStarts config.preamble.toList SignedFrame.bytes [inner, inner] ∧
      Garbled assembly (noisy [1]).wire [1] [inner, inner] ∧
      (finalState (FrameSession.session assembly (noisy [1]) PipeReader.new)).entered = [] ∧
      entriesOf 1 [inner, inner] = [(7, inner.header), (51, inner.header)] := by
  refine ⟨?_, garbled_of_windows rfl bodiless (by decide +kernel), ?_, ?_⟩
  · exact onlyAtStarts_of_inside config.preamble_nonempty (by decide +kernel)
  · decide +kernel
  · decide +kernel

end Sample
end Wsac.Service
