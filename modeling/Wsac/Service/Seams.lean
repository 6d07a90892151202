import Wsac.Service.Covered
import Wsac.Service.Framing
import Wsac.Service.Window

/-! # The seams of the preamble window

Behind a frame the scan goes on with the six bytes it had in front of the header, at the start
with zeros.  Where these bytes lie the wire says, and so it says whether they and the next ones
make up a preamble. -/

set_option autoImplicit false

namespace Wsac.Service

open Library Library.Exec Relation

section
variable (asm : Assembly) (client : Client)

/-- What the window holds where a scan begins, and where on the wire that is. -/
inductive Seam : List UInt8 → Nat → Prop where
  | start : Seam (List.replicate 6 0) 0
  | behind {head next : Head} (walk : Walk asm client head) (hit : head.hit asm client)
      (block : Block asm client head next) : Seam (head.batch client) next.start

/-- At no seam do the old bytes and the ones behind it make up a preamble, unless the old ones
stand in front of it as well. -/
def Seamless : Prop :=
  ∀ left resume, Seam asm client left resume → ∀ k, 1 ≤ k → resume + k ≤ client.wire.length →
    ¬ Invented asm.preamble.toList left (client.wire.take resume)
      ((client.wire.drop resume).take k)

end

namespace FrameSession
section
variable {asm : Assembly} {client : Client} {reader : PipeReader} {scan : Scan}
  {remaining : Nat} {found : Bool} {world : World}

/-- A point of the scan lies in the turn of a head, and its scan began at a seam. -/
theorem Scanning.seam (scanning : Scanning asm client reader scan remaining found world) :
    Seam asm client scan.left.toList scan.resume ∧
      ∃ head count, Walk asm client head ∧
        head.Within asm client reader count found scan.window world ∧
        (count + remaining = 6 ∨ count = 0 ∧ remaining = 0) := by
  induction scanning with
  | start =>
      exact ⟨Seam.start, Head.first, 0, ReflTransGen.refl,
        (Head.At.first client reader).within, Or.inr ⟨rfl, rfl⟩⟩
  | batch _ asked ih =>
      obtain ⟨seam, head, count, walk, within, batched | ⟨rfl, _⟩⟩ := ih
      · rw [Nat.add_zero] at batched
        subst batched
        obtain ⟨next, block, at_⟩ := within.missed walk.placed.six
        exact ⟨seam, next, 0, walk.tail block, at_.within.ask asked, Or.inl rfl⟩
      · exact ⟨seam, head, 0, walk, within.ask asked, Or.inl rfl⟩
  | push _ ran ih =>
      obtain ⟨seam, head, count, walk, within, place⟩ := ih
      exact ⟨seam, head, count + 1, walk, within.push ran, by omega⟩
  | frame _ ran ih =>
      obtain ⟨_, head, count, walk, within, batched | ⟨rfl, _⟩⟩ := ih
      · rw [Nat.add_zero] at batched
        subst batched
        obtain ⟨next, block, at_⟩ := within.frame walk.placed.six ran
        have seam := Seam.behind walk within.hit block
        rw [← within.batched walk.placed.six, ← at_.position] at seam
        exact ⟨seam, next, 0, walk.tail block, at_.within, Or.inr ⟨rfl, rfl⟩⟩
      · obtain ⟨k, low, high, _⟩ := within.found.mp rfl
        omega

/-- Where there are no seams, a push that returns true has read the preamble. -/
theorem reads_of_seamless (seamless : Seamless asm client) {after : World}
    (receives : Receives asm client reader scan true after) :
    EndsAt asm.preamble.toList client.wire after.position := by
  refine (receives_iff asm client reader receives).mpr ?_ rfl
  obtain ⟨before, remaining, found, world, next, scanning, ran, rfl⟩ := receives
  have tracks := (scanning.tracks.push ran).length
  refine seamless _ _ scanning.seam.1 (before.pushed + 1) (Nat.le_add_left _ _) ?_
  rw [fresh, List.length_take, List.length_drop] at tracks
  simp only at tracks
  omega

end

section
variable {asm : Assembly} {client : Client} (calm : client.cancelAt = none)
  (short : client.wire.length < 2 ^ 62)
include calm short

/-- From a head to the next one.  Behind a frame a new scan begins. -/
theorem Scanning.step {scan : Scan} {head next : Head} {world : World}
    (scanning : Scanning asm client .new scan 0 false world) (walk : Walk asm client head)
    (at_ : head.At client .new scan.window world) (block : Block asm client head next) :
    ∃ later after, Scanning asm client .new later 0 false after ∧
      next.At client .new later.window after ∧
      (head.hit asm client → later.left.toList = head.batch client ∧
        later.resume = next.start ∧ later.pushed = 0) := by
  have covered := walk.placed.covered short block
  have batched := scanning.batch (cancellationRequested_run client calm world)
  rw [PipeReader.new_eq_holding] at at_ batched ⊢
  obtain ⟨last, found, middle, ran, within⟩ :=
    at_.batches calm (by decide) (covered.batch block.whole) block.whole
  obtain ⟨pushed, scanned⟩ := batched.batchRun ran
  cases found with
  | false =>
      obtain ⟨other, block', there⟩ := within.missed walk.placed.six
      cases block.unique block'
      refine ⟨_, _, scanned, there, fun hit => ?_⟩
      cases within.found.mpr hit
  | true =>
      obtain ⟨after, framed⟩ := within.frames calm (by decide) covered block
      obtain ⟨other, block', there⟩ := within.frame walk.placed.six framed
      cases block.unique block'
      exact ⟨_, _, scanned.frame framed, there,
        fun _ => ⟨within.batched walk.placed.six, there.position, rfl⟩⟩

theorem Scanning.atHead {head : Head} (walk : Walk asm client head) :
    ∃ scan world, Scanning asm client .new scan 0 false world ∧
      head.At client .new scan.window world := by
  induction walk with
  | refl => exact ⟨_, _, Scanning.start, Head.At.first client .new⟩
  | tail walk block ih =>
      obtain ⟨scan, world, scanning, at_⟩ := ih
      obtain ⟨later, after, scanned, there, _⟩ := scanning.step calm short walk at_ block
      exact ⟨later, after, scanned, there⟩

/-- The session begins a scan at every seam. -/
theorem Scanning.atSeam {left : List UInt8} {resume : Nat} (seam : Seam asm client left resume) :
    ∃ scan world head, Scanning asm client .new scan 0 false world ∧ Walk asm client head ∧
      head.At client .new scan.window world ∧ head.start = resume ∧
      scan.left.toList = left ∧ scan.resume = resume ∧ scan.pushed = 0 := by
  cases seam with
  | start =>
      exact ⟨_, _, Head.first, Scanning.start, ReflTransGen.refl, Head.At.first client .new, rfl,
        rfl, rfl, rfl⟩
  | behind walk hit block =>
      obtain ⟨scan, world, scanning, at_⟩ := Scanning.atHead calm short walk
      obtain ⟨later, after, scanned, there, begun⟩ := scanning.step calm short walk at_ block
      obtain ⟨left, resume, pushed⟩ := begun hit
      exact ⟨later, after, _, scanned, walk.tail block, there, rfl, left, resume, pushed⟩

/-- A push whose byte is on the wire returns. -/
theorem Scanning.returns {scan : Scan} {head : Head} {count remaining : Nat} {found : Bool}
    {world : World} (placed : head.Placed client)
    (scanning : Scanning asm client .new scan (remaining + 1) found world)
    (within : head.Within asm client .new count found scan.window world) (few : count < 6)
    (inside : head.start + count + 1 ≤ client.wire.length) :
    ∃ hit after next,
      Receives asm client .new { scan with pushed := scan.pushed + 1, window := next } hit after ∧
      Scanning asm client .new { scan with pushed := scan.pushed + 1, window := next } remaining
        (found || hit) after ∧
      head.Within asm client .new (count + 1) (found || hit) next after := by
  have charges : Charges asm client head (head.charged + (count + 1)) :=
    Charges.push (count + 1) (by omega) few (by omega)
  have bound := placed.charges short charges
  have budgeted := within
  rw [PipeReader.new_eq_holding] at budgeted
  obtain ⟨⟨next, hit⟩, after, ran⟩ := budgeted.pushes calm (by decide) (by omega) inside
  exact ⟨hit, after, next, ⟨_, _, _, _, _, scanning, ran, rfl⟩, scanning.push ran, within.push ran⟩

theorem Scanning.pushes {scan : Scan} {head : Head} {world : World} (placed : head.Placed client)
    (scanning : Scanning asm client .new scan 6 false world)
    (at_ : head.At client .new scan.window world) (count : Nat) (few : count ≤ 6)
    (inside : head.start + count ≤ client.wire.length) : ∃ window found after,
      Scanning asm client .new { scan with pushed := scan.pushed + count, window := window }
        (6 - count) found after ∧
      head.Within asm client .new count found window after := by
  induction count with
  | zero => exact ⟨scan.window, false, world, scanning, at_.within⟩
  | succ count ih =>
      obtain ⟨window, found, middle, scanned, within⟩ := ih (by omega) (by omega)
      have left : 6 - count = 6 - (count + 1) + 1 := by omega
      rw [left] at scanned
      obtain ⟨hit, after, next, _, pushed, onward⟩ :=
        scanned.returns calm short placed within (by omega) inside
      exact ⟨next, found || hit, after, pushed, onward⟩

theorem seamless_of_reads (reads : ∀ scan after, Receives asm client .new scan true after →
    EndsAt asm.preamble.toList client.wire after.position) : Seamless asm client := by
  intro left resume seam k positive inside invented
  obtain ⟨scan, world, head, scanning, walk, at_, start, rfl, rfl, none_⟩ :=
    Scanning.atSeam calm short seam
  have few := invented.few
  rw [List.length_take, List.length_drop, List.Vector.toList_length] at few
  obtain ⟨count, rfl⟩ : ∃ count, k = count + 1 := ⟨k - 1, by omega⟩
  have batch := scanning.batch (cancellationRequested_run client calm world)
  obtain ⟨window, found, middle, scanned, within⟩ :=
    Scanning.pushes calm short walk.placed batch at_ count (by omega) (by omega)
  have more : 6 - count = 5 - count + 1 := by omega
  rw [more] at scanned
  obtain ⟨hit, after, next, receives, _⟩ :=
    scanned.returns calm short walk.placed within (by omega) (by omega)
  have shown := (receives_iff asm client .new receives).mp
  rw [none_, Nat.zero_add, fresh] at shown
  refine shown ?_ invented
  rintro rfl
  exact reads _ after receives

end

/-- A session receives only preambles that it has read where its wire has no seams.  One that
nobody cancels, on a new reader, comes to all of them. -/
theorem preambles_read_iff (asm : Assembly) (client : Client) :
    (Seamless asm client → ∀ reader scan after, Receives asm client reader scan true after →
      EndsAt asm.preamble.toList client.wire after.position) ∧
    (client.cancelAt = none → client.wire.length < 2 ^ 62 →
      ((∀ scan after, Receives asm client .new scan true after →
        EndsAt asm.preamble.toList client.wire after.position) ↔ Seamless asm client)) := by
  constructor
  · exact fun seamless _ _ _ receives => reads_of_seamless seamless receives
  · intro calm short
    exact ⟨seamless_of_reads calm short,
      fun seamless _ _ receives => reads_of_seamless seamless receives⟩

end FrameSession

namespace Sample

/-- The preamble is five zeros and a seven. -/
def zeros : Assembly :=
  { assembly with preamble := Bytes.ofList [0, 0, 0, 0, 0, 7] rfl }

/-- The zeros of the window and one byte from the pipe are a preamble. -/
theorem preamble_after_one_byte :
    ¬ ∀ (asm : Assembly) (client : Client) (reader : PipeReader) (scan : Scan) (after : World),
      FrameSession.Receives asm client reader scan true after →
        EndsAt asm.preamble.toList client.wire after.position := by
  intro claimed
  have started : FrameSession.Scanning zeros (Client.waiting [7] Wsac.Sample.nonce)
      PipeReader.new ⟨List.Vector.replicate 6 0, 0, 0, List.Vector.replicate 6 0⟩ 0 false
      (World.start PipeReader.new) := FrameSession.Scanning.start
  have ends := claimed zeros (Client.waiting [7] Wsac.Sample.nonce) PipeReader.new _ _
    ⟨_, 5, false, _, zeros.preamble, started.batch rfl, rfl, rfl⟩
  exact absurd ends (by decide)

/-- One frame, and none behind it. -/
theorem seamless_one : Seamless assembly (client [inner]) := by
  intro left resume seam k positive inside invented
  have length : (client [inner]).wire.length = 44 := by decide
  cases seam with
  | start =>
      have few := invented.few
      rw [List.length_take, List.length_drop, List.Vector.toList_length, length] at few
      have old := invented.old
      rw [List.length_take, List.length_drop, List.Vector.toList_length, length] at old
      have begins : ∀ k < 6, List.drop (min k (44 - 0)) (List.replicate 6 0) ≠
          List.take (6 - min k (44 - 0)) assembly.preamble.toList := by decide
      exact begins k (by omega) old
  | behind walk hit block =>
      have behind := block.behind hit
      omega

theorem preambles_read_iff_one :
    (∀ reader scan after, FrameSession.Receives assembly (client [inner]) reader scan true after →
      EndsAt assembly.preamble.toList (client [inner]).wire after.position) ∧
    ((∀ scan after, FrameSession.Receives assembly (client [inner]) .new scan true after →
      EndsAt assembly.preamble.toList (client [inner]).wire after.position) ↔
        Seamless assembly (client [inner])) :=
  ⟨(FrameSession.preambles_read_iff assembly (client [inner])).1 seamless_one,
    (FrameSession.preambles_read_iff assembly (client [inner])).2 rfl (by decide)⟩

end Sample
end Wsac.Service
