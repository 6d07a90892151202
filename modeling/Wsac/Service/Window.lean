import Wsac.Library.Occurrence
import Wsac.Library.Window
import Wsac.Service.Loop

/-! # The preamble window over a whole session

The window starts as zeros, and behind a frame the scan goes on with what the
window held when the header began.  `Scanning` are the points of a session at
which `ReceivePreamble` may be called next, on any client. -/

set_option autoImplicit false

namespace Wsac.Service

open Library Library.Exec

/-- Bytes read one after the other, since the start or since the last frame. -/
structure Scan where
  /-- What the window held when the scan began. -/
  left : Bytes 6
  /-- The cursor there. -/
  resume : Nat
  pushed : Nat
  window : Bytes 6

namespace FrameSession
section
variable (asm : Assembly) (client : Client) (reader : PipeReader)

/-- `remaining` bytes of the batch are to come; `found` is `foundPreamble`.  The loop of
`RunAsyncInternal` asks whether to go on where nothing remains and nothing was found. -/
inductive Scanning : Scan → (remaining : Nat) → (found : Bool) → World → Prop where
  | start : Scanning ⟨List.Vector.replicate 6 0, 0, 0, List.Vector.replicate 6 0⟩ 0 false
      (World.start reader)
  | batch {scan : Scan} {world going : World} (before : Scanning scan 0 false world)
      (asked : (cancellationRequested client).run world = .ok false going) :
      Scanning scan 6 false going
  | push {scan : Scan} {remaining : Nat} {found hit : Bool} {next : Bytes 6} {world after : World}
      (before : Scanning scan (remaining + 1) found world)
      (ran : (receivePreamble asm.toConfig client scan.window).run world = .ok (next, hit) after) :
      Scanning { scan with pushed := scan.pushed + 1, window := next } remaining (found || hit)
        after
  | frame {scan : Scan} {world after : World} (before : Scanning scan 0 true world)
      (ran : (receiveFrame asm client).run world = .ok () after) :
      Scanning ⟨scan.window, after.position, 0, scan.window⟩ 0 false after

variable {asm client reader}

theorem Scanning.batchRun {remaining : Nat} : ∀ {scan : Scan} {found foundAll : Bool}
    {last : Bytes 6} {world after : World}, Scanning asm client reader scan remaining found world →
      (receiveBatch asm.toConfig client remaining scan.window found).run world =
        .ok (last, foundAll) after →
      ∃ pushed, Scanning asm client reader { scan with pushed := pushed, window := last } 0
        foundAll after := by
  induction remaining with
  | zero =>
      intro scan found foundAll last world after scanning ran
      cases ran
      exact ⟨scan.pushed, scanning⟩
  | succ remaining ih =>
      intro scan found foundAll last world after scanning ran
      obtain ⟨⟨next, hit⟩, middle, pushes, ran⟩ := run_bind_eq_ok.mp ran
      have pushed : Scanning asm client reader
          { scan with pushed := scan.pushed + 1, window := next } remaining (found || hit) middle :=
        scanning.push pushes
      obtain ⟨count, scanned⟩ := ih pushed ran
      exact ⟨count, scanned⟩

/-- At the head of the loop, the window is that of a scan. -/
theorem Reached.scanning {preamble : Bytes 6} {world : World}
    (reached : Reached asm client reader preamble world) :
    ∃ scan, Scanning asm client reader scan 0 false world ∧ scan.window = preamble := by
  induction reached with
  | start => exact ⟨_, Scanning.start, rfl⟩
  | turn _ asked ran ih =>
      obtain ⟨scan, scanning, rfl⟩ := ih
      obtain ⟨⟨last, found⟩, middle, batch, ran⟩ := run_bind_eq_ok.mp ran
      obtain ⟨pushed, scanned⟩ := (scanning.batch asked).batchRun batch
      cases found with
      | false =>
          cases ran
          exact ⟨_, scanned, rfl⟩
      | true =>
          obtain ⟨_, after, framed, done⟩ := run_bind_eq_ok.mp ran
          cases done
          exact ⟨_, scanned.frame framed, rfl⟩

/-- A push that returns has taken the next byte of the wire. -/
theorem receivePreamble_ok {cfg : Config} {client : Client} {window next : Bytes 6} {hit : Bool}
    {world after : World}
    (ran : (receivePreamble cfg client window).run world = .ok (next, hit) after) :
    ∃ byte, client.wire[world.position]? = some byte ∧ after.position = world.position + 1 ∧
      next.toList = window.toList.tail ++ [byte] ∧ (hit = true ↔ next = cfg.preamble) := by
  obtain ⟨bytes, middle, read, done⟩ := run_bind_eq_ok.mp ran
  cases done
  obtain ⟨⟨asked, reader, moved⟩, content⟩ := PipeReader.read_ok client read
  have inside : world.position < client.wire.length := by
    have length := congrArg List.length content
    rw [List.Vector.toList_length, List.length_take, List.length_drop] at length
    omega
  refine ⟨client.wire[world.position], List.getElem?_eq_getElem inside, ?_, ?_, beq_iff_eq⟩
  · rw [moved]
    rfl
  · rw [List.drop_eq_getElem_cons inside, List.take_succ_cons, List.take_zero] at content
    have exact_ : bytes = client.wire[world.position] ::ᵥ List.Vector.nil :=
      List.Vector.eq _ _ content
    rw [exact_]
    rfl

/-- The bytes of a scan. -/
def fresh (client : Client) (scan : Scan) : List UInt8 :=
  (client.wire.drop scan.resume).take scan.pushed

/-- The window is what the scan found, slid over the bytes of the scan. -/
structure Tracks (client : Client) (scan : Scan) (world : World) : Prop where
  position : world.position = scan.resume + scan.pushed
  length : (fresh client scan).length = scan.pushed
  window : scan.window.toList = slid scan.left.toList (fresh client scan)

theorem Tracks.push {cfg : Config} {client : Client} {scan : Scan} {next : Bytes 6} {hit : Bool}
    {world after : World} (tracks : Tracks client scan world)
    (ran : (receivePreamble cfg client scan.window).run world = .ok (next, hit) after) :
    Tracks client { scan with pushed := scan.pushed + 1, window := next } after := by
  obtain ⟨byte, read, moved, shifted, _⟩ := receivePreamble_ok ran
  have longer : fresh client { scan with pushed := scan.pushed + 1, window := next } =
      fresh client scan ++ [byte] := by
    rw [fresh, fresh, List.take_add_one, List.getElem?_drop, ← tracks.position, read]
    rfl
  have nonempty : scan.left.toList ≠ [] := by
    intro empty
    have length := congrArg List.length empty
    rw [List.Vector.toList_length] at length
    cases length
  refine ⟨?_, ?_, ?_⟩
  · rw [moved, tracks.position, Nat.add_assoc]
  · rw [longer, List.length_append, tracks.length, List.length_singleton]
  · rw [longer, shifted, tracks.window, slid_concat _ _ _ nonempty]

theorem Scanning.tracks {scan : Scan} {remaining : Nat} {found : Bool} {world : World}
    (scanning : Scanning asm client reader scan remaining found world) :
    Tracks client scan world := by
  have begins : ∀ (window : Bytes 6) (world : World),
      Tracks client ⟨window, world.position, 0, window⟩ world := by
    intro window world
    refine ⟨rfl, rfl, ?_⟩
    show window.toList = slid window.toList []
    rw [slid, List.append_nil]
    rfl
  induction scanning with
  | start => exact begins _ (World.start reader)
  | @batch scan world going _ asked ih =>
      obtain ⟨count, _, answered⟩ := cancellationRequested_eq client world
      have unmoved : going = world.seek world.position count world.reader :=
        congrArg finalState (asked.symm.trans answered)
      rw [unmoved]
      exact ⟨ih.position, ih.length, ih.window⟩
  | push _ ran ih => exact ih.push ran
  | frame _ ran ih => exact begins _ _

variable (asm client reader)

/-- `ReceivePreamble` returns at some point of the session, with the scan as it is then. -/
def Receives (scan : Scan) (hit : Bool) (after : World) : Prop :=
  ∃ (before : Scan) (remaining : Nat) (found : Bool) (world : World) (next : Bytes 6),
    Scanning asm client reader before (remaining + 1) found world ∧
    (receivePreamble asm.toConfig client before.window).run world = .ok (next, hit) after ∧
    scan = { before with pushed := before.pushed + 1, window := next }

/-- Where `ReceivePreamble` returns true, the preamble is what has just been read, unless
old bytes of the window and new ones make it up. -/
theorem receives_iff {scan : Scan} {hit : Bool} {after : World}
    (receives : Receives asm client reader scan hit after) :
    (hit = true → EndsAt asm.preamble.toList client.wire after.position) ↔
      ¬ Invented asm.preamble.toList scan.left.toList (client.wire.take scan.resume)
        (fresh client scan) := by
  obtain ⟨before, remaining, found, world, next, scanning, ran, rfl⟩ := receives
  have tracks := scanning.tracks.push ran
  obtain ⟨_, _, _, _, hits⟩ := receivePreamble_ok ran
  have shows : hit = true ↔ slid before.left.toList (fresh client
      { before with pushed := before.pushed + 1, window := next }) = asm.preamble.toList := by
    rw [hits, ← tracks.window]
    exact ⟨fun same => congrArg _ same, fun same => List.Vector.eq _ _ same⟩
  have read : client.wire.take after.position = client.wire.take before.resume ++ fresh client
      { before with pushed := before.pushed + 1, window := next } := by
    rw [tracks.position, List.take_add]
    rfl
  have inside : after.position ≤ client.wire.length := by
    have length := tracks.length
    have place := tracks.position
    rw [fresh, List.length_take, List.length_drop] at length
    simp only at length place
    omega
  rw [invented_iff (by rw [List.Vector.toList_length, List.Vector.toList_length]), shows, EndsAt,
    read]
  simp only [inside, true_and, not_and, not_not]

end
end FrameSession
end Wsac.Service
