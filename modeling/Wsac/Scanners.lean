import Wsac.Dll.FrameReader
import Wsac.Service.Scan

/-! # The two preamble scanners side by side

The DLL stops at the last byte of the first occurrence.  The service looks for
an occurrence after every byte, but in batches of six: it hands over at the end
of the batch, and its window starts with zeros instead of bytes of the wire. -/

set_option autoImplicit false

namespace Wsac.Scanners

open Library Library.Exec Service Service.FrameSession

/-- Where the DLL's scanner hands over to `ReadHeader`. -/
def dllHandover (cfg : Config) (pipe : Dll.Pipe) : Option Nat :=
  match (Dll.FrameReader.readUntilPreamble pipe cfg.preamble.toList).run Dll.World.start with
  | .ok _ world => some world.position
  | .error _ _ => none

/-- Where the service's scan loop hands over to `ReadHeader` for the first time. -/
def serviceHandover (asm : Assembly) (client : Client) : Option Nat :=
  (finalState (session asm client PipeReader.new)).received.head?

theorem dllHandover_eq (cfg : Config) (pipe : Dll.Pipe) (quiet : pipe.stopAt = none) (stop : Nat)
    (first : FirstEnd cfg.preamble.toList pipe.wire stop) :
    dllHandover cfg pipe = some stop := by
  obtain ⟨asked, ran⟩ := Dll.FrameReader.readUntilPreamble_found pipe quiet cfg.preamble.toList
    cfg.preamble_nonempty Dll.World.start stop first
  unfold dllHandover
  rw [ran]
  exact congrArg some (Nat.zero_add stop)

/-- The first batch with a match is the one with this number. -/
def FirstBatch (preamble wire : List UInt8) (number : Nat) : Prop :=
  Hit preamble ((text wire).drop (6 * number)) ∧
    ∀ earlier, earlier < number → ¬ Hit preamble ((text wire).drop (6 * earlier))

theorem FirstBatch.unique {preamble wire : List UInt8} {one other : Nat}
    (first : FirstBatch preamble wire one) (second : FirstBatch preamble wire other) :
    one = other := by
  rcases Nat.lt_trichotomy one other with before | same | behind
  · exact absurd first.1 (second.2 one before)
  · exact same
  · exact absurd second.1 (first.2 other behind)

section
variable (asm : Assembly) (client : Client) (calm : client.cancelAt = none)

/-- What is received first stays first in the log, whatever comes later. -/
theorem received_first {turns : Nat} {pushed : Bytes 6} (world : World)
    (silent : world.received = []) :
    (finalState ((receiveFrame asm client >>= fun _ => runLoop asm client turns pushed).run
      world)).received.head? = some world.position := by
  have kept := receiveFrame_received client asm (runLoop_later client 0 asm turns pushed) world
  rw [silent, List.nil_append] at kept
  obtain ⟨rest, list⟩ := kept
  rw [← list]
  rfl

include calm

/-- The induction follows the batches; `skipped` of them had no match. -/
theorem runLoop_received (turns : Nat) : ∀ (skipped : Nat) (preamble : Bytes 6) (world : World),
    world.position = 6 * skipped → 6 * skipped ≤ client.wire.length → 6 * skipped < 2 ^ 63 →
    Funded (2 ^ 63 - 1) world → world.received = [] →
    preamble.toList ++ client.wire.drop (6 * skipped) = (text client.wire).drop (6 * skipped) →
    (∀ earlier, earlier < skipped →
      ¬ Hit asm.preamble.toList ((text client.wire).drop (6 * earlier))) →
    client.wire.length - 6 * skipped < turns → ∀ place,
    ((finalState ((runLoop asm client turns preamble).run world)).received.head? = some place ↔
      ∃ number, place = 6 * number + 6 ∧ FirstBatch asm.preamble.toList client.wire number ∧
        place ≤ client.wire.length ∧ place < 2 ^ 63) := by
  induction turns with
  | zero => intro skipped preamble world at_ onWire below funded silent view missed fuel; omega
  | succ turns ih =>
      intro skipped preamble world at_ onWire below funded silent view missed fuel place
      by_cases whole : 6 * skipped + 6 < 2 ^ 63 ∧ 6 * skipped + 6 ≤ client.wire.length
      · obtain ⟨pushed, content, onMiss, onHit⟩ := runLoop_batch client calm asm (2 ^ 63 - 1)
          PipeReader.new_limited turns preamble world funded (by omega) (by omega)
        rw [at_, view] at onMiss onHit
        by_cases hit : Hit asm.preamble.toList ((text client.wire).drop (6 * skipped))
        · have here : FirstBatch asm.preamble.toList client.wire skipped := ⟨hit, missed⟩
          rw [onHit hit, received_first asm client (world.shift _ _) silent, shift_position]
          constructor
          · intro same
            cases same
            exact ⟨skipped, rfl, here, whole.2, whole.1⟩
          · intro found
            obtain ⟨number, rfl, first, _, _⟩ := found
            rw [first.unique here]
        · have step := ih (skipped + 1) pushed (world.shift (2 ^ 63 - 1) (6 * skipped + 6))
            (by rw [shift_position]; omega) (by omega) (by omega) (funded_shift _ _ _) silent
            (by
              have next : 6 * (skipped + 1) = 6 * skipped + 6 := by omega
              rw [next, Nat.add_comm (6 * skipped), text_drop, content, at_, Nat.add_comm,
                ← List.drop_drop, List.take_append_drop])
            (by
              intro earlier before
              by_cases last : earlier = skipped
              · rw [last]
                exact hit
              · exact missed earlier (by omega)) (by omega) place
          rw [onMiss hit]
          exact step
      · obtain ⟨failure, position, reader, ran⟩ := runLoop_short client calm asm (2 ^ 63 - 1)
          PipeReader.new_limited turns preamble world funded (by omega) (by omega) (by omega)
        rw [ran]
        have none_ : (world.move position reader).received = [] := silent
        rw [finalState_error, none_]
        constructor
        · intro some_
          simp at some_
        · intro found
          obtain ⟨number, rfl, first, inside, bounded⟩ := found
          have later : skipped ≤ number := by
            by_contra before
            exact missed number (by omega) first.1
          omega

theorem serviceHandover_iff (place : Nat) :
    serviceHandover asm client = some place ↔
      ∃ number, place = 6 * number + 6 ∧ FirstBatch asm.preamble.toList client.wire number ∧
        place ≤ client.wire.length ∧ place < 2 ^ 63 := by
  apply runLoop_received asm client calm (client.wire.length - 0 + 1) 0 _
    (World.start PipeReader.new) rfl (Nat.zero_le _) (by decide) PipeReader.new_eq_holding rfl rfl
    (fun earlier before => absurd before (Nat.not_lt_zero _)) (Nat.lt_succ_self _)

end

/-- The zeros of a fresh window and the first `count` bytes complete a preamble. -/
def Phantom (preamble wire : List UInt8) (count : Nat) : Prop :=
  List.replicate (6 - count) 0 ++ wire.take count = preamble

instance (preamble wire : List UInt8) (count : Nat) : Decidable (Phantom preamble wire count) :=
  inferInstanceAs (Decidable (_ = preamble))

section
variable {preamble wire : List UInt8} (size : preamble.length = 6)
include size

omit size in
theorem occursAt_text_far {place : Nat} :
    OccursAt preamble (text wire) (6 + place) ↔ OccursAt preamble wire place :=
  occursAt_append_left

theorem occursAt_text_near {place : Nat} (near : place ≤ 6) :
    OccursAt preamble (text wire) place ↔ Phantom preamble wire place := by
  have zeros : (List.replicate (6 - place) (0 : UInt8)).length = 6 - place :=
    List.length_replicate
  have view : ((text wire).drop place).take 6 =
      List.replicate (6 - place) 0 ++ wire.take place := by
    rw [text, List.drop_append_of_le_length (by rw [List.length_replicate]; exact near),
      List.drop_replicate, List.take_append, List.take_of_length_le (by omega), zeros]
    congr 2
    omega
  rw [occursAt_iff_take, size, view]
  exact Iff.rfl

/-- Where the first occurrence on the wire ends decides about the first batch. -/
theorem firstBatch_iff {stop number : Nat} (first : FirstEnd preamble wire stop)
    (aligned : stop = 6 * number + 6) :
    FirstBatch preamble wire number ↔
      stop = 6 ∨ ∀ count, 1 ≤ count → count ≤ 5 → ¬ Phantom preamble wire count := by
  have nonempty : preamble ≠ [] := by
    intro empty
    rw [empty] at size
    exact absurd size (by decide)
  obtain ⟨starts, earliest⟩ := first.occursAt nonempty
  rw [size] at starts earliest
  have hit : Hit preamble ((text wire).drop (6 * number)) := by
    refine ⟨6, by omega, by omega, occursAt_drop.mpr ?_⟩
    have place : 6 * number + 6 = 6 + (stop - 6) := by omega
    rw [place, occursAt_text_far]
    exact starts
  constructor
  · rintro ⟨_, missed⟩
    by_cases atOnce : stop = 6
    · exact Or.inl atOnce
    · refine Or.inr fun count low high phantom => ?_
      refine missed 0 (by omega) ⟨count, low, by omega, ?_⟩
      rw [Nat.mul_zero, List.drop_zero, occursAt_text_near size (by omega)]
      exact phantom
  · intro quiet
    refine ⟨hit, fun earlier before => ?_⟩
    rintro ⟨k, low, high, occurs⟩
    rw [occursAt_drop] at occurs
    by_cases near : 6 * earlier + k ≤ 5
    · rcases quiet with atOnce | none_
      · omega
      · refine none_ (6 * earlier + k) (by omega) near ?_
        rw [← occursAt_text_near size (by omega)]
        exact occurs
    · obtain ⟨place, split⟩ : ∃ place, 6 * earlier + k = 6 + place :=
        ⟨6 * earlier + k - 6, by omega⟩
      rw [split, occursAt_text_far] at occurs
      exact earliest place (by omega) occurs

end

/-- Both scanners hand over right behind the first occurrence exactly when its
end closes a batch of the service, no match was seen in the zeros before it, and
the service's byte budget reaches so far. -/
theorem handovers_eq_iff (asm : Assembly) (pipe : Dll.Pipe) (client : Client) (stop : Nat)
    (quiet : pipe.stopAt = none) (calm : client.cancelAt = none) (same : client.wire = pipe.wire)
    (first : FirstEnd asm.preamble.toList pipe.wire stop) :
    (dllHandover asm.toConfig pipe = some stop ∧ serviceHandover asm client = some stop) ↔
      6 ∣ stop ∧ stop < 2 ^ 63 ∧
        (stop = 6 ∨ ∀ count, 1 ≤ count → count ≤ 5 →
          ¬ Phantom asm.preamble.toList pipe.wire count) := by
  have size : asm.preamble.toList.length = 6 := List.Vector.toList_length _
  have long := first.1.length_le
  rw [size] at long
  rw [and_iff_right (dllHandover_eq asm.toConfig pipe quiet stop first),
    serviceHandover_iff asm client calm, same]
  constructor
  · rintro ⟨number, aligned, batch, _, bounded⟩
    exact ⟨⟨number + 1, by omega⟩, bounded, (firstBatch_iff size first aligned).mp batch⟩
  · rintro ⟨⟨count, aligned⟩, bounded, clear⟩
    have closes : stop = 6 * (count - 1) + 6 := by omega
    exact ⟨count - 1, closes, (firstBatch_iff size first closes).mpr clear, first.1.1, bounded⟩

namespace Sample
open Wsac.Sample

/-- The preamble at once: both scanners stop behind it. -/
theorem handovers_eq_at_once :
    (dllHandover config (Dll.Pipe.waiting config.preamble.toList nonce) = some 6 ∧
      serviceHandover Service.Sample.assembly (Client.waiting config.preamble.toList nonce) =
        some 6) ↔
      6 ∣ 6 ∧ 6 < 2 ^ 63 ∧ (6 = 6 ∨ ∀ count, 1 ≤ count → count ≤ 5 →
        ¬ Phantom config.preamble.toList config.preamble.toList count) :=
  handovers_eq_iff Service.Sample.assembly (Dll.Pipe.waiting config.preamble.toList nonce)
    (Client.waiting config.preamble.toList nonce) 6 rfl rfl rfl (by decide +kernel)

/-- One stray byte, a preamble, five more bytes. -/
def stray : List UInt8 := 1 :: (config.preamble.toList ++ [2, 3, 4, 5, 6])

theorem handovers_differ_behind_stray :
    FirstEnd config.preamble.toList stray 7 ∧
      dllHandover config (Dll.Pipe.waiting stray nonce) = some 7 ∧
      serviceHandover Service.Sample.assembly (Client.waiting stray nonce) = some 12 := by
  decide +kernel

end Sample
end Wsac.Scanners
