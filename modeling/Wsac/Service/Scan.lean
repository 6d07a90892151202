import Wsac.Service.Budget
import Wsac.Service.Growth
import Wsac.Library.Occurrence

/-! # The scan loop of the service

Between two turns the scanner sees a text: the six bytes of its window and then
what is left on the wire.  A push drops the first byte of that text, and a match
is an occurrence of the preamble in it behind its first byte. -/

set_option autoImplicit false

namespace Wsac.Service

open Library Library.Exec

/-- One of the six pushes of a batch completes the preamble. -/
def Hit (preamble text : List UInt8) : Prop :=
  ∃ k, 1 ≤ k ∧ k ≤ 6 ∧ OccursAt preamble text k

/-- The window of a fresh session and the wire behind it. -/
def text (wire : List UInt8) : List UInt8 := List.replicate 6 0 ++ wire

theorem text_drop (wire : List UInt8) (count : Nat) :
    (text wire).drop (6 + count) = wire.drop count := by
  rw [← List.drop_drop]
  rfl

/-- A preamble right in front is completed by the sixth push, whatever the window holds. -/
theorem hit_of_prefix {preamble ahead : List UInt8} (window : Bytes 6)
    (next : preamble <+: ahead) : Hit preamble (window.toList ++ ahead) := by
  refine ⟨6, by omega, by omega, ?_⟩
  rw [OccursAt, List.drop_left' (List.Vector.toList_length _)]
  exact next

/-- The thread's reader with `total` bytes of budget, all charges for bytes already read. -/
def Funded (total : Int) (world : World) : Prop :=
  world.reader = PipeReader.holding (total - world.position)

def World.shift (world : World) (total : Int) (position : Nat) : World :=
  world.move position (PipeReader.holding (total - position))

@[simp] theorem shift_position (world : World) (total : Int) (position : Nat) :
    (world.shift total position).position = position := rfl
@[simp] theorem shift_log (world : World) (total : Int) (position : Nat) :
    (world.shift total position).log = world.log := rfl
@[simp] theorem shift_state (world : World) (total : Int) (position : Nat) :
    (world.shift total position).state = world.state := rfl
@[simp] theorem shift_shift (world : World) (total : Int) (first second : Nat) :
    (world.shift total first).shift total second = world.shift total second := rfl

theorem funded_shift (world : World) (total : Int) (position : Nat) :
    Funded total (world.shift total position) := rfl

theorem Funded.shift_here {world : World} {total : Int} (funded : Funded total world) :
    world.shift total world.position = world := by
  unfold World.shift
  rw [← funded]
  rfl

section Calm
variable (client : Client) (calm : client.cancelAt = none)
include calm

/-- Bytes are read from a funded reader as long as both the wire and the budget last. -/
theorem read_funded (size : Nat) (positive : 0 < size) (small : size < 2 ^ 63) (world : World)
    (total : Int) (funded : Funded total world) (limited : total ≤ 2 ^ 63)
    (within : ((world.position + size : Nat) : Int) ≤ total)
    (enough : world.position + size ≤ client.wire.length) :
    ∃ filled : Bytes size,
      (PipeReader.read client size).run world =
        .ok filled (world.shift total (world.position + size)) ∧
      filled.toList = (client.wire.drop world.position).take size := by
  obtain ⟨filled, ran, content⟩ := PipeReader.read_run client calm size small world
    (total - world.position) funded (by omega) (by omega) enough
  refine ⟨filled, ?_, content⟩
  have left : total - (world.position : Int) - size = total - (world.position + size : Nat) := by
    omega
  rw [ran, left]
  rfl

/-- Otherwise the read fails and logs nothing. -/
theorem read_unfunded (size : Nat) (positive : 0 < size) (small : size < 2 ^ 32) (world : World)
    (total : Int) (funded : Funded total world) (limited : total ≤ 2 ^ 63)
    (lowest : -2 ^ 63 ≤ total - world.position - size)
    (onWire : world.position ≤ client.wire.length)
    (short : total < (world.position + size : Nat) ∨
      client.wire.length < world.position + size) :
    ∃ failure position reader,
      (PipeReader.read client size).run world = .error failure (world.move position reader) := by
  apply PipeReader.read_short client calm size (by omega) world (total - world.position) funded
    (by omega) (by omega) onWire
  omega

namespace FrameSession

section
variable (cfg : Config) (total : Int) (limited : total ≤ 2 ^ 63)
include limited

/-- A push slides the text by one byte. -/
theorem receivePreamble_run (preamble : Bytes 6) (world : World) (funded : Funded total world)
    (within : ((world.position + 1 : Nat) : Int) ≤ total)
    (enough : world.position + 1 ≤ client.wire.length) :
    ∃ pushed : Bytes 6,
      (receivePreamble cfg client preamble).run world =
        .ok (pushed, pushed == cfg.preamble) (world.shift total (world.position + 1)) ∧
      pushed.toList ++ client.wire.drop (world.position + 1) =
        (preamble.toList ++ client.wire.drop world.position).drop 1 := by
  obtain ⟨byte, ran, content⟩ := read_funded client calm 1 (by decide) (by decide) world total
    funded limited within enough
  have inside : world.position < client.wire.length := by omega
  refine ⟨Preamble.push preamble byte.head, ?_, ?_⟩
  · unfold receivePreamble
    rw [run_bind_ok ran]
    rfl
  · have head : byte.head = client.wire[world.position] := by
      rw [List.drop_eq_getElem_cons inside, List.take_succ_cons, List.take_zero] at content
      have same : byte = client.wire[world.position] ::ᵥ List.Vector.nil :=
        List.Vector.eq _ _ content
      rw [same, List.Vector.head_cons]
    have nonempty : preamble.toList ≠ [] := by
      intro empty
      have six : preamble.toList.length = 6 := List.Vector.toList_length _
      rw [empty] at six
      exact absurd six (by decide)
    rw [Preamble.push, Bytes.ofList_toList, head, List.append_assoc, List.singleton_append,
      ← List.drop_eq_getElem_cons inside, List.drop_one, List.tail_append_of_ne_nil nonempty]

omit calm limited in
/-- A window equals the preamble exactly when the preamble starts the text. -/
theorem window_eq_iff (window : Bytes 6) (rest : List UInt8) :
    (window == cfg.preamble) = true ↔ OccursAt cfg.preamble.toList (window.toList ++ rest) 0 := by
  rw [occursAt_iff_take, List.drop_zero, List.Vector.toList_length,
    List.take_left' (List.Vector.toList_length _), beq_iff_eq]
  exact ⟨fun same => by rw [same], fun same => List.Vector.eq _ _ same⟩

theorem receiveBatch_run (left : Nat) : ∀ (preamble : Bytes 6) (found : Bool) (world : World),
    Funded total world → ((world.position + left : Nat) : Int) ≤ total →
    world.position + left ≤ client.wire.length →
    ∃ (pushed : Bytes 6) (hit : Bool),
      (receiveBatch cfg client left preamble found).run world =
        .ok (pushed, hit) (world.shift total (world.position + left)) ∧
      pushed.toList ++ client.wire.drop (world.position + left) =
        (preamble.toList ++ client.wire.drop world.position).drop left ∧
      (hit = true ↔ found = true ∨ ∃ k, 1 ≤ k ∧ k ≤ left ∧
        OccursAt cfg.preamble.toList (preamble.toList ++ client.wire.drop world.position) k) := by
  induction left with
  | zero =>
      intro preamble found world funded within enough
      refine ⟨preamble, found, ?_, rfl, ?_⟩
      · rw [Nat.add_zero, funded.shift_here]
        rfl
      · constructor
        · exact Or.inl
        · rintro (already | ⟨k, low, high, _⟩)
          · exact already
          · omega
  | succ left ih =>
      intro preamble found world funded within enough
      obtain ⟨first, pushRan, slid⟩ := receivePreamble_run client calm cfg total limited preamble
        world funded (by omega) (by omega)
      obtain ⟨pushed, hit, ran, text, hits⟩ := ih first (found || (first == cfg.preamble))
        (world.shift total (world.position + 1)) (funded_shift _ _ _)
        (by simp only [shift_position]; omega) (by simp only [shift_position]; omega)
      simp only [shift_position, shift_shift, slid, List.drop_drop] at ran text hits
      have place : world.position + 1 + left = world.position + (left + 1) := by omega
      rw [place] at ran text
      refine ⟨pushed, hit, ?_, ?_, ?_⟩
      · unfold receiveBatch
        rw [run_bind_ok pushRan]
        exact ran
      · rw [text, Nat.add_comm 1 left]
      · rw [hits, Bool.or_eq_true, window_eq_iff cfg first, slid, occursAt_drop, or_assoc]
        apply or_congr Iff.rfl
        constructor
        · rintro (now | ⟨k, low, high, occurs⟩)
          · exact ⟨1, by omega, by omega, now⟩
          · exact ⟨1 + k, by omega, by omega, occursAt_drop.mp occurs⟩
        · rintro ⟨k, low, high, occurs⟩
          by_cases now : k = 1
          · subst now
            exact Or.inl occurs
          · refine Or.inr ⟨k - 1, by omega, by omega, occursAt_drop.mpr ?_⟩
            have same : 1 + (k - 1) = k := by omega
            rw [same]
            exact occurs

theorem receiveBatch_short (left : Nat) : ∀ (preamble : Bytes 6) (found : Bool) (world : World),
    Funded total world → -2 ^ 63 < total - world.position →
    world.position ≤ client.wire.length →
    (0 < left ∧ total < (world.position + left : Nat)) ∨
      client.wire.length < world.position + left →
    ∃ failure position reader, (receiveBatch cfg client left preamble found).run world =
      .error failure (world.move position reader) := by
  induction left with
  | zero => intro preamble found world funded lowest onWire short; omega
  | succ left ih =>
      intro preamble found world funded lowest onWire short
      by_cases more : ((world.position + 1 : Nat) : Int) ≤ total ∧
          world.position + 1 ≤ client.wire.length
      · obtain ⟨first, pushRan, _⟩ := receivePreamble_run client calm cfg total limited preamble
          world funded more.1 more.2
        obtain ⟨failure, position, reader, ran⟩ := ih first (found || (first == cfg.preamble))
          (world.shift total (world.position + 1)) (funded_shift _ _ _)
          (by simp only [shift_position]; omega) more.2 (by simp only [shift_position]; omega)
        refine ⟨failure, position, reader, ?_⟩
        unfold receiveBatch
        rw [run_bind_ok pushRan, ran]
        rfl
      · obtain ⟨failure, position, reader, ran⟩ := read_unfunded client calm 1 (by decide)
          (by decide) world total funded limited (by omega) onWire (by omega)
        refine ⟨failure, position, reader, ?_⟩
        unfold receiveBatch receivePreamble
        rw [bind_assoc, run_bind_error ran]

end

section
variable (asm : Assembly) (total : Int) (limited : total ≤ 2 ^ 63)
include limited

/-- A turn with a whole batch in front of it: with no match only the scanner has
moved, with a match the frame behind the batch is received. -/
theorem runLoop_batch (turns : Nat) (preamble : Bytes 6) (world : World)
    (funded : Funded total world) (within : ((world.position + 6 : Nat) : Int) ≤ total)
    (enough : world.position + 6 ≤ client.wire.length) :
    ∃ pushed : Bytes 6,
      pushed.toList = (client.wire.drop world.position).take 6 ∧
      (¬ Hit asm.preamble.toList (preamble.toList ++ client.wire.drop world.position) →
        (runLoop asm client (turns + 1) preamble).run world =
          (runLoop asm client turns pushed).run (world.shift total (world.position + 6))) ∧
      (Hit asm.preamble.toList (preamble.toList ++ client.wire.drop world.position) →
        (runLoop asm client (turns + 1) preamble).run world =
          (receiveFrame asm client >>= fun _ => runLoop asm client turns pushed).run
            (world.shift total (world.position + 6))) := by
  obtain ⟨pushed, hit, ran, text, hits⟩ := receiveBatch_run client calm asm.toConfig total limited 6
    preamble false world funded within enough
  have seen : hit = true ↔
      Hit asm.preamble.toList (preamble.toList ++ client.wire.drop world.position) := by
    rw [hits]
    simp [Hit]
  refine ⟨pushed, ?_, ?_, ?_⟩
  · have same := congrArg (List.take 6) text
    rw [List.take_left' (List.Vector.toList_length _),
      List.drop_left' (List.Vector.toList_length _)] at same
    exact same
  · intro missed
    have no : hit = false := by
      rw [← Bool.not_eq_true, seen]
      exact missed
    rw [runLoop, run_bind_ok (cancellationRequested_run client calm world)]
    simp only [Bool.false_eq_true, if_false, turn, bind_assoc]
    rw [run_bind_ok ran]
    simp only [no, if_true, pure_bind]
  · intro met
    have yes : hit = true := seen.mpr met
    rw [runLoop, run_bind_ok (cancellationRequested_run client calm world)]
    simp only [Bool.false_eq_true, if_false, turn, bind_assoc]
    rw [run_bind_ok ran]
    simp only [yes, Bool.true_eq_false, if_false, bind_assoc, pure_bind]

/-- A turn without a whole batch in front of it ends the session and logs nothing. -/
theorem runLoop_short (turns : Nat) (preamble : Bytes 6) (world : World)
    (funded : Funded total world) (lowest : -2 ^ 63 < total - world.position)
    (onWire : world.position ≤ client.wire.length)
    (short : total < (world.position + 6 : Nat) ∨ client.wire.length < world.position + 6) :
    ∃ failure position reader, (runLoop asm client (turns + 1) preamble).run world =
      .error failure (world.move position reader) := by
  obtain ⟨failure, position, reader, ran⟩ := receiveBatch_short client calm asm.toConfig total
    limited 6 preamble false world funded lowest onWire (by omega)
  refine ⟨failure, position, reader, ?_⟩
  rw [runLoop, run_bind_ok (cancellationRequested_run client calm world)]
  simp only [Bool.false_eq_true, if_false, turn, bind_assoc]
  rw [run_bind_error ran]

end
end FrameSession
end Calm
end Wsac.Service
