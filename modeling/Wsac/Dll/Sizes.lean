import Wsac.Dll.Reads
import Wsac.Dll.Writes

/-! # Buffers of every size

The offset of `Read` and of `Write` and the counts they hand on are `DWORD`s, the size
of the buffer is a `size_t`.  From `2 ^ 32` bytes on the loops stop making progress behind
the first `size % 2 ^ 32` bytes: what is left is then a multiple of `2 ^ 32`, and they ask
for zero bytes.  `Read` takes the empty answer for an error, `Write` asks again for ever. -/

set_option autoImplicit false

namespace Wsac.Dll

open Library Library.Exec

/-- What a loop at offset `i` asks for when the buffer is too large for its `DWORD`s. -/
theorem request_large {size i : Nat} (large : 2 ^ 32 ≤ size) (within : i ≤ size % 2 ^ 32) :
    i < size ∧ (size - i) % 2 ^ 32 = size % 2 ^ 32 - i := by
  have below : size % 2 ^ 32 < 2 ^ 32 := Nat.mod_lt _ (Nat.two_pow_pos 32)
  omega

namespace PipeReader

/-- `Read` returns, and the buffer is the next `size` bytes of the stream. -/
def Fills (pipe : Pipe) {size : Nat} (v : Bytes size) (world : World) : Prop :=
  ∃ (filled : Bytes size) (asked : Nat),
    (read pipe v).run world = .ok filled (world.seek (world.position + size) asked) ∧
    filled.toList = (pipe.wire.drop world.position).take size

section Quiet
variable (pipe : Pipe) (quiet : pipe.stopAt = none)
include quiet

/-- Behind the first `size % 2 ^ 32` bytes the count is zero, and so is what comes back. -/
theorem readTurn_stalled {size : Nat} (large : 2 ^ 32 ≤ size) (v : Bytes size)
    (next : List UInt8 → Worker (Bytes size)) (world : World)
    (more : world.position < pipe.wire.length) :
    ∃ asked, (readTurn pipe (size % 2 ^ 32) v next).run world =
      .error .pipeReadException (world.seek world.position asked) := by
  obtain ⟨filling, request⟩ := request_large large (Nat.le_refl (size % 2 ^ 32))
  have nothing : pipe.served world.position 0 = 0 := by
    have bound := pipe.served_le world.position 0
    omega
  obtain ⟨asked, turn⟩ := readTurn_more pipe quiet (size % 2 ^ 32) v next world filling more
  rw [request, Nat.sub_self, nothing, if_pos rfl] at turn
  exact ⟨asked, turn⟩

theorem readLoop_large_run {size : Nat} (large : 2 ^ 32 ≤ size) (bytesLeft : Nat) :
    ∀ (i : Nat) (v : Bytes size) (world : World), i ≤ size % 2 ^ 32 →
      size % 2 ^ 32 - i ≤ bytesLeft → world.position + (size - i) ≤ pipe.wire.length →
      ∃ asked, (readLoop pipe bytesLeft i v).run world =
        .error .pipeReadException
          (world.seek (world.position + (size % 2 ^ 32 - i)) asked) := by
  have below : size % 2 ^ 32 < 2 ^ 32 := Nat.mod_lt _ (Nat.two_pow_pos 32)
  have stalled : ∀ (bytesLeft : Nat) (v : Bytes size) (world : World),
      world.position < pipe.wire.length →
      ∃ asked, (readLoop pipe bytesLeft (size % 2 ^ 32) v).run world =
        .error .pipeReadException
          (world.seek (world.position + (size % 2 ^ 32 - size % 2 ^ 32)) asked) := by
    intro bytesLeft v world more
    rw [Nat.sub_self, Nat.add_zero]
    cases bytesLeft with
    | zero =>
        rw [readLoop_zero]
        exact readTurn_stalled pipe quiet large v _ world more
    | succ bytesLeft =>
        rw [readLoop_succ]
        exact readTurn_stalled pipe quiet large v _ world more
  induction bytesLeft with
  | zero =>
      intro i v world within left enough
      have there : i = size % 2 ^ 32 := by omega
      rw [there]
      exact stalled 0 v world (by omega)
  | succ bytesLeft ih =>
      intro i v world within left enough
      obtain ⟨filling, request⟩ := request_large large within
      by_cases there : i = size % 2 ^ 32
      · rw [there]
        exact stalled (bytesLeft + 1) v world (by omega)
      · obtain ⟨count, asked, positive, fits, onWire, turn⟩ := readLoop_piece pipe quiet bytesLeft
          i v world filling (by omega) request (by omega) (by omega)
        obtain ⟨asked', ran⟩ := ih (i + count)
          (v.overwrite i ((pipe.wire.drop world.position).take count))
          (world.seek (world.position + count) asked) (by omega) (by omega)
          (by rw [seek_position]; omega)
        have behind : world.position + count + (size % 2 ^ 32 - (i + count)) =
            world.position + (size % 2 ^ 32 - i) := by omega
        refine ⟨asked', ?_⟩
        rw [turn, ran, seek_position, seek_seek, behind]

/-- `Read` into a buffer of `2 ^ 32` bytes or more: an error behind `size % 2 ^ 32` bytes. -/
theorem read_large {size : Nat} (large : 2 ^ 32 ≤ size) (v : Bytes size) (world : World)
    (enough : world.position + size ≤ pipe.wire.length) :
    ∃ asked, (read pipe v).run world =
      .error .pipeReadException (world.seek (world.position + size % 2 ^ 32) asked) := by
  have within := Nat.mod_le size (2 ^ 32)
  obtain ⟨asked, ran⟩ := readLoop_large_run pipe quiet large
    (pipe.wire.length - world.position) 0 v world (Nat.zero_le _) (by omega) (by omega)
  refine ⟨asked, ?_⟩
  rw [read, run_get_bind, run_bind_error ran, Nat.sub_zero]

theorem not_fills_large {size : Nat} (large : 2 ^ 32 ≤ size) (v : Bytes size) (world : World)
    (enough : world.position + size ≤ pipe.wire.length) : ¬ Fills pipe v world := by
  intro fills
  obtain ⟨filled, asked, ran, _⟩ := fills
  obtain ⟨_, failed⟩ := read_large pipe quiet large v world enough
  rw [failed] at ran
  cases ran

end Quiet

/-- With enough bytes on the wire, `Read` fills exactly the buffers below `2 ^ 32` bytes. -/
theorem read_fills_iff (pipe : Pipe) (quiet : pipe.stopAt = none) {size : Nat}
    (v : Bytes size) (world : World) (enough : world.position + size ≤ pipe.wire.length) :
    Fills pipe v world ↔ size < 2 ^ 32 := by
  constructor
  · intro fills
    by_contra large
    exact not_fills_large pipe quiet (Nat.le_of_not_lt large) v world enough fills
  · intro small
    exact read_run pipe quiet small v world enough

theorem read_fills_two :
    Fills (Pipe.waiting [7, 8, 9] Sample.nonce) (List.Vector.replicate 2 0) World.start ↔
      2 < 2 ^ 32 :=
  read_fills_iff (Pipe.waiting [7, 8, 9] Sample.nonce) rfl (List.Vector.replicate 2 0) World.start
    (by decide)

/-- A buffer of 4 GiB and a stream that holds just as much. -/
theorem read_four_gibibytes :
    World.start.position + 2 ^ 32 ≤
        (Pipe.waiting (List.replicate (2 ^ 32) 0) Sample.nonce).wire.length ∧
      ¬ Fills (Pipe.waiting (List.replicate (2 ^ 32) 0) Sample.nonce)
        (List.Vector.replicate (2 ^ 32) 0) World.start := by
  have enough : World.start.position + 2 ^ 32 ≤
      (Pipe.waiting (List.replicate (2 ^ 32) 0) Sample.nonce).wire.length := by
    rw [Pipe.waiting, List.length_replicate, World.start, Nat.zero_add]
  exact ⟨enough, not_fills_large _ rfl (Nat.le_refl _) _ _ enough⟩

end PipeReader

namespace PipeWriter

/-- `Write` comes to its end with the buffer behind what was sent before. -/
def Delivers (pipe : Pipe) (v : List UInt8) (world : World) : Prop :=
  ∃ turns, (writeLoop pipe v turns 0).run world =
    .ok () { world with written := world.written ++ v }

section Up
variable (pipe : Pipe) (up : pipe.brokenAt = none)
include up

/-- However many turns it is given, `Write` of `2 ^ 32` bytes or more sends a part of the
first `v.length % 2 ^ 32` bytes and still has bytes to send. -/
theorem writeLoop_spins {v : List UInt8} (large : 2 ^ 32 ≤ v.length) (turns : Nat) :
    ∀ (i : Nat) (world : World), i ≤ v.length % 2 ^ 32 →
      ∃ count, i + count ≤ v.length % 2 ^ 32 ∧
        (v.length % 2 ^ 32 - i ≤ turns → i + count = v.length % 2 ^ 32) ∧
        (writeLoop pipe v turns i).run world =
          .error .spinning { world with written := world.written ++ (v.drop i).take count } := by
  have below : v.length % 2 ^ 32 < 2 ^ 32 := Nat.mod_lt _ (Nat.two_pow_pos 32)
  induction turns with
  | zero =>
      intro i world within
      refine ⟨0, within, fun left => by omega, ?_⟩
      rw [writeLoop, if_pos (request_large large within).1, List.take_zero, List.append_nil]
      rfl
  | succ turns ih =>
      intro i world within
      obtain ⟨filling, request⟩ := request_large large within
      have bound := pipe.accepted_le world.written.length (v.length % 2 ^ 32 - i)
      have progress : v.length % 2 ^ 32 - i = 0 ∨
          0 < pipe.accepted world.written.length (v.length % 2 ^ 32 - i) := by
        by_cases there : v.length % 2 ^ 32 - i = 0
        · exact Or.inl there
        · exact Or.inr (pipe.accepted_pos _ _ (Nat.pos_of_ne_zero there))
      rw [writeLoop, if_pos filling, run_bind_ok (writeFile_run pipe up _ _ world), request]
      generalize pipe.accepted world.written.length (v.length % 2 ^ 32 - i) = written at *
      obtain ⟨count, fits, all, ran⟩ := ih (i + written)
        { world with written := world.written ++ (v.drop i).take written } (by omega)
      refine ⟨written + count, by omega, fun left => by omega, ?_⟩
      rw [Nat.mod_eq_of_lt (by omega), ran, List.append_assoc, List.take_add, List.drop_drop]

end Up

theorem not_delivers_large (pipe : Pipe) {v : List UInt8} (large : 2 ^ 32 ≤ v.length)
    (world : World) : ¬ Delivers pipe v world := by
  intro delivers
  obtain ⟨turns, ran⟩ := delivers
  exact writeLoop_large pipe large turns 0 _ _ (Nat.two_pow_pos 32) ran

/-- On a pipe that does not break, `Write` delivers exactly the buffers below `2 ^ 32` bytes. -/
theorem write_delivers_iff (pipe : Pipe) (up : pipe.brokenAt = none) (v : List UInt8)
    (world : World) : Delivers pipe v world ↔ v.length < 2 ^ 32 := by
  constructor
  · intro delivers
    by_contra large
    exact not_delivers_large pipe (Nat.le_of_not_lt large) world delivers
  · intro small
    exact ⟨v.length, write_run pipe up v small world⟩

theorem write_delivers_three :
    Delivers (Pipe.waiting [] Sample.nonce) [7, 8, 9] World.start ↔ [7, 8, 9].length < 2 ^ 32 :=
  write_delivers_iff (Pipe.waiting [] Sample.nonce) rfl [7, 8, 9] World.start

theorem write_four_gibibytes :
    ¬ Delivers (Pipe.waiting [] Sample.nonce) (List.replicate (2 ^ 32) 0) World.start :=
  not_delivers_large _ (Nat.le_of_eq List.length_replicate.symm) World.start

end PipeWriter
end Wsac.Dll
