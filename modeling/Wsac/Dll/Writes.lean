import Wsac.Dll.Pipe

/-! # Writes to a pipe that may break

A `Write` that returns has put exactly its bytes behind what was sent, in as many
pieces as `WriteFile` liked; buffers of `2 ^ 32` bytes or more never get there.  On a
pipe that is not broken the others do. -/

set_option autoImplicit false

namespace Wsac.Dll

open Library Library.Exec

/-- Only bytes have been sent. -/
def Writes (before after : World) : Prop := after = { before with written := after.written }

theorem Writes.refl (world : World) : Writes world world := rfl

theorem Writes.trans (first second third : World) (left : Writes first second)
    (right : Writes second third) : Writes first third := by
  unfold Writes at left right ⊢
  rw [right, left]

namespace PipeWriter
variable (pipe : Pipe)

theorem writeFile_outcome (source : List UInt8) (requested : Nat) (world : World) :
    (pipe.refuses world = true ∧
      (writeFile pipe source requested).run world = .error pipe.refusal world) ∨
      (writeFile pipe source requested).run world =
        .ok (pipe.accepted world.written.length requested)
          { world with written := world.written ++
              source.take (pipe.accepted world.written.length requested) } := by
  rw [writeFile, run_get_bind]
  split
  · rename_i refused
    exact Or.inl ⟨refused, rfl⟩
  · exact Or.inr rfl

theorem writeFile_writes (source : List UInt8) (requested : Nat) :
    Moves Writes (writeFile pipe source requested) := by
  intro world
  rcases writeFile_outcome pipe source requested world with ⟨_, failed⟩ | wrote
  · rw [failed]
    exact Writes.refl world
  · rw [wrote]
    rfl

theorem writeLoop_writes (v : List UInt8) (turns : Nat) :
    ∀ i, Moves Writes (writeLoop pipe v turns i) := by
  induction turns with
  | zero =>
      intro i
      exact Moves.ite (Moves.throw Writes.refl _) (Moves.pure Writes.refl _)
  | succ turns ih =>
      intro i
      apply Moves.ite _ (Moves.pure Writes.refl _)
      apply Moves.bind Writes.trans (writeFile_writes pipe _ _)
      intro written
      exact ih _

theorem write_writes (v : List UInt8) : Moves Writes (write pipe v) :=
  writeLoop_writes pipe v v.length 0

/-- The `DWORD` that counts what is written never reaches `2 ^ 32`. -/
theorem writeLoop_large {v : List UInt8} (large : 2 ^ 32 ≤ v.length) (turns : Nat) :
    ∀ (i : Nat) (world after : World), i < 2 ^ 32 →
      (writeLoop pipe v turns i).run world ≠ .ok () after := by
  induction turns with
  | zero =>
      intro i world after inside ran
      rw [writeLoop, if_pos (by omega)] at ran
      cases ran
  | succ turns ih =>
      intro i world after inside ran
      rw [writeLoop, if_pos (by omega)] at ran
      obtain ⟨written, middle, _, ran⟩ := run_bind_eq_ok.mp ran
      exact ih _ _ _ (Nat.mod_lt _ (by decide)) ran

theorem writeLoop_ok {v : List UInt8} (small : v.length < 2 ^ 32) (turns : Nat) :
    ∀ (i : Nat) (world after : World), i ≤ v.length →
      (writeLoop pipe v turns i).run world = .ok () after →
      after = { world with written := world.written ++ v.drop i } := by
  have done : ∀ (i : Nat) (world : World), ¬ i < v.length →
      world = { world with written := world.written ++ v.drop i } := by
    intro i world full
    rw [List.drop_eq_nil_of_le (by omega), List.append_nil]
  induction turns with
  | zero =>
      intro i world after inside ran
      by_cases filling : i < v.length
      · rw [writeLoop, if_pos filling] at ran
        cases ran
      · rw [writeLoop, if_neg filling] at ran
        cases ran
        exact done i world filling
  | succ turns ih =>
      intro i world after inside ran
      by_cases filling : i < v.length
      · rw [writeLoop, if_pos filling] at ran
        have request : (v.length - i) % 2 ^ 32 = v.length - i := Nat.mod_eq_of_lt (by omega)
        have bound := pipe.accepted_le world.written.length (v.length - i)
        have offset : (i + pipe.accepted world.written.length (v.length - i)) % 2 ^ 32 =
            i + pipe.accepted world.written.length (v.length - i) := Nat.mod_eq_of_lt (by omega)
        rw [request] at ran
        rcases writeFile_outcome pipe (v.drop i) (v.length - i) world with ⟨_, failed⟩ | wrote
        · rw [run_bind_error failed] at ran
          cases ran
        · rw [run_bind_ok wrote, offset] at ran
          rw [ih _ _ _ (by omega) ran]
          simp only [List.append_assoc, ← List.drop_drop, List.take_append_drop]
      · rw [writeLoop, if_neg filling] at ran
        cases ran
        exact done i world filling

theorem write_ok {v : List UInt8} {world after : World}
    (ran : (write pipe v).run world = .ok () after) :
    v.length < 2 ^ 32 ∧ after = { world with written := world.written ++ v } := by
  have small : v.length < 2 ^ 32 := by
    by_contra large
    exact writeLoop_large pipe (by omega) _ 0 world after (by decide) ran
  refine ⟨small, ?_⟩
  rw [writeLoop_ok pipe small _ 0 world after (Nat.zero_le _) ran, List.drop_zero]

section Up
variable (up : pipe.brokenAt = none)
include up

theorem writeFile_run (source : List UInt8) (requested : Nat) (world : World) :
    (writeFile pipe source requested).run world =
      .ok (pipe.accepted world.written.length requested)
        { world with written := world.written ++
            source.take (pipe.accepted world.written.length requested) } := by
  rw [writeFile, run_get_bind, Pipe.refuses, up]
  rfl

theorem writeLoop_run {v : List UInt8} (small : v.length < 2 ^ 32) (turns : Nat) :
    ∀ (i : Nat) (world : World), i ≤ v.length → v.length - i ≤ turns →
      ∃ after, (writeLoop pipe v turns i).run world = .ok () after := by
  induction turns with
  | zero =>
      intro i world inside left
      rw [writeLoop, if_neg (by omega)]
      exact ⟨world, rfl⟩
  | succ turns ih =>
      intro i world inside left
      by_cases filling : i < v.length
      · have request : (v.length - i) % 2 ^ 32 = v.length - i := Nat.mod_eq_of_lt (by omega)
        have positive := pipe.accepted_pos world.written.length (v.length - i) (by omega)
        have bound := pipe.accepted_le world.written.length (v.length - i)
        have offset : (i + pipe.accepted world.written.length (v.length - i)) % 2 ^ 32 =
            i + pipe.accepted world.written.length (v.length - i) := Nat.mod_eq_of_lt (by omega)
        rw [writeLoop, if_pos filling, run_bind_ok (writeFile_run pipe up _ _ world), request,
          offset]
        exact ih _ _ (by omega) (by omega)
      · rw [writeLoop, if_neg filling]
        exact ⟨world, rfl⟩

theorem write_run (v : List UInt8) (small : v.length < 2 ^ 32) (world : World) :
    (write pipe v).run world = .ok () { world with written := world.written ++ v } := by
  obtain ⟨after, ran⟩ := writeLoop_run pipe up small v.length 0 world (Nat.zero_le _) (by omega)
  rw [← (write_ok pipe ran).2]
  exact ran

end Up
end PipeWriter
end Wsac.Dll
