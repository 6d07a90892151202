import Mathlib
import Wsac.Library.Exec

/-! # Triples about programs that keep their state when they fail

A triple over `EStateM` is what it says of every run; so a run can be taken apart where the
verification conditions of a whole program do not tell enough. -/

set_option autoImplicit false

namespace Wsac.Library

open Std.Do

universe u
variable {ε σ α : Type u} {program : EStateM ε σ α}

theorem triple_iff {before : σ → Prop} {after : α → σ → Prop} {ends : ε → σ → Prop} :
    (⦃fun state => ⌜before state⌝⦄ program
      ⦃post⟨fun result state => ⌜after result state⌝, fun failure state => ⌜ends failure state⌝⟩⦄) ↔
      ∀ state, before state → match program.run state with
        | .ok result final => after result final
        | .error failure final => ends failure final := by
  have meets : ∀ state,
      (wp⟦program⟧ post⟨fun result state => ⌜after result state⌝,
        fun failure state => ⌜ends failure state⌝⟩ state).down ↔
      match program.run state with
        | .ok result final => after result final
        | .error failure final => ends failure final := by
    intro state
    simp only [wp, PredTrans.apply]
    cases program.run state with
    | ok result final => exact Iff.rfl
    | error failure final => exact Iff.rfl
  constructor
  · exact fun triple state held => (meets state).mp (triple state held)
  · exact fun runs state held => (meets state).mpr (runs state held)

theorem triple_weaken {before before' : σ → Prop} {after after' : α → σ → Prop}
    {ends ends' : ε → σ → Prop}
    (triple : ⦃fun state => ⌜before state⌝⦄ program
      ⦃post⟨fun result state => ⌜after result state⌝, fun failure state => ⌜ends failure state⌝⟩⦄)
    (start : ∀ state, before' state → before state)
    (final : ∀ result state, after result state → after' result state)
    (thrown : ∀ failure state, ends failure state → ends' failure state) :
    ⦃fun state => ⌜before' state⌝⦄ program
    ⦃post⟨fun result state => ⌜after' result state⌝,
      fun failure state => ⌜ends' failure state⌝⟩⦄ := by
  rw [triple_iff] at triple ⊢
  intro state held
  have ran := triple state (start state held)
  cases ended : program.run state with
  | ok result reached =>
      rw [ended] at ran
      exact final result reached ran
  | error failure reached =>
      rw [ended] at ran
      exact thrown failure reached ran

/-- What holds at both kinds of end holds of the final state. -/
theorem final_of_triple {before ends : σ → Prop}
    (triple : ⦃fun state => ⌜before state⌝⦄ program
      ⦃post⟨fun _ state => ⌜ends state⌝, fun _ state => ⌜ends state⌝⟩⦄)
    {state : σ} (held : before state) : ends (Exec.finalState (program.run state)) := by
  have ran := triple_iff.mp triple state held
  cases ended : program.run state with
  | ok result final =>
      rw [ended] at ran
      exact ran
  | error failure final =>
      rw [ended] at ran
      exact ran

/-- A program that moves the state along `R` keeps what `R` keeps. -/
theorem triple_of_moves {R : σ → σ → Prop} (moves : Exec.Moves R program) {held ends : σ → Prop}
    (kept : ∀ first last, R first last → held first → held last)
    (fails : ∀ state, held state → ends state) :
    ⦃fun state => ⌜held state⌝⦄ program
    ⦃post⟨fun _ state => ⌜held state⌝, fun _ state => ⌜ends state⌝⟩⦄ := by
  rw [triple_iff]
  intro state start
  have moved := moves state
  cases ended : program.run state with
  | ok result final =>
      rw [ended] at moved
      exact kept state final moved start
  | error failure final =>
      rw [ended] at moved
      exact fails final (kept state final moved start)

end Wsac.Library
