import Wsac.Library.Runs

/-! # Runs of one system in terms of another

`label` names the move of the second system that a move of the first one stands
for.  A relation that every pair of such moves keeps takes whole runs over; where
each move of the second system can be made by the first, whole runs come back. -/

set_option autoImplicit false

namespace Wsac.Library

universe u v w x
variable {μ : Type u} {σ : Type v} {ν : Type w} {τ : Type x}
variable {step : μ → σ → Option σ} {spec : ν → τ → Option τ} {label : μ → ν}

theorem runs_simulates (R : σ → τ → Prop)
    (forth : ∀ move before after target, R before target → step move before = some after →
      ∃ next, spec (label move) target = some next ∧ R after next)
    {moves : List μ} {state final : σ} {target : τ} (related : R state target)
    (ran : runs step moves state = some final) :
    ∃ last, runs spec (moves.map label) target = some last ∧ R final last := by
  induction moves generalizing state target with
  | nil =>
      cases ran
      exact ⟨target, rfl, related⟩
  | cons move rest ih =>
      obtain ⟨middle, stepped, ran⟩ := (runs_cons_eq_some step).mp ran
      obtain ⟨next, taken, kept⟩ := forth move state middle target related stepped
      obtain ⟨last, specRan, reached⟩ := ih kept ran
      exact ⟨last, (runs_cons_eq_some spec).mpr ⟨next, taken, specRan⟩, reached⟩

/-- `R` may spend something on every move: its number is that of the moves still to come. -/
theorem runs_lift (R : Nat → σ → τ → Prop)
    (back : ∀ left mark before target next, R (left + 1) before target →
      spec mark target = some next →
      ∃ move after, label move = mark ∧ step move before = some after ∧ R left after next)
    {marks : List ν} {state : σ} {target last : τ} (related : R marks.length state target)
    (ran : runs spec marks target = some last) :
    ∃ moves final, moves.map label = marks ∧ runs step moves state = some final ∧
      R 0 final last := by
  induction marks generalizing state target last with
  | nil =>
      cases ran
      exact ⟨[], state, rfl, rfl, related⟩
  | cons mark rest ih =>
      obtain ⟨next, taken, specRan⟩ := (runs_cons_eq_some spec).mp ran
      obtain ⟨move, after, rfl, stepped, kept⟩ :=
        back rest.length mark state target next related taken
      obtain ⟨moves, final, rfl, stepsRan, reached⟩ := ih kept specRan
      exact ⟨move :: moves, final, rfl, (runs_cons_eq_some step).mpr ⟨after, stepped, stepsRan⟩,
        reached⟩

/-- Moves that are all of one kind, given by what tells them apart. -/
theorem runs_map {κ : Type w} (kind : κ → μ) {parts : List κ} {state : σ} :
    runs step (parts.map kind) state = runs (fun part => step (kind part)) parts state := by
  induction parts generalizing state with
  | nil => rfl
  | cons part rest ih =>
      rw [List.map_cons, runs, runs]
      congr 1
      funext middle
      exact ih

section Toll
variable (step) in
/-- What the moves of a run cost, each in the state in which it is made. -/
def toll (cost : μ → σ → Nat) : List μ → σ → Nat
  | [], _ => 0
  | move :: rest, state =>
      cost move state + match step move state with
        | none => 0
        | some next => toll cost rest next

/-- A measure that every step raises by its cost has risen by the toll of the run. -/
theorem runs_toll {cost : μ → σ → Nat} (measure : σ → Int)
    (raised : ∀ move before after, step move before = some after →
      measure after = measure before + cost move before)
    {moves : List μ} {state final : σ} (ran : runs step moves state = some final) :
    measure final = measure state + toll step cost moves state := by
  induction moves generalizing state with
  | nil =>
      cases ran
      simp [toll]
  | cons move rest ih =>
      obtain ⟨middle, stepped, ran⟩ := (runs_cons_eq_some step).mp ran
      have later := ih ran
      have now := raised move state middle stepped
      simp only [toll, stepped]
      omega

end Toll
end Wsac.Library
