import Mathlib.Logic.Relation
import Wsac.Library.Exec

/-! # A program that takes the steps of a machine

The machine has places and shares its state with the program.  A part of the program `Leads`
from a place to others if each of its runs is a path between them that ends in the state the
run ends in; a part that fails stops in a place where such a failure may. -/

set_option autoImplicit false

namespace Wsac.Library.Exec

open Relation

universe u v
variable {κ : Type v} {ε σ α β : Type u}

def Leads (Step : κ × σ → κ × σ → Prop) (Stops : κ → ε → Prop) (here : κ)
    (part : EStateM ε σ α) (there : α → κ → Prop) (state : σ) : Prop :=
  match part.run state with
  | .ok result after =>
      ∃ place, there result place ∧ ReflTransGen Step (here, state) (place, after)
  | .error failure after =>
      ∃ place, Stops place failure ∧ ReflTransGen Step (here, state) (place, after)

namespace Leads
variable {Step : κ × σ → κ × σ → Prop} {Stops : κ → ε → Prop} {here : κ}
  {part other : EStateM ε σ α} {there : α → κ → Prop} {state : σ}

theorem of_ok {result : α} {after : σ} {place : κ} (ran : part.run state = .ok result after)
    (arrives : there result place) (path : ReflTransGen Step (here, state) (place, after)) :
    Leads Step Stops here part there state := by
  unfold Leads
  rw [ran]
  exact ⟨place, arrives, path⟩

theorem of_error {failure : ε} {after : σ} {place : κ}
    (ran : part.run state = .error failure after) (stops : Stops place failure)
    (path : ReflTransGen Step (here, state) (place, after)) :
    Leads Step Stops here part there state := by
  unfold Leads
  rw [ran]
  exact ⟨place, stops, path⟩

theorem pure (result : α) (arrives : there result here) :
    Leads Step Stops here (Pure.pure result : EStateM ε σ α) there state :=
  of_ok rfl arrives ReflTransGen.refl

theorem throw (failure : ε) (stops : Stops here failure) :
    Leads Step Stops here (MonadExcept.throw failure : EStateM ε σ α) there state :=
  of_error rfl stops ReflTransGen.refl

theorem ok (leads : Leads Step Stops here part there state) {result : α} {after : σ}
    (ran : part.run state = .ok result after) :
    ∃ place, there result place ∧ ReflTransGen Step (here, state) (place, after) := by
  unfold Leads at leads
  rw [ran] at leads
  exact leads

theorem error (leads : Leads Step Stops here part there state) {failure : ε} {after : σ}
    (ran : part.run state = .error failure after) :
    ∃ place, Stops place failure ∧ ReflTransGen Step (here, state) (place, after) := by
  unfold Leads at leads
  rw [ran] at leads
  exact leads

/-- The machine has gone ahead of a part that runs as another one does. -/
theorem after {place : κ} {middle : σ} (path : ReflTransGen Step (here, state) (place, middle))
    (same : other.run state = part.run middle) (leads : Leads Step Stops place part there middle) :
    Leads Step Stops here other there state := by
  unfold Leads at leads ⊢
  rw [same]
  cases ran : part.run middle with
  | ok result last =>
      rw [ran] at leads
      obtain ⟨last, arrives, rest⟩ := leads
      exact ⟨last, arrives, path.trans rest⟩
  | error failure last =>
      rw [ran] at leads
      obtain ⟨last, stops, rest⟩ := leads
      exact ⟨last, stops, path.trans rest⟩

theorem bind {next : α → EStateM ε σ β} {last : β → κ → Prop}
    (first : Leads Step Stops here part there state)
    (second : ∀ result place middle, part.run state = .ok result middle → there result place →
      Leads Step Stops place (next result) last middle) :
    Leads Step Stops here (part >>= next) last state := by
  cases ran : part.run state with
  | ok result middle =>
      obtain ⟨place, arrives, path⟩ := first.ok ran
      exact after path (run_bind_ok ran) (second result place middle ran arrives)
  | error failure middle =>
      obtain ⟨place, stops, path⟩ := first.error ran
      exact of_error (run_bind_error ran) stops path

/-- A run of the whole is a path. -/
theorem path (leads : Leads Step Stops here part there state) :
    ∃ place, ReflTransGen Step (here, state) (place, finalState (part.run state)) := by
  cases ran : part.run state with
  | ok result last =>
      obtain ⟨place, _, path⟩ := leads.ok ran
      exact ⟨place, path⟩
  | error failure last =>
      obtain ⟨place, _, path⟩ := leads.error ran
      exact ⟨place, path⟩

end Leads
end Wsac.Library.Exec
