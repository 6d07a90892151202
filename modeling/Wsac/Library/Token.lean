import Mathlib.Init

/-! # A token that is asked again and again

It says no until it has been set, and yes ever after.  A program heeds its token if it
asks only so often behind the first yes. -/

set_option autoImplicit false

namespace Wsac.Library

/-- The answer to a question, when the first yes is at the question `limit`. -/
def answers (limit : Option Nat) (asked : Nat) : Bool :=
  match limit with
  | none => false
  | some first => decide (first ≤ asked)

/-- The token has been asked at most so often behind the first yes. -/
def Late (limit : Option Nat) (late asked : Nat) : Prop :=
  ∀ first, limit = some first → asked ≤ first + late

variable {limit : Option Nat} {late asked : Nat}

theorem set_of_answers (yes : answers limit asked = true) : limit ≠ none := by
  rintro rfl
  exact Bool.false_ne_true yes

theorem Late.start : Late limit 0 0 := fun _ _ => Nat.zero_le _

theorem Late.mono {more : Nat} (held : Late limit late asked) (le : late ≤ more) :
    Late limit more asked := by
  intro first set
  have bound := held first set
  omega

theorem Late.yes (held : Late limit late asked) : Late limit (late + 1) (asked + 1) :=
  fun first set => Nat.succ_le_succ (held first set)

/-- A no means that the first yes is still to come. -/
theorem Late.no (going : ¬ answers limit asked = true) : Late limit 0 (asked + 1) := by
  rintro first rfl
  rw [answers, decide_eq_true_eq] at going
  omega

/-- Asking until the token says yes. -/
theorem Late.wait {first : Nat} (held : Late limit late asked) (set : limit = some first) :
    Late limit late (max asked first) := by
  intro other same
  obtain rfl : first = other := Option.some.inj (set.symm.trans same)
  have bound := held first set
  omega

end Wsac.Library
