import Wsac.Library.Exec

/-! # Two runs side by side

`Together`: both runs return related results or both throw, and their states stay
related.  `Follows`: the first run may also give up on the way; then `C` holds
between the state in which it gave up and the one in which the second run ends. -/

set_option autoImplicit false

namespace Wsac.Library.Exec

universe u
variable {ε σ α β : Type u}

def Together (V : α → α → Prop) (R : σ → σ → Prop) :
    EStateM.Result ε σ α → EStateM.Result ε σ α → Prop
  | .ok left one, .ok right two => V left right ∧ R one two
  | .error _ one, .error _ two => R one two
  | .ok _ _, .error _ _ => False
  | .error _ _, .ok _ _ => False

def Follows (V : α → α → Prop) (R C : σ → σ → Prop) :
    EStateM.Result ε σ α → EStateM.Result ε σ α → Prop
  | .ok left one, .ok right two => V left right ∧ R one two
  | .ok _ _, .error _ _ => False
  | .error _ one, second => C one (finalState second)

variable {V : α → α → Prop} {W : β → β → Prop} {R C G : σ → σ → Prop}
  {first second : EStateM ε σ α} {rest other : α → EStateM ε σ β} {one two : σ}

theorem Together.bind (start : Together V R (first.run one) (second.run two))
    (onward : ∀ left right one two, V left right → R one two →
      Together W R ((rest left).run one) ((other right).run two)) :
    Together W R ((first >>= rest).run one) ((second >>= other).run two) := by
  cases ran : first.run one with
  | ok left middle =>
      cases ran' : second.run two with
      | ok right middle' =>
          rw [ran, ran'] at start
          rw [run_bind_ok ran, run_bind_ok ran']
          exact onward left right middle middle' start.1 start.2
      | error failure after =>
          rw [ran, ran'] at start
          exact start.elim
  | error failure after =>
      cases ran' : second.run two with
      | ok right middle' =>
          rw [ran, ran'] at start
          exact start.elim
      | error failure' after' =>
          rw [ran, ran'] at start
          rw [run_bind_error ran, run_bind_error ran']
          exact start

/-- Runs that stay together as long as they run are one that follows the other. -/
theorem Together.follows {left right : EStateM.Result ε σ α}
    (weaker : ∀ one two, R one two → C one two) (together : Together V R left right) :
    Follows V R C left right := by
  cases left with
  | ok value after =>
      cases right with
      | ok value' after' => exact together
      | error failure after' => exact together
  | error failure after =>
      cases right with
      | ok value' after' => exact together.elim
      | error failure' after' => exact weaker _ _ together

/-- Where the first run gives up in its first part, the second one still has its
second part before it: `C` has to survive what that part does. -/
theorem Follows.bind (survives : ∀ one two after, C one two → G two after → C one after)
    (start : Follows V R C (first.run one) (second.run two))
    (grows : ∀ right, Moves G (other right))
    (onward : ∀ left right one two, V left right → R one two →
      Follows W R C ((rest left).run one) ((other right).run two)) :
    Follows W R C ((first >>= rest).run one) ((second >>= other).run two) := by
  cases ran : first.run one with
  | ok left middle =>
      cases ran' : second.run two with
      | ok right middle' =>
          rw [ran, ran'] at start
          rw [run_bind_ok ran, run_bind_ok ran']
          exact onward left right middle middle' start.1 start.2
      | error failure after =>
          rw [ran, ran'] at start
          exact start.elim
  | error failure after =>
      rw [ran] at start
      rw [run_bind_error ran]
      cases ran' : second.run two with
      | ok right middle' =>
          rw [ran'] at start
          rw [run_bind_ok ran']
          exact survives _ _ _ start (grows right middle')
      | error failure' after' =>
          rw [ran'] at start
          rw [run_bind_error ran']
          exact start

/-- The same where the first run may end early without throwing. -/
theorem Follows.bind_final (survives : ∀ one two after, C one two → G two after → C one after)
    (start : Follows V R C (first.run one) (second.run two))
    (grows : ∀ right, Moves G (other right))
    (onward : ∀ left right one two, V left right → R one two →
      C (finalState ((rest left).run one)) (finalState ((other right).run two))) :
    C (finalState ((first >>= rest).run one)) (finalState ((second >>= other).run two)) := by
  cases ran : first.run one with
  | ok left middle =>
      cases ran' : second.run two with
      | ok right middle' =>
          rw [ran, ran'] at start
          rw [run_bind_ok ran, run_bind_ok ran']
          exact onward left right middle middle' start.1 start.2
      | error failure after =>
          rw [ran, ran'] at start
          exact start.elim
  | error failure after =>
      rw [ran] at start
      rw [run_bind_error ran]
      cases ran' : second.run two with
      | ok right middle' =>
          rw [ran'] at start
          rw [run_bind_ok ran']
          exact survives _ _ _ start (grows right middle')
      | error failure' after' =>
          rw [ran'] at start
          rw [run_bind_error ran']
          exact start

end Wsac.Library.Exec
