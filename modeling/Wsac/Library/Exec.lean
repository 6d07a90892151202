import Mathlib.Order.Defs.Unbundled

/-! # Rules for programs that keep their state when they fail

`EStateM` is the monad of both programs: an exception ends a run, and what was
done before it stays done.  Besides the equations that core is missing, this
module has one rule for each construct of `Moves R`: every run of the program,
failed or not, takes the state along `R`. -/

set_option autoImplicit false

namespace Wsac.Library.Exec

universe u
variable {ε σ α β : Type u}

theorem run_bind_ok {program : EStateM ε σ α} {rest : α → EStateM ε σ β} {state middle : σ}
    {result : α} (ran : program.run state = .ok result middle) :
    (program >>= rest).run state = (rest result).run middle := by
  rw [EStateM.run_bind, ran]

theorem run_bind_error {program : EStateM ε σ α} {rest : α → EStateM ε σ β} {state middle : σ}
    {failure : ε} (ran : program.run state = .error failure middle) :
    (program >>= rest).run state = .error failure middle := by
  rw [EStateM.run_bind, ran]

theorem run_get_bind (state : σ) {rest : σ → EStateM ε σ β} :
    ((get : EStateM ε σ σ) >>= rest).run state = (rest state).run state := rfl

theorem run_bind_eq_ok {program : EStateM ε σ α} {rest : α → EStateM ε σ β} {state final : σ}
    {result : β} :
    (program >>= rest).run state = .ok result final ↔
      ∃ value middle, program.run state = .ok value middle ∧
        (rest value).run middle = .ok result final := by
  rw [EStateM.run_bind]
  cases program.run state with
  | ok value middle =>
      constructor
      · exact fun ran => ⟨value, middle, rfl, ran⟩
      · rintro ⟨_, _, same, ran⟩
        cases same
        exact ran
  | error failure middle => simp

theorem run_bind_eq_error {program : EStateM ε σ α} {rest : α → EStateM ε σ β} {state final : σ}
    {failure : ε} :
    (program >>= rest).run state = .error failure final ↔
      program.run state = .error failure final ∨
        ∃ value middle, program.run state = .ok value middle ∧
          (rest value).run middle = .error failure final := by
  rw [EStateM.run_bind]
  cases program.run state with
  | ok value middle =>
      constructor
      · exact fun ran => Or.inr ⟨value, middle, rfl, ran⟩
      · rintro (failed | ⟨_, _, same, ran⟩)
        · cases failed
        · cases same
          exact ran
  | error other middle => simp

theorem run_tryCatch_ok {program : EStateM ε σ α} {handler : ε → EStateM ε σ α}
    {state middle : σ} {result : α} (ran : program.run state = .ok result middle) :
    (tryCatch program handler).run state = .ok result middle := by
  have ran' : program state = .ok result middle := ran
  show EStateM.tryCatch program handler state = _
  delta EStateM.tryCatch
  rw [ran']

/-- The handler starts from the state in which the exception was thrown. -/
theorem run_tryCatch_error {program : EStateM ε σ α} {handler : ε → EStateM ε σ α}
    {state middle : σ} {failure : ε} (ran : program.run state = .error failure middle) :
    (tryCatch program handler).run state = (handler failure).run middle := by
  have ran' : program state = .error failure middle := ran
  show EStateM.tryCatch program handler state = _
  delta EStateM.tryCatch
  rw [ran']
  rfl

def finalState : EStateM.Result ε σ α → σ
  | .ok _ state => state
  | .error _ state => state

@[simp] theorem finalState_ok (result : α) (state : σ) :
    finalState (.ok result state : EStateM.Result ε σ α) = state := rfl

@[simp] theorem finalState_error (failure : ε) (state : σ) :
    finalState (.error failure state : EStateM.Result ε σ α) = state := rfl

def succeeded : EStateM.Result ε σ α → Bool
  | .ok _ _ => true
  | .error _ _ => false

theorem eq_ok_of_succeeded {result : EStateM.Result ε σ PUnit}
    (success : succeeded result = true) : result = .ok ⟨⟩ (finalState result) := by
  cases result with
  | ok _ state => rfl
  | error failure state => cases success

/-- Every run of `program` takes the state along `R`, whether it fails or not. -/
def Moves (R : σ → σ → Prop) (program : EStateM ε σ α) : Prop :=
  ∀ state, R state (finalState (program.run state))

variable {R : σ → σ → Prop}

theorem Moves.pure (refl : ∀ state, R state state) (result : α) :
    Moves R (Pure.pure result : EStateM ε σ α) := fun state => refl state

theorem Moves.throw (refl : ∀ state, R state state) (failure : ε) :
    Moves R (MonadExcept.throw failure : EStateM ε σ α) := fun state => refl state

theorem Moves.bind (trans : ∀ a b c, R a b → R b c → R a c) {program : EStateM ε σ α}
    {rest : α → EStateM ε σ β} (first : Moves R program)
    (second : ∀ result, Moves R (rest result)) : Moves R (program >>= rest) := by
  intro state
  have moved := first state
  cases ran : program.run state with
  | ok result middle =>
      rw [ran] at moved
      rw [run_bind_ok ran]
      exact trans _ _ _ moved (second result middle)
  | error failure middle =>
      rw [ran] at moved
      rw [run_bind_error ran]
      exact moved

theorem Moves.ite {condition : Prop} [Decidable condition] {first second : EStateM ε σ α}
    (left : Moves R first) (right : Moves R second) :
    Moves R (if condition then first else second) := by
  split
  · exact left
  · exact right

theorem Moves.mono {S : σ → σ → Prop} {program : EStateM ε σ α} (moves : Moves R program)
    (weaker : ∀ a b, R a b → S a b) : Moves S program :=
  fun state => weaker _ _ (moves state)

/-- Every run that returns takes the state along `R`, every run that throws along `S`. -/
def Ends (R S : σ → σ → Prop) (program : EStateM ε σ α) : Prop :=
  ∀ state, match program.run state with
    | .ok _ after => R state after
    | .error _ after => S state after

variable {S : σ → σ → Prop}

theorem Ends.of_ok {program : EStateM ε σ α} (ends : Ends R S program) {state after : σ}
    {result : α} (ran : program.run state = .ok result after) : R state after := by
  have ended := ends state
  rw [ran] at ended
  exact ended

theorem Ends.of_error {program : EStateM ε σ α} (ends : Ends R S program) {state after : σ}
    {failure : ε} (ran : program.run state = .error failure after) : S state after := by
  have ended := ends state
  rw [ran] at ended
  exact ended

theorem Ends.intro {program : EStateM ε σ α}
    (returns : ∀ state result after, program.run state = .ok result after → R state after)
    (throws : ∀ state failure after, program.run state = .error failure after → S state after) :
    Ends R S program := by
  intro state
  cases ran : program.run state with
  | ok result after => exact returns state result after ran
  | error failure after => exact throws state failure after ran

theorem Ends.pure (refl : ∀ state, R state state) (result : α) :
    Ends R S (Pure.pure result : EStateM ε σ α) := fun state => refl state

theorem Ends.throw (refl : ∀ state, S state state) (failure : ε) :
    Ends R S (MonadExcept.throw failure : EStateM ε σ α) := fun state => refl state

theorem Ends.bind (trans : ∀ a b c, R a b → R b c → R a c) (fails : ∀ a b c, R a b → S b c → S a c)
    {program : EStateM ε σ α} {rest : α → EStateM ε σ β} (first : Ends R S program)
    (second : ∀ result, Ends R S (rest result)) : Ends R S (program >>= rest) := by
  apply Ends.intro
  · intro state result after ran
    obtain ⟨value, middle, ran, next⟩ := run_bind_eq_ok.mp ran
    exact trans _ _ _ (first.of_ok ran) ((second value).of_ok next)
  · intro state failure after ran
    rcases run_bind_eq_error.mp ran with failed | ⟨value, middle, ran, failed⟩
    · exact first.of_error failed
    · exact fails _ _ _ (first.of_ok ran) ((second value).of_error failed)

theorem Ends.ite {condition : Prop} [Decidable condition] {first second : EStateM ε σ α}
    (left : Ends R S first) (right : Ends R S second) :
    Ends R S (if condition then first else second) := by
  split
  · exact left
  · exact right

theorem Ends.moves {program : EStateM ε σ α} (ends : Ends R S program)
    (weaker : ∀ a b, R a b → S a b) : Moves S program := by
  intro state
  cases ran : program.run state with
  | ok result after => exact weaker _ _ (ends.of_ok ran)
  | error failure after => exact ends.of_error ran

/-- Where the two relations agree on what `program` does, it ends in both ways alike. -/
theorem Moves.ends {T : σ → σ → Prop} {program : EStateM ε σ α} (moves : Moves T program)
    (returns : ∀ a b, T a b → R a b) (throws : ∀ a b, T a b → S a b) : Ends R S program := by
  apply Ends.intro
  · intro state result after ran
    have moved := moves state
    rw [ran] at moved
    exact returns _ _ moved
  · intro state failure after ran
    have moved := moves state
    rw [ran] at moved
    exact throws _ _ moved

end Wsac.Library.Exec
