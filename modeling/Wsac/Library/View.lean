import Wsac.Library.Exec

/-! # What a run shows

Two runs look alike if they return the same result or throw the same failure, and a view of
their states is the same.  A program is blind to what the view leaves out if its runs look
alike wherever the states do. -/

set_option autoImplicit false

namespace Wsac.Library.Exec

universe u
variable {ε σ τ α β : Type u} {view : σ → τ} {allowed : ε → Prop}

/-- Two results that look alike; what is thrown is `allowed`. -/
inductive Alike (view : σ → τ) (allowed : ε → Prop) :
    EStateM.Result ε σ α → EStateM.Result ε σ α → Prop where
  | ok (value : α) {one two : σ} (same : view one = view two) :
      Alike view allowed (.ok value one) (.ok value two)
  | error {failure : ε} {one two : σ} (thrown : allowed failure) (same : view one = view two) :
      Alike view allowed (.error failure one) (.error failure two)

theorem Alike.bind {first second : EStateM ε σ α} {rest other : α → EStateM ε σ β} {one two : σ}
    (start : Alike view allowed (first.run one) (second.run two))
    (onward : ∀ value left right,
      first.run one = .ok value left → second.run two = .ok value right →
      view left = view right →
      Alike view allowed ((rest value).run left) ((other value).run right)) :
    Alike view allowed ((first >>= rest).run one) ((second >>= other).run two) := by
  generalize ran : first.run one = left at start
  generalize ran' : second.run two = right at start
  cases start with
  | ok value same =>
      rw [run_bind_ok ran, run_bind_ok ran']
      exact onward value _ _ ran ran' same
  | error thrown same =>
      rw [run_bind_error ran, run_bind_error ran']
      exact Alike.error thrown same

theorem Alike.thrown {left right : EStateM.Result ε σ α} (alike : Alike view allowed left right)
    {failure : ε} {state : σ} (failed : left = .error failure state) : allowed failure := by
  cases alike with
  | ok => cases failed
  | error permitted =>
      cases failed
      exact permitted

theorem Alike.of_ok {left right : EStateM.Result ε σ α} (alike : Alike view allowed left right)
    {value : α} {state : σ} (ran : right = .ok value state) :
    ∃ other, left = .ok value other ∧ view other = view state := by
  cases alike with
  | ok result same =>
      cases ran
      exact ⟨_, rfl, same⟩
  | error => cases ran

/-- What the view leaves out makes no difference. -/
def Blind (view : σ → τ) (allowed : ε → Prop) (program : EStateM ε σ α) : Prop :=
  ∀ one two, view one = view two → Alike view allowed (program.run one) (program.run two)

namespace Blind

theorem pure (result : α) : Blind view allowed (Pure.pure result : EStateM ε σ α) :=
  fun _ _ same => Alike.ok result same

theorem throw {failure : ε} (thrown : allowed failure) :
    Blind view allowed (MonadExcept.throw failure : EStateM ε σ α) :=
  fun _ _ same => Alike.error thrown same

theorem bind {program : EStateM ε σ α} {rest : α → EStateM ε σ β}
    (first : Blind view allowed program) (second : ∀ result, Blind view allowed (rest result)) :
    Blind view allowed (program >>= rest) :=
  fun one two same => Alike.bind (first one two same)
    fun value left right _ _ still => second value left right still

theorem ite {condition : Prop} [Decidable condition] {first second : EStateM ε σ α}
    (left : Blind view allowed first) (right : Blind view allowed second) :
    Blind view allowed (if condition then first else second) := by
  split
  · exact left
  · exact right

/-- What is read of the state is in the view. -/
theorem get_bind {rest : σ → EStateM ε σ β}
    (seen : ∀ one two, view one = view two → rest one = rest two)
    (onward : ∀ state, Blind view allowed (rest state)) :
    Blind view allowed ((MonadState.get : EStateM ε σ σ) >>= rest) := by
  intro one two same
  rw [run_get_bind, run_get_bind, seen one two same]
  exact onward two one two same

theorem modifyGet {change : σ → α × σ}
    (seen : ∀ one two, view one = view two →
      (change one).1 = (change two).1 ∧ view (change one).2 = view (change two).2) :
    Blind view allowed (MonadStateOf.modifyGet change : EStateM ε σ α) := by
  intro one two same
  obtain ⟨value, state⟩ := seen one two same
  have first : (MonadStateOf.modifyGet change : EStateM ε σ α).run one =
      .ok (change one).1 (change one).2 := rfl
  have second : (MonadStateOf.modifyGet change : EStateM ε σ α).run two =
      .ok (change two).1 (change two).2 := rfl
  rw [first, second, value]
  exact Alike.ok _ state

end Blind
end Wsac.Library.Exec
