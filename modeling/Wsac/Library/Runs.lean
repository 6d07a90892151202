import Mathlib.Data.Nat.Count
import Mathlib.Logic.Function.Iterate
import Mathlib.Tactic.Choose

/-! # Runs and infinite chains of a partial step

A system is a partial step for each of its moves.  `runs` follows a list of
moves; a `Chain` never ends.  The rules carry an invariant, bound a run by a
measure, and follow a system through a view of its states. -/

set_option autoImplicit false

namespace Wsac.Library

universe u v

section Runs
variable {μ : Type u} {σ : Type v} (step : μ → σ → Option σ)

def runs : List μ → σ → Option σ
  | [], state => some state
  | move :: rest, state => (step move state).bind (runs rest)

theorem runs_cons_eq_some {move : μ} {rest : List μ} {state final : σ} :
    runs step (move :: rest) state = some final ↔
      ∃ middle, step move state = some middle ∧ runs step rest middle = some final :=
  Option.bind_eq_some_iff

theorem runs_append_eq_some {first second : List μ} {state final : σ} :
    runs step (first ++ second) state = some final ↔
      ∃ middle, runs step first state = some middle ∧ runs step second middle = some final := by
  induction first generalizing state with
  | nil => simp [runs]
  | cons move rest ih =>
      simp only [List.cons_append, runs_cons_eq_some, ih]
      constructor
      · rintro ⟨next, stepped, middle, ran, rest_ran⟩
        exact ⟨middle, ⟨next, stepped, ran⟩, rest_ran⟩
      · rintro ⟨middle, ⟨next, stepped, ran⟩, rest_ran⟩
        exact ⟨next, stepped, middle, ran, rest_ran⟩

theorem runs_singleton (move : μ) (state : σ) : runs step [move] state = step move state := by
  cases stepped : step move state with
  | none => simp [runs, stepped]
  | some middle => simp [runs, stepped]

variable {step}

/-- What every step keeps, every run keeps. -/
theorem runs_invariant (inv : σ → Prop)
    (kept : ∀ move before after, inv before → step move before = some after → inv after)
    {moves : List μ} {state final : σ} (start : inv state)
    (ran : runs step moves state = some final) : inv final := by
  induction moves generalizing state with
  | nil =>
      cases ran
      exact start
  | cons move rest ih =>
      obtain ⟨middle, stepped, ran⟩ := (runs_cons_eq_some step).mp ran
      exact ih (kept move state middle start stepped) ran

variable (step) in
/-- Every move meets its condition in the state in which it is made. -/
def Along (condition : μ → σ → Prop) : List μ → σ → Prop
  | [], _ => True
  | move :: rest, state =>
      condition move state ∧ ∀ next, step move state = some next → Along condition rest next

theorem runs_invariant_along {condition : μ → σ → Prop} (inv : σ → Prop)
    (kept : ∀ move before after, inv before → step move before = some after →
      condition move before → inv after)
    {moves : List μ} {state final : σ} (start : inv state)
    (ran : runs step moves state = some final) (along : Along step condition moves state) :
    inv final := by
  induction moves generalizing state with
  | nil =>
      cases ran
      exact start
  | cons move rest ih =>
      obtain ⟨middle, stepped, ran⟩ := (runs_cons_eq_some step).mp ran
      exact ih (kept move state middle start stepped along.1) ran (along.2 middle stepped)

/-- A move out of its condition does harm that stays; a run that ends without any has
made none. -/
theorem along_of_unharmed {condition : μ → σ → Prop} (harmed : σ → Prop)
    (stays : ∀ move before after, harmed before → step move before = some after → harmed after)
    (harms : ∀ move before after, step move before = some after → ¬ condition move before →
      harmed after)
    {moves : List μ} {state final : σ} (ran : runs step moves state = some final)
    (unharmed : ¬ harmed final) : Along step condition moves state := by
  induction moves generalizing state with
  | nil => exact trivial
  | cons move rest ih =>
      obtain ⟨middle, stepped, ran⟩ := (runs_cons_eq_some step).mp ran
      refine ⟨?_, fun next there => ?_⟩
      · by_contra broken
        exact unharmed (runs_invariant harmed stays (harms move state middle stepped broken) ran)
      · rw [stepped, Option.some.injEq] at there
        exact ih (there ▸ ran)

/-- A measure that every step lowers pays for the length of the run. -/
theorem runs_length_le (inv : σ → Prop) (measure : σ → ℕ)
    (lowered : ∀ move before after, inv before → step move before = some after →
      inv after ∧ measure after < measure before)
    {moves : List μ} {state final : σ} (start : inv state)
    (ran : runs step moves state = some final) : moves.length + measure final ≤ measure state := by
  induction moves generalizing state with
  | nil =>
      cases ran
      simp
  | cons move rest ih =>
      obtain ⟨middle, stepped, ran⟩ := (runs_cons_eq_some step).mp ran
      obtain ⟨kept, less⟩ := lowered move state middle start stepped
      have rest_le := ih kept ran
      rw [List.length_cons]
      omega

/-- Where a step is always possible, there are runs of every length. -/
theorem exists_run (inv : σ → Prop)
    (progress : ∀ before, inv before → ∃ move after, step move before = some after ∧ inv after)
    {state : σ} (start : inv state) (count : ℕ) :
    ∃ moves final, moves.length = count ∧ runs step moves state = some final := by
  induction count generalizing state with
  | zero => exact ⟨[], state, rfl, rfl⟩
  | succ count ih =>
      obtain ⟨move, middle, stepped, kept⟩ := progress state start
      obtain ⟨rest, final, length, ran⟩ := ih kept
      refine ⟨move :: rest, final, ?_, (runs_cons_eq_some step).mpr ⟨middle, stepped, ran⟩⟩
      rw [List.length_cons, length]

end Runs

section Chains
variable {σ : Type u} {τ : Type v} {R : σ → σ → Prop} {S : τ → τ → Prop}

/-- From `first` on, steps of `R` never end. -/
def Chain (R : σ → σ → Prop) (first : σ) : Prop :=
  ∃ states : ℕ → σ, states 0 = first ∧ ∀ n, R (states n) (states (n + 1))

theorem Chain.of_progress (inv : σ → Prop)
    (progress : ∀ before, inv before → ∃ after, R before after ∧ inv after) {first : σ}
    (start : inv first) : Chain R first := by
  have next : ∀ before : {state // inv state}, ∃ after : {state // inv state},
      R before.val after.val := by
    rintro ⟨before, held⟩
    obtain ⟨after, related, kept⟩ := progress before held
    exact ⟨⟨after, kept⟩, related⟩
  choose follow related using next
  refine ⟨fun n => (follow^[n] ⟨first, start⟩).val, rfl, fun n => ?_⟩
  simp only [Function.iterate_succ_apply']
  exact related _

theorem not_chain_of_measure (inv : σ → Prop) (measure : σ → ℕ)
    (lowered : ∀ before after, inv before → R before after →
      inv after ∧ measure after < measure before)
    {first : σ} (start : inv first) : ¬ Chain R first := by
  rintro ⟨states, begins, related⟩
  have held : ∀ n, inv (states n) ∧ measure (states n) + n ≤ measure first := by
    intro n
    induction n with
    | zero =>
        rw [begins]
        exact ⟨start, Nat.le_refl _⟩
    | succ n ih =>
        obtain ⟨kept, less⟩ := lowered _ _ ih.1 (related n)
        exact ⟨kept, by omega⟩
  have beyond := (held (measure first + 1)).2
  omega

/-- A measure that no step raises bounds how often a step lowers it. -/
theorem count_lowered_le (inv : σ → Prop) (measure : σ → ℕ) (lowering : σ → σ → Prop)
    [DecidableRel lowering]
    (kept : ∀ before after, inv before → R before after → inv after ∧
      measure after ≤ measure before ∧ (lowering before after → measure after < measure before))
    {states : ℕ → σ} {count : ℕ} (start : inv (states 0))
    (run : ∀ n < count, R (states n) (states (n + 1))) :
    inv (states count) ∧ Nat.count (fun n => lowering (states n) (states (n + 1))) count +
      measure (states count) ≤ measure (states 0) := by
  induction count with
  | zero => exact ⟨start, by rw [Nat.count_zero, Nat.zero_add]⟩
  | succ count ih =>
      obtain ⟨held, bound⟩ := ih fun n less => run n (Nat.lt_succ_of_lt less)
      obtain ⟨next, le, less⟩ := kept _ _ held (run count (Nat.lt_succ_self count))
      refine ⟨next, ?_⟩
      rw [Nat.count_succ]
      split
      · rename_i lowers
        have lower := less lowers
        omega
      · omega

/-- A view that matches the steps of `R` with those of `S`, both ways, decides the
chains of `R` by those of `S`. -/
theorem chain_iff_of_view (inv : σ → Prop) (view : σ → τ)
    (forth : ∀ before after, inv before → R before after →
      inv after ∧ S (view before) (view after))
    (back : ∀ before target, inv before → S (view before) target →
      ∃ after, R before after ∧ view after = target)
    {first : σ} (start : inv first) : Chain R first ↔ Chain S (view first) := by
  constructor
  · rintro ⟨states, begins, related⟩
    have held : ∀ n, inv (states n) := by
      intro n
      induction n with
      | zero =>
          rw [begins]
          exact start
      | succ n ih => exact (forth _ _ ih (related n)).1
    exact ⟨fun n => view (states n), congrArg view begins,
      fun n => (forth _ _ (held n) (related n)).2⟩
  · intro endless
    refine Chain.of_progress (fun state => inv state ∧ Chain S (view state)) ?_ ⟨start, endless⟩
    rintro before ⟨held, targets, begins, related⟩
    have first_step := related 0
    rw [begins] at first_step
    obtain ⟨after, stepped, seen⟩ := back before _ held first_step
    refine ⟨after, stepped, (forth _ _ held stepped).1, fun n => targets (n + 1), seen.symm, ?_⟩
    exact fun n => related (n + 1)

end Chains
end Wsac.Library
