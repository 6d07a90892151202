import Mathlib.Data.List.Induction

/-! # A latch and its history

A latch is set by some inputs, reset by others and otherwise keeps what it holds.
`Latched` says of a history of inputs that one has set the latch since the last
one that reset it; `latched_foldl` reads the state of any machine that works as
a latch off its history. -/

set_option autoImplicit false

namespace Wsac.Library

universe u v
variable {α : Type u} {σ : Type v} {sets resets : α → Prop}

/-- An input has set the latch, and none after it has reset it. -/
def Latched (sets resets : α → Prop) (inputs : List α) : Prop :=
  ∃ before input after, inputs = before ++ input :: after ∧ sets input ∧
    ∀ later ∈ after, ¬ resets later

theorem not_latched_nil : ¬ Latched sets resets [] := by
  rintro ⟨before, input, after, same, _⟩
  simp at same

theorem latched_append_singleton (inputs : List α) (last : α) :
    Latched sets resets (inputs ++ [last]) ↔
      sets last ∨ (¬ resets last ∧ Latched sets resets inputs) := by
  constructor
  · rintro ⟨before, input, after, same, setting, kept⟩
    rcases List.eq_nil_or_concat after with rfl | ⟨init, final, rfl⟩
    · obtain ⟨_, ends⟩ := List.append_inj' same rfl
      cases ends
      exact Or.inl setting
    · rw [List.concat_eq_append, ← List.cons_append, ← List.append_assoc] at same
      obtain ⟨rfl, ends⟩ := List.append_inj' same rfl
      cases ends
      refine Or.inr ⟨kept last (by simp), before, input, init, rfl, setting, ?_⟩
      exact fun later member => kept later (by simp [member])
  · rintro (setting | ⟨keeping, before, input, after, rfl, setting, kept⟩)
    · exact ⟨inputs, last, [], rfl, setting, by simp⟩
    · refine ⟨before, input, after ++ [last], by simp, setting, fun later member => ?_⟩
      rcases List.mem_append.mp member with early | final
      · exact kept later early
      · rw [List.mem_singleton.mp final]
        exact keeping

/-- A machine that works as a latch holds what its history says. -/
theorem latched_foldl (step : σ → α → σ) (on : σ → Prop) (start : σ) (off : ¬ on start)
    (works : ∀ state input, on (step state input) ↔ sets input ∨ (¬ resets input ∧ on state))
    (inputs : List α) : on (inputs.foldl step start) ↔ Latched sets resets inputs := by
  induction inputs using List.reverseRecOn with
  | nil => simp [off, not_latched_nil]
  | append_singleton inputs last ih =>
      rw [List.foldl_append, List.foldl_cons, List.foldl_nil, works, ih, latched_append_singleton]

/-- The latch itself. -/
def latch (sets resets : α → Prop) [DecidablePred sets] [DecidablePred resets] (held : Bool)
    (input : α) : Bool :=
  decide (sets input) || (! decide (resets input) && held)

instance [DecidablePred sets] [DecidablePred resets] (inputs : List α) :
    Decidable (Latched sets resets inputs) :=
  decidable_of_iff (inputs.foldl (latch sets resets) false = true)
    (latched_foldl (latch sets resets) (· = true) false (by simp) (by simp [latch]) inputs)

end Wsac.Library
