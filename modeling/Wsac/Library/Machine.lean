import Wsac.Library.Context

/-! # Two machines on the same inputs

A machine answers every input and moves on.  `outputs_eq_iff`: two machines give the
same answers to a sequence exactly when they answer each input of it alike, each in
the state that the inputs before have left. -/

set_option autoImplicit false

namespace Wsac.Library

universe u v w x

structure Machine (σ : Type u) (α : Type v) (β : Type w) where
  step : σ → α → σ
  output : σ → α → β

namespace Machine
variable {σ : Type u} {α : Type v} {β : Type w} (machine : Machine σ α β)

def after (start : σ) (inputs : List α) : σ := inputs.foldl machine.step start

def outputs (start : σ) : List α → List β
  | [] => []
  | input :: rest => machine.output start input :: outputs (machine.step start input) rest

theorem after_concat (start : σ) (inputs : List α) (last : α) :
    machine.after start (inputs ++ [last]) = machine.step (machine.after start inputs) last := by
  simp [after]

theorem outputs_concat (start : σ) (inputs : List α) (last : α) :
    machine.outputs start (inputs ++ [last]) =
      machine.outputs start inputs ++ [machine.output (machine.after start inputs) last] := by
  induction inputs generalizing start with
  | nil => rfl
  | cons input rest ih =>
      simp only [List.cons_append, outputs, ih]
      rfl

variable {machine}

theorem outputs_eq_iff {τ : Type x} {other : Machine τ α β} (start : σ) (start' : τ)
    (inputs : List α) :
    machine.outputs start inputs = other.outputs start' inputs ↔
      InContext (fun before input _ => machine.output (machine.after start before) input =
        other.output (other.after start' before) input) inputs := by
  induction inputs generalizing start start' with
  | nil => simp [outputs, inContext_nil]
  | cons input rest ih =>
      rw [outputs, outputs, List.cons.injEq, ih, inContext_cons]
      rfl

end Machine
end Wsac.Library
