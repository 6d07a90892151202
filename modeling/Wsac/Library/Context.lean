/-! # The entries of a log in their context

`InContext P log`: every entry of the log satisfies `P` together with what stands
before it and what stands behind it. -/

set_option autoImplicit false

namespace Wsac.Library

universe u
variable {α : Type u} {P : List α → α → List α → Prop}

def InContext (P : List α → α → List α → Prop) (entries : List α) : Prop :=
  ∀ before entry after, entries = before ++ entry :: after → P before entry after

theorem inContext_nil : InContext P [] := by
  intro before entry after same
  simp at same

theorem inContext_cons {first : α} {rest : List α} :
    InContext P (first :: rest) ↔
      P [] first rest ∧ InContext (fun before => P (first :: before)) rest := by
  constructor
  · intro all
    refine ⟨all [] first rest rfl, fun before entry after same => ?_⟩
    exact all (first :: before) entry after (by rw [same, List.cons_append])
  · rintro ⟨head, tail⟩ before entry after same
    cases before with
    | nil =>
        cases same
        exact head
    | cons _ before =>
        cases same
        exact tail before entry after rfl

/-- What holds of a longer log holds of its beginning, where the context may be cut. -/
theorem InContext.shorten {part whole : List α} (all : InContext P whole) (cut : part <+: whole)
    (stable : ∀ before entry after rest, P before entry (after ++ rest) → P before entry after) :
    InContext P part := by
  obtain ⟨rest, rfl⟩ := cut
  intro before entry after same
  apply stable before entry after rest
  apply all
  rw [same, List.append_assoc, List.cons_append]

/-- Old entries see new ones behind them, new entries see the old ones before them. -/
theorem InContext.append {log new : List α} (old : InContext P log)
    (grows : ∀ before entry after, P before entry after → P before entry (after ++ new))
    (fresh : InContext (fun before => P (log ++ before)) new) : InContext P (log ++ new) := by
  intro before entry after same
  rcases List.append_eq_append_iff.mp same with ⟨front, rfl, behind⟩ | ⟨behind, rfl, front⟩
  · exact fresh front entry after behind
  · cases behind with
    | nil =>
        have first := fresh [] entry after front.symm
        rwa [List.append_nil, List.append_nil] at first
    | cons other behind =>
        cases front
        exact grows before entry behind (old before entry behind rfl)

end Wsac.Library
