import Mathlib.Data.List.Infix
import Mathlib.Data.Nat.Find

/-! # Occurrences of a pattern in a text

`OccursAt` places an occurrence by its first element, `EndsAt` by the length of
the text up to and including its last one.  `FirstEnd` is the end of the first
occurrence, the place where a left-to-right search stops. -/

set_option autoImplicit false

namespace Wsac.Library

universe u
variable {α : Type u}

def OccursAt (pattern text : List α) (start : Nat) : Prop := pattern <+: text.drop start

def EndsAt (pattern text : List α) (stop : Nat) : Prop :=
  stop ≤ text.length ∧ pattern <:+ text.take stop

def FirstEnd (pattern text : List α) (stop : Nat) : Prop :=
  EndsAt pattern text stop ∧ ∀ earlier, earlier < stop → ¬ EndsAt pattern text earlier

instance [DecidableEq α] (pattern text : List α) (start : Nat) :
    Decidable (OccursAt pattern text start) :=
  inferInstanceAs (Decidable (pattern <+: text.drop start))

instance [DecidableEq α] (pattern text : List α) (stop : Nat) :
    Decidable (EndsAt pattern text stop) :=
  inferInstanceAs (Decidable (stop ≤ text.length ∧ pattern <:+ text.take stop))

instance [DecidableEq α] (pattern text : List α) (stop : Nat) :
    Decidable (FirstEnd pattern text stop) :=
  inferInstanceAs (Decidable (_ ∧ ∀ earlier, earlier < stop → ¬ _))

theorem OccursAt.length_le {pattern text : List α} {start : Nat}
    (occurs : OccursAt pattern text start) (nonempty : pattern ≠ []) :
    start + pattern.length ≤ text.length := by
  have fits := List.IsPrefix.length_le occurs
  have positive := List.length_pos_iff.mpr nonempty
  rw [List.length_drop] at fits
  omega

theorem EndsAt.length_le {pattern text : List α} {stop : Nat} (ends : EndsAt pattern text stop) :
    pattern.length ≤ stop := by
  have fits := ends.2.length_le
  rw [List.length_take] at fits
  omega

theorem occursAt_iff_take {pattern text : List α} {start : Nat} :
    OccursAt pattern text start ↔ (text.drop start).take pattern.length = pattern := by
  rw [OccursAt, List.prefix_iff_eq_take, eq_comm]

theorem endsAt_iff_occursAt {pattern text : List α} (nonempty : pattern ≠ []) (start : Nat) :
    EndsAt pattern text (start + pattern.length) ↔ OccursAt pattern text start := by
  rw [occursAt_iff_take]
  constructor
  · rintro ⟨inside, suffix⟩
    rw [List.suffix_iff_eq_drop, List.length_take, Nat.min_eq_left inside,
      Nat.add_sub_cancel, List.drop_take, Nat.add_sub_cancel_left] at suffix
    exact suffix.symm
  · intro exact
    have inside := (occursAt_iff_take.mpr exact).length_le nonempty
    refine ⟨inside, ?_⟩
    rw [List.suffix_iff_eq_drop, List.length_take, Nat.min_eq_left inside,
      Nat.add_sub_cancel, List.drop_take, Nat.add_sub_cancel_left]
    exact exact.symm

/-- Every end of an occurrence comes from a start. -/
theorem EndsAt.start {pattern text : List α} {stop : Nat} (ends : EndsAt pattern text stop)
    (nonempty : pattern ≠ []) : OccursAt pattern text (stop - pattern.length) := by
  rw [← endsAt_iff_occursAt nonempty, Nat.sub_add_cancel ends.length_le]
  exact ends

theorem occursAt_drop {pattern text : List α} {skip start : Nat} :
    OccursAt pattern (text.drop skip) start ↔ OccursAt pattern text (skip + start) := by
  rw [OccursAt, OccursAt, List.drop_drop]

theorem occursAt_append_left {pattern before after : List α} {start : Nat} :
    OccursAt pattern (before ++ after) (before.length + start) ↔ OccursAt pattern after start := by
  rw [← occursAt_drop, List.drop_left]

/-- Only the elements under the occurrence matter. -/
theorem occursAt_append_right {pattern text after : List α} {start : Nat}
    (inside : start + pattern.length ≤ text.length) :
    OccursAt pattern (text ++ after) start ↔ OccursAt pattern text start := by
  rw [occursAt_iff_take, occursAt_iff_take, List.drop_append_of_le_length (by omega),
    List.take_append_of_le_length (by rw [List.length_drop]; omega)]

theorem FirstEnd.unique {pattern text : List α} {first second : Nat}
    (left : FirstEnd pattern text first) (right : FirstEnd pattern text second) :
    first = second := by
  rcases Nat.lt_trichotomy first second with before | same | after
  · exact absurd left.1 (right.2 first before)
  · exact same
  · exact absurd right.1 (left.2 second after)

theorem FirstEnd.exists_of_endsAt {pattern text : List α} {stop : Nat}
    (ends : EndsAt pattern text stop) : ∃ first, first ≤ stop ∧ FirstEnd pattern text first := by
  classical
  have found : ∃ stop, EndsAt pattern text stop := ⟨stop, ends⟩
  exact ⟨Nat.find found, Nat.find_min' found ends, Nat.find_spec found,
    fun earlier before => Nat.find_min found before⟩

/-- The first occurrence described by its start. -/
theorem firstEnd_of_start {pattern text : List α} (nonempty : pattern ≠ []) {start : Nat}
    (occurs : OccursAt pattern text start)
    (first : ∀ earlier, earlier < start → ¬ OccursAt pattern text earlier) :
    FirstEnd pattern text (start + pattern.length) := by
  refine ⟨(endsAt_iff_occursAt nonempty start).mpr occurs, fun earlier before ends => ?_⟩
  have positive := List.length_pos_iff.mpr nonempty
  have fits := ends.length_le
  exact first _ (by omega) (ends.start nonempty)

theorem FirstEnd.occursAt {pattern text : List α} (nonempty : pattern ≠ []) {stop : Nat}
    (first : FirstEnd pattern text stop) :
    OccursAt pattern text (stop - pattern.length) ∧
      ∀ earlier, earlier < stop - pattern.length → ¬ OccursAt pattern text earlier := by
  refine ⟨first.1.start nonempty, fun earlier before occurs => ?_⟩
  exact first.2 (earlier + pattern.length) (by omega)
    ((endsAt_iff_occursAt nonempty earlier).mpr occurs)

end Wsac.Library
