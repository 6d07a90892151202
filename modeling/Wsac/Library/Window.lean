import Mathlib.Data.List.Infix

/-! # A sliding window that is not cleared

`slid` is what a window of fixed length holds after elements have been pushed into
it.  A pattern that shows in the window need not be the last thing that was read:
`Invented` says how old elements and new ones make it up between them. -/

set_option autoImplicit false

namespace Wsac.Library

universe u
variable {α : Type u}

/-- A window that held `left`, behind the pushes of `fresh`. -/
def slid (left fresh : List α) : List α := (left ++ fresh).drop fresh.length

theorem slid_concat (left fresh : List α) (last : α) (nonempty : left ≠ []) :
    slid left (fresh ++ [last]) = (slid left fresh).tail ++ [last] := by
  have positive := List.length_pos_iff.mpr nonempty
  have inside : fresh.length + 1 ≤ (left ++ fresh).length := by
    rw [List.length_append]
    omega
  rw [slid, slid, List.tail_drop, List.length_append, List.length_singleton,
    ← List.append_assoc, List.drop_append_of_le_length inside]

/-- The pattern begins with what is left of the old window and ends with the few new
elements, while something else was read in front of these. -/
structure Invented (pattern left before fresh : List α) : Prop where
  few : fresh.length < pattern.length
  old : left.drop fresh.length = pattern.take (pattern.length - fresh.length)
  new : fresh = pattern.drop (pattern.length - fresh.length)
  differs : ¬ pattern.take (pattern.length - fresh.length) <:+ before

theorem slid_few_iff {pattern left fresh : List α} (same : left.length = pattern.length)
    (few : fresh.length < pattern.length) :
    slid left fresh = pattern ↔
      left.drop fresh.length = pattern.take (pattern.length - fresh.length) ∧
        fresh = pattern.drop (pattern.length - fresh.length) := by
  have length : (left.drop fresh.length).length =
      (pattern.take (pattern.length - fresh.length)).length := by
    rw [List.length_drop, List.length_take]
    omega
  have split := List.take_append_drop (pattern.length - fresh.length) pattern
  rw [slid, List.drop_append_of_le_length (by omega)]
  constructor
  · intro shows
    exact List.append_inj (shows.trans split.symm) length
  · rintro ⟨old, new⟩
    rw [old]
    exact (congrArg _ new).trans split

/-- A pattern in the window is one that has just been read, or it is invented. -/
theorem invented_iff {pattern left before fresh : List α} (same : left.length = pattern.length) :
    Invented pattern left before fresh ↔
      slid left fresh = pattern ∧ ¬ pattern <:+ before ++ fresh := by
  by_cases few : fresh.length < pattern.length
  · have read : fresh = pattern.drop (pattern.length - fresh.length) →
        (pattern <:+ before ++ fresh ↔
          pattern.take (pattern.length - fresh.length) <:+ before) := by
      intro new
      have whole : pattern = pattern.take (pattern.length - fresh.length) ++ fresh := by
        conv_lhs => rw [← List.take_append_drop (pattern.length - fresh.length) pattern]
        exact congrArg _ new.symm
      conv_lhs => rw [whole]
      exact List.suffix_append_self_iff
    rw [slid_few_iff same few]
    constructor
    · intro invented
      exact ⟨⟨invented.old, invented.new⟩,
        fun ends => invented.differs ((read invented.new).mp ends)⟩
    · rintro ⟨⟨old, new⟩, unread⟩
      exact ⟨few, old, new, fun ends => unread ((read new).mpr ends)⟩
  · refine iff_of_false (fun invented => few invented.few) ?_
    rintro ⟨shows, unread⟩
    apply unread
    rw [← shows, slid, List.drop_append, List.drop_eq_nil_of_le (by omega), List.nil_append]
    exact List.suffix_append_of_suffix (List.drop_suffix _ _)

end Wsac.Library
