import Wsac.Library.Occurrence

/-! # Longest matched prefixes

`LongestBelow bound pattern text m`: among the prefixes of `pattern` shorter
than `bound` that are suffixes of `text`, the longest has length `m`.  A border
of a prefix is the case where the text is that prefix itself.  `step` is the one
argument behind both halves of Knuth, Morris and Pratt: filling the table and
searching with it. -/

set_option autoImplicit false

namespace Wsac.Library

universe u
variable {α : Type u}

structure LongestBelow (bound : Nat) (pattern text : List α) (matched : Nat) : Prop where
  lt : matched < bound
  suffix : pattern.take matched <:+ text
  longest : ∀ other, other < bound → pattern.take other <:+ text → other ≤ matched

/-- `border` is the length of the longest proper border of the prefix of length `prefixLength`. -/
def LongestBorder (pattern : List α) (prefixLength border : Nat) : Prop :=
  LongestBelow prefixLength pattern (pattern.take prefixLength) border

theorem take_succ_suffix_iff {pattern text : List α} {next : α} {k : Nat}
    (inside : k < pattern.length) :
    pattern.take (k + 1) <:+ text ++ [next] ↔
      pattern.take k <:+ text ∧ pattern[k]? = some next := by
  rw [List.take_succ_eq_append_getElem inside, List.getElem?_eq_getElem inside,
    Option.some.injEq]
  constructor
  · rintro ⟨front, whole⟩
    rw [← List.append_assoc] at whole
    obtain ⟨init, last⟩ := List.append_inj' whole rfl
    exact ⟨⟨front, init⟩, List.singleton_inj.mp last⟩
  · rintro ⟨⟨front, rfl⟩, rfl⟩
    exact ⟨front, by rw [List.append_assoc]⟩

/-- A shorter matched prefix is a border of a longer one. -/
theorem border_of_suffixes {pattern text : List α} {short long : Nat} (shorter : short < long)
    (inside : long ≤ pattern.length) (shortSuffix : pattern.take short <:+ text)
    (longSuffix : pattern.take long <:+ text) :
    pattern.take short <:+ pattern.take long := by
  apply List.suffix_of_suffix_length_le shortSuffix longSuffix
  rw [List.length_take, List.length_take]
  omega

/-- Falling back to the longest border skips no prefix that `next` could extend. -/
theorem LongestBorder.covers {pattern text : List α} {matched border other : Nat}
    (table : LongestBorder pattern matched border) (inside : matched ≤ pattern.length)
    (matchedSuffix : pattern.take matched <:+ text) (shorter : other < matched)
    (otherSuffix : pattern.take other <:+ text) : other ≤ border :=
  table.longest other shorter (border_of_suffixes shorter inside otherSuffix matchedSuffix)

theorem LongestBorder.suffix_trans {pattern text : List α} {matched border : Nat}
    (table : LongestBorder pattern matched border)
    (matchedSuffix : pattern.take matched <:+ text) : pattern.take border <:+ text :=
  table.suffix.trans matchedSuffix

theorem LongestBelow.step {pattern text : List α} {next : α} {bound kept : Nat}
    (inside : bound ≤ pattern.length) (short : kept < bound)
    (suffix : pattern.take kept <:+ text)
    (covers : ∀ other, other < bound → pattern.take other <:+ text →
      pattern[other]? = some next → other ≤ kept)
    (settled : kept = 0 ∨ pattern[kept]? = some next) :
    (pattern[kept]? = some next →
      LongestBelow (bound + 1) pattern (text ++ [next]) (kept + 1)) ∧
    (pattern[kept]? ≠ some next →
      LongestBelow (bound + 1) pattern (text ++ [next]) 0) := by
  have extended : ∀ other, other + 1 < bound + 1 →
      pattern.take (other + 1) <:+ text ++ [next] →
      other ≤ kept ∧ pattern[other]? = some next := by
    intro other below matches_
    obtain ⟨otherSuffix, same⟩ := (take_succ_suffix_iff (by omega)).mp matches_
    exact ⟨covers other (by omega) otherSuffix same, same⟩
  constructor
  · intro hit
    refine ⟨by omega, (take_succ_suffix_iff (by omega)).mpr ⟨suffix, hit⟩, ?_⟩
    intro other below matches_
    cases other with
    | zero => omega
    | succ other => have := (extended other below matches_).1; omega
  · intro miss
    have keptZero : kept = 0 := settled.resolve_right miss
    refine ⟨by omega, by simp, ?_⟩
    intro other below matches_
    cases other with
    | zero => omega
    | succ other =>
        obtain ⟨least, same⟩ := extended other below matches_
        have otherZero : other = kept := by omega
        exact absurd (otherZero ▸ same) miss

theorem LongestBelow.narrow {pattern text : List α} {bound matched : Nat}
    (longest : LongestBelow (bound + 1) pattern text matched) (short : matched < bound) :
    LongestBelow bound pattern text matched :=
  ⟨short, longest.suffix, fun other below => longest.longest other (by omega)⟩

theorem LongestBelow.unique {pattern text : List α} {bound first second : Nat}
    (left : LongestBelow bound pattern text first)
    (right : LongestBelow bound pattern text second) : first = second :=
  Nat.le_antisymm (right.longest first left.lt left.suffix)
    (left.longest second right.lt right.suffix)

/-- With full matches allowed, the longest prefix is the whole pattern exactly
at the ends of occurrences. -/
theorem LongestBelow.eq_length_iff {pattern text : List α} {matched : Nat}
    (longest : LongestBelow (pattern.length + 1) pattern text matched) :
    matched = pattern.length ↔ pattern <:+ text := by
  constructor
  · intro full
    simpa [full] using longest.suffix
  · intro whole
    have upper := longest.lt
    have lower := longest.longest pattern.length (by omega) (by simpa using whole)
    omega

end Wsac.Library
