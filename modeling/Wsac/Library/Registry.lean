import Mathlib.Data.List.Nodup
import Mathlib.Logic.Function.Basic

/-! # Registries that overwrite

Objects are registered under keys and numbered as they are made; registering under a key
again forgets the object that was there.  Releasing what a registry holds reaches every
object made so far exactly if no key has been used twice. -/

set_option autoImplicit false

namespace Wsac.Library

universe u
variable {κ : Type u}

/-- The last place of `key` in the list. -/
def LastAt (list : List κ) (key : κ) (number : Nat) : Prop :=
  list[number]? = some key ∧ ∀ later, number < later → list[later]? ≠ some key

theorem LastAt.lt {list : List κ} {key : κ} {number : Nat} (last : LastAt list key number) :
    number < list.length := (List.getElem?_eq_some_iff.mp last.1).1

theorem getElem?_beyond_concat {list : List κ} (key : κ) {place : Nat}
    (beyond : list.length < place) : (list ++ [key])[place]? = none := by
  rw [List.getElem?_eq_none_iff, List.length_append, List.length_singleton]
  exact beyond

theorem lastAt_concat_self (list : List κ) (key : κ) (number : Nat) :
    LastAt (list ++ [key]) key number ↔ number = list.length := by
  have newest : (list ++ [key])[list.length]? = some key := List.getElem?_concat_length
  constructor
  · intro last
    have bound := last.lt
    rw [List.length_append, List.length_singleton] at bound
    by_contra different
    exact last.2 list.length (by omega) newest
  · intro here
    subst here
    refine ⟨newest, fun later beyond => ?_⟩
    rw [getElem?_beyond_concat key beyond]
    simp

theorem lastAt_concat_other (list : List κ) {key other : κ} (different : other ≠ key)
    (number : Nat) : LastAt (list ++ [key]) other number ↔ LastAt list other number := by
  have newest : (list ++ [key])[list.length]? = some key := List.getElem?_concat_length
  have older : ∀ place, place < list.length → (list ++ [key])[place]? = list[place]? :=
    fun place inside => List.getElem?_append_left inside
  constructor
  · intro last
    have bound := last.lt
    rw [List.length_append, List.length_singleton] at bound
    have below : number < list.length := by
      by_contra outside
      have here : number = list.length := by omega
      rw [here] at last
      exact different (Option.some.inj (newest.symm.trans last.1)).symm
    refine ⟨(older number below).symm.trans last.1, fun later beyond found => ?_⟩
    have inside := (List.getElem?_eq_some_iff.mp found).1
    exact last.2 later beyond ((older later inside).trans found)
  · intro last
    refine ⟨(older number last.lt).trans last.1, fun later beyond => ?_⟩
    rcases Nat.lt_trichotomy later list.length with before | here | behind
    · rw [older later before]
      exact last.2 later beyond
    · rw [here, newest, ne_eq, Option.some.injEq]
      exact fun equal => different equal.symm
    · rw [getElem?_beyond_concat key behind]
      simp

structure Registry (κ : Type u) where
  held : κ → Option Nat
  /-- The keys of the objects made so far; an object's number is its position. -/
  made : List κ

namespace Registry

def empty : Registry κ := ⟨fun _ => none, []⟩

def add [DecidableEq κ] (registry : Registry κ) (key : κ) : Registry κ :=
  ⟨Function.update registry.held key (some registry.made.length), registry.made ++ [key]⟩

/-- Under every key stands the last object made under it. -/
def Last (registry : Registry κ) : Prop :=
  ∀ key number, registry.held key = some number ↔ LastAt registry.made key number

theorem Last.empty : Last (empty : Registry κ) := by
  intro key number
  simp [Registry.empty, LastAt]

theorem Last.add [DecidableEq κ] {registry : Registry κ} (last : Last registry) (key : κ) :
    Last (registry.add key) := by
  intro other number
  by_cases same : other = key
  · subst same
    simp only [Registry.add, lastAt_concat_self, Function.update_self, Option.some.injEq]
    exact eq_comm
  · simp only [Registry.add, lastAt_concat_other _ same, Function.update_of_ne same]
    exact last other number

/-- An object is held under one key only. -/
theorem Last.key_unique {registry : Registry κ} (last : Last registry) {first second : κ}
    {number : Nat} (left : registry.held first = some number)
    (right : registry.held second = some number) : first = second := by
  have one := ((last first number).mp left).1
  have other := ((last second number).mp right).1
  rw [one, Option.some.injEq] at other
  exact other

/-- Everything made is still held exactly if no key has been used twice. -/
theorem Last.all_held_iff {registry : Registry κ} (last : Last registry) :
    (∀ number, number < registry.made.length → ∃ key, registry.held key = some number) ↔
      registry.made.Nodup := by
  rw [List.nodup_iff_getElem?_ne_getElem?]
  constructor
  · intro held number later beyond inside same
    obtain ⟨key, there⟩ := held number (by omega)
    obtain ⟨found, final⟩ := (last key number).mp there
    exact final later beyond (same ▸ found)
  · intro distinct number inside
    have found : registry.made[number]? = some registry.made[number] :=
      List.getElem?_eq_getElem inside
    refine ⟨registry.made[number], (last _ _).mpr ⟨found, fun later beyond again => ?_⟩⟩
    have before := (List.getElem?_eq_some_iff.mp again).1
    exact distinct number later beyond before (found.trans again.symm)

/-- The objects held, in the order in which the keys come up. -/
def values (registry : Registry κ) (order : List κ) : List Nat := order.filterMap registry.held

theorem Last.values_nodup {registry : Registry κ} (last : Last registry) {order : List κ}
    (distinct : order.Nodup) : (registry.values order).Nodup :=
  distinct.filterMap fun _ _ _ left right => last.key_unique left right

theorem mem_values {registry : Registry κ} {order : List κ} (complete : ∀ key, key ∈ order)
    (number : Nat) :
    number ∈ registry.values order ↔ ∃ key, registry.held key = some number := by
  rw [values, List.mem_filterMap]
  exact ⟨fun ⟨key, _, held⟩ => ⟨key, held⟩, fun ⟨key, held⟩ => ⟨key, complete key, held⟩⟩

/-- Releasing what is held releases every object made once exactly if no key has been
used twice. -/
theorem Last.released_once_iff {registry : Registry κ} (last : Last registry) {order : List κ}
    (distinct : order.Nodup) (complete : ∀ key, key ∈ order) :
    (∀ number, number < registry.made.length → (registry.values order).count number = 1) ↔
      registry.made.Nodup := by
  rw [← last.all_held_iff]
  have once := last.values_nodup distinct
  constructor
  · intro counts number inside
    have present := List.count_pos_iff.mp (by rw [counts number inside]; exact Nat.one_pos)
    exact (mem_values complete number).mp present
  · intro held number inside
    exact List.count_eq_one_of_mem once ((mem_values complete number).mpr (held number inside))

end Registry
end Wsac.Library
