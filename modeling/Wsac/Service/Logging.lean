import Mathlib.Logic.Function.Basic
import Wsac.Library.Runs

/-! # `Logging/ConsoleLoggerProvider.cs`: the provider behind `Instance`

A constructor puts its object into `_instance` before it looks at the object that it has
displaced, and throws if that one is not disposed.  Other threads may construct and dispose
in between.  Who was not given an object by its constructor does not dispose it. -/

set_option autoImplicit false

namespace Wsac.Service.ConsoleLoggerProvider

open Library

/-- How far the constructor of an object has come. -/
inductive Phase where
  | unmade
  /-- Behind `Interlocked.Exchange`. -/
  | exchanged
  | returned
  /-- `ApplicationException` -/
  | thrown
deriving DecidableEq

/-- What the getter of `Instance` throws. -/
inductive Failure where
  | nullReference
  | objectDisposed
deriving DecidableEq

/-- All objects, numbered in the order of their exchanges. -/
structure Providers where
  made : Nat
  /-- The static `_instance`. -/
  instance_ : Option Nat
  /-- What `Interlocked.Exchange` has returned to the constructor. -/
  displaced : Nat → Option Nat
  phase : Nat → Phase
  /-- `_disposed` -/
  disposed : Nat → Bool

inductive Move where
  /-- `Interlocked.Exchange(ref _instance, this)` -/
  | exchange
  /-- What a constructor does behind its exchange. -/
  | check (number : Nat)
  | dispose (number : Nat)
deriving DecidableEq

namespace Providers

def new : Providers := ⟨0, none, fun _ => none, fun _ => .unmade, fun _ => false⟩

/-- `is { _disposed: false }` -/
def undisposed (providers : Providers) : Option Nat → Bool
  | none => false
  | some number => !providers.disposed number

def exchange (providers : Providers) : Providers :=
  { providers with
    made := providers.made + 1
    instance_ := some providers.made
    displaced := Function.update providers.displaced providers.made providers.instance_
    phase := Function.update providers.phase providers.made .exchanged }

def settle (providers : Providers) (number : Nat) : Providers :=
  { providers with
    phase := Function.update providers.phase number
      (if providers.undisposed (providers.displaced number) then .thrown else .returned) }

/-- `Dispose` -/
def dispose (providers : Providers) (number : Nat) : Providers :=
  { providers with disposed := Function.update providers.disposed number true }

def step (move : Move) (providers : Providers) : Option Providers :=
  match move with
  | .exchange => some providers.exchange
  | .check number =>
      if providers.phase number = .exchanged then some (providers.settle number) else none
  | .dispose number =>
      if providers.phase number = .returned then some (providers.dispose number) else none

/-- The getter of `Instance`. -/
def getInstance (providers : Providers) : Except Failure Nat :=
  match providers.instance_ with
  | none => .error .nullReference
  | some number =>
      if providers.disposed number then .error .objectDisposed else .ok number

/-- Somebody was given the object and has not disposed it. -/
def Alive (providers : Providers) (number : Nat) : Prop :=
  providers.phase number = .returned ∧ providers.disposed number = false

/-! ## The order of succession -/

/-- The last of the first `count` objects. -/
def newest : Nat → Option Nat
  | 0 => none
  | count + 1 => some count

structure Sound (providers : Providers) : Prop where
  instance_eq : providers.instance_ = newest providers.made
  unmade_iff : ∀ number, providers.phase number = .unmade ↔ providers.made ≤ number
  displaced_eq : ∀ number, number < providers.made → providers.displaced number = newest number
  succeeds : ∀ number, providers.phase number = .returned →
    ∀ earlier, earlier < number → providers.disposed earlier = true
  given : ∀ number, providers.disposed number = true → providers.phase number = .returned

theorem Sound.new : new.Sound where
  instance_eq := rfl
  unmade_iff _ := ⟨fun _ => Nat.zero_le _, fun _ => rfl⟩
  displaced_eq _ less := absurd less (Nat.not_lt_zero _)
  succeeds _ returned := by cases returned
  given _ disposed := by cases disposed

variable {providers : Providers}

theorem Sound.exchange (sound : providers.Sound) : providers.exchange.Sound := by
  have other : ∀ number, number ≠ providers.made →
      providers.exchange.phase number = providers.phase number :=
    fun number apart => Function.update_of_ne apart _ _
  have own : providers.exchange.phase providers.made = .exchanged := Function.update_self _ _ _
  constructor
  · rfl
  · intro number
    show _ ↔ providers.made + 1 ≤ number
    by_cases same : number = providers.made
    · rw [same, own]
      exact ⟨fun unmade => (nomatch unmade), fun beyond => absurd beyond (by omega)⟩
    · rw [other number same, sound.unmade_iff]
      omega
  · intro number less
    by_cases same : number = providers.made
    · rw [same]
      exact (Function.update_self _ _ _).trans sound.instance_eq
    · have before : number < providers.made := by
        have below : number < providers.made + 1 := less
        omega
      exact (Function.update_of_ne same _ _).trans (sound.displaced_eq number before)
  · intro number returned
    have same : number ≠ providers.made := by
      rintro rfl
      rw [own] at returned
      cases returned
    rw [other number same] at returned
    exact sound.succeeds number returned
  · intro number disposed
    have returned := sound.given number disposed
    have same : number ≠ providers.made := by
      rintro rfl
      rw [(sound.unmade_iff _).mpr (Nat.le_refl _)] at returned
      cases returned
    rw [other number same]
    exact returned

/-- A constructor returns exactly when every object before its own has been given out and
disposed. -/
theorem Sound.undisposed_iff (sound : providers.Sound) {number : Nat}
    (made : number < providers.made) :
    providers.undisposed (providers.displaced number) = false ↔
      ∀ earlier, earlier < number →
        providers.phase earlier = .returned ∧ providers.disposed earlier = true := by
  rw [sound.displaced_eq number made]
  cases number with
  | zero => exact ⟨fun _ earlier less => absurd less (Nat.not_lt_zero _), fun _ => rfl⟩
  | succ before =>
      show (!providers.disposed before) = false ↔ _
      rw [Bool.not_eq_false']
      constructor
      · intro disposed earlier less
        have gone : providers.disposed earlier = true := by
          rcases Nat.lt_or_eq_of_le (Nat.le_of_lt_succ less) with further | rfl
          · exact sound.succeeds before (sound.given before disposed) earlier further
          · exact disposed
        exact ⟨sound.given earlier gone, gone⟩
      · intro all
        exact (all before (Nat.lt_succ_self before)).2

theorem Sound.made_of_exchanged (sound : providers.Sound) {number : Nat}
    (exchanged : providers.phase number = .exchanged) : number < providers.made := by
  by_contra beyond
  rw [(sound.unmade_iff number).mpr (Nat.le_of_not_lt beyond)] at exchanged
  cases exchanged

theorem Sound.settle (sound : providers.Sound) {number : Nat}
    (exchanged : providers.phase number = .exchanged) : (providers.settle number).Sound := by
  have made := sound.made_of_exchanged exchanged
  have own : (providers.settle number).phase number =
      if providers.undisposed (providers.displaced number) then .thrown else .returned :=
    Function.update_self _ _ _
  have other : ∀ another, another ≠ number →
      (providers.settle number).phase another = providers.phase another :=
    fun another apart => Function.update_of_ne apart _ _
  refine ⟨sound.instance_eq, fun another => ?_, sound.displaced_eq, fun another returned => ?_,
    fun another disposed => ?_⟩
  · by_cases same : another = number
    · rw [same, own]
      refine ⟨fun unmade => ?_, fun beyond => absurd made (Nat.not_lt.mpr beyond)⟩
      split at unmade <;> cases unmade
    · rw [other another same]
      exact sound.unmade_iff another
  · by_cases same : another = number
    · rw [same, own] at returned
      cases displaced : providers.undisposed (providers.displaced number) with
      | true =>
          rw [displaced] at returned
          cases returned
      | false =>
          rw [same]
          exact fun earlier less => ((sound.undisposed_iff made).mp displaced earlier less).2
    · rw [other another same] at returned
      exact sound.succeeds another returned
  · have returned := sound.given another disposed
    have same : another ≠ number := by
      rintro rfl
      rw [exchanged] at returned
      cases returned
    rw [other another same]
    exact returned

theorem Sound.dispose (sound : providers.Sound) {number : Nat}
    (returned : providers.phase number = .returned) : (providers.dispose number).Sound := by
  refine ⟨sound.instance_eq, sound.unmade_iff, sound.displaced_eq,
    fun another given earlier less => ?_, fun another disposed => ?_⟩
  · have gone := sound.succeeds another given earlier less
    by_cases same : earlier = number
    · rw [same]
      exact Function.update_self _ _ _
    · exact (Function.update_of_ne same _ _).trans gone
  · by_cases same : another = number
    · rw [same]
      exact returned
    · exact sound.given another ((Function.update_of_ne same _ _).symm.trans disposed)

theorem Sound.step {move : Move} {before after : Providers} (sound : before.Sound)
    (stepped : step move before = some after) : after.Sound := by
  cases move with
  | exchange =>
      cases stepped
      exact sound.exchange
  | check number =>
      simp only [Providers.step, Option.ite_none_right_eq_some, Option.some.injEq] at stepped
      obtain ⟨exchanged, rfl⟩ := stepped
      exact sound.settle exchanged
  | dispose number =>
      simp only [Providers.step, Option.ite_none_right_eq_some, Option.some.injEq] at stepped
      obtain ⟨returned, rfl⟩ := stepped
      exact sound.dispose returned

theorem Sound.run {moves : List Move} {final : Providers}
    (ran : runs Providers.step moves Providers.new = some final) : final.Sound :=
  runs_invariant Sound (fun _ _ _ sound stepped => sound.step stepped) Sound.new ran

/-- Nobody is given an object that was exchanged behind one whose constructor has thrown. -/
theorem Sound.not_returned (sound : providers.Sound) {refused later : Nat}
    (thrown : providers.phase refused = .thrown) (behind : refused ≤ later) :
    providers.phase later ≠ .returned := by
  intro returned
  rcases Nat.lt_or_eq_of_le behind with less | rfl
  · have given := sound.given refused (sound.succeeds later returned refused less)
    rw [thrown] at given
    cases given
  · rw [thrown] at returned
    cases returned

theorem Sound.alive_unique (sound : providers.Sound) {first second : Nat}
    (one : providers.Alive first) (other : providers.Alive second) : first = second := by
  rcases Nat.lt_trichotomy first second with less | same | less
  · exact absurd ((sound.succeeds second other.1 first less).symm.trans one.2) (by decide)
  · exact same
  · exact absurd ((sound.succeeds first one.1 second less).symm.trans other.2) (by decide)

/-- Behind a constructor that has thrown `Instance` never throws; it leads to an object that
nobody was given. -/
theorem Sound.getInstance_of_thrown (sound : providers.Sound) {refused : Nat}
    (thrown : providers.phase refused = .thrown) :
    ∃ last, providers.getInstance = .ok last ∧ refused ≤ last ∧
      providers.phase last ≠ .returned := by
  have made : refused < providers.made := by
    by_contra beyond
    rw [(sound.unmade_iff refused).mpr (Nat.le_of_not_lt beyond)] at thrown
    cases thrown
  obtain ⟨last, count⟩ := Nat.exists_eq_succ_of_ne_zero (Nat.ne_zero_of_lt made)
  have behind : refused ≤ last := by omega
  have kept := sound.not_returned thrown behind
  have alive : providers.disposed last = false := by
    by_contra disposed
    exact kept (sound.given last (Bool.eq_true_of_not_eq_false disposed))
  refine ⟨last, ?_, behind, kept⟩
  have current : providers.instance_ = some last := by
    rw [sound.instance_eq, count]
    rfl
  rw [getInstance, current]
  exact if_neg (by rw [alive]; decide)

theorem Sound.getInstance_disposed_iff (sound : providers.Sound) :
    providers.getInstance = .error .objectDisposed ↔ providers.made ≠ 0 ∧
      ∀ number, number < providers.made →
        providers.phase number = .returned ∧ providers.disposed number = true := by
  cases count : providers.made with
  | zero =>
      have current : providers.instance_ = none := by
        rw [sound.instance_eq, count]
        rfl
      rw [getInstance, current]
      exact ⟨fun failed => (nomatch failed), fun ⟨made, _⟩ => absurd rfl made⟩
  | succ last =>
      have current : providers.instance_ = some last := by
        rw [sound.instance_eq, count]
        rfl
      rw [getInstance, current]
      constructor
      · intro failed
        have disposed : providers.disposed last = true := by
          by_contra alive
          simp only [if_neg alive] at failed
          cases failed
        refine ⟨Nat.succ_ne_zero last, fun number less => ?_⟩
        have gone : providers.disposed number = true := by
          rcases Nat.lt_or_eq_of_le (Nat.le_of_lt_succ less) with earlier | rfl
          · exact sound.succeeds last (sound.given last disposed) number earlier
          · exact disposed
        exact ⟨sound.given number gone, gone⟩
      · rintro ⟨_, all⟩
        exact if_pos (all last (Nat.lt_succ_self last)).2

/-- However constructors and disposals are interleaved: at most one provider that was given
out is alive; a constructor returns exactly when all before it were given out and disposed;
`Instance` is disposed exactly when all are; and once a constructor has thrown, none behind
it returns, and `Instance` leads to an object that nobody was given. -/
theorem run_succession (moves : List Move) (final : Providers)
    (ran : runs step moves new = some final) :
    (∀ first second, final.Alive first → final.Alive second → first = second) ∧
    (∀ number after, step (.check number) final = some after →
      (after.phase number = .returned ↔ ∀ earlier, earlier < number →
        final.phase earlier = .returned ∧ final.disposed earlier = true)) ∧
    (final.getInstance = .error .objectDisposed ↔ final.made ≠ 0 ∧
      ∀ number, number < final.made →
        final.phase number = .returned ∧ final.disposed number = true) ∧
    (∀ refused, final.phase refused = .thrown →
      (∀ later, refused ≤ later → final.phase later ≠ .returned) ∧
      ∃ last, final.getInstance = .ok last ∧ refused ≤ last ∧ final.phase last ≠ .returned) := by
  have sound := Sound.run ran
  refine ⟨fun _ _ => sound.alive_unique, fun number after stepped => ?_,
    sound.getInstance_disposed_iff, fun refused thrown =>
      ⟨fun _ => sound.not_returned thrown, sound.getInstance_of_thrown thrown⟩⟩
  simp only [step, Option.ite_none_right_eq_some, Option.some.injEq] at stepped
  obtain ⟨exchanged, rfl⟩ := stepped
  rw [← sound.undisposed_iff (sound.made_of_exchanged exchanged)]
  have own : (final.settle number).phase number =
      if final.undisposed (final.displaced number) then .thrown else .returned :=
    Function.update_self _ _ _
  rw [own]
  cases final.undisposed (final.displaced number) with
  | true => exact ⟨fun returned => (nomatch returned), fun disposed => (nomatch disposed)⟩
  | false => exact ⟨fun _ => rfl, fun _ => rfl⟩

end Providers

namespace Sample

/-- A second provider is made while the first is disposed; a third one comes in between. -/
def contended : List Move :=
  [.exchange, .check 0, .exchange, .dispose 0, .exchange, .check 2, .check 1]

def contention : Providers := (runs Providers.step contended Providers.new).getD Providers.new

theorem contended_runs : runs Providers.step contended Providers.new = some contention :=
  (Option.getD_of_ne_none (Option.isSome_iff_ne_none.mp (by decide)) _).symm

theorem run_succession_contended :
    contention.Alive 1 ∧ (∀ other, contention.Alive other → other = 1) ∧
      ∃ last, contention.getInstance = .ok last ∧ 2 ≤ last ∧
        contention.phase last ≠ .returned := by
  have alive : contention.Alive 1 := ⟨by decide, by decide⟩
  obtain ⟨unique, _, _, refused⟩ :=
    Providers.run_succession contended contention contended_runs
  exact ⟨alive, fun other here => unique other 1 here alive,
    (refused 2 (by decide)).2⟩

end Sample
end Wsac.Service.ConsoleLoggerProvider
