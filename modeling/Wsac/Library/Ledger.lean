import Mathlib.Data.List.Nodup
import Mathlib.Logic.Function.Basic

/-! # Shared budgets

Each call charges one amount to several accounts in turn and is refused at the
first one that it overdraws; what it has charged until then stays charged.  In
exact integers this is sound: what has been admitted against an account never
exceeds the amount it was opened with, in whatever order calls come and however
many are refused. -/

set_option autoImplicit false

namespace Wsac.Library

universe u
variable {ι : Type u} [DecidableEq ι]

def charge (amount : Int) : List ι → (ι → Int) → (ι → Int) × Bool
  | [], balance => (balance, true)
  | account :: rest, balance =>
      let charged := Function.update balance account (balance account - amount)
      if charged account < 0 then (charged, false) else charge amount rest charged

theorem charge_append (amount : Int) (first second : List ι) (balance : ι → Int) :
    charge amount (first ++ second) balance =
      match charge amount first balance with
      | (charged, false) => (charged, false)
      | (charged, true) => charge amount second charged := by
  induction first generalizing balance with
  | nil => rfl
  | cons account rest ih =>
      simp only [List.cons_append, charge]
      split
      · rfl
      · exact ih _

theorem charge_le {amount : Int} (nonneg : 0 ≤ amount) (accounts : List ι) (balance : ι → Int)
    (account : ι) : (charge amount accounts balance).1 account ≤ balance account := by
  induction accounts generalizing balance with
  | nil => exact Int.le_refl _
  | cons first rest ih =>
      have paid : Function.update balance first (balance first - amount) account ≤
          balance account := by
        by_cases same : account = first
        · subst same
          rw [Function.update_self]
          omega
        · exact Int.le_of_eq (Function.update_of_ne same _ _)
      simp only [charge]
      split
      · exact paid
      · exact Int.le_trans (ih _) paid

/-- An admitted call has charged every account, and overdrawn none. -/
theorem charge_admitted {amount : Int} {accounts : List ι} (distinct : accounts.Nodup)
    {balance : ι → Int} (admitted : (charge amount accounts balance).2 = true) (account : ι) :
    (charge amount accounts balance).1 account =
        balance account - (if account ∈ accounts then amount else 0) ∧
      (account ∈ accounts → 0 ≤ balance account - amount) := by
  induction accounts generalizing balance with
  | nil => simp [charge]
  | cons first rest ih =>
      obtain ⟨outside, distinct⟩ := List.nodup_cons.mp distinct
      simp only [charge] at admitted ⊢
      split at admitted
      · exact absurd admitted (by simp)
      · rename_i covered
        rw [if_neg covered]
        obtain ⟨balanceIs, paid⟩ := ih distinct admitted
        by_cases same : account = first
        · subst same
          rw [Function.update_self] at covered balanceIs
          rw [balanceIs, if_neg outside, if_pos List.mem_cons_self]
          exact ⟨by omega, fun _ => by omega⟩
        · rw [Function.update_of_ne same] at balanceIs paid
          rw [balanceIs]
          have elsewhere : account ∈ first :: rest ↔ account ∈ rest := by simp [same]
          simp only [elsewhere]
          exact ⟨trivial, paid⟩

@[ext]
structure Ledger (ι : Type u) where
  opened : ι → Int
  balance : ι → Int
  /-- The sum of the admitted calls. -/
  admitted : ι → Int

namespace Ledger

def opening (account : ι) (amount : Int) (ledger : Ledger ι) : Ledger ι where
  opened := Function.update ledger.opened account amount
  balance := Function.update ledger.balance account amount
  admitted := Function.update ledger.admitted account 0

def call (amount : Int) (accounts : List ι) (ledger : Ledger ι) : Ledger ι where
  opened := ledger.opened
  balance := (charge amount accounts ledger.balance).1
  admitted := fun account => ledger.admitted account +
    if (charge amount accounts ledger.balance).2 = true ∧ account ∈ accounts then amount else 0

/-- `covered` carries `within` over the calls that are refused. -/
structure Sound (ledger : Ledger ι) : Prop where
  within : ∀ account, ledger.admitted account ≤ ledger.opened account
  covered : ∀ account, ledger.admitted account + ledger.balance account ≤ ledger.opened account

theorem Sound.opening {ledger : Ledger ι} (sound : ledger.Sound) (account : ι) {amount : Int}
    (nonneg : 0 ≤ amount) : (ledger.opening account amount).Sound := by
  constructor
  · intro other
    by_cases same : other = account
    · subst same
      simpa [Ledger.opening] using nonneg
    · simpa [Ledger.opening, same] using sound.within other
  · intro other
    by_cases same : other = account
    · subst same
      simp [Ledger.opening]
    · simpa [Ledger.opening, same] using sound.covered other

theorem Sound.call {ledger : Ledger ι} (sound : ledger.Sound) {amount : Int}
    (nonneg : 0 ≤ amount) {accounts : List ι} (distinct : accounts.Nodup) :
    (ledger.call amount accounts).Sound := by
  have before := sound.covered
  cases admitted : (charge amount accounts ledger.balance).2 with
  | false =>
      have less := charge_le nonneg accounts ledger.balance
      constructor
      · intro account
        simpa [Ledger.call, admitted] using sound.within account
      · intro account
        have paid := less account
        have held := before account
        simp only [Ledger.call, admitted, Bool.false_eq_true, false_and, if_false]
        omega
  | true =>
      have paid := charge_admitted distinct admitted
      constructor
      · intro account
        obtain ⟨_, nonneg'⟩ := paid account
        have held := before account
        have old := sound.within account
        simp only [Ledger.call, admitted, true_and]
        by_cases charged : account ∈ accounts
        · have left := nonneg' charged
          rw [if_pos charged]
          omega
        · rw [if_neg charged]
          omega
      · intro account
        obtain ⟨balanceIs, _⟩ := paid account
        have held := before account
        simp only [Ledger.call, admitted, true_and, balanceIs]
        omega

end Ledger
end Wsac.Library
