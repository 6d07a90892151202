import Wsac.Library.Runs

/-! # A handshake of two parties by one kind of token

A party is idle or ready.  A party that loses the thread turns idle and asks
with a token.  A token makes an idle party ready; a ready one answers it with
another.  Deliveries keep the `excess` of tokens over idle parties: it decides
where the exchange comes to rest, and whether it does. -/

set_option autoImplicit false

namespace Wsac.Library

universe u v

inductive Party where
  | left
  | right
deriving DecidableEq

structure Handshake where
  leftIdle : Bool
  rightIdle : Bool
  toLeft : Nat
  toRight : Nat
deriving DecidableEq

/-- A party that receives nothing but tokens: the first makes it ready, and it answers each of
the others. -/
theorem foldl_tokens {σ : Type u} {α : Type v} {step : σ × Nat → α → σ × Nat} {idle ready : σ}
    (items : List α) (wakes : ∀ item ∈ items, ∀ count, step (idle, count) item = (ready, count))
    (answers : ∀ item ∈ items, ∀ count, step (ready, count) item = (ready, count + 1)) :
    items.foldl step (idle, 0) = (if items = [] then idle else ready, items.length - 1) := by
  have awake : ∀ (items : List α) (count : Nat),
      (∀ item ∈ items, ∀ count, step (ready, count) item = (ready, count + 1)) →
      items.foldl step (ready, count) = (ready, count + items.length) := by
    intro items
    induction items with
    | nil => intro count _; rfl
    | cons item rest ih =>
        intro count answers
        rw [List.foldl_cons, answers item List.mem_cons_self,
          ih _ fun other member => answers other (List.mem_cons_of_mem _ member),
          List.length_cons, Nat.add_assoc, Nat.add_comm 1]
  cases items with
  | nil => rfl
  | cons item rest =>
      rw [List.foldl_cons, wakes item List.mem_cons_self,
        awake rest 0 fun other member => answers other (List.mem_cons_of_mem _ member),
        if_neg (List.cons_ne_nil _ _), List.length_cons, Nat.zero_add, Nat.add_sub_cancel]

namespace Handshake

def idle (shake : Handshake) : Party → Bool
  | .left => shake.leftIdle
  | .right => shake.rightIdle

def ask : Party → Handshake → Handshake
  | .left, shake => { shake with leftIdle := true, toRight := shake.toRight + 1 }
  | .right, shake => { shake with rightIdle := true, toLeft := shake.toLeft + 1 }

def deliver : Party → Handshake → Option Handshake
  | .left, ⟨_, _, 0, _⟩ => none
  | .left, ⟨true, rightIdle, rest + 1, toRight⟩ => some ⟨false, rightIdle, rest, toRight⟩
  | .left, ⟨false, rightIdle, rest + 1, toRight⟩ => some ⟨false, rightIdle, rest, toRight + 1⟩
  | .right, ⟨_, _, _, 0⟩ => none
  | .right, ⟨leftIdle, true, toLeft, rest + 1⟩ => some ⟨leftIdle, false, toLeft, rest⟩
  | .right, ⟨leftIdle, false, toLeft, rest + 1⟩ => some ⟨leftIdle, false, toLeft + 1, rest⟩

def Delivers (before after : Handshake) : Prop := ∃ party, deliver party before = some after

def inFlight (shake : Handshake) : Nat := shake.toLeft + shake.toRight

def idles (shake : Handshake) : Nat := shake.leftIdle.toNat + shake.rightIdle.toNat

def excess (shake : Handshake) : Int := (shake.inFlight : Int) - shake.idles

/-- The deliveries still to come, where tokens are no more than idle parties: a
token for a ready party is answered once. -/
def potential (shake : Handshake) : Nat :=
  (shake.idles - 1) + shake.toLeft * (if shake.leftIdle then 1 else 2) +
    shake.toRight * (if shake.rightIdle then 1 else 2)

theorem ask_excess (party : Party) (shake : Handshake) :
    (ask party shake).excess = shake.excess + if shake.idle party then 1 else 0 := by
  obtain ⟨leftIdle, rightIdle, toLeft, toRight⟩ := shake
  cases party with
  | left => cases leftIdle <;> simp [ask, excess, inFlight, idles, idle] <;> omega
  | right => cases rightIdle <;> simp [ask, excess, inFlight, idles, idle] <;> omega

theorem deliver_excess {party : Party} {before after : Handshake}
    (delivered : deliver party before = some after) : after.excess = before.excess := by
  obtain ⟨leftIdle, rightIdle, toLeft, toRight⟩ := before
  cases party with
  | left =>
      cases toLeft with
      | zero => cases delivered
      | succ rest =>
          cases leftIdle <;> cases delivered <;> simp [excess, inFlight, idles] <;> omega
  | right =>
      cases toRight with
      | zero => cases delivered
      | succ rest =>
          cases rightIdle <;> cases delivered <;> simp [excess, inFlight, idles] <;> omega

theorem deliver_potential {party : Party} {before after : Handshake}
    (calm : before.excess ≤ 0) (delivered : deliver party before = some after) :
    after.potential < before.potential := by
  obtain ⟨leftIdle, rightIdle, toLeft, toRight⟩ := before
  simp only [excess, inFlight, idles] at calm
  cases party with
  | left =>
      cases toLeft with
      | zero => cases delivered
      | succ rest =>
          cases leftIdle <;> cases rightIdle <;> cases delivered <;>
            simp [potential, idles] at calm ⊢ <;> omega
  | right =>
      cases toRight with
      | zero => cases delivered
      | succ rest =>
          cases leftIdle <;> cases rightIdle <;> cases delivered <;>
            simp [potential, idles] at calm ⊢ <;> omega

theorem potential_le {shake : Handshake} (calm : shake.excess ≤ 0) : shake.potential ≤ 3 := by
  obtain ⟨leftIdle, rightIdle, toLeft, toRight⟩ := shake
  cases leftIdle <;> cases rightIdle <;>
    simp [excess, inFlight, idles, potential] at calm ⊢ <;> omega

theorem exists_deliver {shake : Handshake} (tokens : 0 < shake.inFlight) :
    ∃ party after, deliver party shake = some after := by
  obtain ⟨leftIdle, rightIdle, toLeft, toRight⟩ := shake
  cases toLeft with
  | succ rest => cases leftIdle <;> exact ⟨.left, _, rfl⟩
  | zero =>
      cases toRight with
      | succ rest => cases rightIdle <;> exact ⟨.right, _, rfl⟩
      | zero => exact absurd tokens (by simp [inFlight])

/-- With more tokens than idle parties one is always in flight. -/
theorem exists_deliver_of_excess {shake : Handshake} (excess : 0 < shake.excess) :
    ∃ party after, deliver party shake = some after ∧ 0 < after.excess := by
  have tokens : 0 < shake.inFlight := by
    unfold Handshake.excess at excess
    omega
  obtain ⟨party, after, delivered⟩ := exists_deliver tokens
  exact ⟨party, after, delivered, by rwa [deliver_excess delivered]⟩

/-- The exchange dies out exactly when no token is in excess. -/
theorem not_chain_iff (shake : Handshake) : ¬ Chain Delivers shake ↔ shake.excess ≤ 0 := by
  constructor
  · intro finite
    by_contra excess
    apply finite
    refine Chain.of_progress (fun shake => 0 < shake.excess) ?_ (by omega)
    intro before held
    obtain ⟨party, after, delivered, kept⟩ := exists_deliver_of_excess held
    exact ⟨after, ⟨party, delivered⟩, kept⟩
  · intro calm
    refine not_chain_of_measure (fun shake => shake.excess ≤ 0) potential ?_ calm
    rintro before after held ⟨party, delivered⟩
    exact ⟨by rwa [deliver_excess delivered], deliver_potential held delivered⟩

end Handshake
end Wsac.Library
