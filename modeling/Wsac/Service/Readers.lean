import Wsac.Library.Ledger
import Wsac.Library.Runs
import Wsac.Service.Refusals
import Mathlib.Data.List.Infix

/-! # A tree of readers over one pipe

`CreateChild` may be called on any reader, so the readers of a pipe form a tree
and every budget is shared by all that is created below it.  As long as no counter
wraps, `ShrinkAvailable` charges as a ledger in exact integers does. -/

set_option autoImplicit false

namespace Wsac.Service

open Library Library.Exec

/-- The numbers of the children on the way from the pipe's reader, the last one
first: the tail leads to `_parent`. -/
abbrev Path := List Nat

/-- `ShrinkAvailable` of the reader at a path, on the counters of all readers. -/
def shrinkAvailable (size : Int64) : Path → (Path → Int64) → (Path → Int64) × Bool
  | [], available =>
      (Function.update available [] (available [] - size), decide (¬ available [] - size < 0))
  | number :: parent, available =>
      match shrinkAvailable size parent available with
      | (charged, false) => (charged, false)
      | (charged, true) =>
          (Function.update charged (number :: parent) (charged (number :: parent) - size),
            decide (¬ charged (number :: parent) - size < 0))

/-- The reader at a path, with its ancestors. -/
def chain (available : Path → Int64) : Path → PipeReader
  | [] => .root (available [])
  | number :: parent => .child (available (number :: parent)) (chain available parent)

theorem shrinkAvailable_frame (size : Int64) {path other : Path} (outside : ¬ other <:+ path)
    (available : Path → Int64) :
    (shrinkAvailable size path available).1 other = available other := by
  induction path with
  | nil =>
      have different : other ≠ [] := fun same => outside (same ▸ List.suffix_refl _)
      exact Function.update_of_ne different _ _
  | cons number parent ih =>
      have kept := ih fun inside => outside (inside.trans (List.suffix_cons number parent))
      have different : other ≠ number :: parent := fun same => outside (same ▸ List.suffix_refl _)
      rw [shrinkAvailable]
      cases charged : shrinkAvailable size parent available with
      | mk counters within =>
          rw [charged] at kept
          cases within with
          | false => exact kept
          | true => exact (Function.update_of_ne different _ _).trans kept

theorem chain_congr {first second : Path → Int64} {path : Path}
    (same : ∀ other, other <:+ path → first other = second other) :
    chain first path = chain second path := by
  induction path with
  | nil => rw [chain, chain, same [] (List.suffix_refl _)]
  | cons number parent ih =>
      rw [chain, chain, same _ (List.suffix_refl _),
        ih fun other inside => same other (inside.trans (List.suffix_cons number parent))]

theorem not_cons_suffix (number : Nat) (parent : Path) : ¬ number :: parent <:+ parent := by
  intro inside
  have length := inside.length_le
  simp at length

/-- On the way to its root, a reader of the tree charges as a reader of a session does. -/
theorem chain_shrinkAvailable (size : Int64) (path : Path) (available : Path → Int64) :
    (chain available path).shrinkAvailable size =
      (chain (shrinkAvailable size path available).1 path,
        (shrinkAvailable size path available).2) := by
  induction path with
  | nil => simp [chain, shrinkAvailable, PipeReader.shrinkAvailable]
  | cons number parent ih =>
      have kept := shrinkAvailable_frame size (not_cons_suffix number parent) available
      rw [chain, PipeReader.shrinkAvailable, ih, shrinkAvailable]
      cases charged : shrinkAvailable size parent available with
      | mk counters within =>
          rw [charged] at kept
          simp only at kept
          cases within with
          | false => simp only [chain, kept]
          | true =>
              have above : chain (Function.update counters (number :: parent)
                  (counters (number :: parent) - size)) parent = chain counters parent := by
                apply chain_congr
                intro other inside
                apply Function.update_of_ne
                rintro rfl
                exact not_cons_suffix number parent inside
              rw [kept] at above
              simp only [chain, Function.update_self, kept, above]

/-- A call of a session on the reader at a path, on the counters of the tree. -/
theorem perform_chain (client : Client) (call : Call) (taking : ∀ size, call ≠ .createChild size)
    (path : Path) (available : Path → Int64) (world : World)
    (reader : world.reader = chain available path) :
    (finalState ((call.perform client).run world)).reader =
        chain (shrinkAvailable call.size path available).1 path ∧
      ((∃ after, (call.perform client).run world = .error .application after) ↔
        (shrinkAvailable call.size path available).2 = false) := by
  have performed := call.perform_reader client taking world
  rw [reader, chain_shrinkAvailable] at performed
  exact performed

/-! ## The counters as a ledger -/

/-- The readers that a call at a path charges, in that order. -/
def accounts (path : Path) : List Path := path.tails.reverse

theorem mem_accounts {path other : Path} : other ∈ accounts path ↔ other <:+ path := by
  rw [accounts, List.mem_reverse, List.mem_tails]

theorem accounts_cons (number : Nat) (parent : Path) :
    accounts (number :: parent) = accounts parent ++ [number :: parent] := by
  rw [accounts, List.tails_cons, List.reverse_cons]
  rfl

theorem accounts_nodup (path : Path) : (accounts path).Nodup := by
  induction path with
  | nil => simp [accounts]
  | cons number parent ih =>
      rw [accounts_cons, List.nodup_append]
      refine ⟨ih, List.nodup_singleton _, fun other inside last member same => ?_⟩
      rw [List.mem_singleton.mp member] at same
      rw [same, mem_accounts] at inside
      exact not_cons_suffix number parent inside

/-- The counters in exact integers. -/
def balances (available : Path → Int64) (path : Path) : Int := (available path).toInt

/-- The subtraction does not wrap in any reader whose ancestors have the bytes. -/
def Tame (size : Int64) (path : Path) (available : Path → Int64) : Prop :=
  ∀ reader, reader <:+ path →
    (∀ ancestor, ancestor <:+ reader → ancestor ≠ reader →
      size.toInt ≤ (available ancestor).toInt) →
    -2 ^ 63 ≤ (available reader).toInt - size.toInt

theorem sub_toInt {available size : Int64} (nonneg : 0 ≤ size.toInt)
    (tame : -2 ^ 63 ≤ available.toInt - size.toInt) :
    (available - size).toInt = available.toInt - size.toInt := by
  have upper := available.toInt_lt
  rw [Int64.toInt_sub]
  apply Int.bmod_eq_of_le <;> omega

theorem balances_update (available : Path → Int64) (path : Path) (value : Int64) :
    balances (Function.update available path value) =
      Function.update (balances available) path value.toInt := by
  funext other
  by_cases same : other = path
  · subst same
    simp [balances]
  · simp [balances, same]

/-- Without wrapping, `ShrinkAvailable` is a call on the ledger. -/
theorem shrinkAvailable_charge {size : Int64} (nonneg : 0 ≤ size.toInt) {path : Path}
    {available : Path → Int64} (tame : Tame size path available) :
    charge size.toInt (accounts path) (balances available) =
      (balances (shrinkAvailable size path available).1,
        (shrinkAvailable size path available).2) := by
  have one : ∀ (counters : Path → Int64) (reader : Path),
      -2 ^ 63 ≤ (counters reader).toInt - size.toInt →
      charge size.toInt [reader] (balances counters) =
        (balances (Function.update counters reader (counters reader - size)),
          decide (¬ counters reader - size < 0)) := by
    intro counters reader bounded
    have exact_ := sub_toInt nonneg bounded
    have sign : counters reader - size < 0 ↔ (counters reader).toInt - size.toInt < 0 := by
      rw [Int64.lt_iff_toInt_lt, exact_]
      rfl
    rw [balances_update, exact_]
    simp only [charge, Function.update_self, sign]
    split
    · simp_all [balances]
    · simp_all [balances]
  induction path with
  | nil => exact one available [] (tame [] (List.suffix_refl _) (by simp))
  | cons number parent ih =>
      have inner : Tame size parent available := fun reader inside =>
        tame reader (inside.trans (List.suffix_cons number parent))
      have kept := shrinkAvailable_frame size (not_cons_suffix number parent) available
      have above := ih inner
      rw [accounts_cons, charge_append, above, shrinkAvailable]
      cases charged : shrinkAvailable size parent available with
      | mk counters within =>
          rw [charged] at kept above
          simp only at kept
          cases within with
          | false => rfl
          | true =>
              apply one
              show -2 ^ 63 ≤ (counters (number :: parent)).toInt - size.toInt
              rw [kept]
              apply tame _ (List.suffix_refl _)
              intro ancestor inside different
              have strict : ancestor <:+ parent := by
                rcases List.suffix_cons_iff.mp inside with same | inside
                · exact absurd same different
                · exact inside
              have paid := (charge_admitted (accounts_nodup parent)
                (congrArg Prod.snd above) ancestor).2 (mem_accounts.mpr strict)
              unfold balances at paid
              omega

/-! ## Runs -/

structure Readers where
  /-- `Available` at the creation of a reader; nothing where none has been made. -/
  created : Path → Option Int64
  available : Path → Int64
  parent_made : ∀ number parent, (created (number :: parent)).isSome = true →
    (created parent).isSome = true

def Readers.Made (readers : Readers) (path : Path) : Prop :=
  (readers.created path).isSome = true

instance (readers : Readers) (path : Path) : Decidable (readers.Made path) :=
  inferInstanceAs (Decidable (_ = true))

theorem Readers.made_of_suffix (readers : Readers) {path other : Path} (inside : other <:+ path)
    (made : readers.Made path) : readers.Made other := by
  induction path with
  | nil =>
      rw [List.suffix_nil.mp inside]
      exact made
  | cons number parent ih =>
      rcases List.suffix_cons_iff.mp inside with rfl | inside
      · exact made
      · exact ih inside (readers.parent_made number parent made)

/-- The reader that the thread makes for the pipe. -/
def Readers.new : Readers where
  created := fun path => if path = [] then some Int64.maxValue else none
  available := fun path => if path = [] then Int64.maxValue else 0
  parent_made := fun number parent made => by simp at made

def Readers.addChild (readers : Readers) (number : Nat) (parent : Path) (size : Int64)
    (made : readers.Made parent) : Readers where
  created := Function.update readers.created (number :: parent) (some size)
  available := Function.update readers.available (number :: parent) size
  parent_made := by
    intro number' parent' isMade
    by_cases itself : parent' = number :: parent
    · rw [itself, Function.update_self]
      rfl
    · rw [Function.update_of_ne itself]
      by_cases last : number' :: parent' = number :: parent
      · cases last
        exact made
      · rw [Function.update_of_ne last] at isMade
        exact readers.parent_made number' parent' isMade

theorem Readers.made_addChild {readers : Readers} {number : Nat} {parent path : Path} {size : Int64}
    {made : readers.Made parent} :
    (readers.addChild number parent size made).Made path ↔
      path = number :: parent ∨ readers.Made path := by
  unfold Readers.Made Readers.addChild
  by_cases same : path = number :: parent
  · subst same
    simp
  · simp [same]

/-- The readers, and the calls they have admitted. -/
structure Usage where
  readers : Readers
  admitted : List (Path × Int64)
  made : ∀ call ∈ admitted, readers.Made call.1

namespace Usage

def start : Usage := ⟨Readers.new, [], by simp⟩

def addChild (usage : Usage) (number : Nat) (parent : Path) (size : Int64)
    (made : usage.readers.Made parent) : Usage where
  readers := usage.readers.addChild number parent size made
  admitted := usage.admitted
  made := fun call member => Readers.made_addChild.mpr (Or.inr (usage.made call member))

def charged (usage : Usage) (available : Path → Int64) : Usage :=
  { usage with readers := { usage.readers with available } }

def record (usage : Usage) (path : Path) (size : Int64) (made : usage.readers.Made path) :
    Usage where
  readers := usage.readers
  admitted := usage.admitted ++ [(path, size)]
  made := fun call member => by
    rcases List.mem_append.mp member with old | last
    · exact usage.made call old
    · rw [List.mem_singleton.mp last]
      exact made

/-- The bytes of all calls admitted by a reader and by those below it. -/
def total (usage : Usage) (path : Path) : Int :=
  ((usage.admitted.filter fun call => path <:+ call.1).map fun call => call.2.toInt).sum

end Usage

inductive Move where
  /-- `CreateChild` on the reader at `parent`. -/
  | createChild (number : Nat) (parent : Path) (size : Int64) (nonneg : 0 ≤ size.toInt)
  /-- `Read`, `ReadAsync` or `SkipAsync` on the reader at `path`. -/
  | take (path : Path) (size : Int64) (nonneg : 0 ≤ size.toInt)

/-- A move on readers that exist; a call that throws is a move too. -/
def step : Move → Usage → Option Usage
  | .createChild number parent size _, usage =>
      if made : usage.readers.Made parent then
        if usage.readers.Made (number :: parent) then none
        else if usage.readers.available parent < size then some usage
        else some (usage.addChild number parent size made)
      else none
  | .take path size _, usage =>
      if made : usage.readers.Made path then
        let charged := usage.charged (shrinkAvailable size path usage.readers.available).1
        if (shrinkAvailable size path usage.readers.available).2 = true then
          some (charged.record path size made)
        else some charged
      else none

/-- No counter wraps in this move. -/
def Move.Tame : Move → Usage → Prop
  | .createChild _ _ _ _, _ => True
  | .take path size _, usage => Service.Tame size path usage.readers.available

namespace Usage

/-- The ledger of the readers; nothing is opened where there is none. -/
def ledger (usage : Usage) : Ledger Path where
  opened := fun path => ((usage.readers.created path).getD 0).toInt
  balance := balances usage.readers.available
  admitted := usage.total

theorem total_record (usage : Usage) {path : Path} {size : Int64} (made : usage.readers.Made path)
    (other : Path) :
    (usage.record path size made).total other =
      usage.total other + if other ∈ accounts path then size.toInt else 0 := by
  unfold total record
  rw [List.filter_append, List.map_append, List.sum_append]
  by_cases inside : other <:+ path
  · simp [inside, mem_accounts]
  · simp [inside, mem_accounts]

theorem total_fresh (usage : Usage) {path : Path} (fresh : ¬ usage.readers.Made path) :
    usage.total path = 0 := by
  have none_ : (usage.admitted.filter fun call => path <:+ call.1) = [] := by
    apply List.filter_eq_nil_iff.mpr
    intro call member inside
    exact fresh (usage.readers.made_of_suffix (of_decide_eq_true inside) (usage.made call member))
  rw [total, none_]
  rfl

theorem ledger_addChild (usage : Usage) {number : Nat} {parent : Path} {size : Int64}
    (made : usage.readers.Made parent) (fresh : ¬ usage.readers.Made (number :: parent)) :
    (usage.addChild number parent size made).ledger =
      usage.ledger.opening (number :: parent) size.toInt := by
  apply Ledger.ext
  · funext path
    by_cases same : path = number :: parent
    · subst same
      simp [ledger, Ledger.opening, addChild, Readers.addChild]
    · simp [ledger, Ledger.opening, addChild, Readers.addChild, same]
  · exact balances_update _ _ _
  · funext path
    by_cases same : path = number :: parent
    · subst same
      show usage.total (number :: parent) = Function.update usage.total (number :: parent) 0 _
      rw [Function.update_self, usage.total_fresh fresh]
    · show usage.total path = Function.update usage.total (number :: parent) 0 path
      rw [Function.update_of_ne same]

/-- One move on the readers: a child is opened, an amount is called, or nothing happens. -/
theorem step_ledger {move : Move} {before after : Usage} (stepped : step move before = some after)
    (tame : move.Tame before) :
    after = before ∨
      (∃ path amount, 0 ≤ amount ∧ after.ledger = before.ledger.opening path amount) ∨
      ∃ path amount, 0 ≤ amount ∧ after.ledger = before.ledger.call amount (accounts path) := by
  cases move with
  | createChild number parent size nonneg =>
      simp only [step] at stepped
      split at stepped
      · rename_i made
        split at stepped
        · cases stepped
        · rename_i fresh
          split at stepped
          · cases stepped
            exact Or.inl rfl
          · cases stepped
            exact Or.inr (Or.inl ⟨_, _, nonneg, before.ledger_addChild made fresh⟩)
      · cases stepped
  | take path size nonneg =>
      have charged := shrinkAvailable_charge nonneg tame
      refine Or.inr (Or.inr ⟨path, size.toInt, nonneg, ?_⟩)
      simp only [step] at stepped
      split at stepped
      · rename_i made
        split at stepped
        · rename_i admitted
          cases stepped
          apply Ledger.ext
          · rfl
          · exact (congrArg Prod.fst charged).symm
          · funext other
            simp only [ledger, Ledger.call, charged, admitted, true_and]
            exact total_record _ _ other
        · rename_i refused
          cases stepped
          apply Ledger.ext
          · rfl
          · exact (congrArg Prod.fst charged).symm
          · funext other
            simp only [ledger, Ledger.call, charged, refused, Bool.false_eq_true, false_and,
              if_false, Int.add_zero]
            rfl
      · cases stepped

theorem start_sound : start.ledger.Sound := by
  have total : ∀ path, start.total path = 0 := fun path => rfl
  constructor
  · intro path
    show start.total path ≤ ((Readers.new.created path).getD 0).toInt
    rw [total]
    by_cases root : path = []
    · subst root
      decide
    · simp [Readers.new, root]
  · intro path
    show start.total path + (Readers.new.available path).toInt ≤
      ((Readers.new.created path).getD 0).toInt
    rw [total]
    by_cases root : path = []
    · subst root
      decide
    · simp [Readers.new, root]

theorem step_sound {move : Move} {before after : Usage} (sound : before.ledger.Sound)
    (stepped : step move before = some after) (tame : move.Tame before) : after.ledger.Sound := by
  rcases step_ledger stepped tame with rfl | ⟨path, amount, nonneg, opens⟩ |
    ⟨path, amount, nonneg, calls⟩
  · exact sound
  · rw [opens]
    exact sound.opening path nonneg
  · rw [calls]
    exact sound.call nonneg (accounts_nodup path)

/-- In a run in which no counter wraps, no reader admits more than it was created with. -/
theorem total_le_created (moves : List Move) (final : Usage)
    (ran : runs step moves start = some final) (tame : Along step Move.Tame moves start)
    (path : Path) (size : Int64) (created : final.readers.created path = some size) :
    final.total path ≤ size.toInt := by
  have sound := runs_invariant_along (fun usage => usage.ledger.Sound)
    (fun move before after => step_sound) start_sound ran tame
  have within := sound.within path
  simp only [ledger, created, Option.getD_some] at within
  exact within

end Usage

namespace Sample

/-- A skip of all the bytes that the pipe's reader has to give. -/
def takeAll : Move := .take [] Int64.maxValue (by decide)

theorem total_le_created_once :
    ∃ final, runs step [takeAll] Usage.start = some final ∧
      final.total [] ≤ Int64.maxValue.toInt := by
  have tame : takeAll.Tame Usage.start := by
    intro reader inside _
    rw [List.suffix_nil.mp inside]
    decide
  refine ⟨_, rfl, ?_⟩
  exact Usage.total_le_created [takeAll] _ rfl ⟨tame, fun _ _ => trivial⟩ [] _ rfl

/-- The second of three such skips is refused and leaves the counter at `1 - 2 ^ 63`;
the third one wraps it to 2 and is admitted. -/
theorem third_skip_admitted :
    ¬ ∀ (moves : List Move) (final : Usage), runs step moves Usage.start = some final →
      ∀ path size, final.readers.created path = some size → final.total path ≤ size.toInt := by
  intro claimed
  have within := claimed [takeAll, takeAll, takeAll] _ rfl [] _ rfl
  exact absurd within (by decide +kernel)

end Sample
end Wsac.Service
