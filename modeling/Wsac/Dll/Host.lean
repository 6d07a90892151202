import Wsac.Dll.Teardown
import Wsac.Library.Registry

/-! # `Host` and `DllMain`: who deletes the components

`Enable` adds three components to the static host, each behind the constructor of its
type; a constructor that throws ends it, and the caller may try again.  `Add` assigns into
a map under the type's name, and `~Host` deletes what the map holds. -/

set_option autoImplicit false

namespace Wsac.Dll

open Library Library.Exec

structure Host where
  /-- `_registered`: the object each type's name leads to. -/
  registered : Component → Option Nat
  stopRequested : Bool
  disposed : Bool
  /-- The types of the objects made so far, which are numbered in this order. -/
  made : List Component
  /-- What `delete` has been called on. -/
  deleted : List Nat

def Host.fresh : Host := ⟨fun _ => none, false, false, [], []⟩

/-- An exception of a constructor, by the type under construction. -/
abbrev Init := EStateM Component Host

/-- Which constructors complete in one call of `Enable`. -/
abbrev Attempt := Component → Bool

namespace Host

/-- `new T` puts an object into the world, and the assignment forgets the one before it. -/
def register (host : Host) (component : Component) : Host :=
  { host with
    registered := Function.update host.registered component (some host.made.length)
    made := host.made ++ [component] }

def add (attempt : Attempt) (component : Component) : Init Unit :=
  if attempt component then modify fun host => host.register component else throw component

/-- The loop of `~Host` over the values of the map. -/
def deleteAll : List Component → Init Unit
  | [] => pure ()
  | component :: rest => do
      modify fun host =>
        { host with deleted := host.deleted ++ (host.registered component).toList }
      deleteAll rest

/-- `~Host`, with the keys of the map in the order in which it iterates. -/
def destroy (order : List Component) : Init Unit := do
  let host ← get
  if host.disposed then pure ()
  else
    modify fun host => { host with disposed := true, stopRequested := true }
    deleteAll order

end Host

/-- The body of the `try` in `Enable`. -/
def addComponents (attempt : Attempt) : Init Bool := do
  Host.add attempt .state
  Host.add attempt .comm
  Host.add attempt .session
  pure true

/-- `Enable` -/
def enable (attempt : Attempt) : Init Bool :=
  tryCatch (addComponents attempt) fun _ => pure false

/-- `Disable` -/
def disable (order : List Component) : Init Unit := Host.destroy order

/-- Calls of `Enable`, whatever each of them returns. -/
def enables : List Attempt → Init Unit
  | [] => pure ()
  | attempt :: rest => do
      let _ ← enable attempt
      enables rest

def history (attempts : List Attempt) (order : List Component) : Init Unit := do
  enables attempts
  disable order

/-- Every object made has been deleted exactly once. -/
def Host.DisposedOnce (host : Host) : Prop :=
  ∀ object, object < host.made.length → host.deleted.count object = 1

/-- The map iterates over every key once. -/
structure Iteration where
  order : List Component
  distinct : order.Nodup
  complete : ∀ component, component ∈ order

/-! ## What a call does -/

/-- What one call of `Enable` adds. -/
def Attempt.added (attempt : Attempt) : List Component :=
  [Component.state, .comm, .session].takeWhile attempt

def Host.registerAll (host : Host) (components : List Component) : Host :=
  components.foldl Host.register host

theorem Host.add_completes {attempt : Attempt} {component : Component}
    (completes : attempt component = true) (host : Host) :
    (Host.add attempt component).run host = .ok () (host.register component) := by
  rw [Host.add, if_pos completes]
  rfl

theorem Host.add_throws {attempt : Attempt} {component : Component}
    (throws : attempt component = false) (host : Host) :
    (Host.add attempt component).run host = .error component host := by
  rw [Host.add, if_neg (by simp [throws])]
  rfl

theorem enable_run (attempt : Attempt) (host : Host) :
    (enable attempt).run host =
      .ok (attempt .state && attempt .comm && attempt .session)
        (host.registerAll attempt.added) := by
  cases state : attempt .state with
  | false =>
      have thrown : (addComponents attempt).run host = .error .state host :=
        run_bind_error (Host.add_throws state host)
      rw [enable, run_tryCatch_error thrown]
      simp [Attempt.added, Host.registerAll, state]
  | true =>
      have first := Host.add_completes state host
      cases comm : attempt .comm with
      | false =>
          have thrown : (addComponents attempt).run host = .error .comm (host.register .state) := by
            rw [addComponents, run_bind_ok first, run_bind_error (Host.add_throws comm _)]
          rw [enable, run_tryCatch_error thrown]
          simp [Attempt.added, Host.registerAll, state, comm]
      | true =>
          have second := Host.add_completes comm (host.register .state)
          cases session : attempt .session with
          | false =>
              have thrown : (addComponents attempt).run host =
                  .error .session ((host.register .state).register .comm) := by
                rw [addComponents, run_bind_ok first, run_bind_ok second,
                  run_bind_error (Host.add_throws session _)]
              rw [enable, run_tryCatch_error thrown]
              simp [Attempt.added, Host.registerAll, state, comm, session]
          | true =>
              have ran : (addComponents attempt).run host =
                  .ok true (((host.register .state).register .comm).register .session) := by
                rw [addComponents, run_bind_ok first, run_bind_ok second,
                  run_bind_ok (Host.add_completes session _)]
                rfl
              rw [enable, run_tryCatch_ok ran]
              simp [Attempt.added, Host.registerAll, state, comm, session]

theorem enables_run (attempts : List Attempt) : ∀ host : Host,
    (enables attempts).run host =
      .ok () (host.registerAll (attempts.flatMap Attempt.added)) := by
  induction attempts with
  | nil => intro host; rfl
  | cons attempt rest ih =>
      intro host
      rw [enables, run_bind_ok (enable_run attempt host), ih, List.flatMap_cons,
        Host.registerAll, Host.registerAll, Host.registerAll, List.foldl_append]

theorem Host.deleteAll_run (order : List Component) : ∀ host : Host,
    (Host.deleteAll order).run host =
      .ok () { host with deleted := host.deleted ++ order.filterMap host.registered } := by
  induction order with
  | nil => intro host; rw [List.filterMap_nil, List.append_nil]; rfl
  | cons component rest ih =>
      intro host
      have first : (modify fun host : Host =>
          { host with deleted := host.deleted ++ (host.registered component).toList } :
            Init Unit).run host =
          .ok () { host with deleted := host.deleted ++ (host.registered component).toList } := rfl
      rw [Host.deleteAll, run_bind_ok first, ih, List.append_assoc]
      cases held : host.registered component with
      | none => rw [List.filterMap_cons_none held]; rfl
      | some object => rw [List.filterMap_cons_some held]; rfl

/-- "dispose twice is intended": only the first destructor call deletes. -/
theorem Host.destroy_run (order : List Component) (host : Host) :
    (Host.destroy order).run host =
      if host.disposed then .ok () host
      else .ok () { host with
        disposed := true
        stopRequested := true
        deleted := host.deleted ++ order.filterMap host.registered } := by
  rw [Host.destroy, run_get_bind]
  cases disposed : host.disposed with
  | true => rfl
  | false => exact Host.deleteAll_run order { host with disposed := true, stopRequested := true }

/-! ## What is registered is what is alive -/

def Host.registry (host : Host) : Registry Component := ⟨host.registered, host.made⟩

theorem Host.register_registry (host : Host) (component : Component) :
    (host.register component).registry = host.registry.add component := rfl

/-- Before `Disable` nothing is deleted, and every type leads to its latest object. -/
structure Host.Alive (host : Host) : Prop where
  last : host.registry.Last
  kept : host.deleted = []
  enabled : host.disposed = false

theorem Host.Alive.fresh : Host.fresh.Alive := ⟨Registry.Last.empty, rfl, rfl⟩

theorem Host.Alive.registerAll (components : List Component) : ∀ {host : Host}, host.Alive →
    (host.registerAll components).Alive ∧
      (host.registerAll components).made = host.made ++ components := by
  induction components with
  | nil => intro host alive; exact ⟨alive, (List.append_nil _).symm⟩
  | cons component rest ih =>
      intro host alive
      have last := alive.last.add component
      rw [← Host.register_registry] at last
      have next : (host.register component).Alive := ⟨last, alive.kept, alive.enabled⟩
      obtain ⟨aliveRest, made⟩ := ih next
      refine ⟨aliveRest, made.trans ?_⟩
      rw [Host.register, List.append_assoc, List.singleton_append]

/-- Behind the calls of `Enable` and one `Disable`. -/
theorem history_run (attempts : List Attempt) (order : List Component) :
    ∃ host : Host, host.Alive ∧ host.made = attempts.flatMap Attempt.added ∧
      (history attempts order).run Host.fresh =
        .ok () { host with
          disposed := true
          stopRequested := true
          deleted := host.registry.values order } := by
  obtain ⟨alive, made⟩ := Host.Alive.fresh.registerAll (attempts.flatMap Attempt.added)
  refine ⟨_, alive, made, ?_⟩
  rw [history, run_bind_ok (enables_run attempts Host.fresh), disable, Host.destroy_run,
    if_neg (by simp [alive.enabled]), alive.kept, List.nil_append]
  rfl

/-- Nothing is ever deleted twice, however often `Enable` is called. -/
theorem history_deleted_nodup (attempts : List Attempt) (iteration : Iteration) :
    (finalState ((history attempts iteration.order).run Host.fresh)).deleted.Nodup := by
  obtain ⟨host, alive, _, ran⟩ := history_run attempts iteration.order
  rw [ran]
  exact alive.last.values_nodup iteration.distinct

/-- The destructor that runs when the process ends finds the host disposed. -/
theorem Host.destroy_again (first second : List Component) (host : Host) :
    (do Host.destroy first; Host.destroy second : Init Unit).run host =
      (Host.destroy first).run host := by
  cases disposed : host.disposed with
  | true =>
      have idle : ∀ order, (Host.destroy order).run host = .ok () host := by
        intro order
        rw [Host.destroy_run, if_pos disposed]
      rw [run_bind_ok (idle first), idle second, idle first]
  | false =>
      have ran := Host.destroy_run first host
      rw [if_neg (by simp [disposed])] at ran
      rw [run_bind_ok ran, Host.destroy_run, if_pos rfl, ran]

/-! ## When a type is added twice -/

/-- The first of the three is added whenever any is. -/
theorem Attempt.added_count_le (attempt : Attempt) (component : Component) :
    attempt.added.count component ≤ attempt.added.count .state := by
  cases component <;> cases state : attempt .state <;> cases comm : attempt .comm <;>
    cases session : attempt .session <;> simp [Attempt.added, state, comm, session]

theorem Attempt.added_count_state (attempt : Attempt) :
    attempt.added.count .state = if attempt .state then 1 else 0 := by
  cases state : attempt .state <;> cases comm : attempt .comm <;>
    cases session : attempt .session <;> simp [Attempt.added, state, comm, session]

theorem added_count_le (attempts : List Attempt) (component : Component) :
    (attempts.flatMap Attempt.added).count component ≤
      (attempts.flatMap Attempt.added).count .state := by
  induction attempts with
  | nil => exact Nat.le_refl 0
  | cons attempt rest ih =>
      rw [List.flatMap_cons, List.count_append, List.count_append]
      exact Nat.add_le_add (attempt.added_count_le component) ih

theorem added_count_state (attempts : List Attempt) :
    (attempts.flatMap Attempt.added).count .state =
      attempts.countP fun attempt => attempt .state := by
  induction attempts with
  | nil => rfl
  | cons attempt rest ih =>
      rw [List.flatMap_cons, List.count_append, ih, attempt.added_count_state, List.countP_cons,
        Nat.add_comm]

theorem added_nodup_iff (attempts : List Attempt) :
    (attempts.flatMap Attempt.added).Nodup ↔
      (attempts.countP fun attempt => attempt .state) ≤ 1 := by
  rw [List.nodup_iff_count_le_one, ← added_count_state]
  exact ⟨fun once => once .state, fun once component =>
    Nat.le_trans (added_count_le attempts component) once⟩

/-- Every component is deleted exactly once just if the constructor of `State` completes in
at most one of the calls of `Enable`. -/
theorem disposedOnce_iff (attempts : List Attempt) (iteration : Iteration) :
    (finalState ((history attempts iteration.order).run Host.fresh)).DisposedOnce ↔
      (attempts.countP fun attempt => attempt .state) ≤ 1 := by
  obtain ⟨host, alive, made, ran⟩ := history_run attempts iteration.order
  rw [ran, ← added_nodup_iff, ← made]
  exact alive.last.released_once_iff iteration.distinct iteration.complete

/-- The pipe does not exist yet, then it does. -/
theorem disposedOnce_retry :
    ¬ (finalState ((history [fun component => component = .state, fun _ => true]
      [.session, .comm, .state]).run Host.fresh)).DisposedOnce := by
  intro once
  have first := once 0 (by decide)
  exact absurd first (by decide)

end Wsac.Dll
