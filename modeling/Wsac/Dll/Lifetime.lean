import Wsac.Dll.Course
import Wsac.Dll.Disable

/-! # From `Enable` to the end of `Disable`

The sessions that bytes run are among the interleavings of the worker with `~Host`: the path of
the worker is theirs, and `~Host` is called when the token first answers yes. -/

set_option autoImplicit false

namespace Wsac.Dll

open Library Library.Exec Relation

section
variable {cfg : Config} {pipe : Pipe} {worker next : Point} {after : World}

theorem Does.asked_le {before : World} (does : Does cfg pipe before worker next after) :
    before.asked ≤ after.asked := by
  cases does with
  | asks worker next question => exact Nat.le_succ _
  | passes | peeks | peekFails | receives | receiveFails | rejects | accepts | findsNone
  | findsReady | test | testFails | setsReady | signs | writes | wrote | writeFails | resets =>
      exact Nat.le_refl _

namespace Process
variable {order : List Component}

/-- `~Host` has been called as soon as the token answers yes, and has deleted nothing. -/
structure Beside (order : List Component) (pipe : Pipe) (place : Place) (asked : Nat)
    (process : Process) : Prop where
  worker : process.worker = place.worker
  made : process.made = place.made
  stopped : process.stopped = pipe.stopped asked
  remaining : process.remaining = if pipe.stopped asked then some order else none
  deleted : process.deleted = []
  faulted : process.faulted = false

/-- The stop is requested between two steps of the worker, or was before. -/
theorem Beside.catch_up {process : Process} {place : Place} {earlier asked : Nat}
    (beside : Beside order pipe place earlier process) (le : earlier ≤ asked) :
    ∃ after, ReflTransGen (Step order) process after ∧ Beside order pipe place asked after := by
  obtain ⟨worker, made, stopped, remaining, deleted, faulted⟩ := beside
  by_cases same : pipe.stopped earlier = pipe.stopped asked
  · rw [same] at stopped remaining
    exact ⟨process, .refl, worker, made, stopped, remaining, deleted, faulted⟩
  · have early : pipe.stopped earlier = false := by
      cases told : pipe.stopped earlier with
      | false => rfl
      | true => exact absurd (told.trans (pipe.stopped_mono le told).symm) same
    rw [early] at same stopped remaining
    have now : pipe.stopped asked = true := by
      cases told : pipe.stopped asked with
      | true => rfl
      | false => exact absurd told.symm same
    refine ⟨_, .single (Step.requestStop process remaining), worker, made, now.symm, ?_, deleted,
      faulted⟩
    rw [now, if_pos rfl]

/-- Nothing has been deleted, so the worker uses nothing that has. -/
theorem Beside.step {process : Process} {before after : Place × World}
    (beside : Beside order pipe before.1 before.2.asked process)
    (goes : Goes cfg pipe before after) :
    ∃ next, ReflTransGen (Step order) process next ∧
      Beside order pipe after.1 after.2.asked next := by
  obtain ⟨worker, made, stopped, remaining, deleted, faulted⟩ := beside
  obtain ⟨access, advances⟩ := goes.advances
  rw [← stopped, ← worker, ← made] at advances
  have taken : Step order process _ := Step.worker process access _ advances
  have there : Beside order pipe after.1 before.2.asked
      { process with
        worker := after.1.worker
        made := process.made || decide (process.worker = .making)
        faulted := process.faulted || access.any fun used => decide (used ∈ process.deleted) } := by
    refine ⟨rfl, ?_, stopped, remaining, deleted, ?_⟩
    · rw [goes.made, ← made, ← worker]
    · cases access with
      | none => simp [faulted]
      | some used => simp [faulted, deleted]
  obtain ⟨next, path, caught⟩ := there.catch_up goes.does.asked_le
  exact ⟨next, .head taken path, caught⟩

theorem beside_course {before after : Place × World} (course : Course cfg pipe before after)
    {process : Process} (beside : Beside order pipe before.1 before.2.asked process) :
    ∃ next, ReflTransGen (Step order) process next ∧
      Beside order pipe after.1 after.2.asked next := by
  induction course with
  | refl => exact ⟨process, .refl, beside⟩
  | tail _ goes ih =>
      obtain ⟨middle, path, beside⟩ := ih
      obtain ⟨next, rest, beside⟩ := beside.step goes
      exact ⟨next, path.trans rest, beside⟩

/-- With the worker gone, `~Host` deletes one component after the other. -/
theorem deletes (rest : List Component) : ∀ process : Process, process.worker = .ended →
    process.remaining = some rest → process.faulted = false →
    ∃ last, ReflTransGen (Step order) process last ∧ last.Finished ∧ last.faulted = false ∧
      last.deleted = rest.reverse ++ process.deleted := by
  induction rest with
  | nil =>
      intro process ended remaining clean
      exact ⟨process, .refl, ⟨ended, remaining⟩, clean, rfl⟩
  | cons component rest ih =>
      intro process ended remaining clean
      have deletes : Step order process
          { process with remaining := some rest, deleted := component :: process.deleted } :=
        Step.delete process component rest remaining fun _ => ended
      obtain ⟨last, path, finished, clean, deleted⟩ := ih
        { process with remaining := some rest, deleted := component :: process.deleted } ended rfl
        clean
      refine ⟨last, .head deletes path, finished, clean, ?_⟩
      rw [deleted, List.reverse_cons, List.append_assoc, List.singleton_append]

/-- Before the worker's first step. -/
theorem Beside.enabled (order : List Component) (pipe : Pipe) :
    ∃ process, Reachable order process ∧
      Beside order pipe ⟨.starting, false⟩ World.start.asked process := by
  have nothing : (none : Option (List Component)) = if false = true then some order else none := rfl
  cases told : pipe.stopped World.start.asked with
  | false =>
      refine ⟨_, .refl, rfl, rfl, told.symm, ?_, rfl, rfl⟩
      rw [told]
      rfl
  | true =>
      refine ⟨_, .single (Step.requestStop _ rfl), rfl, rfl, told.symm, ?_, rfl, rfl⟩
      rw [told]
      rfl

/-- Every session that bytes run is one of the interleavings with `~Host`, which asks for the
stop when the token first answers yes; each step has the effect the bytes give it, and the last
one leaves the world of the session. -/
theorem session_among (order : List Component) (cfg : Config) (pipe : Pipe) :
    ∃ place process,
      Course cfg pipe (⟨.starting, false⟩, World.start)
        (place, finalState ((Session.run cfg pipe).run World.start)) ∧
      Reachable order process ∧
      Beside order pipe place (finalState ((Session.run cfg pipe).run World.start)).asked
        process ∧
      (place.worker = .ended ∨ pipe.stopAt = none ∧ pipe.ending = .silent ∨
        pipe.Stalled (finalState ((Session.run cfg pipe).run World.start))) := by
  obtain ⟨place, course, ended⟩ := Session.run_course cfg pipe
  obtain ⟨start, reached, beside⟩ := Beside.enabled order pipe
  obtain ⟨process, path, beside⟩ := beside_course course beside
  exact ⟨place, process, course, reached.trans path, beside, ended⟩

/-- From `Enable` through a whole session to the end of `Disable`: where the session comes to
an end and nothing is deleted before it has, no order of deletion pulls anything from under it. -/
theorem session_disabled (order : List Component) (cfg : Config) (pipe : Pipe)
    (drains : pipe.stalls = false) (stops : pipe.stopAt ≠ none ∨ pipe.ending ≠ .silent) :
    ∃ process last,
      Course cfg pipe (⟨.starting, false⟩, World.start)
        (⟨.ended, process.made⟩, finalState ((Session.run cfg pipe).run World.start)) ∧
      Reachable order process ∧ process.worker = .ended ∧ process.deleted = [] ∧
      ReflTransGen (Step order) process last ∧ last.Finished ∧ last.faulted = false ∧
      last.deleted.reverse = order := by
  obtain ⟨⟨worker, made⟩, course, gone⟩ := Session.run_course cfg pipe
  obtain ⟨start, early, beside⟩ := Beside.enabled order pipe
  obtain ⟨process, onward, there, same, stopped, remaining, kept, clean⟩ :=
    beside_course course beside
  have ended : worker = .ended := by
    rcases gone with ended | ⟨never, silent⟩ | ⟨stalls, _⟩
    · exact ended
    · rcases stops with stops | stops
      · exact absurd never stops
      · exact absurd silent stops
    · rw [drains] at stalls
      cases stalls
  subst ended
  obtain ⟨called, path, still, whole, nothing, unharmed⟩ : ∃ called,
      ReflTransGen (Step order) process called ∧ called.worker = .ended ∧
      called.remaining = some order ∧ called.deleted = [] ∧ called.faulted = false := by
    cases told : pipe.stopped (finalState ((Session.run cfg pipe).run World.start)).asked with
    | true =>
        rw [told, if_pos rfl] at remaining
        exact ⟨process, .refl, there, remaining, kept, clean⟩
    | false =>
        rw [told, if_neg (by decide)] at remaining
        exact ⟨_, .single (Step.requestStop process remaining), there, rfl, kept, clean⟩
  obtain ⟨last, rest, finished, unharmed, deleted⟩ := deletes order called still whole unharmed
  refine ⟨process, last, same ▸ course, early.trans onward, there, kept, path.trans rest, finished,
    unharmed, ?_⟩
  rw [deleted, nothing, List.append_nil, List.reverse_reverse]

end Process
end

namespace Sample

theorem session_disabled_deserted : ∃ process last,
    Course Wsac.Sample.config deserted (⟨.starting, false⟩, World.start)
      (⟨.ended, process.made⟩,
        finalState ((Session.run Wsac.Sample.config deserted).run World.start)) ∧
    Process.Reachable [.state, .comm, .session] process ∧ process.worker = .ended ∧
    process.deleted = [] ∧ ReflTransGen (Process.Step [.state, .comm, .session]) process last ∧
    last.Finished ∧ last.faulted = false ∧ last.deleted.reverse = [.state, .comm, .session] :=
  Process.session_disabled [.state, .comm, .session] Wsac.Sample.config deserted rfl
    (Or.inl (by decide))

end Sample
end Wsac.Dll
