import Wsac.Dll.Teardown
import Wsac.Library.Runs

/-! # `~Host` gets through

`~SessionService` joins a worker that goes on for a while.  Once the stop is requested, the
worker comes closer to its end with every step but one: a `WriteFile` that leaves bytes to
be written.  Where `SessionService` is deleted first, `Disable` then returns, unless the peer
does not read and a `WriteFile` waits for it. -/

set_option autoImplicit false

namespace Wsac.Dll

open Library

/-- How many steps there may be to the end of the worker once the token is set. -/
def Point.rank : Point → Nat
  | .ended => 0
  | .looping | .filled _ | .arrived _ _ => 1
  | .starting | .filling _ _ | .polled _ _ _ | .settingReady | .resetting => 2
  | .peeking _ _ | .receiving _ _ | .making | .writing _ => 3
  | .signing _ => 4
  | .handling _ => 5
  | .validating => 6

theorem Point.rank_le (worker : Point) : worker.rank ≤ 6 := by
  cases worker <;> simp only [Point.rank] <;> omega

/-- Every branch that goes back behind a longer way asks the token first. -/
theorem Advances.rank {made : Bool} {worker next : Point} {access : Option Component}
    (advances : Advances true made worker access next) :
    next = worker ∨ next.rank < worker.rank := by
  cases advances with
  | writes rejected => exact Or.inl rfl
  | searches asked | waits _ _ asked | polls _ _ asked | goesOn _ _ asked | unmatched asked
  | matched asked | readHeader asked | readBody asked => exact absurd asked (by decide)
  | getsComm | leaves | full | breaks | peeks | peekFails | wakes | givesUp | receives
  | receiveFails | abandons | makesNull | copiesNull | rejects | accepts | findsNone | findsReady
  | regular | test | testFails | invalid | setsReady | signs | wrote | wroteRejected | writeFails
  | resets =>
      right
      simp only [Point.rank]
      omega

/-- A worker that has not ended can always go on. -/
theorem Advances.exists_next (made : Bool) {worker : Point} (running : worker ≠ .ended) :
    ∃ access next, Advances true made worker access next ∧ next ≠ worker := by
  cases worker with
  | starting => exact ⟨_, _, .getsComm, by simp⟩
  | looping => exact ⟨_, _, .leaves rfl, by simp⟩
  | filling reading left =>
      cases left with
      | zero => exact ⟨_, _, .full reading, by simp⟩
      | succ left => exact ⟨_, _, .breaks reading left rfl, by simp⟩
  | peeking reading left => exact ⟨_, _, .peekFails reading left, by simp⟩
  | polled reading left waiting => exact ⟨_, _, .wakes reading left waiting (Or.inr rfl), by simp⟩
  | arrived reading left => exact ⟨_, _, .givesUp reading left rfl, by simp⟩
  | receiving reading left => exact ⟨_, _, .receiveFails reading left, by simp⟩
  | filled reading => exact ⟨_, _, .abandons reading rfl, by simp⟩
  | making =>
      cases first : made with
      | false => exact ⟨_, _, .makesNull rfl, by simp⟩
      | true => exact ⟨_, _, .copiesNull rfl, by simp⟩
  | validating => exact ⟨_, _, .rejects, by simp⟩
  | handling signal =>
      cases signal with
      | checkpoint => exact ⟨_, _, .findsNone, by simp⟩
      | regular => exact ⟨_, _, .regular, by simp⟩
      | test => exact ⟨_, _, .test 0, by simp⟩
      | invalid => exact ⟨_, _, .invalid, by simp⟩
  | settingReady => exact ⟨_, _, .setsReady, by simp⟩
  | signing rejected => exact ⟨_, _, .signs rejected, by simp⟩
  | writing rejected => exact ⟨_, _, .writeFails rejected, by simp⟩
  | resetting => exact ⟨_, _, .resets, by simp⟩
  | ended => exact absurd rfl running

namespace Process

/-- The worker is elsewhere, or something has been deleted: no further `WriteFile` of
the same buffer. -/
def Moved (before after : Process) : Prop :=
  after.worker ≠ before.worker ∨ after.remaining ≠ before.remaining

instance (before after : Process) : Decidable (Moved before after) :=
  inferInstanceAs (Decidable (_ ∨ _))

/-- `Disable` returns. -/
def Finished (process : Process) : Prop :=
  process.worker = .ended ∧ process.remaining = some []

/-- The worker is in a `WriteFile`, which is over when the peer has read. -/
def Writing (process : Process) : Prop := ∃ rejected, process.worker = .writing rejected

/-- `~Host` has requested the stop and is at its loop. -/
def Stopping (order : List Component) (process : Process) : Prop :=
  process.stopped = true ∧ ∃ rest, process.remaining = some rest ∧ rest.length ≤ order.length

/-- What is left to do. -/
def work (process : Process) : Nat :=
  process.worker.rank + (process.remaining.getD []).length

variable {order : List Component} {before after : Process}

theorem Stopping.step (stopping : Stopping order before) (step : Step order before after) :
    Stopping order after := by
  obtain ⟨stopped, rest, remaining, short⟩ := stopping
  cases step with
  | worker access next advances => exact ⟨stopped, rest, remaining, short⟩
  | requestStop first =>
      rw [first] at remaining
      cases remaining
  | delete component left next joined =>
      rw [next] at remaining
      cases remaining
      exact ⟨stopped, left, rfl, Nat.le_of_succ_le short⟩

/-- Who has not been asked to stop has not been asked to delete anything. -/
theorem stopping_of_stopped {process : Process} (reached : Reachable order process)
    (stopped : process.stopped = true) : Stopping order process := by
  have early : (process.stopped = false ∧ process.remaining = none) ∨
      Stopping order process := by
    clear stopped
    induction reached with
    | refl => exact Or.inl ⟨rfl, rfl⟩
    | tail _ step ih =>
        rcases ih with ⟨asked, remaining⟩ | stopping
        · cases step with
          | worker access next advances => exact Or.inl ⟨asked, remaining⟩
          | requestStop first => exact Or.inr ⟨rfl, order, rfl, Nat.le_refl _⟩
          | delete component left next joined =>
              rw [next] at remaining
              cases remaining
        · exact Or.inr (stopping.step step)
  rcases early with ⟨asked, _⟩ | stopping
  · rw [stopped] at asked
    cases asked
  · exact stopping

theorem Stopping.work_le (stopping : Stopping order before) :
    before.work ≤ 6 + order.length := by
  obtain ⟨_, rest, remaining, short⟩ := stopping
  rw [work, remaining]
  exact Nat.add_le_add before.worker.rank_le short

/-- Every step leaves less to do, or has changed nothing that counts. -/
theorem Stopping.lowers (stopping : Stopping order before) (step : Step order before after) :
    after.work ≤ before.work ∧ (Moved before after → after.work < before.work) := by
  obtain ⟨stopped, rest, remaining, _⟩ := stopping
  cases step with
  | worker access next advances =>
      rw [stopped] at advances
      rcases advances.rank with same | less
      · subst same
        exact ⟨Nat.le_refl _, fun moved => absurd moved (by simp [Moved])⟩
      · have lower := Nat.add_lt_add_right less (before.remaining.getD []).length
        exact ⟨Nat.le_of_lt lower, fun _ => lower⟩
  | requestStop first =>
      rw [first] at remaining
      cases remaining
  | delete component left next joined =>
      have lower : before.worker.rank + left.length < before.work := by
        rw [work, next]
        exact Nat.lt_succ_self _
      exact ⟨Nat.le_of_lt lower, fun _ => lower⟩

/-- The join waits for nothing but the worker, and the worker for nothing but a `WriteFile`. -/
theorem Stopping.finished (stopping : Stopping order before)
    (still : ∀ next, Step order before next → Moved before next → before.Writing) :
    before.Finished ∨ before.Writing := by
  by_cases writing : before.Writing
  · exact Or.inr writing
  left
  have still : ∀ next, Step order before next → ¬ Moved before next :=
    fun next step moved => writing (still next step moved)
  obtain ⟨stopped, rest, remaining, _⟩ := stopping
  have ended : before.worker = .ended := by
    by_contra running
    obtain ⟨access, next, advances, moves⟩ := Advances.exists_next before.made running
    rw [← stopped] at advances
    exact still _ (Step.worker before access next advances) (Or.inl moves)
  refine ⟨ended, ?_⟩
  cases rest with
  | nil => exact remaining
  | cons component rest =>
      refine absurd (Or.inr ?_)
        (still _ (Step.delete before component rest remaining fun _ => ended))
      rw [remaining]
      simp

theorem reachable_run {states : Nat → Process} {count : Nat} (reached : Reachable order (states 0))
    (run : ∀ n < count, Step order (states n) (states (n + 1))) :
    ∀ n ≤ count, Reachable order (states n) := by
  intro n
  induction n with
  | zero => exact fun _ => reached
  | succ n ih => exact fun inside => (ih (Nat.le_of_succ_le inside)).tail (run n inside)

/-- Behind the stop request at most six steps of the worker and one for each component do more
than repeat a `WriteFile`, and none uses what has been deleted, where the component that joins
the worker is deleted first.  Where nothing can happen any more, or only that a `WriteFile` goes
on, the worker has ended and everything is deleted, or that `WriteFile` waits for its reader. -/
theorem disable_returns (order : List Component) (joins : order.head? = some .session)
    (states : Nat → Process) (count : Nat) (reached : Reachable order (states 0))
    (stopped : (states 0).stopped = true)
    (run : ∀ n < count, Step order (states n) (states (n + 1))) :
    Nat.count (fun n => Moved (states n) (states (n + 1))) count ≤ 6 + order.length ∧
      (∀ n ≤ count, (states n).faulted = false) ∧
      ((∀ next, Step order (states count) next → Moved (states count) next →
        (states count).Writing) → (states count).Finished ∨ (states count).Writing) := by
  have start := stopping_of_stopped reached stopped
  have safe : Safe order := by
    obtain ⟨rest, rfl⟩ := List.head?_eq_some_iff.mp joins
    exact safe_of_session rest
  have clean := fun n inside => safe _ (reachable_run reached run n inside)
  obtain ⟨last, bound⟩ := count_lowered_le (Stopping order) work Moved
    (fun _ _ stopping step => ⟨stopping.step step, stopping.lowers step⟩) start run
  have whole := start.work_le
  exact ⟨by omega, clean, last.finished⟩

end Process

namespace Sample

def leavingOrder : List Component := [.session, .state, .comm]

/-- The stop finds the worker polling for its first byte, and everything is deleted behind it. -/
def leaving : Nat → Process
  | 0 => ⟨.peeking .byte 1, false, true, some leavingOrder, [], false⟩
  | 1 => ⟨.polled .byte 1 false, false, true, some leavingOrder, [], false⟩
  | 2 => ⟨.arrived .byte 1, false, true, some leavingOrder, [], false⟩
  | 3 => ⟨.ended, false, true, some leavingOrder, [], false⟩
  | 4 => ⟨.ended, false, true, some [.state, .comm], [.session], false⟩
  | 5 => ⟨.ended, false, true, some [.comm], [.state, .session], false⟩
  | _ => ⟨.ended, false, true, some [], [.comm, .state, .session], false⟩

theorem leaving_step : ∀ n < 6, Process.Step leavingOrder (leaving n) (leaving (n + 1)) := by
  intro n less
  match n, less with
  | 0, _ => exact Process.Step.worker (leaving 0) _ _ (.peeks .byte 1 false)
  | 1, _ => exact Process.Step.worker (leaving 1) _ _ (.wakes .byte 1 false (Or.inr rfl))
  | 2, _ => exact Process.Step.worker (leaving 2) _ _ (.givesUp .byte 1 rfl)
  | 3, _ => exact Process.Step.delete (leaving 3) _ _ rfl fun _ => rfl
  | 4, _ => exact Process.Step.delete (leaving 4) _ _ rfl fun _ => rfl
  | 5, _ => exact Process.Step.delete (leaving 5) _ _ rfl fun _ => rfl

theorem reachable_leaving : Process.Reachable leavingOrder (leaving 0) := by
  have starting : Process.Reachable leavingOrder (Process.running .starting) :=
    Relation.ReflTransGen.refl
  have looping := reachable_next starting (by decide) Advances.getsComm
  have filling := reachable_next looping (by decide) (Advances.searches rfl)
  have peeking := reachable_next filling (by decide) (Advances.waits .byte 0 rfl)
  exact peeking.tail (Process.Step.requestStop _ rfl)

theorem disable_returns_leaving :
    Nat.count (fun n => Process.Moved (leaving n) (leaving (n + 1))) 6 ≤ 6 + leavingOrder.length ∧
      (∀ n ≤ 6, (leaving n).faulted = false) ∧
      ((∀ next, Process.Step leavingOrder (leaving 6) next →
        Process.Moved (leaving 6) next → (leaving 6).Writing) →
          (leaving 6).Finished ∨ (leaving 6).Writing) :=
  Process.disable_returns leavingOrder rfl leaving 6 reachable_leaving rfl
    leaving_step

end Sample
end Wsac.Dll
