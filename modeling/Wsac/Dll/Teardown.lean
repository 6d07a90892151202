import Mathlib.Logic.Relation
import Wsac.Dll.Session

/-! # `Host::~Host` against the worker of `SessionService`

The worker is followed from one use of a component or one question to the stop
token to the next; the bytes it reads, what a poll, a read or a write returns and
the verdict on a header are free.  `Safe` quantifies over all interleavings with
the destructor, which deletes the components in the order of its hash map. -/

set_option autoImplicit false

namespace Wsac.Dll

/-- What `Enable` adds to the host, in that order. -/
inductive Component where
  | state
  | comm
  | session
deriving DecidableEq

/-- What a `PipeReader::Read` is to fill. -/
inductive Reading where
  /-- One byte of `ReadUntilPreamble`. -/
  | byte
  | header
  | body
deriving DecidableEq

/-- Where the worker stands. -/
inductive Point where
  /-- `SessionService::Run`, before it gets `Comm`. -/
  | starting
  /-- The condition of the loop of `Session::Run`. -/
  | looping
  /-- The condition of the loop of `Read`, with so many bytes to come. -/
  | filling (reading : Reading) (left : Nat)
  | peeking (reading : Reading) (left : Nat)
  /-- The condition of the peek loop. -/
  | polled (reading : Reading) (left : Nat) (waiting : Bool)
  /-- The question before `ReadFile`. -/
  | arrived (reading : Reading) (left : Nat)
  | receiving (reading : Reading) (left : Nat)
  /-- The question behind the loop of `Read`. -/
  | filled (reading : Reading)
  /-- The static header of `FrameHeader::Null`. -/
  | making
  | validating
  | handling (signal : Signal)
  | settingReady
  /-- The constructor of the header in `WriteCheckpoint`, after a rejection or not. -/
  | signing (rejected : Bool)
  | writing (rejected : Bool)
  /-- `Base` is reset behind a rejected header. -/
  | resetting
  | ended
deriving DecidableEq

/-- The worker goes on, using a component or none.  `made`: the static header exists. -/
inductive Advances (stopped made : Bool) : Point → Option Component → Point → Prop where
  | getsComm : Advances stopped made .starting (some .comm) .looping
  | leaves (asked : stopped = true) : Advances stopped made .looping none .ended
  | searches (asked : stopped = false) : Advances stopped made .looping none (.filling .byte 1)
  | full (reading : Reading) : Advances stopped made (.filling reading 0) none (.filled reading)
  | breaks (reading : Reading) (left : Nat) (asked : stopped = true) :
      Advances stopped made (.filling reading (left + 1)) none (.filled reading)
  | waits (reading : Reading) (left : Nat) (asked : stopped = false) :
      Advances stopped made (.filling reading (left + 1)) none (.peeking reading (left + 1))
  | peeks (reading : Reading) (left : Nat) (waiting : Bool) :
      Advances stopped made (.peeking reading left) (some .comm) (.polled reading left waiting)
  | peekFails (reading : Reading) (left : Nat) :
      Advances stopped made (.peeking reading left) (some .comm) .ended
  | polls (reading : Reading) (left : Nat) (asked : stopped = false) :
      Advances stopped made (.polled reading left false) none (.peeking reading left)
  | wakes (reading : Reading) (left : Nat) (waiting : Bool)
      (asked : waiting = true ∨ stopped = true) :
      Advances stopped made (.polled reading left waiting) none (.arrived reading left)
  | givesUp (reading : Reading) (left : Nat) (asked : stopped = true) :
      Advances stopped made (.arrived reading left) none .ended
  | goesOn (reading : Reading) (left : Nat) (asked : stopped = false) :
      Advances stopped made (.arrived reading left) none (.receiving reading left)
  | receives (reading : Reading) (left read : Nat) (some_ : 0 < read) (fits : read ≤ left) :
      Advances stopped made (.receiving reading left) (some .comm) (.filling reading (left - read))
  | receiveFails (reading : Reading) (left : Nat) :
      Advances stopped made (.receiving reading left) (some .comm) .ended
  | abandons (reading : Reading) (asked : stopped = true) :
      Advances stopped made (.filled reading) none .ended
  | unmatched (asked : stopped = false) :
      Advances stopped made (.filled .byte) none (.filling .byte 1)
  | matched (asked : stopped = false) : Advances stopped made (.filled .byte) none .making
  /-- Its constructor signs. -/
  | makesNull (first : made = false) :
      Advances stopped made .making (some .state) (.filling .header 38)
  | copiesNull (again : made = true) : Advances stopped made .making none (.filling .header 38)
  | readHeader (asked : stopped = false) :
      Advances stopped made (.filled .header) none .validating
  | rejects : Advances stopped made .validating (some .state) (.signing true)
  | accepts (signal : Signal) : Advances stopped made .validating (some .state) (.handling signal)
  | findsNone : Advances stopped made (.handling .checkpoint) (some .state) .settingReady
  | findsReady : Advances stopped made (.handling .checkpoint) (some .state) (.signing false)
  | regular : Advances stopped made (.handling .regular) none .looping
  | test (dataSize : Nat) : Advances stopped made (.handling .test) none (.filling .body dataSize)
  | testFails : Advances stopped made (.handling .test) none .ended
  | invalid : Advances stopped made (.handling .invalid) none (.signing false)
  | readBody (asked : stopped = false) : Advances stopped made (.filled .body) none .looping
  | setsReady : Advances stopped made .settingReady (some .state) .looping
  | signs (rejected : Bool) :
      Advances stopped made (.signing rejected) (some .state) (.writing rejected)
  | writes (rejected : Bool) :
      Advances stopped made (.writing rejected) (some .comm) (.writing rejected)
  | wrote : Advances stopped made (.writing false) (some .comm) .looping
  | wroteRejected : Advances stopped made (.writing true) (some .comm) .resetting
  | writeFails (rejected : Bool) : Advances stopped made (.writing rejected) (some .comm) .ended
  | resets : Advances stopped made .resetting (some .state) .looping

structure Process where
  worker : Point
  made : Bool
  stopped : Bool
  /-- What `~Host` still has to delete; nothing before it is entered. -/
  remaining : Option (List Component)
  deleted : List Component
  /-- The worker has used a component that had been deleted. -/
  faulted : Bool
deriving DecidableEq

/-- Behind a successful `Enable`: everything is there, and the worker runs. -/
def Process.enabled : Process := ⟨.starting, false, false, none, [], false⟩

/-- A step of the worker or of `~Host`, whose map iterates in the given order. -/
inductive Process.Step (order : List Component) : Process → Process → Prop where
  | worker (process : Process) (access : Option Component) (next : Point)
      (advances : Advances process.stopped process.made process.worker access next) :
      Step order process
        { process with
          worker := next
          made := process.made || decide (process.worker = .making)
          faulted := process.faulted || access.any fun used => decide (used ∈ process.deleted) }
  | requestStop (process : Process) (first : process.remaining = none) :
      Step order process { process with stopped := true, remaining := some order }
  /-- `~SessionService` joins the worker. -/
  | delete (process : Process) (component : Component) (rest : List Component)
      (next : process.remaining = some (component :: rest))
      (joined : component = .session → process.worker = .ended) :
      Step order process
        { process with remaining := some rest, deleted := component :: process.deleted }

open Process

def Process.Reachable (order : List Component) (process : Process) : Prop :=
  Relation.ReflTransGen (Step order) enabled process

/-- No interleaving pulls a component from under the worker. -/
def Safe (order : List Component) : Prop :=
  ∀ process, Reachable order process → process.faulted = false

/-! ## The session first -/

/-- Nothing is deleted before the worker has ended. -/
structure Process.Joined (order : List Component) (process : Process) : Prop where
  clean : process.faulted = false
  kept : process.worker ≠ .ended → process.deleted = []
  whole : process.deleted = [] → process.remaining = none ∨ process.remaining = some order

theorem Process.Joined.step {rest : List Component} {before after : Process}
    (joined : Joined (.session :: rest) before) (step : Step (.session :: rest) before after) :
    Joined (.session :: rest) after := by
  cases step with
  | worker access next advances =>
      have running : before.worker ≠ .ended := by
        intro ended
        rw [ended] at advances
        cases advances
      have nothing := joined.kept running
      refine ⟨?_, fun _ => nothing, joined.whole⟩
      cases access with
      | none => simp [joined.clean]
      | some used => simp [joined.clean, nothing]
  | requestStop first => exact ⟨joined.clean, joined.kept, fun _ => Or.inr rfl⟩
  | delete component left next waits =>
      refine ⟨joined.clean, fun running => ?_, fun none_ => absurd none_ (by simp)⟩
      have nothing := joined.kept running
      rcases joined.whole nothing with early | whole
      · rw [early] at next
        cases next
      · rw [whole] at next
        cases next
        exact absurd (waits rfl) running

theorem safe_of_session (rest : List Component) : Safe (.session :: rest) := by
  intro process reached
  have joined : Joined (.session :: rest) process := by
    induction reached with
    | refl => exact ⟨rfl, fun _ => rfl, fun _ => Or.inl rfl⟩
    | tail _ step ih => exact ih.step step
  exact joined.clean

/-! ## Another component first -/

/-- Before the teardown, a worker that has not made the null header yet. -/
def Process.running (worker : Point) : Process := ⟨worker, false, false, none, [], false⟩

/-- The stop request and the first deletion, between two steps of the worker. -/
theorem fault_of_access {first : Component} {rest : List Component} (other : first ≠ .session)
    {worker next : Point}
    (reached : Reachable (first :: rest) (running worker))
    (advances : Advances true false worker (some first) next) : ¬ Safe (first :: rest) := by
  intro safe
  have stopped := reached.tail (Step.requestStop _ rfl)
  have pulled := stopped.tail (Step.delete _ first rest rfl fun same => absurd same other)
  have used := pulled.tail (Step.worker _ (some first) next advances)
  have clean := safe _ used
  simp at clean

theorem reachable_next {order : List Component} {worker next : Point} {access : Option Component}
    (reached : Reachable order (running worker)) (before : worker ≠ .making)
    (advances : Advances false false worker access next) : Reachable order (running next) := by
  have after := reached.tail (Step.worker _ _ _ advances)
  cases access with
  | none => simpa [running, before, Reachable] using after
  | some used => simpa [running, before, Reachable] using after

/-- The worker may have read a preamble and be about to make the null header. -/
theorem reachable_making (order : List Component) : Reachable order (running .making) := by
  have starting : Reachable order (running .starting) := Relation.ReflTransGen.refl
  have looping := reachable_next starting (by decide) Advances.getsComm
  have filling := reachable_next looping (by decide) (Advances.searches rfl)
  have peeking := reachable_next filling (by decide) (Advances.waits .byte 0 rfl)
  have polled := reachable_next peeking (by decide) (Advances.peeks .byte 1 true)
  have arrived := reachable_next polled (by decide) (Advances.wakes .byte 1 true (Or.inl rfl))
  have receiving := reachable_next arrived (by decide) (Advances.goesOn .byte 1 rfl)
  have full := reachable_next receiving (by decide)
    (Advances.receives .byte 1 1 Nat.one_pos (Nat.le_refl 1))
  have filled := reachable_next full (by decide) (Advances.full .byte)
  exact reachable_next filled (by decide) (Advances.matched rfl)

theorem not_safe_of_comm (rest : List Component) : ¬ Safe (.comm :: rest) :=
  fault_of_access (by decide) Relation.ReflTransGen.refl Advances.getsComm

theorem not_safe_of_state (rest : List Component) : ¬ Safe (.state :: rest) :=
  fault_of_access (by decide) (reachable_making _) (Advances.makesNull rfl)

/-- Teardown is safe exactly when the map happens to yield the session first. -/
theorem safe_iff (order : List Component) (all : order.Perm [.state, .comm, .session]) :
    Safe order ↔ order.head? = some .session := by
  cases order with
  | nil => exact absurd all.length_eq (by simp)
  | cons first rest =>
      rw [List.head?_cons, Option.some.injEq]
      cases first with
      | session => exact iff_of_true (safe_of_session rest) rfl
      | comm => exact iff_of_false (not_safe_of_comm rest) (by simp)
      | state => exact iff_of_false (not_safe_of_state rest) (by simp)

namespace Sample

theorem safe_iff_session : Safe [.session, .state, .comm] ↔
    [Component.session, .state, .comm].head? = some .session :=
  safe_iff [.session, .state, .comm] (by decide)

/-- The components in the order in which they were added. -/
theorem not_safe_as_added :
    ¬ ∀ order : List Component, order.Perm [.state, .comm, .session] → Safe order :=
  fun claimed => not_safe_of_state [.comm, .session] (claimed _ (List.Perm.refl _))

end Sample
end Wsac.Dll
