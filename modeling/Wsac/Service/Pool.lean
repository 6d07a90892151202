import Mathlib.Algebra.BigOperators.Group.Finset.Basic
import Mathlib.Algebra.Order.BigOperators.Group.Finset
import Mathlib.Data.Fintype.Basic
import Wsac.Service.Shutdown

/-! # `PipeSessionService`: all its threads, and the host that starts and stops them

The threads share the token and the static `_sessionId`; an exception that leaves one of
them ends the process.  A session is one move, made where it ends, so that the token may
have been set while it ran. -/

set_option autoImplicit false

namespace Wsac.Service.PipeSessionService

open Library Library.Exec

/-- Where the host is. -/
inductive Main where
  /-- The loop of `StartAsync`, in front of the thread of this number. -/
  | starting (next : Nat)
  | running
  /-- The loop of `StopAsync`, behind `_cts.Cancel()`. -/
  | joining (next : Nat)
  | stopped
deriving DecidableEq

structure Pool (n : Nat) where
  /-- The static `_sessionId`. -/
  sessionId : Int32
  main : Main
  threads : Fin n → Thread
  /-- The id of the `SessionState` that a serving thread has made. -/
  session : Fin n → Option Int32
  /-- All states made so far, with their threads. -/
  made : List (Fin n × Int32)
  dead : Bool

inductive PoolMove (n : Nat) where
  /-- A turn of the loop of `StartAsync`. -/
  | start
  /-- `_cts.Cancel()` -/
  | stop
  /-- A turn of the loop of `StopAsync`. -/
  | join
  /-- `Interlocked.Increment(ref _sessionId)` -/
  | increment (i : Fin n)
  | thread (i : Fin n) (move : Move)

namespace Pool
variable {n : Nat}

/-- The constructor; the threads are not started yet. -/
def new (n : Nat) : Pool n :=
  ⟨0, .starting 0, fun _ => .start, fun _ => none, [], false⟩

def cancelled (pool : Pool n) : Bool :=
  match pool.main with
  | .starting _ | .running => false
  | .joining _ | .stopped => true

def started (pool : Pool n) (i : Fin n) : Bool :=
  match pool.main with
  | .starting next => decide (i < next)
  | _ => true

/-- A thread with the token as it finds it; a session was begun with the token unset. -/
def seen (pool : Pool n) (i : Fin n) : Thread :=
  if (pool.threads i).phase = .serving then pool.threads i
  else { pool.threads i with cancelled := pool.cancelled }

def put (pool : Pool n) (i : Fin n) (thread : Thread) : Pool n :=
  { pool with
    threads := Function.update pool.threads i thread
    session := Function.update pool.session i none
    dead := match thread.phase with
      | .crashed _ => true
      | _ => false }

/-- What a thread may do on its own; a session that is cancelled is so by `StopAsync`. -/
def allows (pool : Pool n) (i : Fin n) : Move → Bool
  | .cancel => false
  | .check => true
  | .waited _ => true
  | .serve client => (pool.session i).isSome && (client.cancelAt.isNone || pool.cancelled)
  | .fault _ => (pool.session i).isSome

def step (asm : Assembly) (server : PipeServer) (move : PoolMove n) (pool : Pool n) :
    Option (Pool n) :=
  if pool.dead then none
  else
    match move, pool.main with
    | .start, .starting next =>
        some { pool with main := if next < n then .starting (next + 1) else .running }
    | .stop, .running => some { pool with main := .joining 0 }
    | .join, .joining next =>
        if next_ : next < n then
          if (pool.threads ⟨next, next_⟩).phase = .left then
            some { pool with main := .joining (next + 1) }
          else none
        else some { pool with main := .stopped }
    | .increment i, _ =>
        if (pool.threads i).phase = .serving ∧ pool.session i = none then
          some { pool with
            sessionId := pool.sessionId + 1
            session := Function.update pool.session i (some (pool.sessionId + 1))
            made := pool.made ++ [(i, pool.sessionId + 1)] }
        else none
    | .thread i move, _ =>
        if pool.started i && pool.allows i move then
          (PipeSessionService.step asm server move (pool.seen i)).map (pool.put i)
        else none
    | _, _ => none

end Pool

/-! ## What a move does -/

variable {n : Nat} {asm : Assembly} {server : PipeServer}

/-- What a thread does on its own. -/
theorem step_own {move : Move} {before after : Thread} (own : move ≠ .cancel)
    (stepped : step asm server move before = some after) :
    (before.phase = .heading ∧
      after = { before with phase := if before.cancelled then .left else .waiting }) ∨
    (∃ outcome, before.phase = .waiting ∧
      server.ends before.connection before.cancelled outcome = true ∧
      after = before.afterWait outcome) ∨
    (∃ ended reader cancelled, before.phase = .serving ∧
      after = before.afterSession ended reader cancelled) := by
  cases move with
  | cancel => exact absurd rfl own
  | check =>
      simp only [step, Option.ite_none_right_eq_some, Option.some.injEq] at stepped
      exact Or.inl ⟨stepped.1, stepped.2.symm⟩
  | waited outcome =>
      simp only [step, Option.ite_none_right_eq_some, Option.some.injEq] at stepped
      exact Or.inr (Or.inl ⟨outcome, stepped.1.1, stepped.1.2, stepped.2.symm⟩)
  | serve client =>
      simp only [step, Option.ite_none_right_eq_some, Option.map_eq_some_iff] at stepped
      obtain ⟨⟨serving, _⟩, ended, _, there⟩ := stepped
      exact Or.inr (Or.inr ⟨ended, _, _, serving, there.symm⟩)
  | fault reader =>
      simp only [step, Option.ite_none_right_eq_some, Option.some.injEq] at stepped
      exact Or.inr (Or.inr ⟨_, reader, before.cancelled, stepped.1, stepped.2.symm⟩)

/-- A session begins on a server end that had no client, and with the token unset. -/
theorem serving_begins {move : Move} {before after : Thread} (own : move ≠ .cancel)
    (stepped : step asm server move before = some after) (serving : after.phase = .serving) :
    before.connection ≠ .connected ∧ after.connection = .connected ∧ after.cancelled = false := by
  rcases step_own own stepped with ⟨_, rfl⟩ | ⟨outcome, _, ends, rfl⟩ | ⟨_, _, _, _, rfl⟩
  · cases asked : before.cancelled <;> rw [asked] at serving <;> cases serving
  · cases outcome with
    | accepted =>
        have unset : before.cancelled = false := by
          by_contra set
          rw [Bool.eq_true_of_not_eq_false set] at ends
          exact absurd (server.cancels _ _ ends) (by decide)
        refine ⟨fun connected => ?_, rfl, unset⟩
        rw [connected, server.accepts_unconnected] at ends
        cases ends
    | operationCanceled | io | invalidOperation => cases serving
  · cases serving

namespace Pool

theorem seen_phase (pool : Pool n) (i : Fin n) : (pool.seen i).phase = (pool.threads i).phase := by
  unfold seen
  split <;> rfl

theorem seen_connection (pool : Pool n) (i : Fin n) :
    (pool.seen i).connection = (pool.threads i).connection := by
  unfold seen
  split <;> rfl

theorem allows_own {pool : Pool n} {i : Fin n} {move : Move} (allowed : pool.allows i move = true) :
    move ≠ .cancel := by
  rintro rfl
  cases allowed

/-- What the host does. -/
inductive Hosts (pool : Pool n) : Main → Prop where
  | starts (next : Nat) (early : pool.main = .starting next) :
      Hosts pool (if next < n then .starting (next + 1) else .running)
  | cancels (on : pool.main = .running) : Hosts pool (.joining 0)
  | joins (next : Fin n) (at_ : pool.main = .joining next)
      (left : (pool.threads next).phase = .left) : Hosts pool (.joining (next + 1))
  | returns (next : Nat) (at_ : pool.main = .joining next) (all : n ≤ next) :
      Hosts pool .stopped

def increment (pool : Pool n) (i : Fin n) : Pool n :=
  { pool with
    sessionId := pool.sessionId + 1
    session := Function.update pool.session i (some (pool.sessionId + 1))
    made := pool.made ++ [(i, pool.sessionId + 1)] }

section
variable (pool : Pool n) {i j : Fin n} (thread : Thread)

@[simp] theorem increment_threads : (pool.increment i).threads = pool.threads := rfl

@[simp] theorem increment_made :
    (pool.increment i).made = pool.made ++ [(i, pool.sessionId + 1)] := rfl

theorem increment_session_self : (pool.increment i).session i = some (pool.sessionId + 1) :=
  Function.update_self ..

theorem increment_session_of_ne (other : j ≠ i) :
    (pool.increment i).session j = pool.session j := Function.update_of_ne other ..

theorem put_threads_self : (pool.put i thread).threads i = thread := Function.update_self ..

theorem put_threads_of_ne (other : j ≠ i) :
    (pool.put i thread).threads j = pool.threads j := Function.update_of_ne other ..

theorem put_session_self : (pool.put i thread).session i = none := Function.update_self ..

theorem put_session_of_ne (other : j ≠ i) :
    (pool.put i thread).session j = pool.session j := Function.update_of_ne other ..

end

theorem step_cases {move : PoolMove n} {before after : Pool n}
    (stepped : step asm server move before = some after) :
    before.dead = false ∧
      ((∃ main, before.Hosts main ∧ after = { before with main := main }) ∨
      (∃ i, (before.threads i).phase = .serving ∧ before.session i = none ∧
        after = before.increment i) ∨
      (∃ i own thread, before.allows i own = true ∧
        PipeSessionService.step asm server own (before.seen i) = some thread ∧
        after = before.put i thread)) := by
  unfold step at stepped
  by_cases dead : before.dead = true
  · rw [if_pos dead] at stepped
    cases stepped
  rw [if_neg dead] at stepped
  refine ⟨Bool.eq_false_of_not_eq_true dead, ?_⟩
  split at stepped
  · rename_i next early
    cases stepped
    exact Or.inl ⟨_, Hosts.starts next early, rfl⟩
  · rename_i on
    cases stepped
    exact Or.inl ⟨_, Hosts.cancels on, rfl⟩
  · rename_i next at_
    by_cases some_ : next < n
    · rw [dif_pos some_, Option.ite_none_right_eq_some, Option.some.injEq] at stepped
      obtain ⟨left, rfl⟩ := stepped
      exact Or.inl ⟨_, Hosts.joins ⟨next, some_⟩ at_ left, rfl⟩
    · rw [dif_neg some_] at stepped
      cases stepped
      exact Or.inl ⟨_, Hosts.returns next at_ (Nat.le_of_not_lt some_), rfl⟩
  · rename_i i
    rw [Option.ite_none_right_eq_some, Option.some.injEq] at stepped
    obtain ⟨⟨serving, none_⟩, rfl⟩ := stepped
    exact Or.inr (Or.inl ⟨i, serving, none_, rfl⟩)
  · rename_i i own
    rw [Option.ite_none_right_eq_some, Option.map_eq_some_iff, Bool.and_eq_true] at stepped
    obtain ⟨⟨_, allowed⟩, thread, stepped, rfl⟩ := stepped
    exact Or.inr (Or.inr ⟨i, own, thread, allowed, stepped, rfl⟩)
  · cases stepped

/-! ## Ids in order -/

/-- The ids are given out in order, each to a thread that has given none before. -/
structure Sound (pool : Pool n) : Prop where
  counter : pool.sessionId = Int32.ofNat pool.made.length
  ids : pool.made.map Prod.snd =
    (List.range pool.made.length).map fun count => Int32.ofNat (count + 1)
  distinct : (pool.made.map Prod.fst).Nodup
  /-- Whoever has given an id is not about to give another. -/
  spent : ∀ i ∈ pool.made.map Prod.fst, (pool.threads i).connection = .connected ∧
    ((pool.threads i).phase = .serving → pool.session i ≠ none)
  /-- A session that has not ended was begun on a client and before the token was set. -/
  begun : ∀ i, (pool.threads i).phase = .serving →
    (pool.threads i).connection = .connected ∧ (pool.threads i).cancelled = false
  alive : pool.dead = false → ∀ i exception, (pool.threads i).phase ≠ .crashed exception

theorem Sound.new (n : Nat) : (Pool.new n).Sound where
  counter := rfl
  ids := rfl
  distinct := List.nodup_nil
  spent := fun i member => absurd member List.not_mem_nil
  begun := fun _ serving => by cases serving
  alive := fun _ _ _ same => by cases same

theorem Sound.increment {pool : Pool n} (sound : pool.Sound) {i : Fin n}
    (serving : (pool.threads i).phase = .serving) (none_ : pool.session i = none) :
    (pool.increment i).Sound := by
  have fresh : i ∉ pool.made.map Prod.fst := fun member =>
    (sound.spent i member).2 serving none_
  have next : pool.sessionId + 1 = Int32.ofNat (pool.made.length + 1) := by
    rw [sound.counter, Int32.ofNat_add]
    rfl
  have threads : (pool.made ++ [(i, pool.sessionId + 1)]).map Prod.fst =
      pool.made.map Prod.fst ++ [i] := List.map_append
  refine ⟨?_, ?_, ?_, fun j member => ?_, sound.begun, sound.alive⟩
  · rw [increment_made, List.length_append]
    exact next
  · simp only [increment_made, List.map_append, List.length_append, List.map_cons, List.map_nil,
      List.length_singleton, List.range_succ, sound.ids, next]
  · rw [increment_made, threads]
    exact sound.distinct.append (List.nodup_singleton i) (List.disjoint_singleton.mpr fresh)
  · rw [increment_made, threads, List.mem_append, List.mem_singleton] at member
    rw [increment_threads]
    by_cases same : j = i
    · subst same
      refine ⟨(sound.begun j serving).1, fun _ => ?_⟩
      rw [increment_session_self]
      exact Option.some_ne_none _
    · rw [increment_session_of_ne pool same]
      exact sound.spent j (member.resolve_right same)

theorem Sound.put {pool : Pool n} (sound : pool.Sound) (alive : pool.dead = false) {i : Fin n}
    {own : Move} {thread : Thread} (allowed : pool.allows i own = true)
    (stepped : PipeSessionService.step asm server own (pool.seen i) = some thread) :
    (pool.put i thread).Sound := by
  have begins := serving_begins (allows_own allowed) stepped
  refine ⟨sound.counter, sound.ids, sound.distinct, fun j member => ?_, fun j serving => ?_,
    fun unharmed j exception crashed => ?_⟩
  · have spent := sound.spent j member
    by_cases same : j = i
    · subst same
      have kept := spent.1
      rw [← seen_connection] at kept
      rw [put_threads_self]
      exact ⟨connected_stays kept stepped, fun serving => absurd kept (begins serving).1⟩
    · rw [put_threads_of_ne pool thread same, put_session_of_ne pool thread same]
      exact spent
  · by_cases same : j = i
    · subst same
      rw [put_threads_self] at serving ⊢
      exact (begins serving).2
    · rw [put_threads_of_ne pool thread same] at serving ⊢
      exact sound.begun j serving
  · by_cases same : j = i
    · subst same
      rw [put_threads_self] at crashed
      rw [Pool.put, crashed] at unharmed
      cases unharmed
    · rw [put_threads_of_ne pool thread same] at crashed
      exact sound.alive alive j exception crashed

theorem Sound.step {move : PoolMove n} {before after : Pool n} (sound : before.Sound)
    (stepped : step asm server move before = some after) : after.Sound := by
  obtain ⟨alive, cases_⟩ := step_cases stepped
  rcases cases_ with ⟨main, _, rfl⟩ | ⟨i, serving, none_, rfl⟩ | ⟨i, own, thread, allowed, did, rfl⟩
  · exact ⟨sound.counter, sound.ids, sound.distinct, sound.spent, sound.begun, sound.alive⟩
  · exact sound.increment serving none_
  · exact sound.put alive allowed did

/-- However the threads are interleaved, the ids are 1, 2, 3 and so on in the order in which
they are given out, no thread gives out two, and so there is one client for each at most. -/
theorem ids_in_order (asm : Assembly) (server : PipeServer) (moves : List (PoolMove n))
    (pool : Pool n) (ran : runs (step asm server) moves (new n) = some pool) :
    pool.made.map Prod.snd =
        (List.range pool.made.length).map (fun count => Int32.ofNat (count + 1)) ∧
      (pool.made.map Prod.fst).Nodup ∧ pool.made.length ≤ n := by
  have sound : pool.Sound :=
    runs_invariant Sound (fun _ _ _ sound stepped => sound.step stepped) (Sound.new n) ran
  have fits := sound.distinct.length_le_card
  rw [List.length_map, Fintype.card_fin] at fits
  exact ⟨sound.ids, sound.distinct, fits⟩

/-! ## `StopAsync` returns -/

end Pool

/-- How many moves a thread has left once the token is set. -/
def Phase.toEnd : Option Int32 → Phase → Nat
  | _, .heading => 1
  | _, .waiting => 1
  | none, .serving => 3
  | some _, .serving => 2
  | _, .left => 0
  | _, .crashed _ => 0

theorem Phase.toEnd_le (session : Option Int32) (phase : Phase) : phase.toEnd session ≤ 3 := by
  cases session <;> cases phase <;> simp only [Phase.toEnd] <;> omega

theorem Phase.two_le_toEnd (session : Option Int32) : 2 ≤ Phase.serving.toEnd session := by
  cases session <;> simp only [Phase.toEnd] <;> omega

/-- How many turns the loop of `StopAsync` has left. -/
def Main.toStop (n : Nat) : Main → Nat
  | .joining next => n - next + 1
  | .starting _ | .running | .stopped => 0

/-- A thread that finds the token set leaves, or comes back from a session once more. -/
theorem leaves_cancelled {move : Move} {before after : Thread} (own : move ≠ .cancel)
    (stepped : step asm server move before = some after)
    (told : before.phase ≠ .serving → before.cancelled = true) :
    (before.phase = .serving ∧ after.phase = .heading) ∨
      ((before.phase = .heading ∨ before.phase = .waiting) ∧ after.phase = .left) := by
  rcases step_own own stepped with ⟨heading, rfl⟩ | ⟨outcome, waiting, ends, rfl⟩ |
    ⟨_, _, _, serving, rfl⟩
  · have set := told (by rw [heading]; decide)
    exact Or.inr ⟨Or.inl heading, if_pos set⟩
  · rw [told (by rw [waiting]; decide)] at ends
    rw [server.cancels _ _ ends]
    exact Or.inr ⟨Or.inr waiting, rfl⟩
  · exact Or.inl ⟨serving, rfl⟩

/-- A cancelled session ends, whatever its client sends, if the client reads. -/
theorem step_serve {thread : Thread} {client : Client} (serving : thread.phase = .serving)
    (serves : thread.Serves client) (drains : client.stalls = false)
    (told : client.cancelAt ≠ none) :
    ∃ after, step asm server (.serve client) thread = some after := by
  obtain ⟨ended, ends, _⟩ := FrameSession.session_returns client asm thread.reader drains
    (Or.inl told)
  simp only [step, if_pos (And.intro serving serves), ends, Option.map_some]
  exact ⟨_, rfl⟩

namespace Pool

def work (pool : Pool n) : Nat :=
  pool.main.toStop n + ∑ i, (pool.threads i).phase.toEnd (pool.session i)

/-- `StopAsync` has set the token, and the process lives. -/
structure Stopping (pool : Pool n) : Prop where
  sound : pool.Sound
  set : pool.cancelled = true
  alive : pool.dead = false

/-- `StopAsync` has returned, and no thread is left. -/
def Finished (pool : Pool n) : Prop :=
  pool.main = .stopped ∧ ∀ i, (pool.threads i).phase = .left

theorem seen_cancelled {pool : Pool n} (set : pool.cancelled = true) {i : Fin n}
    (idle : (pool.seen i).phase ≠ .serving) : (pool.seen i).cancelled = true := by
  rw [seen_phase] at idle
  unfold seen
  rw [if_neg idle]
  exact set

theorem sum_lt {first second : Fin n → Nat} (i : Fin n) (less : first i < second i)
    (others : ∀ j, j ≠ i → first j = second j) : ∑ j, first j < ∑ j, second j := by
  refine Finset.sum_lt_sum (fun j _ => ?_) ⟨i, Finset.mem_univ i, less⟩
  by_cases same : j = i
  · rw [same]
    exact Nat.le_of_lt less
  · exact Nat.le_of_eq (others j same)

theorem Stopping.step {move : PoolMove n} {before after : Pool n} (stopping : before.Stopping)
    (stepped : step asm server move before = some after) :
    after.Stopping ∧ after.work < before.work := by
  have sound := stopping.sound.step stepped
  obtain ⟨alive, cases_⟩ := step_cases stepped
  rcases cases_ with ⟨main, hosts, rfl⟩ | ⟨i, serving, none_, rfl⟩ |
    ⟨i, own, thread, allowed, did, rfl⟩
  · have set := stopping.set
    unfold cancelled at set
    cases hosts with
    | starts next early | cancels early => rw [early] at set; cases set
    | joins next at_ left =>
        refine ⟨⟨sound, rfl, alive⟩, Nat.add_lt_add_right ?_ _⟩
        rw [at_, Main.toStop, Main.toStop]
        omega
    | returns next at_ all =>
        refine ⟨⟨sound, rfl, alive⟩, Nat.add_lt_add_right ?_ _⟩
        rw [at_, Main.toStop, Main.toStop]
        omega
  · refine ⟨⟨sound, stopping.set, alive⟩, Nat.add_lt_add_left (sum_lt i ?_ fun j other => ?_) _⟩
    · rw [increment_session_self, increment_threads, serving, none_]
      exact Nat.lt_succ_self 2
    · rw [increment_session_of_ne before other, increment_threads]
  · have leaves := leaves_cancelled (allows_own allowed) did (seen_cancelled stopping.set)
    rw [seen_phase] at leaves
    refine ⟨⟨sound, stopping.set, ?_⟩, Nat.add_lt_add_left (sum_lt i ?_ fun j other => ?_) _⟩
    · rcases leaves with ⟨_, after⟩ | ⟨_, after⟩ <;> rw [Pool.put, after]
    · rw [put_threads_self, put_session_self]
      rcases leaves with ⟨before_, after⟩ | ⟨before_ | before_, after⟩
      · rw [before_, after]
        exact Phase.two_le_toEnd (before.session i)
      · rw [before_, after]
        exact Nat.one_pos
      · rw [before_, after]
        exact Nat.one_pos
    · rw [put_threads_of_ne before thread other, put_session_of_ne before thread other]

theorem work_le (pool : Pool n) : pool.work ≤ n + 1 + n * 3 := by
  have threads : ∑ i, (pool.threads i).phase.toEnd (pool.session i) ≤ n * 3 := by
    have each := Finset.sum_le_card_nsmul Finset.univ
      (fun i => (pool.threads i).phase.toEnd (pool.session i)) 3
      fun i _ => (pool.threads i).phase.toEnd_le (pool.session i)
    rw [Finset.card_univ, Fintype.card_fin, smul_eq_mul] at each
    exact each
  have host : pool.main.toStop n ≤ n + 1 := by
    cases main : pool.main <;> simp only [Main.toStop] <;> omega
  exact Nat.add_le_add host threads

/-- No move is possible as long as nobody but these clients is served. -/
def Stuck (asm : Assembly) (server : PipeServer) (clients : Fin n → Client) (pool : Pool n) :
    Prop :=
  ∀ move, (∀ i client, move = .thread i (.serve client) → client = clients i) →
    step asm server move pool = none

/-! ### What can always be done -/

section
variable {pool : Pool n} (alive : pool.dead = false)
include alive

theorem step_thread {i : Fin n} {own : Move} (started : pool.started i = true)
    (allowed : pool.allows i own = true) :
    step asm server (.thread i own) pool =
      (PipeSessionService.step asm server own (pool.seen i)).map (pool.put i) := by
  simp only [step, alive, started, allowed, Bool.false_eq_true, if_false, Bool.and_self, if_true]

theorem step_increment {i : Fin n} (serving : (pool.threads i).phase = .serving)
    (none_ : pool.session i = none) :
    step asm server (.increment i) pool = some (pool.increment i) := by
  simp only [step, alive, serving, none_, Bool.false_eq_true, if_false, and_self, if_true]
  rw [increment, alive]

theorem step_join {next : Nat} (at_ : pool.main = .joining next)
    (left : ∀ i, (pool.threads i).phase = .left) :
    ∃ after, step asm server .join pool = some after := by
  simp only [step, alive, at_, left, Bool.false_eq_true, if_false, if_true]
  split
  · exact ⟨_, rfl⟩
  · exact ⟨_, rfl⟩

end

namespace Stopping
variable {pool : Pool n} (stopping : pool.Stopping)
include stopping

theorem started (i : Fin n) : pool.started i = true := by
  have set := stopping.set
  unfold cancelled at set
  unfold Pool.started
  cases main : pool.main with
  | starting next => rw [main] at set; cases set
  | running | joining next | stopped => rfl

/-- A thread that has not left can move, whatever client it serves. -/
theorem moves {clients : Fin n → Client}
    (prompt : ∀ connection, server.ends connection true .operationCanceled = true)
    (told : ∀ i, (clients i).cancelAt ≠ none) (drains : ∀ i, (clients i).stalls = false)
    {i : Fin n} (here : (pool.threads i).phase ≠ .left) :
    ∃ move, (∀ j client, move = .thread j (.serve client) → client = clients j) ∧
      ∃ after, Pool.step asm server move pool = some after := by
  have seen := pool.seen_phase i
  have own : ∀ move, (∀ client, move = .serve client → client = clients i) →
      pool.allows i move = true →
      (∃ thread, PipeSessionService.step asm server move (pool.seen i) = some thread) →
      ∃ move, (∀ j client, move = .thread j (.serve client) → client = clients j) ∧
        ∃ after, Pool.step asm server move pool = some after := by
    rintro move served allowed ⟨thread, did⟩
    refine ⟨.thread i move, fun j client same => ?_, pool.put i thread, ?_⟩
    · cases same
      exact served client rfl
    · rw [step_thread stopping.alive (stopping.started i) allowed, did]
      rfl
  cases phase : (pool.threads i).phase with
  | left => exact absurd phase here
  | crashed exception => exact absurd phase (stopping.sound.alive stopping.alive i exception)
  | heading =>
      have asks := own .check (fun _ same => by cases same) rfl
      exact asks ⟨_, if_pos (seen.trans phase)⟩
  | waiting =>
      have set := seen_cancelled stopping.set (i := i) (by rw [seen, phase]; decide)
      have ends : server.ends (pool.seen i).connection (pool.seen i).cancelled
          .operationCanceled = true := by
        rw [set]
        exact prompt _
      have gives := own (.waited .operationCanceled) (fun _ same => by cases same) rfl
      exact gives ⟨_, if_pos ⟨seen.trans phase, ends⟩⟩
  | serving =>
      cases session : pool.session i with
      | none =>
          have counts : Pool.step asm server (.increment i) pool = some (pool.increment i) :=
            step_increment stopping.alive phase session
          exact ⟨.increment i, (fun _ _ same => by cases same), pool.increment i, counts⟩
      | some id =>
          have fresh : (pool.seen i).cancelled = false := by
            unfold Pool.seen
            rw [if_pos phase]
            exact (stopping.sound.begun i phase).2
          have serves : (pool.seen i).Serves (clients i) := by
            intro set
            rw [fresh] at set
            cases set
          refine own (.serve (clients i)) (fun _ same => by cases same; rfl) ?_
            (step_serve (seen.trans phase) serves (drains i) (told i))
          rw [allows, session, stopping.set, Bool.or_true]
          rfl

theorem finished {clients : Fin n → Client}
    (prompt : ∀ connection, server.ends connection true .operationCanceled = true)
    (told : ∀ i, (clients i).cancelAt ≠ none) (drains : ∀ i, (clients i).stalls = false)
    (stuck : pool.Stuck asm server clients) :
    pool.Finished := by
  have left : ∀ i, (pool.threads i).phase = .left := by
    intro i
    by_contra here
    obtain ⟨move, served, after, stepped⟩ := stopping.moves prompt told drains here
    rw [stuck move served] at stepped
    cases stepped
  refine ⟨?_, left⟩
  have set := stopping.set
  unfold cancelled at set
  cases main : pool.main with
  | starting next => rw [main] at set; cases set
  | running => rw [main] at set; cases set
  | stopped => rfl
  | joining next =>
      obtain ⟨after, stepped⟩ := step_join stopping.alive main left
      rw [stuck .join fun _ _ same => by cases same] at stepped
      cases stepped

end Stopping

end Pool

/-- `Consts.NumThread` -/
abbrev numThread : Nat := 4

namespace Sample

/-- Two clients are accepted, and the second one's thread is the first to count. -/
def greeting : List (PoolMove numThread) :=
  [.start, .start, .start, .start, .start, .thread 0 .check, .thread 1 .check,
    .thread 0 (.waited .accepted), .thread 1 (.waited .accepted), .increment 1, .increment 0]

/-- The token is set while both are served; one of them has had an answer and stays silent. -/
def stopping : List (PoolMove numThread) :=
  [.thread 0 (.serve Service.Sample.mute), .thread 0 .check, .join]

def greeted : Pool numThread :=
  (runs (Pool.step Service.Sample.assembly documented) greeting (Pool.new numThread)).getD
    (Pool.new numThread)

def interrupted : Pool numThread :=
  (runs (Pool.step Service.Sample.assembly documented) (greeting ++ [.stop])
    (Pool.new numThread)).getD (Pool.new numThread)

def joined : Pool numThread :=
  (runs (Pool.step Service.Sample.assembly documented) stopping interrupted).getD interrupted

theorem ids_in_order_greeted :
    greeted.made.map Prod.snd =
        (List.range greeted.made.length).map (fun count => Int32.ofNat (count + 1)) ∧
      (greeted.made.map Prod.fst).Nodup ∧ greeted.made.length ≤ numThread :=
  Pool.ids_in_order Service.Sample.assembly documented greeting greeted
    (Option.getD_of_ne_none (Option.isSome_iff_ne_none.mp (by decide +kernel)) _).symm

end Sample
end Wsac.Service.PipeSessionService
