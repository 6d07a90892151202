import Wsac.Dll.Loop
import Wsac.Library.Simulation
import Wsac.Link.Synchronisation

/-! # Every kind of frame between the two programs

Here the two directions hold what layer 1 will make of each frame that is on its way, and a
third party may put further frames behind them.  Checkpoints in flight, less the parties that
are none, change only with the `surplus` of a move; at rest the balance is therefore exact. -/

set_option autoImplicit false

namespace Wsac.Link

open Library

structure Traffic where
  base : Dll.Base
  state : Service.FrameSessionState
  toDll : List Layer1.Received
  toService : List Layer1.Received
deriving DecidableEq

namespace Traffic

def start : Traffic := ⟨.none, .none, [], []⟩

inductive Act where
  /-- The oldest frame on the way to a party arrives. -/
  | arrives (side : Side)
  /-- A frame that neither program wrote gets on the way. -/
  | injects (side : Side) (received : Layer1.Received)
deriving DecidableEq

def view (checkpoint : UInt16) (traffic : Traffic) : Handshake :=
  ⟨traffic.base = .none, traffic.state = .none, traffic.toDll.count (.frame checkpoint),
    traffic.toService.count (.frame checkpoint)⟩

theorem excess_eq (checkpoint : UInt16) (traffic : Traffic) :
    (traffic.view checkpoint).excess =
      ((traffic.toDll.count (.frame checkpoint) + traffic.toService.count (.frame checkpoint) :
        Nat) : Int) -
      (((decide (traffic.base = .none)).toNat + (decide (traffic.state = .none)).toNat : Nat) :
        Int) := rfl

/-- Nothing else is on its way. -/
def OnlyCheckpoints (checkpoint : UInt16) (traffic : Traffic) : Prop :=
  (∀ received ∈ traffic.toDll, received = .frame checkpoint) ∧
    ∀ received ∈ traffic.toService, received = .frame checkpoint

end Traffic

namespace System
variable (sys : System)

def travel : Traffic.Act → Traffic → Option Traffic
  | .arrives .dll, traffic =>
      match traffic.toDll with
      | [] => none
      | received :: rest =>
          let (base, written) := Dll.Session.react sys.toConfig traffic.base received
          some { traffic with
            base := base
            toDll := rest
            toService :=
              traffic.toService ++ List.replicate written (.frame sys.checkpointSignature) }
  | .arrives .service, traffic =>
      match traffic.toService with
      | [] => none
      | received :: rest =>
          let (state, written) :=
            Service.FrameSession.react sys.toAssembly traffic.state received
          some { traffic with
            state := state
            toService := rest
            toDll := traffic.toDll ++ List.replicate written (.frame sys.checkpointSignature) }
  | .injects .dll received, traffic =>
      some { traffic with toDll := traffic.toDll ++ [received] }
  | .injects .service received, traffic =>
      some { traffic with toService := traffic.toService ++ [received] }

theorem travel_dll (base : Dll.Base) (state : Service.FrameSessionState)
    (received : Layer1.Received) (rest toService : List Layer1.Received) :
    sys.travel (.arrives .dll) ⟨base, state, received :: rest, toService⟩ =
      let next := Dll.Session.react sys.toConfig base received
      some ⟨next.1, state, rest,
        toService ++ List.replicate next.2 (.frame sys.checkpointSignature)⟩ := rfl

theorem travel_service (base : Dll.Base) (state : Service.FrameSessionState)
    (received : Layer1.Received) (toDll rest : List Layer1.Received) :
    sys.travel (.arrives .service) ⟨base, state, toDll, received :: rest⟩ =
      let next := Service.FrameSession.react sys.toAssembly state received
      some ⟨base, next.1, toDll ++ List.replicate next.2 (.frame sys.checkpointSignature),
        rest⟩ := rfl

/-- Checkpoints that the DLL writes without cause: it asks though it is none already, or
answers a signature that it does not know. -/
def dllSurplus (base : Dll.Base) : Layer1.Received → Nat
  | .broken => if base = .none then 1 else 0
  | .frame sig => if Dll.signalOf sys.toConfig sig = .invalid then 1 else 0

/-- The service does not answer what it does not know. -/
def serviceSurplus (state : Service.FrameSessionState) : Layer1.Received → Nat
  | .broken => if state = .none then 1 else 0
  | .frame _ => 0

/-- Those of either party, and the checkpoints of a third one. -/
def surplus : Traffic.Act → Traffic → Nat
  | .arrives .dll, traffic => (traffic.toDll.head?.map (sys.dllSurplus traffic.base)).getD 0
  | .arrives .service, traffic =>
      (traffic.toService.head?.map (serviceSurplus traffic.state)).getD 0
  | .injects _ received, _ => [received].count (.frame sys.checkpointSignature)

/-! ## The balance -/

theorem dll_balance (base : Dll.Base) (received : Layer1.Received) :
    let next := Dll.Session.react sys.toConfig base received
    next.2 + (decide (base = .none)).toNat = (decide (next.1 = .none)).toNat +
      [received].count (.frame sys.checkpointSignature) + sys.dllSurplus base received := by
  cases received with
  | broken => cases base <;> rfl
  | frame sig =>
      have told := Dll.Session.signalOf_eq_checkpoint sys.toConfig sig
      cases signal : Dll.signalOf sys.toConfig sig with
      | checkpoint =>
          rw [told.mp signal]
          cases base <;> simp [Dll.Session.react, dllSurplus, signalOf_checkpoint]
      | regular | test | invalid =>
          rw [signal] at told
          simp only [reduceCtorEq, false_iff] at told
          cases base <;> simp [Dll.Session.react, dllSurplus, signal, told]

theorem service_balance (state : Service.FrameSessionState) (received : Layer1.Received) :
    let next := Service.FrameSession.react sys.toAssembly state received
    next.2 + (decide (state = .none)).toNat = (decide (next.1 = .none)).toNat +
      [received].count (.frame sys.checkpointSignature) + serviceSurplus state received := by
  cases received with
  | broken => cases state <;> rfl
  | frame sig =>
      have told := findHandler_eq_checkpoint sys sig
      cases found : Service.FrameSession.findHandler sys.toAssembly sig with
      | none =>
          rw [found] at told
          simp only [reduceCtorEq, false_iff] at told
          cases state <;> simp [Service.FrameSession.react, serviceSurplus, found, told]
      | some handler =>
          rw [found] at told
          cases handler with
          | checkpoint =>
              rw [told.mp rfl]
              cases state <;>
                simp [Service.FrameSession.react, serviceSurplus, findHandler_checkpoint]
          | regular | test =>
              simp only [Option.some.injEq, reduceCtorEq, false_iff] at told
              cases state <;> simp [Service.FrameSession.react, serviceSurplus, found, told]

/-- Any move raises the balance of checkpoints over parties that are none by its surplus. -/
theorem travel_excess (act : Traffic.Act) (before after : Traffic)
    (moved : sys.travel act before = some after) :
    (after.view sys.checkpointSignature).excess =
      (before.view sys.checkpointSignature).excess + sys.surplus act before := by
  obtain ⟨base, state, toDll, toService⟩ := before
  rw [Traffic.excess_eq, Traffic.excess_eq]
  cases act with
  | injects side received =>
      cases side with
      | dll =>
          cases moved
          simp only [surplus, List.count_append]
          omega
      | service =>
          cases moved
          simp only [surplus, List.count_append]
          omega
  | arrives side =>
      cases side with
      | dll =>
          cases toDll with
          | nil => cases moved
          | cons received rest =>
              have balance := sys.dll_balance base received
              rw [travel_dll, Option.some.injEq] at moved
              subst moved
              rw [← List.singleton_append]
              simp only [surplus, List.count_append, List.count_replicate_self, List.head?_append,
                List.head?_cons, Option.some_or, Option.map_some, Option.getD_some]
              omega
      | service =>
          cases toService with
          | nil => cases moved
          | cons received rest =>
              have balance := sys.service_balance state received
              rw [travel_service, Option.some.injEq] at moved
              subst moved
              rw [← List.singleton_append]
              simp only [surplus, List.count_append, List.count_replicate_self, List.head?_append,
                List.head?_cons, Option.some_or, Option.map_some, Option.getD_some]
              omega

/-- Along any run from the start. -/
theorem runs_excess {acts : List Traffic.Act} {final : Traffic}
    (ran : runs sys.travel acts Traffic.start = some final) :
    (final.view sys.checkpointSignature).excess =
      -2 + toll sys.travel sys.surplus acts Traffic.start :=
  runs_toll (fun traffic => (traffic.view sys.checkpointSignature).excess) sys.travel_excess ran

/-! ## Nothing but checkpoints -/

theorem arrives_only {side : Side} {before after : Traffic}
    (only : before.OnlyCheckpoints sys.checkpointSignature)
    (moved : sys.travel (.arrives side) before = some after) :
    after.OnlyCheckpoints sys.checkpointSignature ∧
      Handshake.deliver side.party (before.view sys.checkpointSignature) =
        some (after.view sys.checkpointSignature) := by
  obtain ⟨base, state, toDll, toService⟩ := before
  obtain ⟨forDll, forService⟩ := only
  have joined : ∀ (channel : List Layer1.Received) (count : Nat),
      (∀ received ∈ channel, received = .frame sys.checkpointSignature) →
      ∀ received ∈ channel ++ List.replicate count (.frame sys.checkpointSignature),
        received = .frame sys.checkpointSignature := by
    intro channel count before received member
    rcases List.mem_append.mp member with old | new
    · exact before received old
    · exact List.eq_of_mem_replicate new
  cases side with
  | dll =>
      cases toDll with
      | nil => cases moved
      | cons received rest =>
          obtain rfl : received = .frame sys.checkpointSignature :=
            forDll received List.mem_cons_self
          rw [travel_dll, Option.some.injEq] at moved
          subst moved
          refine ⟨⟨fun other member => forDll other (List.mem_cons_of_mem _ member),
            joined _ _ forService⟩, ?_⟩
          cases base <;>
            simp [Traffic.view, Handshake.deliver, Side.party, Dll.Session.react,
              signalOf_checkpoint]
  | service =>
      cases toService with
      | nil => cases moved
      | cons received rest =>
          obtain rfl : received = .frame sys.checkpointSignature :=
            forService received List.mem_cons_self
          rw [travel_service, Option.some.injEq] at moved
          subst moved
          refine ⟨⟨joined _ _ forDll,
            fun other member => forService other (List.mem_cons_of_mem _ member)⟩, ?_⟩
          cases state <;>
            simp [Traffic.view, Handshake.deliver, Side.party, Service.FrameSession.react,
              findHandler_checkpoint]

theorem arrivals_excess {sides : List Side} {before after : Traffic}
    (only : before.OnlyCheckpoints sys.checkpointSignature)
    (ran : runs (fun side => sys.travel (.arrives side)) sides before = some after) :
    (after.view sys.checkpointSignature).excess =
      (before.view sys.checkpointSignature).excess :=
  (runs_invariant
    (fun traffic => traffic.OnlyCheckpoints sys.checkpointSignature ∧
      (traffic.view sys.checkpointSignature).excess =
        (before.view sys.checkpointSignature).excess)
    (fun _ _ _ held moved =>
      have arrived := sys.arrives_only held.1 moved
      ⟨arrived.1, (Handshake.deliver_excess arrived.2).trans held.2⟩)
    ⟨only, rfl⟩ ran).2

/-- Where no checkpoint is in excess, at most three arrivals are left. -/
theorem arrivals_le {sides : List Side} {before after : Traffic}
    (only : before.OnlyCheckpoints sys.checkpointSignature)
    (calm : (before.view sys.checkpointSignature).excess ≤ 0)
    (ran : runs (fun side => sys.travel (.arrives side)) sides before = some after) :
    sides.length ≤ 3 := by
  have bounded := runs_length_le
    (fun traffic => traffic.OnlyCheckpoints sys.checkpointSignature ∧
      (traffic.view sys.checkpointSignature).excess ≤ 0)
    (fun traffic => (traffic.view sys.checkpointSignature).potential)
    (by
      rintro side before after ⟨only, calm⟩ moved
      obtain ⟨kept, delivered⟩ := sys.arrives_only only moved
      exact ⟨⟨kept, by rwa [Handshake.deliver_excess delivered]⟩,
        Handshake.deliver_potential calm delivered⟩)
    ⟨only, calm⟩ ran
  have most := Handshake.potential_le calm
  omega

end System
end Wsac.Link
