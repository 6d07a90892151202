import Wsac.Link.Checkpoints

/-! # Recovery of a synchronised pair from single faults

Of the four faults only one leaves a checkpoint in excess: the DLL answers a
signed frame of unknown signature with a checkpoint and stays ready, so that
the service's answer is answered again. -/

set_option autoImplicit false

namespace Wsac.Link

open Library

/-- A header that fails validation, or a signed one of unknown signature. -/
inductive Fault (sys : System) where
  | broken (side : Side)
  | unknown (side : Side) (sig : UInt16)
      (strange : sig ∉ [sys.checkpointSignature, sys.regularSignature, sys.testSignature])

/-- A fault occurs, or a frame arrives. -/
inductive Turn (sys : System) where
  | fault (fault : Fault sys)
  | delivers (side : Side)

namespace System
variable (sys : System)

def strike (fault : Fault sys) (world : World) : World :=
  match fault with
  | .broken side => sys.hears side .broken world
  | .unknown side sig _ => sys.hears side (.frame sig) world

/-- Faults are isolated: none occurs while a frame is in flight. -/
def turn : Turn sys → World → Option World
  | .fault fault, world => if world.Quiet then some (sys.strike fault world) else none
  | .delivers side, world => sys.deliver side world

/-- Every order of deliveries ends after at most two, with both parties ready. -/
def Recovers (world : World) : Prop :=
  ∀ (order : List Side) (final : World), runs sys.deliver order world = some final →
    order.length ≤ 2 ∧ (final.Quiet → final = World.synced)

/-- The pair recovers from every fault of the run. -/
def AllRecover (turns : List (Turn sys)) : Prop :=
  ∀ (before after : List (Turn sys)) (fault : Fault sys) (world : World),
    turns = before ++ .fault fault :: after →
    runs sys.turn (before ++ [.fault fault]) World.synced = some world → sys.Recovers world

/-! ## The four faults -/

theorem signalOf_unknown {cfg : Config} {sig : UInt16}
    (strange : sig ∉ [cfg.checkpointSignature, cfg.regularSignature, cfg.testSignature]) :
    Dll.signalOf cfg sig = .invalid := by
  simp only [List.mem_cons, List.not_mem_nil, or_false, not_or] at strange
  obtain ⟨checkpoint, regular, test⟩ := strange
  unfold Dll.signalOf
  rw [if_neg checkpoint, if_neg regular, if_neg test]

theorem findHandler_unknown {asm : Service.Assembly} {sig : UInt16}
    (strange : sig ∉ [asm.checkpointSignature, asm.regularSignature, asm.testSignature]) :
    Service.FrameSession.findHandler asm sig = none := by
  simp only [List.mem_cons, List.not_mem_nil, or_false, not_or] at strange
  obtain ⟨checkpoint, regular, test⟩ := strange
  apply List.find?_eq_none.mpr
  intro candidate _
  cases candidate <;> simpa [Service.Handler.isTarget]

theorem hears_unknown (side : Side) {sig : UInt16} (world : World)
    (strange : sig ∉ [sys.checkpointSignature, sys.regularSignature, sys.testSignature]) :
    sys.hears side (.frame sig) world =
      match side with
      | .dll => { world with toService := world.toService ++ [sys.checkpointSignature] }
      | .service => world := by
  cases side with
  | dll => simp [hears, Dll.Session.react, signalOf_unknown strange]
  | service => simp [hears, Service.FrameSession.react, findHandler_unknown strange]

theorem strike_only (fault : Fault sys) {world : World} (only : sys.OnlyCheckpoints world) :
    sys.OnlyCheckpoints (sys.strike fault world) := by
  cases fault <;> exact sys.hears_only _ _ only

/-- No fault takes more checkpoints off the balance than it puts on it. -/
theorem strike_excess_le (fault : Fault sys) (world : World) :
    world.view.excess ≤ (sys.strike fault world).view.excess := by
  cases fault with
  | broken side =>
      rw [strike, fails_view, Handshake.ask_excess]
      split <;> omega
  | unknown side sig strange =>
      rw [strike, sys.hears_unknown side world strange]
      cases side <;> simp [World.view, Handshake.excess, Handshake.inFlight, Handshake.idles]

/-! ## Isolated faults meet a synchronised pair -/

theorem synced_of_quiet {world : World} (excess : 0 ≤ world.view.excess) (quiet : world.Quiet) :
    world = World.synced := by
  rw [quiet.excess] at excess
  obtain ⟨base, state, toDll, toService⟩ := world
  obtain ⟨rfl, rfl⟩ := quiet
  cases base <;> cases state <;> simp [World.view, Handshake.idles] at excess
  rfl

/-- What holds at every moment of a run of isolated faults. -/
structure Owed (world : World) : Prop where
  only : sys.OnlyCheckpoints world
  excess : 0 ≤ world.view.excess

theorem synced_owed : sys.Owed World.synced := by
  refine ⟨?_, by decide⟩
  constructor <;> intro sig member <;> cases member

theorem turn_owed (taken : Turn sys) (before after : World) (owed : sys.Owed before)
    (ran : sys.turn taken before = some after) : sys.Owed after := by
  cases taken with
  | fault fault =>
      rw [turn] at ran
      split at ran
      · cases ran
        exact ⟨sys.strike_only fault owed.only,
          owed.excess.trans (sys.strike_excess_le fault before)⟩
      · cases ran
  | delivers side =>
      refine ⟨sys.deliver_only side owed.only ran, ?_⟩
      rw [sys.deliver_excess owed.only ran]
      exact owed.excess

/-- The state in which a fault of the run strikes is the synchronised one. -/
theorem strikes_synced {before : List (Turn sys)} {fault : Fault sys} {world : World}
    (ran : runs sys.turn (before ++ [.fault fault]) World.synced = some world) :
    world = sys.strike fault World.synced := by
  obtain ⟨middle, first, struck⟩ := (runs_append_eq_some sys.turn).mp ran
  have owed : sys.Owed middle := runs_invariant sys.Owed sys.turn_owed sys.synced_owed first
  rw [runs_singleton, turn] at struck
  split at struck
  · rename_i quiet
    rw [synced_of_quiet owed.excess quiet] at struck
    exact (Option.some.inj struck).symm
  · cases struck

/-! ## Which strikes are recovered from -/

theorem recovers_of_balance {world : World} (only : sys.OnlyCheckpoints world)
    (balance : world.view.excess = 0) (short : world.view.potential ≤ 2) : sys.Recovers world := by
  intro order final ran
  let inv : World → Prop := fun world => sys.OnlyCheckpoints world ∧ world.view.excess = 0
  have delivered : ∀ side before after, inv before → sys.deliver side before = some after →
      inv after ∧ after.view.potential < before.view.potential := by
    intro side before after held moved
    have viewed := sys.deliver_view side held.1
    rw [moved, Option.map_some] at viewed
    exact ⟨⟨sys.deliver_only side held.1 moved, (sys.deliver_excess held.1 moved).trans held.2⟩,
      Handshake.deliver_potential held.2.le viewed.symm⟩
  have length := runs_length_le inv (fun world => world.view.potential) delivered
    ⟨only, balance⟩ ran
  have kept : inv final := runs_invariant inv
    (fun side before after held moved => (delivered side before after held moved).1)
    ⟨only, balance⟩ ran
  exact ⟨by omega, synced_of_quiet kept.2.ge⟩

theorem not_recovers_of_excess {world : World} (only : sys.OnlyCheckpoints world)
    (excess : 0 < world.view.excess) : ¬ sys.Recovers world := by
  intro recovers
  have progress : ∀ before, sys.OnlyCheckpoints before ∧ 0 < before.view.excess →
      ∃ side after, sys.deliver side before = some after ∧
        sys.OnlyCheckpoints after ∧ 0 < after.view.excess := by
    intro before held
    obtain ⟨party, target, delivered, kept⟩ := Handshake.exists_deliver_of_excess held.2
    obtain ⟨side, after, moved, viewed⟩ := sys.exists_deliver_of_view held.1 delivered
    exact ⟨side, after, moved, sys.deliver_only side held.1 moved, by rwa [viewed]⟩
  obtain ⟨order, final, length, ran⟩ := exists_run _ progress ⟨only, excess⟩ 3
  have short := (recovers order final ran).1
  omega

theorem recovers_broken (side : Side) : sys.Recovers (sys.hears side .broken World.synced) := by
  refine sys.recovers_of_balance (sys.hears_only side _ sys.synced_owed.only) ?_ ?_
  · rw [fails_view]
    cases side <;> rfl
  · rw [fails_view]
    cases side <;> decide

/-- Both parties are ready with a checkpoint in flight. -/
theorem not_recovers_unknown_dll {sig : UInt16}
    (strange : sig ∉ [sys.checkpointSignature, sys.regularSignature, sys.testSignature]) :
    ¬ sys.Recovers (sys.hears .dll (.frame sig) World.synced) := by
  apply sys.not_recovers_of_excess (sys.hears_only .dll _ sys.synced_owed.only)
  rw [sys.hears_unknown .dll World.synced strange]
  show 0 < Handshake.excess ⟨false, false, 0, 1⟩
  decide

theorem recovers_unknown_service {sig : UInt16}
    (strange : sig ∉ [sys.checkpointSignature, sys.regularSignature, sys.testSignature]) :
    sys.Recovers (sys.hears .service (.frame sig) World.synced) := by
  rw [sys.hears_unknown .service World.synced strange]
  refine sys.recovers_of_balance sys.synced_owed.only rfl ?_
  show World.synced.view.potential ≤ 2
  decide

/-- From the synchronised pair, every fault is recovered from but the frame of
unknown signature at the DLL. -/
theorem recovers_strike_iff (fault : Fault sys) :
    sys.Recovers (sys.strike fault World.synced) ↔
      ∀ sig strange, fault ≠ .unknown .dll sig strange := by
  cases fault with
  | broken side => simp [strike, sys.recovers_broken side]
  | unknown side sig strange =>
      cases side with
      | dll =>
          constructor
          · intro recovers
            exact absurd recovers (sys.not_recovers_unknown_dll strange)
          · intro none
            exact absurd rfl (none sig strange)
      | service => simp [strike, sys.recovers_unknown_service strange]

/-- A run of isolated faults from the synchronised pair recovers from each of them
exactly when the DLL receives no signed frame of unknown signature. -/
theorem allRecover_iff (turns : List (Turn sys)) (final : World)
    (ran : runs sys.turn turns World.synced = some final) :
    sys.AllRecover turns ↔ ∀ sig strange, .fault (.unknown .dll sig strange) ∉ turns := by
  constructor
  · intro all sig strange member
    obtain ⟨before, after, split⟩ := List.append_of_mem member
    have prefixed : turns = (before ++ [.fault (.unknown .dll sig strange)]) ++ after := by
      rw [split, List.append_assoc]
      rfl
    rw [prefixed] at ran
    obtain ⟨world, struck, _⟩ := (runs_append_eq_some sys.turn).mp ran
    have recovers := all before after _ world split struck
    rw [sys.strikes_synced struck, recovers_strike_iff] at recovers
    exact recovers sig strange rfl
  · intro none before after fault world split struck
    rw [sys.strikes_synced struck, recovers_strike_iff]
    intro sig strange same
    apply none sig strange
    rw [split, same]
    simp

end System

namespace Sample

/-- Signature 0, `FrameSig::Null` of the DLL's enumeration. -/
def unknownAtDll : Turn system := .fault (.unknown .dll 0 (by decide))

theorem unknown_signature_echoes :
    ¬ ∀ (turns : List (Turn system)) (final : World),
      runs system.turn turns World.synced = some final → system.AllRecover turns := by
  intro claimed
  have all := claimed [unknownAtDll] ⟨.ready, .ready, [], [system.checkpointSignature]⟩
    (by decide +kernel)
  have recovers := all [] [] _ ⟨.ready, .ready, [], [system.checkpointSignature]⟩ rfl
    (by decide +kernel)
  have short := (recovers [.service, .dll, .service]
    ⟨.ready, .ready, [system.checkpointSignature], []⟩ (by decide +kernel)).1
  exact absurd short (by decide)

/-- Both parties fail in turn, then the service receives an unknown signature. -/
def threeFaults : List (Turn system) :=
  [.fault (.broken .dll), .delivers .service, .delivers .dll, .fault (.broken .service),
    .delivers .dll, .delivers .service, .fault (.unknown .service 0 (by decide))]

theorem allRecover_iff_threeFaults :
    system.AllRecover threeFaults ↔
      ∀ sig strange, .fault (.unknown .dll sig strange) ∉ threeFaults :=
  system.allRecover_iff threeFaults World.synced (by decide +kernel)

end Sample
end Wsac.Link
