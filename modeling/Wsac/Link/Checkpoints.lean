import Wsac.Link.System

/-! # Checkpoints between the two programs

While only checkpoints are in flight, the two programs are the `Handshake` of
one token: `deliver_view` and `fails_view`.  A failure of a party that is none
already adds a token but no party that waits for one; `idleFailures` counts
these along a run, and the two parties that are none at the start absorb two. -/

set_option autoImplicit false

namespace Wsac.Link

open Library

def Side.party : Side → Party
  | .dll => .left
  | .service => .right

def World.view (world : World) : Handshake :=
  ⟨world.base = .none, world.state = .none, world.toDll.length, world.toService.length⟩

/-- `Base` of the DLL, `FrameSessionState` of the service. -/
def World.isNone (world : World) : Side → Bool
  | .dll => world.base = .none
  | .service => world.state = .none

/-- One party fails validation, or a frame arrives. -/
inductive Move where
  | fails (side : Side)
  | delivers (side : Side)
deriving DecidableEq

namespace System
variable (sys : System)

def move : Move → World → Option World
  | .fails side, world => some (sys.hears side .broken world)
  | .delivers side, world => sys.deliver side world

def exec : List Move → World → Option World := runs sys.move

/-- The failures of a party that is none already, along a run. -/
def idleFailures : List Move → World → Nat
  | [], _ => 0
  | .fails side :: rest, world =>
      (if world.isNone side then 1 else 0) + idleFailures rest (sys.hears side .broken world)
  | .delivers side :: rest, world =>
      match sys.deliver side world with
      | none => 0
      | some after => idleFailures rest after

/-- Deliveries alone come to an end. -/
def DiesOut (world : World) : Prop :=
  ¬ Chain (fun before after => ∃ side, sys.deliver side before = some after) world

def OnlyCheckpoints (world : World) : Prop :=
  (∀ sig ∈ world.toDll, sig = sys.checkpointSignature) ∧
    ∀ sig ∈ world.toService, sig = sys.checkpointSignature

/-! ## What the two parties do with a checkpoint -/

theorem signalOf_checkpoint (cfg : Config) :
    Dll.signalOf cfg cfg.checkpointSignature = .checkpoint := if_pos rfl

theorem findHandler_eq {asm : Service.Assembly} {signature : UInt16} {handler : Service.Handler}
    (target : handler.isTarget asm.toConfig signature = true)
    (only : ∀ other : Service.Handler, other.isTarget asm.toConfig signature = true →
      other = handler) :
    Service.FrameSession.findHandler asm signature = some handler := by
  have listed : handler ∈ asm.all := by
    rw [asm.all_perm.mem_iff]
    cases handler <;> simp
  cases found : Service.FrameSession.findHandler asm signature with
  | none => exact absurd target (List.find?_eq_none.mp found handler listed)
  | some other =>
      have target := List.find?_some (show asm.all.find? _ = some other from found)
      rw [only other target]

theorem findHandler_checkpoint :
    Service.FrameSession.findHandler sys.toAssembly sys.checkpointSignature =
      some .checkpoint := by
  have distinct := sys.distinct
  simp only [List.nodup_cons, List.mem_cons, not_or, List.not_mem_nil] at distinct
  apply findHandler_eq
  · exact beq_self_eq_true _
  · intro other target
    cases other with
    | checkpoint => rfl
    | regular => exact absurd (beq_iff_eq.mp target) distinct.1.1
    | test => exact absurd (beq_iff_eq.mp target) distinct.1.2.1

/-- A checkpoint turns a party that is none into ready, and is answered otherwise. -/
theorem hears_checkpoint (side : Side) (world : World) :
    sys.hears side (.frame sys.checkpointSignature) world =
      match side with
      | .dll => if world.base = .none then { world with base := .ready }
          else { world with toService := world.toService ++ [sys.checkpointSignature] }
      | .service => if world.state = .none then { world with state := .ready }
          else { world with toDll := world.toDll ++ [sys.checkpointSignature] } := by
  obtain ⟨base, state, toDll, toService⟩ := world
  cases side with
  | dll => cases base <;> simp [hears, Dll.Session.react, signalOf_checkpoint]
  | service =>
      cases state <;> simp [hears, Service.FrameSession.react, findHandler_checkpoint]

theorem hears_broken (side : Side) (world : World) :
    sys.hears side .broken world =
      match side with
      | .dll => { world with
          base := .none
          toService := world.toService ++ [sys.checkpointSignature] }
      | .service => { world with
          state := .none
          toDll := world.toDll ++ [sys.checkpointSignature] } := by
  cases side <;> rfl

/-! ## The handshake of the two programs -/

theorem idle_view (side : Side) (world : World) :
    world.view.idle side.party = world.isNone side := by
  cases side <;> rfl

theorem fails_view (side : Side) (world : World) :
    (sys.hears side .broken world).view = Handshake.ask side.party world.view := by
  rw [hears_broken]
  cases side <;> simp [World.view, Handshake.ask, Side.party]

/-- Whatever a party receives, it writes nothing but checkpoints. -/
theorem hears_only (side : Side) (received : Layer1.Received) {world : World}
    (only : sys.OnlyCheckpoints world) : sys.OnlyCheckpoints (sys.hears side received world) := by
  obtain ⟨forDll, forService⟩ := only
  have joined : ∀ (channel : List UInt16) (count : Nat),
      (∀ sig ∈ channel, sig = sys.checkpointSignature) →
      ∀ sig ∈ channel ++ List.replicate count sys.checkpointSignature,
        sig = sys.checkpointSignature := by
    intro channel count before sig member
    rcases List.mem_append.mp member with old | new
    · exact before sig old
    · exact List.eq_of_mem_replicate new
  cases side with
  | dll => exact ⟨forDll, joined _ _ forService⟩
  | service => exact ⟨joined _ _ forDll, forService⟩

theorem deliver_view (side : Side) {world : World} (only : sys.OnlyCheckpoints world) :
    (sys.deliver side world).map World.view = Handshake.deliver side.party world.view := by
  obtain ⟨base, state, toDll, toService⟩ := world
  obtain ⟨forDll, forService⟩ := only
  cases side with
  | dll =>
      cases toDll with
      | nil => cases base <;> rfl
      | cons sig rest =>
          rw [forDll sig (by simp)]
          simp only [deliver, hears_checkpoint]
          cases base <;> simp [World.view, Handshake.deliver, Side.party]
  | service =>
      cases toService with
      | nil => cases state <;> cases base <;> rfl
      | cons sig rest =>
          rw [forService sig (by simp)]
          simp only [deliver, hears_checkpoint]
          cases state <;> simp [World.view, Handshake.deliver, Side.party]

theorem deliver_only (side : Side) {world after : World} (only : sys.OnlyCheckpoints world)
    (delivered : sys.deliver side world = some after) : sys.OnlyCheckpoints after := by
  obtain ⟨base, state, toDll, toService⟩ := world
  obtain ⟨forDll, forService⟩ := only
  cases side with
  | dll =>
      cases toDll with
      | nil => cases delivered
      | cons sig rest =>
          cases delivered
          exact sys.hears_only .dll _ ⟨fun sig member => forDll sig (.tail _ member), forService⟩
  | service =>
      cases toService with
      | nil => cases delivered
      | cons sig rest =>
          cases delivered
          exact sys.hears_only .service _
            ⟨forDll, fun sig member => forService sig (.tail _ member)⟩

theorem exists_deliver_of_view {party : Party} {world : World} {target : Handshake}
    (only : sys.OnlyCheckpoints world)
    (delivered : Handshake.deliver party world.view = some target) :
    ∃ side after, sys.deliver side world = some after ∧ after.view = target := by
  obtain ⟨side, rfl⟩ : ∃ side : Side, side.party = party := by
    cases party with
    | left => exact ⟨.dll, rfl⟩
    | right => exact ⟨.service, rfl⟩
  rw [← sys.deliver_view side only] at delivered
  obtain ⟨after, moved, viewed⟩ := Option.map_eq_some_iff.mp delivered
  exact ⟨side, after, moved, viewed⟩

/-- Deliveries never change the excess of checkpoints over parties that are none. -/
theorem deliver_excess {side : Side} {world after : World} (only : sys.OnlyCheckpoints world)
    (delivered : sys.deliver side world = some after) :
    after.view.excess = world.view.excess := by
  have viewed := sys.deliver_view side only
  rw [delivered, Option.map_some] at viewed
  exact Handshake.deliver_excess viewed.symm

theorem exec_excess {run : List Move} {world final : World} (only : sys.OnlyCheckpoints world)
    (ran : sys.exec run world = some final) :
    sys.OnlyCheckpoints final ∧
      final.view.excess = world.view.excess + sys.idleFailures run world := by
  induction run generalizing world with
  | nil =>
      cases ran
      exact ⟨only, by simp [idleFailures]⟩
  | cons head rest ih =>
      obtain ⟨middle, moved, remaining⟩ := (runs_cons_eq_some sys.move).mp ran
      cases head with
      | fails side =>
          cases moved
          obtain ⟨kept, excess⟩ := ih (sys.hears_only side .broken only) remaining
          refine ⟨kept, ?_⟩
          rw [excess, fails_view, Handshake.ask_excess, idle_view, idleFailures]
          split
          · simp
            omega
          · simp
      | delivers side =>
          obtain ⟨kept, excess⟩ := ih (sys.deliver_only side only moved) remaining
          refine ⟨kept, ?_⟩
          rw [excess, sys.deliver_excess only moved, idleFailures,
            show sys.deliver side world = some middle from moved]

theorem start_only : sys.OnlyCheckpoints World.start := by
  constructor <;> intro sig member <;> cases member

theorem diesOut_iff_excess {world : World} (only : sys.OnlyCheckpoints world) :
    sys.DiesOut world ↔ world.view.excess ≤ 0 := by
  rw [← Handshake.not_chain_iff]
  unfold DiesOut
  refine not_congr (chain_iff_of_view sys.OnlyCheckpoints World.view ?_ ?_ only)
  · intro before after held moved
    obtain ⟨side, delivered⟩ := moved
    refine ⟨sys.deliver_only side held delivered, side.party, ?_⟩
    rw [← sys.deliver_view side held, delivered, Option.map_some]
  · intro before target held moved
    obtain ⟨party, delivered⟩ := moved
    obtain ⟨side, after, moved, viewed⟩ := sys.exists_deliver_of_view held delivered
    exact ⟨after, ⟨side, moved⟩, viewed⟩

/-! ## Dying out, and agreement at rest -/

/-- After a run from the start the exchange dies out exactly when at most two
failures of the run hit a party that was none. -/
theorem diesOut_iff (run : List Move) (final : World)
    (ran : sys.exec run World.start = some final) :
    sys.DiesOut final ↔ sys.idleFailures run World.start ≤ 2 := by
  obtain ⟨only, excess⟩ := sys.exec_excess sys.start_only ran
  have begins : World.start.view.excess = -2 := rfl
  rw [sys.diesOut_iff_excess only, excess, begins]
  omega

end System

namespace Sample

/-- The DLL fails three times before the service hears of it. -/
def threeFailures : List Move :=
  [.fails .dll, .fails .dll, .fails .dll, .delivers .service, .delivers .service, .delivers .dll]

theorem checkpoint_bounces_forever :
    ¬ ∀ (run : List Move) (final : World), system.exec run World.start = some final →
      system.DiesOut final := by
  intro claimed
  let up : World := ⟨.ready, .ready, [], [system.checkpointSignature]⟩
  let down : World := ⟨.ready, .ready, [system.checkpointSignature], []⟩
  apply claimed threeFailures up (by decide +kernel)
  refine Chain.of_progress (fun world => world = up ∨ world = down) ?_ (.inl rfl)
  intro before held
  rcases held with rfl | rfl
  · exact ⟨down, ⟨.service, by decide +kernel⟩, .inr rfl⟩
  · exact ⟨up, ⟨.dll, by decide +kernel⟩, .inl rfl⟩

/-- Each party fails once, and the handshake that follows dies out. -/
def oneFailureEach : List Move := [.fails .dll, .fails .service, .delivers .dll]

theorem diesOut_iff_oneFailureEach :
    system.DiesOut ⟨.ready, .none, [], [system.checkpointSignature]⟩ ↔
      system.idleFailures oneFailureEach World.start ≤ 2 :=
  system.diesOut_iff oneFailureEach ⟨.ready, .none, [], [system.checkpointSignature]⟩
    (by decide +kernel)

end Sample

theorem World.Quiet.excess {world : World} (quiet : world.Quiet) :
    world.view.excess = -(world.view.idles : Int) := by
  simp [World.view, Handshake.excess, Handshake.inFlight, quiet.1, quiet.2]

theorem World.agree_iff_idles (world : World) : world.Agree ↔ world.view.idles ≠ 1 := by
  obtain ⟨base, state, toDll, toService⟩ := world
  cases base <;> cases state <;> simp [World.Agree, World.view, Handshake.idles]

/-- With nothing in flight the two parties agree exactly when the number of
failures that hit a party that was none is not one. -/
theorem System.agree_at_rest_iff (sys : System) (run : List Move) (final : World)
    (ran : sys.exec run World.start = some final) (quiet : final.Quiet) :
    final.Agree ↔ sys.idleFailures run World.start ≠ 1 := by
  obtain ⟨_, excess⟩ := sys.exec_excess sys.start_only ran
  have begins : World.start.view.excess = -2 := rfl
  rw [begins, quiet.excess] at excess
  rw [final.agree_iff_idles]
  omega

namespace Sample

/-- The service asks while both are none: the DLL turns ready, the service stays none. -/
theorem dll_ready_alone :
    ¬ ∀ (run : List Move) (final : World), system.exec run World.start = some final →
      final.Quiet → final.Agree := by
  intro claimed
  have agree := claimed [.fails .service, .delivers .dll] ⟨.ready, .none, [], []⟩
    (by decide +kernel) (by decide)
  rcases agree with ⟨none, _⟩ | ⟨_, ready⟩
  · cases none
  · cases ready

theorem agree_at_rest_iff_oneFailureEach :
    World.synced.Agree ↔
      system.idleFailures (oneFailureEach ++ [.delivers .service]) World.start ≠ 1 :=
  system.agree_at_rest_iff (oneFailureEach ++ [.delivers .service]) World.synced
    (by decide +kernel) (by decide)

end Sample
end Wsac.Link
