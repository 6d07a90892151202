import Wsac.Library.Machine
import Wsac.Link.Recovery
import Wsac.Link.Synchronisation

/-! # The two endpoints as machines on received frames

Each session answers a received frame with an `Observation`.  The two states always
agree; the answers differ on a frame of unknown signature, which only the DLL
answers, and on regular data before synchronisation, which only the DLL passes on. -/

set_option autoImplicit false

namespace Wsac

open Library

structure Observation where
  ready : Bool
  /-- Checkpoint frames written. -/
  checkpoints : Nat
  /-- The frame is regular data for the packet layer. -/
  passedOn : Bool
deriving DecidableEq

namespace Dll.Session

/-- `HandleRegularSignal` is called. -/
def passesOn (cfg : Config) : Layer1.Received → Bool
  | .broken => false
  | .frame sig => decide (signalOf cfg sig = .regular)

def machine (cfg : Config) : Machine Base Layer1.Received Observation where
  step := fun base received => (react cfg base received).1
  output := fun base received =>
    ⟨decide ((react cfg base received).1 = .ready), (react cfg base received).2,
      passesOn cfg received⟩

theorem switch_of_passesOn (cfg : Config) (pipe : Pipe) (header : FrameHeader)
    (passes : passesOn cfg (.frame header.sig) = true) :
    switch cfg pipe header = handleRegularSignal := by
  simp only [passesOn, decide_eq_true_eq] at passes
  simp only [switch, passes]

/-- At the head of the loop, the machine has been through the headers read so far. -/
theorem Reached.machine {cfg : Config} {pipe : Pipe} {world : World}
    (reached : Reached cfg pipe world) :
    world.base = (machine cfg).after .none (world.inputs cfg) ∧
      world.replies.length =
        (((Session.machine cfg).outputs .none (world.inputs cfg)).map (·.checkpoints)).sum := by
  induction reached with
  | start => exact ⟨rfl, rfl⟩
  | turn _ _ ran ih =>
      rename_i before after _ _
      obtain ⟨stop, asked, image, _, _, settles⟩ := turn_ok cfg pipe ran
      obtain ⟨base, replies⟩ := ih
      have seen : after.inputs cfg =
          before.inputs cfg ++ [received cfg (FrameHeader.decode image)] := settles.inputs
      have sameBase : after.base =
          (react cfg before.base (received cfg (FrameHeader.decode image))).1 := settles.base
      have sameReplies : after.replies = before.replies ++ List.replicate
          (react cfg before.base (received cfg (FrameHeader.decode image))).2
            cfg.checkpointSignature := settles.replies
      rw [seen, Machine.after_concat, Machine.outputs_concat, sameBase, sameReplies]
      refine ⟨by rw [← base]; rfl, ?_⟩
      rw [List.length_append, List.length_replicate, List.map_append, List.sum_append, replies,
        List.map_singleton, List.sum_singleton, ← base]
      rfl

end Dll.Session

namespace Service.FrameSession

/-- `PacketSession.HandleAsync` is entered. -/
def passesOn (asm : Assembly) (state : FrameSessionState) : Layer1.Received → Bool
  | .broken => false
  | .frame signature => decide (findHandler asm signature = some .regular ∧ state ≠ .none)

def machine (asm : Assembly) : Machine FrameSessionState Layer1.Received Observation where
  step := fun state received => (react asm state received).1
  output := fun state received =>
    ⟨decide ((react asm state received).1 = .ready), (react asm state received).2,
      passesOn asm state received⟩

/-- What a session logs for a frame is what the machine answers. -/
theorem Handles.machine {asm : Assembly} {state next : FrameSessionState} {signature : UInt16}
    {events : List Event} (handles : Handles asm state signature events next) :
    next = (machine asm).step state (.frame signature) ∧
      (events.filterMap Event.reply?).length =
        ((machine asm).output state (.frame signature)).checkpoints ∧
      (.packet ∈ events ↔ ((machine asm).output state (.frame signature)).passedOn = true) := by
  cases handles with
  | readies _ found | answers _ _ found | skips _ found | passes _ found | tests _ _ found
  | ignores _ _ found =>
      simp [FrameSession.machine, react, passesOn, found, Event.reply?]

end Service.FrameSession

namespace Link.System
variable (sys : System)

open Service.FrameSession (findHandler)

theorem findHandler_test :
    findHandler sys.toAssembly sys.testSignature = some .test := by
  have distinct := sys.distinct
  simp only [List.nodup_cons, List.mem_cons, not_or, List.not_mem_nil] at distinct
  apply findHandler_eq
  · exact beq_self_eq_true _
  · intro other target
    cases other with
    | checkpoint => exact absurd (beq_iff_eq.mp target).symm distinct.1.2.1
    | regular => exact absurd (beq_iff_eq.mp target).symm distinct.2.1.1
    | test => rfl

theorem signalOf_regular : Dll.signalOf sys.toConfig sys.regularSignature = .regular := by
  have distinct := sys.distinct
  simp only [List.nodup_cons, List.mem_cons, not_or, List.not_mem_nil] at distinct
  rw [Dll.signalOf, if_neg (fun same => distinct.1.1 same.symm), if_pos rfl]

theorem signalOf_test : Dll.signalOf sys.toConfig sys.testSignature = .test := by
  have distinct := sys.distinct
  simp only [List.nodup_cons, List.mem_cons, not_or, List.not_mem_nil] at distinct
  rw [Dll.signalOf, if_neg (fun same => distinct.1.2.1 same.symm),
    if_neg (fun same => distinct.2.1.1 same.symm), if_pos rfl]

/-- A header that failed, a frame of known signature, and regular data only behind a
checkpoint. -/
def Orderly (before : List Layer1.Received) (received : Layer1.Received) : Prop :=
  match received with
  | .broken => True
  | .frame signature => signature = sys.checkpointSignature ∨ signature = sys.testSignature ∨
      (signature = sys.regularSignature ∧ Layer1.Synced sys.checkpointSignature before)

theorem service_react_ready (state : Service.FrameSessionState) (received : Layer1.Received) :
    (Service.FrameSession.react sys.toAssembly state received).1 = .ready ↔
      received = .frame sys.checkpointSignature ∨ (received ≠ .broken ∧ state = .ready) := by
  cases received with
  | broken => simp [Service.FrameSession.react]
  | frame signature =>
      have told := findHandler_eq_checkpoint sys signature
      cases found : findHandler sys.toAssembly signature with
      | none =>
          rw [found] at told
          simp only [reduceCtorEq, false_iff] at told
          simp [Service.FrameSession.react, found, told]
      | some handler =>
          rw [found] at told
          cases handler with
          | checkpoint =>
              simp only [Service.FrameSession.react, found]
              cases state <;> simp [told.mp rfl]
          | regular | test =>
              simp only [Option.some.injEq, reduceCtorEq, false_iff] at told
              simp [Service.FrameSession.react, found, told]

/-- Both states are the latch of the history. -/
theorem states_synced (inputs : List Layer1.Received) :
    ((Dll.Session.machine sys.toConfig).after .none inputs = .ready ↔
      Layer1.Synced sys.checkpointSignature inputs) ∧
    ((Service.FrameSession.machine sys.toAssembly).after .none inputs = .ready ↔
      Layer1.Synced sys.checkpointSignature inputs) := by
  constructor
  · exact latched_foldl _ (fun base => base = Dll.Base.ready) _ (by simp)
      (Dll.Session.react_ready sys.toConfig) inputs
  · exact latched_foldl _ (fun state => state = Service.FrameSessionState.ready) _ (by simp)
      (service_react_ready sys) inputs

/-- A frame of each kind in two states that agree. -/
theorem outputs_broken (base : Dll.Base) (state : Service.FrameSessionState) :
    (Dll.Session.machine sys.toConfig).output base .broken =
      (Service.FrameSession.machine sys.toAssembly).output state .broken := by
  simp [Dll.Session.machine, Service.FrameSession.machine, Dll.Session.react,
    Service.FrameSession.react, Dll.Session.passesOn, Service.FrameSession.passesOn]

theorem outputs_checkpoint (base : Dll.Base) (state : Service.FrameSessionState)
    (agree : base = .ready ↔ state = .ready) :
    (Dll.Session.machine sys.toConfig).output base (.frame sys.checkpointSignature) =
      (Service.FrameSession.machine sys.toAssembly).output state
        (.frame sys.checkpointSignature) := by
  have told : findHandler sys.toAssembly sys.checkpointSignature = some .checkpoint :=
    (findHandler_eq_checkpoint sys _).mpr rfl
  simp only [Dll.Session.machine, Service.FrameSession.machine, Dll.Session.react,
    Service.FrameSession.react, Dll.Session.passesOn, Service.FrameSession.passesOn, told,
    (Dll.Session.signalOf_eq_checkpoint sys.toConfig _).mpr rfl]
  cases base <;> cases state <;> simp_all

theorem outputs_test (base : Dll.Base) (state : Service.FrameSessionState)
    (agree : base = .ready ↔ state = .ready) :
    (Dll.Session.machine sys.toConfig).output base (.frame sys.testSignature) =
      (Service.FrameSession.machine sys.toAssembly).output state (.frame sys.testSignature) := by
  simp [Dll.Session.machine, Service.FrameSession.machine, Dll.Session.react,
    Service.FrameSession.react, Dll.Session.passesOn, Service.FrameSession.passesOn,
    findHandler_test, signalOf_test, agree]

/-- The DLL does not look at its state before it passes regular data on. -/
theorem outputs_regular_iff (base : Dll.Base) (state : Service.FrameSessionState)
    (agree : base = .ready ↔ state = .ready) :
    (Dll.Session.machine sys.toConfig).output base (.frame sys.regularSignature) =
      (Service.FrameSession.machine sys.toAssembly).output state
        (.frame sys.regularSignature) ↔ state = .ready := by
  simp only [Dll.Session.machine, Service.FrameSession.machine, Dll.Session.react,
    Service.FrameSession.react, Dll.Session.passesOn, Service.FrameSession.passesOn,
    findHandler_regular, signalOf_regular]
  cases base <;> cases state <;> simp_all

/-- The DLL answers an unknown signature with a checkpoint. -/
theorem outputs_unknown (base : Dll.Base) (state : Service.FrameSessionState) {sig : UInt16}
    (strange : sig ∉ [sys.checkpointSignature, sys.regularSignature, sys.testSignature]) :
    (Dll.Session.machine sys.toConfig).output base (.frame sig) ≠
      (Service.FrameSession.machine sys.toAssembly).output state (.frame sig) := by
  simp [Dll.Session.machine, Service.FrameSession.machine, Dll.Session.react,
    Service.FrameSession.react, findHandler_unknown strange, signalOf_unknown strange]

theorem outputs_agree_iff (before : List Layer1.Received) (base : Dll.Base)
    (state : Service.FrameSessionState) (received : Layer1.Received)
    (dllReady : base = .ready ↔ Layer1.Synced sys.checkpointSignature before)
    (serviceReady : state = .ready ↔ Layer1.Synced sys.checkpointSignature before) :
    (Dll.Session.machine sys.toConfig).output base received =
      (Service.FrameSession.machine sys.toAssembly).output state received ↔
        sys.Orderly before received := by
  have agree : base = .ready ↔ state = .ready := dllReady.trans serviceReady.symm
  have distinct := sys.distinct
  simp only [List.nodup_cons, List.mem_cons, not_or, List.not_mem_nil] at distinct
  cases received with
  | broken => exact iff_of_true (sys.outputs_broken base state) trivial
  | frame sig =>
      by_cases known : sig ∈ [sys.checkpointSignature, sys.regularSignature, sys.testSignature]
      · simp only [List.mem_cons, List.not_mem_nil, or_false] at known
        rcases known with rfl | rfl | rfl
        · exact iff_of_true (sys.outputs_checkpoint base state agree) (Or.inl rfl)
        · rw [sys.outputs_regular_iff base state agree, serviceReady, Orderly]
          constructor
          · exact fun synced => Or.inr (Or.inr ⟨rfl, synced⟩)
          · rintro (same | same | ⟨_, synced⟩)
            · exact absurd same.symm distinct.1.1
            · exact absurd same distinct.2.1.1
            · exact synced
        · exact iff_of_true (sys.outputs_test base state agree) (Or.inr (Or.inl rfl))
      · refine iff_of_false (sys.outputs_unknown base state known) fun orderly => known ?_
        rcases orderly with rfl | rfl | ⟨rfl, _⟩ <;> simp

/-- The two endpoints give the same answers exactly to orderly sequences. -/
theorem endpoints_agree_iff (inputs : List Layer1.Received) :
    (Dll.Session.machine sys.toConfig).outputs .none inputs =
      (Service.FrameSession.machine sys.toAssembly).outputs .none inputs ↔
        InContext (fun before received _ => sys.Orderly before received) inputs := by
  rw [Machine.outputs_eq_iff]
  refine forall_congr' fun before => forall_congr' fun received => forall_congr' fun after =>
    imp_congr_right fun _ => ?_
  exact outputs_agree_iff sys before _ _ received (states_synced sys before).1
    (states_synced sys before).2

end Link.System

namespace Link.Sample

/-- Regular data before any checkpoint: only the DLL passes it on. -/
theorem endpoints_disagree :
    ¬ ∀ inputs : List Layer1.Received,
      (Dll.Session.machine system.toConfig).outputs .none inputs =
        (Service.FrameSession.machine system.toAssembly).outputs .none inputs := by
  intro claimed
  exact absurd (claimed [.frame system.regularSignature]) (by decide)

end Link.Sample
end Wsac
