import Wsac.Dll.Loop
import Wsac.Library.Context
import Wsac.Link.Checkpoints
import Wsac.Service.Loop

/-! # Synchronisation is the history of checkpoints, and gates regular data

On both sides the state at the head of the loop is `Layer1.Synced` of the headers
read so far.  In the log of a session of the service, `Gated` holds of every
entry of `PacketSession.HandleAsync` and of `HandleFrameAsync`. -/

set_option autoImplicit false

namespace Wsac

open Library Library.Exec

namespace Service.FrameSession

def received (cfg : Config) (header : FrameHeader) : Layer1.Received :=
  if header.validate cfg = false then .broken else .frame header.signature

/-- The headers that a log names, as layer 1 sees them. -/
def inputs (cfg : Config) (log : List Event) : List Layer1.Received :=
  (log.filterMap Event.head?).map fun head => received cfg head.2.1

theorem inputs_append (cfg : Config) (first second : List Event) :
    inputs cfg (first ++ second) = inputs cfg first ++ inputs cfg second := by
  unfold inputs
  rw [List.filterMap_append, List.map_append]

/-- The handler is entered behind its own header, which is valid, regular and finds the
session synchronised; a regular frame that finds it otherwise is followed by the
next frame. -/
def Gated (cfg : Config) (before : List Event) (entry : Event) (after : List Event) : Prop :=
  match entry with
  | .packet => ∃ earlier offset header,
      before = earlier ++
        [.received offset, .checked offset header true, .entered offset header] ∧
      header.validate cfg = true ∧ header.signature = cfg.regularSignature ∧
      Layer1.Synced cfg.checkpointSignature (inputs cfg earlier)
  | .entered offset header => ∃ earlier,
      before = earlier ++ [.received offset, .checked offset header true] ∧
      header.validate cfg = true ∧
      (header.signature = cfg.regularSignature →
        ¬ Layer1.Synced cfg.checkpointSignature (inputs cfg earlier) →
        after = [] ∨ ∃ next rest, after = .received next :: rest)
  | _ => True

end Service.FrameSession

namespace Link.System
variable (sys : System)

open Service Service.FrameSession

theorem findHandler_eq_checkpoint (signature : UInt16) :
    findHandler sys.toAssembly signature = some .checkpoint ↔
      signature = sys.checkpointSignature := by
  constructor
  · intro found
    have target := List.find?_some (show sys.all.find? _ = some _ from found)
    exact beq_iff_eq.mp target
  · intro same
    rw [same]
    exact findHandler_checkpoint sys

theorem findHandler_eq_regular {signature : UInt16}
    (found : findHandler sys.toAssembly signature = some .regular) :
    signature = sys.regularSignature := by
  have target := List.find?_some (show sys.all.find? _ = some _ from found)
  exact beq_iff_eq.mp target

theorem findHandler_regular :
    findHandler sys.toAssembly sys.regularSignature = some .regular := by
  have distinct := sys.distinct
  simp only [List.nodup_cons, List.mem_cons, not_or, List.not_mem_nil] at distinct
  apply findHandler_eq
  · exact beq_self_eq_true _
  · intro other target
    cases other with
    | checkpoint => exact absurd (beq_iff_eq.mp target).symm distinct.1.1
    | regular => rfl
    | test => exact absurd (beq_iff_eq.mp target) distinct.2.1.1

theorem handles_ready {state next : FrameSessionState} {signature : UInt16} {events : List Event}
    (handles : Handles sys.toAssembly state signature events next) :
    next = .ready ↔ signature = sys.checkpointSignature ∨ state = .ready := by
  have told := findHandler_eq_checkpoint sys signature
  cases handles with
  | readies _ found => simp [told.mp found]
  | answers _ reply found => simp
  | skips _ found =>
      rw [found] at told
      simpa using told
  | passes _ found => simp
  | tests _ _ found =>
      rw [found] at told
      simp only [reduceCtorEq, Option.some.injEq, false_iff] at told
      simp [told]
  | ignores _ _ found =>
      rw [found] at told
      simp only [reduceCtorEq, false_iff] at told
      simp [told]

/-- Regular data in a session that is not ready is passed over in silence. -/
theorem handles_skips {state next : FrameSessionState} {events : List Event}
    (handles : Handles sys.toAssembly state sys.regularSignature events next)
    (idle : state ≠ .ready) : events = [] := by
  have regular := findHandler_regular sys
  cases handles with
  | readies _ found =>
      rw [found] at regular
      cases regular
  | answers _ _ _ | passes _ _ => exact absurd rfl idle
  | skips _ _ | tests _ _ _ | ignores _ _ _ => rfl

theorem accepted_valid {cfg : Config} {header : FrameHeader}
    (accepted : checkHeader cfg header = .ok true) : header.validate cfg = true := by
  unfold checkHeader at accepted
  split at accepted
  · cases accepted
  · simp_all

theorem episode_synced {state next : FrameSessionState} {log new : List Event}
    (episode : Episode sys.toAssembly state new next)
    (synced : state = .ready ↔ Layer1.Synced sys.checkpointSignature (inputs sys.toConfig log)) :
    next = .ready ↔
      Layer1.Synced sys.checkpointSignature (inputs sys.toConfig (log ++ new)) := by
  rw [inputs_append]
  cases episode with
  | rejected offset header reply broken =>
      have seen : inputs sys.toConfig [.received offset, .checked offset header false, .wrote reply,
          .state .none] = [.broken] := by
        show [received sys.toConfig header] = _
        rw [received, if_pos broken]
      rw [seen, Layer1.synced_append]
      simp
  | handled _ offset header events accepted handles =>
      have silent : events.filterMap Event.head? = [] := by
        cases handles <;> rfl
      have seen : inputs sys.toConfig ([.received offset, .checked offset header true,
          .entered offset header] ++ events) = [.frame header.signature] := by
        rw [inputs, List.filterMap_append, silent]
        show [received sys.toConfig header] = _
        rw [received, if_neg (by simp [accepted_valid accepted])]
      rw [seen, Layer1.synced_append, handles_ready sys handles, synced]
      simp

/-- Complete episodes end in the state that their headers say. -/
theorem logged_synced {state : FrameSessionState} {log : List Event}
    (logged : Logged sys.toAssembly state log) :
    state = .ready ↔ Layer1.Synced sys.checkpointSignature (inputs sys.toConfig log) := by
  induction logged with
  | start => simp [inputs, Layer1.not_synced_nil]
  | episode _ episode ih => exact episode_synced sys episode ih

theorem gated_stable (cfg : Config) (before : List Event) (entry : Event)
    (after rest : List Event) (gated : Gated cfg before entry (after ++ rest)) :
    Gated cfg before entry after := by
  cases entry with
  | entered offset header =>
      obtain ⟨earlier, same, valid, skipped⟩ := gated
      refine ⟨earlier, same, valid, fun regular unsynced => ?_⟩
      rcases skipped regular unsynced with empty | ⟨next, tail, starts⟩
      · exact Or.inl (List.append_eq_nil_iff.mp empty).1
      · cases after with
        | nil => exact Or.inl rfl
        | cons first more =>
            cases starts
            exact Or.inr ⟨next, more, rfl⟩
  | packet => exact gated
  | received _ | checked _ _ _ | state _ | wrote _ => trivial

theorem episode_gated {state next : FrameSessionState} {log new : List Event}
    (episode : Episode sys.toAssembly state new next)
    (synced : state = .ready ↔ Layer1.Synced sys.checkpointSignature (inputs sys.toConfig log)) :
    InContext (fun before => Gated sys.toConfig (log ++ before)) new := by
  cases episode with
  | rejected offset header reply broken => simp [inContext_cons, inContext_nil, Gated]
  | handled _ offset header events accepted handles =>
      have valid := accepted_valid accepted
      simp only [List.cons_append, List.nil_append, inContext_cons]
      refine ⟨trivial, trivial, ⟨log, rfl, valid, fun regular unsynced => ?_⟩, ?_⟩
      · have idle : state ≠ .ready := fun ready => unsynced (synced.mp ready)
        rw [regular] at handles
        exact Or.inl (handles_skips sys handles idle)
      · cases handles with
        | passes _ found =>
            refine inContext_cons.mpr ⟨⟨log, offset, header, by simp, valid,
              findHandler_eq_regular sys found, synced.mp rfl⟩, inContext_nil⟩
        | readies _ _ | answers _ _ _ => simp [inContext_cons, inContext_nil, Gated]
        | skips _ _ | tests _ _ _ | ignores _ _ _ => exact inContext_nil

theorem cut_gated {state : FrameSessionState} {log new : List Event}
    (cut : Cut sys.toAssembly state new)
    (synced : state = .ready ↔ Layer1.Synced sys.checkpointSignature (inputs sys.toConfig log)) :
    InContext (fun before => Gated sys.toConfig (log ++ before)) new := by
  cases cut with
  | nothing => exact inContext_nil
  | begun | oversized => simp [inContext_cons, inContext_nil, Gated]
  | part next whole _ episode part =>
      apply (episode_gated sys episode synced).shorten part
      exact fun before entry after rest => gated_stable sys.toConfig _ entry after rest

/-- A gated log stays gated when the next frame begins. -/
theorem gated_grows {new : List Event}
    (begins : new = [] ∨ ∃ offset rest, new = .received offset :: rest) (before : List Event)
    (entry : Event) (after : List Event) (gated : Gated sys.toConfig before entry after) :
    Gated sys.toConfig before entry (after ++ new) := by
  cases entry with
  | entered offset header =>
      obtain ⟨earlier, same, valid, skipped⟩ := gated
      refine ⟨earlier, same, valid, fun regular unsynced => ?_⟩
      rcases skipped regular unsynced with rfl | ⟨next, tail, rfl⟩
      · exact begins
      · exact Or.inr ⟨next, tail ++ new, rfl⟩
  | packet => exact gated
  | received _ | checked _ _ _ | state _ | wrote _ => trivial

theorem episode_begins {asm : Assembly} {state next : FrameSessionState} {new : List Event}
    (episode : Episode asm state new next) : ∃ offset rest, new = .received offset :: rest := by
  cases episode with
  | rejected => exact ⟨_, _, rfl⟩
  | handled => exact ⟨_, _, rfl⟩

theorem cut_begins {asm : Assembly} {state : FrameSessionState} {new : List Event}
    (cut : Cut asm state new) : new = [] ∨ ∃ offset rest, new = .received offset :: rest := by
  cases cut with
  | nothing => exact Or.inl rfl
  | begun | oversized => exact Or.inr ⟨_, _, rfl⟩
  | part next whole _ episode part =>
      obtain ⟨offset, rest, rfl⟩ := episode_begins episode
      cases new with
      | nil => exact Or.inl rfl
      | cons first more =>
          obtain ⟨same, _⟩ := List.cons_prefix_cons.mp part
          exact Or.inr ⟨offset, more, by rw [same]⟩

theorem logged_gated {state : FrameSessionState} {log : List Event}
    (logged : Logged sys.toAssembly state log) : InContext (Gated sys.toConfig) log := by
  induction logged with
  | start => exact inContext_nil
  | episode before episode ih =>
      exact ih.append (gated_grows sys (Or.inr (episode_begins episode)))
        (episode_gated sys episode (logged_synced sys before))

/-- Both programs: at the head of the loop the state is ready exactly when a valid
checkpoint has come since the last header that failed validation, and a run of
the DLL ends in the state of its last head: so it does where the answer to a broken
header cannot be written, and this header leaves `Base` as it was.  The service: in every
session every entry of a handler is gated by that state. -/
theorem synchronisation :
    (∀ (pipe : Dll.Pipe) (world : Dll.World), Dll.Session.Reached sys.toConfig pipe world →
      (world.base = .ready ↔
        Layer1.Synced sys.checkpointSignature (world.inputs sys.toConfig))) ∧
    (∀ pipe : Dll.Pipe, ∃ last, Dll.Session.Reached sys.toConfig pipe last ∧
      let final := finalState ((Dll.Session.run sys.toConfig pipe).run Dll.World.start)
      last.log <+: final.log ∧ final.base = last.base) ∧
    (∀ (client : Client) (reader : PipeReader) (preamble : Bytes 6) (world : Service.World),
      Reached sys.toAssembly client reader preamble world →
      (world.state = .ready ↔
        Layer1.Synced sys.checkpointSignature (inputs sys.toConfig world.log))) ∧
    ∀ (client : Client) (reader : PipeReader),
      InContext (Gated sys.toConfig) (finalState (session sys.toAssembly client reader)).log := by
  refine ⟨fun pipe world reached => reached.synced sys.toConfig pipe, fun pipe => ?_,
    fun client reader preamble world reached => logged_synced sys reached.logged,
    fun client reader => ?_⟩
  · exact Dll.Session.runLoop_reached sys.toConfig pipe _ _ Dll.Session.Reached.start
  · obtain ⟨state, log, new, logged, cut, whole⟩ :=
      session_logged sys.toAssembly client reader
    rw [whole]
    exact (logged_gated sys logged).append (gated_grows sys (cut_begins cut))
      (cut_gated sys cut (logged_synced sys logged))

end Link.System

namespace Link.Sample
open Wsac.Sample

/-- One checkpoint on the way to the DLL. -/
def greeting : Dll.Pipe :=
  Dll.Pipe.waiting (config.preamble.toList ++
    (Dll.FrameHeader.new config config.checkpointSignature 0 nonce).encode.toList) nonce

def greeted : Dll.World :=
  finalState ((Dll.Session.turn config greeting).run (Dll.World.start.seek 0 1))

theorem greeted_reached : Dll.Session.Reached config greeting greeted :=
  .turn .start rfl (eq_ok_of_succeeded (by decide +kernel))

theorem synchronisation_greeted :
    Layer1.Synced config.checkpointSignature (greeted.inputs config) ∧
      ¬ Layer1.Synced config.checkpointSignature
        (Service.FrameSession.inputs config (Service.World.start .new).log) := by
  have both := System.synchronisation system
  exact ⟨(both.1 greeting greeted greeted_reached).mp (by decide +kernel),
    mt (both.2.2.1 (Service.Client.waiting [] nonce) .new _ _ .start).mpr (by decide)⟩

end Link.Sample
end Wsac
