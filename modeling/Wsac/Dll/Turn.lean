import Wsac.Dll.Growth
import Wsac.Layer1

/-! # What one turn of the DLL's session does

`react` is the layer 1 state machine of the session seen from outside: what a
received frame does to `Base` and how many checkpoints it costs.  `Settles` says
that a handled header has had exactly this effect, has been logged, and has
taken its body off the wire only where a handler reads it.  On any pipe a
handling that returns has settled its header. -/

set_option autoImplicit false

namespace Wsac.Dll

open Library Library.Exec

namespace Session

/-- New `Base`, and the number of checkpoints written. -/
def react (cfg : Config) (base : Base) : Layer1.Received → Base × Nat
  | .broken => (.none, 1)
  | .frame sig =>
      match signalOf cfg sig with
      | .checkpoint => if base = .none then (.ready, 0) else (base, 1)
      | .regular => (base, 0)
      | .test => (base, 0)
      | .invalid => (base, 1)

def received (cfg : Config) (header : FrameHeader) : Layer1.Received :=
  if header.validate cfg = false then .broken else .frame header.sig

def bodyTaken (cfg : Config) (header : FrameHeader) : Nat :=
  if header.validate cfg = true ∧ signalOf cfg header.sig = .test then header.dataSize.toNat
  else 0

end Session

def Event.reply? : Event → Option UInt16
  | .rejected _ _ => none
  | .dispatched _ _ => none
  | .base _ => none
  | .wrote header => some header.sig

/-- The signatures of the frames written. -/
def World.replies (world : World) : List UInt16 := world.log.filterMap Event.reply?

theorem heads_of_log (first : World) {second : World} (new : List Event)
    (log : second.log = first.log ++ new) :
    second.heads = first.heads ++ new.filterMap Event.head? := by
  unfold World.heads
  rw [log, List.filterMap_append]

theorem replies_of_log (first : World) {second : World} (new : List Event)
    (log : second.log = first.log ++ new) :
    second.replies = first.replies ++ new.filterMap Event.reply? := by
  unfold World.replies
  rw [log, List.filterMap_append]

namespace Session

/-- From `before` to `after` nothing was read, and layer 1 reacted with `outcome`. -/
structure Reacts (cfg : Config) (before after : World) (outcome : Base × Nat) : Prop where
  position : after.position = before.position
  heads : after.heads = before.heads
  base : after.base = outcome.1
  replies : after.replies = before.replies ++ List.replicate outcome.2 cfg.checkpointSignature

structure Settles (cfg : Config) (offset : Nat) (header : FrameHeader) (before after : World) :
    Prop where
  position : after.position = before.position + bodyTaken cfg header
  heads : after.heads = before.heads ++ [(offset, header, header.validate cfg)]
  base : after.base = (react cfg before.base (received cfg header)).1
  replies : after.replies = before.replies ++
    List.replicate (react cfg before.base (received cfg header)).2 cfg.checkpointSignature

section
variable (cfg : Config) (pipe : Pipe)

theorem record_run (event : Event) (world : World) :
    (record event).run world = .ok () { world with log := world.log ++ [event] } := rfl

theorem setBase_run (value : Base) (world : World) :
    (setBase value).run world =
      .ok () { world with base := value, log := world.log ++ [.base value] } := rfl

theorem drawNonce_run (world : World) :
    (FrameWriter.drawNonce pipe).run world =
      .ok (pipe.nonce world.drawn) { world with drawn := world.drawn + 1 } := rfl

theorem Reacts.refl (world : World) : Reacts cfg world world (world.base, 0) :=
  ⟨rfl, rfl, rfl, (List.append_nil _).symm⟩

theorem Reacts.trans {first second third : World} {base : Base} {left right : Nat} {last : Base}
    (one : Reacts cfg first second (base, left)) (two : Reacts cfg second third (last, right)) :
    Reacts cfg first third (last, left + right) := by
  refine ⟨two.position.trans one.position, two.heads.trans one.heads, two.base, ?_⟩
  rw [two.replies, one.replies, List.append_assoc, List.replicate_append_replicate]

theorem writeCheckpoint_ok {world after : World}
    (ran : (FrameWriter.writeCheckpoint cfg pipe).run world = .ok () after) :
    Reacts cfg world after (world.base, 1) := by
  unfold FrameWriter.writeCheckpoint at ran
  rw [run_bind_ok (drawNonce_run pipe world)] at ran
  obtain ⟨_, sent, wrote, recorded⟩ := run_bind_eq_ok.mp ran
  obtain ⟨_, headed, first, second⟩ := run_bind_eq_ok.mp wrote
  obtain ⟨_, headedIs⟩ := PipeWriter.write_ok pipe first
  obtain ⟨_, sentIs⟩ := PipeWriter.write_ok pipe second
  rw [record_run] at recorded
  cases recorded
  subst sentIs headedIs
  refine ⟨rfl, ?_, rfl, ?_⟩
  · rw [heads_of_log world [.wrote _] rfl]
    exact List.append_nil _
  · rw [replies_of_log world [.wrote _] rfl]
    rfl

theorem setBase_ok {value : Base} {world after : World}
    (ran : (setBase value).run world = .ok () after) : Reacts cfg world after (value, 0) := by
  rw [setBase_run] at ran
  cases ran
  refine ⟨rfl, ?_, rfl, ?_⟩
  · rw [heads_of_log world [.base value] rfl]
    exact List.append_nil _
  · rw [replies_of_log world [.base value] rfl]
    rfl

/-- The three cases of the switch that read nothing. -/
theorem switch_ok {header : FrameHeader} {world after : World}
    (untested : signalOf cfg header.sig ≠ .test)
    (ran : (switch cfg pipe header).run world = .ok () after) :
    Reacts cfg world after (react cfg world.base (.frame header.sig)) := by
  unfold switch at ran
  cases signal : signalOf cfg header.sig with
  | checkpoint =>
      simp only [signal, handleCheckpointSignal] at ran
      simp only [react, signal]
      rw [run_get_bind] at ran
      by_cases idle : world.base = .none
      · rw [if_pos idle] at ran
        rw [if_pos idle]
        exact setBase_ok cfg ran
      · rw [if_neg idle] at ran
        rw [if_neg idle]
        exact writeCheckpoint_ok cfg pipe ran
  | regular =>
      simp only [signal] at ran
      cases ran
      simp only [react, signal]
      exact Reacts.refl cfg world
  | test => exact absurd signal untested
  | invalid =>
      simp only [signal] at ran
      simp only [react, signal]
      exact writeCheckpoint_ok cfg pipe ran

theorem Reacts.settles {offset : Nat} {header : FrameHeader} {world after : World} (event : Event)
    (head : event.head? = some (offset, header, header.validate cfg)) (silent : event.reply? = none)
    (noBody : bodyTaken cfg header = 0)
    (reacts : Reacts cfg { world with log := world.log ++ [event] } after
      (react cfg world.base (received cfg header))) :
    Settles cfg offset header world after := by
  refine ⟨?_, ?_, reacts.base, ?_⟩
  · rw [reacts.position, noBody]
    rfl
  · rw [reacts.heads, heads_of_log world [event] rfl]
    simp [head]
  · rw [reacts.replies, replies_of_log world [event] rfl]
    simp [silent]

/-- A test frame that is handled has a body that fits a vector. -/
theorem handleTestSignal_ok {dataSize : Nat} {world after : World}
    (ran : (handleTestSignal pipe dataSize).run world = .ok () after) :
    (FrameReader.readUnsafeData pipe (List.Vector.replicate dataSize 0) >>= fun _ =>
      pure ()).run world = .ok () after := by
  unfold handleTestSignal at ran
  split at ran
  · cases ran
  · exact ran

/-- Whatever the pipe does: a header that has been handled has had its effect. -/
theorem handle_ok {offset : Nat} {header : FrameHeader} {world after : World}
    (ran : (handle cfg pipe offset header).run world = .ok () after) :
    Settles cfg offset header world after := by
  unfold handle at ran
  by_cases invalid : header.validate cfg = false
  · rw [if_pos invalid, run_bind_ok (record_run _ world)] at ran
    obtain ⟨_, middle, wrote, reset⟩ := run_bind_eq_ok.mp ran
    have reaction : react cfg world.base (received cfg header) = (.none, 1) := by
      simp [received, invalid, react]
    apply Reacts.settles cfg (.rejected offset header)
    · simp [Event.head?, invalid]
    · rfl
    · simp [bodyTaken, invalid]
    · rw [reaction]
      exact Reacts.trans cfg (writeCheckpoint_ok cfg pipe wrote) (setBase_ok cfg reset)
  · rw [if_neg invalid, run_bind_ok (record_run _ world)] at ran
    have valid : header.validate cfg = true := by simpa using invalid
    have passed : received cfg header = .frame header.sig := by simp [received, valid]
    by_cases test : signalOf cfg header.sig = .test
    · simp only [switch, test] at ran
      obtain ⟨filled, middle, read, done⟩ := run_bind_eq_ok.mp (handleTestSignal_ok pipe ran)
      cases done
      obtain ⟨_, moved, _⟩ := PipeReader.read_ok pipe read
      have reaction : react cfg world.base (received cfg header) = (world.base, 0) := by
        simp [passed, react, test]
      rw [moved]
      refine ⟨by simp [bodyTaken, valid, test], ?_, by rw [reaction]; rfl, ?_⟩
      · rw [heads_of_log world [.dispatched offset header] rfl]
        simp [Event.head?, valid]
      · rw [reaction, replies_of_log world [.dispatched offset header] rfl]
        simp [Event.reply?]
    · apply Reacts.settles cfg (.dispatched offset header)
      · simp [Event.head?, valid]
      · rfl
      · simp [bodyTaken, test]
      · rw [passed]
        exact switch_ok cfg pipe test ran

/-! ## Pipes that work -/

theorem write_run (up : pipe.brokenAt = none) (header : FrameHeader) (world : World) :
    (FrameWriter.write cfg pipe header).run world = .ok () { world with
      written := world.written ++ (cfg.preamble.toList ++ header.encode.toList) } := by
  have small : ∀ {n : Nat} (bytes : Bytes n), n < 2 ^ 32 → bytes.toList.length < 2 ^ 32 := by
    intro n bytes bound
    rwa [List.Vector.toList_length]
  unfold FrameWriter.write
  rw [run_bind_ok (PipeWriter.write_run pipe up _ (small _ (by omega)) world),
    PipeWriter.write_run pipe up _ (small _ (by omega)), List.append_assoc]

theorem writeCheckpoint_run (up : pipe.brokenAt = none) (world : World) :
    (FrameWriter.writeCheckpoint cfg pipe).run world =
      let header := FrameHeader.new cfg cfg.checkpointSignature 0 (pipe.nonce world.drawn)
      .ok () { world with
        drawn := world.drawn + 1
        written := world.written ++ (cfg.preamble.toList ++ header.encode.toList)
        log := world.log ++ [.wrote header] } := by
  unfold FrameWriter.writeCheckpoint
  rw [run_bind_ok (drawNonce_run pipe world)]
  simp only
  rw [run_bind_ok (write_run cfg pipe up _ _)]
  rfl

theorem switch_run (up : pipe.brokenAt = none) (header : FrameHeader) (world : World)
    (untested : signalOf cfg header.sig ≠ .test) :
    ∃ after, (switch cfg pipe header).run world = .ok () after := by
  unfold switch
  cases signal : signalOf cfg header.sig with
  | checkpoint =>
      simp only [handleCheckpointSignal]
      rw [run_get_bind]
      by_cases idle : world.base = .none
      · rw [if_pos idle]
        exact ⟨_, setBase_run .ready world⟩
      · rw [if_neg idle]
        exact ⟨_, writeCheckpoint_run cfg pipe up world⟩
  | regular => exact ⟨world, rfl⟩
  | test => exact absurd signal untested
  | invalid => exact ⟨_, writeCheckpoint_run cfg pipe up world⟩

/-- A header that fails validation: a checkpoint, and `Base` becomes none. -/
theorem handle_broken (up : pipe.brokenAt = none) (offset : Nat) (header : FrameHeader)
    (world : World) (invalid : header.validate cfg = false) :
    ∃ after, (handle cfg pipe offset header).run world = .ok () after ∧
      Settles cfg offset header world after := by
  obtain ⟨after, ran⟩ : ∃ after, (handle cfg pipe offset header).run world = .ok () after := by
    unfold handle
    rw [if_pos invalid, run_bind_ok (record_run _ world),
      run_bind_ok (writeCheckpoint_run cfg pipe up _)]
    exact ⟨_, setBase_run .none _⟩
  exact ⟨after, ran, handle_ok cfg pipe ran⟩

/-- A valid header that is no test frame: no byte of the body is read. -/
theorem handle_untested (up : pipe.brokenAt = none) (offset : Nat) (header : FrameHeader)
    (world : World) (valid : header.validate cfg = true)
    (untested : signalOf cfg header.sig ≠ .test) :
    ∃ after, (handle cfg pipe offset header).run world = .ok () after ∧
      Settles cfg offset header world after := by
  obtain ⟨after, ran⟩ : ∃ after, (handle cfg pipe offset header).run world = .ok () after := by
    unfold handle
    rw [if_neg (by simp [valid]), run_bind_ok (record_run _ world)]
    exact switch_run cfg pipe up header _ untested
  exact ⟨after, ran, handle_ok cfg pipe ran⟩

/-- A test frame whose body is on the wire: the body is read. -/
theorem handle_test (quiet : pipe.stopAt = none) (offset : Nat) (header : FrameHeader)
    (world : World) (valid : header.validate cfg = true)
    (test : signalOf cfg header.sig = .test) (small : header.dataSize.toNat < 2 ^ 32)
    (enough : world.position + header.dataSize.toNat ≤ pipe.wire.length) :
    ∃ after, (handle cfg pipe offset header).run world = .ok () after ∧
      Settles cfg offset header world after := by
  obtain ⟨after, ran⟩ : ∃ after, (handle cfg pipe offset header).run world = .ok () after := by
    obtain ⟨filled, asked, read, _⟩ := PipeReader.read_run pipe quiet small
      (List.Vector.replicate header.dataSize.toNat 0)
      { world with log := world.log ++ [.dispatched offset header] } enough
    unfold handle
    rw [if_neg (by simp [valid]), run_bind_ok (record_run _ world)]
    simp only [switch, test, handleTestSignal, FrameReader.readUnsafeData]
    rw [if_neg (by omega), run_bind_ok read]
    exact ⟨_, rfl⟩
  exact ⟨after, ran, handle_ok cfg pipe ran⟩

theorem handle_logs (offset : Nat) (header : FrameHeader) (world : World) :
    world.heads ++ [(offset, header, header.validate cfg)] <+:
      (finalState ((handle cfg pipe offset header).run world)).heads := by
  obtain ⟨event, head, amends⟩ := handle_amends cfg pipe offset header world
  have longer := amends.grows.heads
  rw [heads_of_log world [event] rfl] at longer
  simpa [head] using longer

end
end Session
end Wsac.Dll
