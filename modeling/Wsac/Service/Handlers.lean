import Wsac.Codec
import Wsac.Frames
import Wsac.Service.Parting

/-! # The order of `FrameHandler.All`

The source generator lists the handlers in the order in which it meets their classes.  The
order means nothing to any session exactly where the three signatures differ; the DLL, which
switches over them, compiles only there. -/

set_option autoImplicit false

namespace Wsac.Service

open Library Library.Exec

namespace Handler

def signature (cfg : Config) : Handler → UInt16
  | .checkpoint => cfg.checkpointSignature
  | .regular => cfg.regularSignature
  | .test => cfg.testSignature

end Handler

namespace FrameSession

section
variable {first second : Assembly} (same : first.toConfig = second.toConfig)
  (distinct : first.toConfig.Distinct)
include same distinct

variable (client : Client)

end

/-! ## Handlers that are never found -/

/-- What a handler that is entered may log. -/
def trace : Handler → Option Event
  | .checkpoint => some (.state .ready)
  | .regular => some .packet
  | .test => none

section
variable {asm : Assembly} {client : Client} {handler : Handler} {event : Event}
  {state next : FrameSessionState} {new log : List Event} (traced : trace handler = some event)
include traced

theorem Handles.found {signature : UInt16} (handles : Handles asm state signature new next)
    (member : event ∈ new) : findHandler asm signature = some handler := by
  cases handler with
  | checkpoint =>
      cases traced
      cases handles with
      | readies _ found => exact found
      | answers | skips | passes | tests | ignores => simp at member
  | regular =>
      cases traced
      cases handles with
      | passes _ found => exact found
      | readies | answers | skips | tests | ignores => simp at member
  | test => cases traced

theorem Episode.found (episode : Episode asm state new next) (member : event ∈ new) :
    ∃ signature, findHandler asm signature = some handler := by
  cases episode with
  | rejected offset header reply broken =>
      cases handler with
      | checkpoint | regular =>
          cases traced
          simp at member
      | test => cases traced
  | handled _ offset header events accepted handles =>
      rcases List.mem_append.mp member with opening | rest
      · cases handler with
        | checkpoint | regular =>
            cases traced
            simp at opening
        | test => cases traced
      · exact ⟨_, Handles.found traced handles rest⟩

theorem Cut.found (cut : Cut asm state new) (member : event ∈ new) :
    ∃ signature, findHandler asm signature = some handler := by
  cases cut with
  | nothing => cases member
  | begun | oversized =>
      cases handler with
      | checkpoint | regular =>
          cases traced
          simp at member
      | test => cases traced
  | part next whole _ episode part => exact Episode.found traced episode (part.subset member)

theorem Logged.found (logged : Logged asm state log) (member : event ∈ log) :
    ∃ signature, findHandler asm signature = some handler := by
  induction logged with
  | start => cases member
  | episode _ episode ih =>
      rcases List.mem_append.mp member with early | late
      · exact ih early
      · exact Episode.found traced episode late

end

/-! ## Handlers that are found -/

section
variable {asm : Assembly} {client : Client} {handler : Handler} {event : Event} {world : World}

end

/-- A signed header that announces no body. -/
def bodiless (cfg : Config) (signature : UInt16) : FrameHeader :=
  FrameHeader.new cfg signature 0 (List.Vector.replicate 12 0)

section
variable {asm : Assembly} {client : Client} (calm : client.cancelAt = none)
  (short : client.wire.length < 2 ^ 62) {head : Head} {window : Bytes 6} {world : World}
  (placed : head.Placed client) (at_ : head.At client .new window world)
  {signature : UInt16} {tail : List UInt8}
  (ahead : client.wire.drop head.start =
    framed asm.toConfig (bodiless asm.toConfig signature).encode ++ tail)
include at_ ahead

include calm short placed

end

section
variable {asm : Assembly}
  (first : findHandler asm asm.checkpointSignature = some .checkpoint)
include first

end

theorem as_classes :
    List.Perm [Handler.checkpoint, .regular, .test] [.checkpoint, .regular, .test] :=
  List.Perm.refl _

/-- The handlers in the order of their classes. -/
def plain (cfg : Config) : Assembly := ⟨cfg, [.checkpoint, .regular, .test], as_classes⟩

section
variable {cfg : Config} (alike : ∀ first second : Assembly, first.toConfig = cfg →
  second.toConfig = cfg → ∀ client reader,
    session first client reader = session second client reader)
include alike

end

end FrameSession

end Wsac.Service
