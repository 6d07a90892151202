import Mathlib.Data.Set.List
import Wsac.Link.Relay
import Wsac.Link.Traffic

/-! # The two programs on one pipe, byte by byte

Each party runs the turns of its own session on the bytes that are on the wire so far,
whichever way they arrive, and what a turn writes gets behind the bytes of the other direction.
A third party may put frames of its own between them.  A turn is one step: until its last byte
is there it waits, and nobody sees what it has read.  Every run of the bytes is one of the
`Traffic`, and every run of the traffic is one of the bytes, as long as the service's reader
may still read. -/

set_option autoImplicit false

namespace Wsac.Link

open Library Library.Exec

/-- `toDll` and `toService` are all the bytes that were ever put on the wire. -/
structure Joint where
  dll : Dll.World
  service : Service.World
  window : Bytes 6
  toDll : List UInt8
  toService : List UInt8

def Joint.start : Joint :=
  ⟨Dll.World.start, Service.World.start .new, List.Vector.replicate 6 0, [], []⟩

/-- All the bytes are read. -/
def Joint.Read (joint : Joint) : Prop :=
  joint.dll.position = joint.toDll.length ∧ joint.service.position = joint.toService.length

namespace System
variable (sys : System)

def Bodyless : Side → Image → Prop
  | .dll, image => Dll.Session.Bodyless sys.toConfig image
  | .service, image => Service.FrameSession.Bodyless sys.toConfig image

def heard : Side → Image → Layer1.Received
  | .dll, image => Dll.Session.heard sys.toConfig image
  | .service, image => Service.FrameSession.heard sys.toConfig image

end System

inductive Joint.Move (sys : System) where
  | dll (pipe : Dll.Pipe)
  | service (client : Service.Client)
  | injects (side : Side) (image : Image) (bodyless : sys.Bodyless side image)

namespace System
variable (sys : System)

def advance : Joint.Move sys → Joint → Option Joint
  | .dll pipe, joint =>
      if pipe.wire = joint.toDll ∧ pipe.stopAt = none ∧ pipe.brokenAt = none then
        match (Dll.Session.turn sys.toConfig pipe).run joint.dll with
        | .ok _ after =>
            some { joint with
              dll := after
              toService := joint.toService ++ after.written.drop joint.dll.written.length }
        | .error _ _ => none
      else none
  | .service client, joint =>
      if client.wire = joint.toService ∧ client.cancelAt = none ∧ client.brokenAt = none then
        match (Service.FrameSession.turn sys.toAssembly client joint.window).run joint.service with
        | .ok window after =>
            some { joint with
              service := after
              window := window
              toDll := joint.toDll ++ after.written.drop joint.service.written.length }
        | .error _ _ => none
      else none
  | .injects .dll image _, joint =>
      some { joint with toDll := joint.toDll ++ framed sys.toConfig image }
  | .injects .service image _, joint =>
      some { joint with toService := joint.toService ++ framed sys.toConfig image }

def act : Joint.Move sys → Traffic.Act
  | .dll _ => .arrives .dll
  | .service _ => .arrives .service
  | .injects side image _ => .injects side (sys.heard side image)

/-! ## Bytes that wait for a party -/

/-- Behind the cursor the wire holds whole frames: those that are pending. -/
def Unread (side : Side) (position : Nat) (wire : List UInt8)
    (pending : List Layer1.Received) : Prop :=
  position ≤ wire.length ∧ ∃ images : List Image, (∀ image ∈ images, sys.Bodyless side image) ∧
    wire.drop position = stream (framed sys.toConfig) images ∧
    pending = images.map (sys.heard side)

variable {sys} {side : Side} {position : Nat} {wire : List UInt8}
  {pending : List Layer1.Received}

theorem Unread.append (unread : sys.Unread side position wire pending) (images : List Image)
    (bodyless : ∀ image ∈ images, sys.Bodyless side image) :
    sys.Unread side position (wire ++ stream (framed sys.toConfig) images)
      (pending ++ images.map (sys.heard side)) := by
  obtain ⟨onWire, before, shaped, ahead, same⟩ := unread
  refine ⟨by rw [List.length_append]; omega, before ++ images, ?_, ?_, ?_⟩
  · intro image member
    rcases List.mem_append.mp member with early | late
    · exact shaped image early
    · exact bodyless image late
  · rw [List.drop_append_of_le_length onWire, ahead, stream_append]
  · rw [same, List.map_append]

theorem Unread.nil_iff (unread : sys.Unread side position wire pending) :
    pending = [] ↔ position = wire.length := by
  obtain ⟨onWire, images, _, ahead, same⟩ := unread
  have left : wire.length - position = 44 * images.length := by
    rw [← List.length_drop, ahead, stream_framed_length]
  rw [same, List.map_eq_nil_iff, ← List.length_eq_zero_iff]
  omega

/-- The oldest pending frame. -/
theorem Unread.cons {received : Layer1.Received} {rest : List Layer1.Received}
    (unread : sys.Unread side position wire (received :: rest)) :
    ∃ image behind, wire.drop position = framed sys.toConfig image ++ behind ∧
      sys.Bodyless side image ∧ sys.heard side image = received ∧
      sys.Unread side (position + 44) wire rest := by
  obtain ⟨onWire, images, shaped, ahead, same⟩ := unread
  cases images with
  | nil => cases same
  | cons image images =>
      rw [List.map_cons, List.cons.injEq] at same
      rw [stream_cons] at ahead
      have total : wire.length - position =
          44 + (stream (framed sys.toConfig) images).length := by
        rw [← List.length_drop, ahead, List.length_append, framed_length]
      refine ⟨image, _, ahead, shaped image List.mem_cons_self, same.1.symm, by omega, images,
        fun other member => shaped other (List.mem_cons_of_mem _ member), ?_, same.2⟩
      rw [← List.drop_drop, ahead, framed_behind]

/-! ## A party's answers on the other direction -/

theorem dll_answers {headers : List Dll.FrameHeader}
    (genuine : ∀ header ∈ headers, header.IsCheckpoint sys.toConfig) :
    (∀ image ∈ headers.map Dll.FrameHeader.encode, sys.Bodyless .service image) ∧
      (headers.map Dll.FrameHeader.encode).map (sys.heard .service) =
        List.replicate headers.length (.frame sys.checkpointSignature) := by
  constructor
  · intro image member
    obtain ⟨header, sent, rfl⟩ := List.mem_map.mp member
    exact (genuine header sent).heard.2.1
  · rw [List.map_map, List.map_eq_replicate_iff]
    intro header sent
    exact (genuine header sent).heard.2.2

theorem service_answers {headers : List Service.FrameHeader}
    (genuine : ∀ header ∈ headers, header.IsCheckpoint sys.toConfig) :
    (∀ image ∈ headers.map Service.FrameHeader.encode, sys.Bodyless .dll image) ∧
      (headers.map Service.FrameHeader.encode).map (sys.heard .dll) =
        List.replicate headers.length (.frame sys.checkpointSignature) := by
  constructor
  · intro image member
    obtain ⟨header, sent, rfl⟩ := List.mem_map.mp member
    exact (genuine header sent).heard.2.1
  · rw [List.map_map, List.map_eq_replicate_iff]
    intro header sent
    exact (genuine header sent).heard.2.2

/-! ## The traffic behind the bytes -/

variable (sys) in
structure Follows (joint : Joint) (traffic : Traffic) : Prop where
  base : joint.dll.base = traffic.base
  state : joint.service.state = traffic.state
  toDll : sys.Unread .dll joint.dll.position joint.toDll traffic.toDll
  toService : sys.Unread .service joint.service.position joint.toService traffic.toService
  funded : Service.Funded Service.FrameSession.newBudget joint.service
  within : (joint.service.position : Int) ≤ Service.FrameSession.newBudget

theorem follows_start : sys.Follows Joint.start Traffic.start where
  base := rfl
  state := rfl
  toDll := ⟨Nat.le_refl _, [], by simp, rfl, rfl⟩
  toService := ⟨Nat.le_refl _, [], by simp, rfl, rfl⟩
  funded := Service.PipeReader.new_eq_holding
  within := by decide

/-- A turn of the DLL that takes a frame off the wire. -/
theorem follows_dll {joint : Joint} {base : Dll.Base} {state : Service.FrameSessionState}
    {received : Layer1.Received} {rest toService : List Layer1.Received} {after : Dll.World}
    {image : Image}
    (follows : sys.Follows joint ⟨base, state, received :: rest, toService⟩)
    (same : sys.heard .dll image = received)
    (unread : sys.Unread .dll (joint.dll.position + 44) joint.toDll rest)
    (answers : Dll.Session.Answers sys.toConfig image joint.dll after) :
    sys.Follows
      { joint with
        dll := after
        toService := joint.toService ++ after.written.drop joint.dll.written.length }
      ⟨(Dll.Session.react sys.toConfig base received).1, state, rest,
        toService ++ List.replicate (Dll.Session.react sys.toConfig base received).2
          (.frame sys.checkpointSignature)⟩ := by
  obtain ⟨new, genuine, count, _, written⟩ := answers.output
  have reacts : Dll.Session.react sys.toConfig joint.dll.base
      (Dll.Session.heard sys.toConfig image) = Dll.Session.react sys.toConfig base received := by
    rw [show joint.dll.base = base from follows.base,
      show Dll.Session.heard sys.toConfig image = received from same]
  have output : after.written.drop joint.dll.written.length =
      stream (framed sys.toConfig) (new.map Dll.FrameHeader.encode) := by
    rw [written, List.drop_left, Dll.stream_wire]
  obtain ⟨bodyless, pending⟩ := dll_answers genuine
  refine ⟨?_, follows.state, ?_, ?_, follows.funded, follows.within⟩
  · rw [← reacts]
    exact answers.base
  · rw [answers.position]
    exact unread
  · rw [output, ← reacts, ← count, ← pending]
    exact follows.toService.append _ bodyless

/-- One of the service. -/
theorem follows_service {joint : Joint} {base : Dll.Base} {state : Service.FrameSessionState}
    {received : Layer1.Received} {toDll rest : List Layer1.Received} {window : Bytes 6}
    {after : Service.World} {image : Image}
    (follows : sys.Follows joint ⟨base, state, toDll, received :: rest⟩)
    (same : sys.heard .service image = received)
    (unread : sys.Unread .service (joint.service.position + 44) joint.toService rest)
    (within : ((joint.service.position + 44 : Nat) : Int) ≤ Service.FrameSession.newBudget)
    (answers : Service.FrameSession.Answers sys.toAssembly image joint.service after) :
    sys.Follows
      { joint with
        service := after
        window := window
        toDll := joint.toDll ++ after.written.drop joint.service.written.length }
      ⟨base, (Service.FrameSession.react sys.toAssembly state received).1,
        toDll ++ List.replicate (Service.FrameSession.react sys.toAssembly state received).2
          (.frame sys.checkpointSignature), rest⟩ := by
  obtain ⟨new, genuine, count, _, written⟩ := answers.output
  have reacts : Service.FrameSession.react sys.toAssembly joint.service.state
      (Service.FrameSession.heard sys.toConfig image) =
        Service.FrameSession.react sys.toAssembly state received := by
    rw [show joint.service.state = state from follows.state,
      show Service.FrameSession.heard sys.toConfig image = received from same]
  have output : after.written.drop joint.service.written.length =
      stream (framed sys.toConfig) (new.map Service.FrameHeader.encode) := by
    rw [written, List.drop_left, Service.stream_wire]
  obtain ⟨bodyless, pending⟩ := service_answers genuine
  refine ⟨follows.base, ?_, ?_, ?_, answers.funded, ?_⟩
  · rw [← reacts]
    exact answers.state
  · rw [output, ← reacts, ← count, ← pending]
    exact follows.toDll.append _ bodyless
  · rw [answers.position]
    exact unread
  · rw [answers.position]
    exact within

/-- A turn of the DLL that does not throw has met a frame. -/
theorem travels_dll {pipe : Dll.Pipe} {before after : Joint} {traffic : Traffic}
    (follows : sys.Follows before traffic) (moved : sys.advance (.dll pipe) before = some after) :
    ∃ next, sys.travel (.arrives .dll) traffic = some next ∧ sys.Follows after next := by
  obtain ⟨base, state, toDll, toService⟩ := traffic
  rw [advance] at moved
  split at moved
  case isFalse => cases moved
  case isTrue guard =>
    obtain ⟨wired, quiet, up⟩ := guard
    split at moved
    case h_2 => cases moved
    case h_1 result world ran =>
      cases moved
      have here := follows.toDll
      rw [← wired] at here
      cases toDll with
      | nil =>
          have ended := here.nil_iff.mp rfl
          obtain ⟨failure, stuck, failed, _⟩ := Dll.Session.turn_waits sys.toConfig pipe quiet
            before.dll (Nat.le_of_eq ended) (by omega)
          rw [failed] at ran
          cases ran
      | cons received rest =>
          obtain ⟨image, behind, ahead, bodyless, same, unread⟩ := here.cons
          rw [wired] at unread
          exact ⟨_, sys.travel_dll base state received rest toService,
            follows_dll follows same unread
              (Dll.Session.turn_answers sys.toConfig pipe image behind ahead bodyless ran)⟩

/-- One of the service has also been able to pay for it. -/
theorem travels_service {client : Service.Client} {before after : Joint} {traffic : Traffic}
    (follows : sys.Follows before traffic)
    (moved : sys.advance (.service client) before = some after) :
    ∃ next, sys.travel (.arrives .service) traffic = some next ∧ sys.Follows after next := by
  obtain ⟨base, state, toDll, toService⟩ := traffic
  rw [advance] at moved
  split at moved
  case isFalse => cases moved
  case isTrue guard =>
    obtain ⟨wired, calm, up⟩ := guard
    split at moved
    case h_2 => cases moved
    case h_1 window world ran =>
      cases moved
      have here := follows.toService
      rw [← wired] at here
      cases toService with
      | nil =>
          have ended := here.nil_iff.mp rfl
          obtain ⟨failure, stuck, failed⟩ := Service.FrameSession.turn_idle client calm
            sys.toAssembly before.window before.service follows.funded follows.within ended
          rw [failed] at ran
          cases ran
      | cons received rest =>
          obtain ⟨image, behind, ahead, bodyless, same, unread⟩ := here.cons
          rw [wired] at unread
          by_cases within : ((before.service.position + 44 : Nat) : Int) ≤
              Service.FrameSession.newBudget
          · obtain ⟨pushed, reached, taken, answers⟩ := Service.FrameSession.turn_framed client
              calm sys.toAssembly up before.window before.service image behind ahead bodyless
              follows.funded within
            rw [taken] at ran
            cases ran
            exact ⟨_, sys.travel_service base state received toDll rest,
              follows_service follows same unread within answers⟩
          · obtain ⟨failure, stuck, failed⟩ := Service.FrameSession.turn_unfunded client calm
              sys.toAssembly before.window before.service image behind ahead follows.funded
              follows.within (by omega)
            rw [failed] at ran
            cases ran

/-- Each move of the bytes is one of the traffic. -/
theorem follows_advance (move : Joint.Move sys) (before after : Joint) (traffic : Traffic)
    (follows : sys.Follows before traffic) (moved : sys.advance move before = some after) :
    ∃ next, sys.travel (sys.act move) traffic = some next ∧ sys.Follows after next := by
  cases move with
  | dll pipe => exact travels_dll follows moved
  | service client => exact travels_service follows moved
  | injects side image bodyless =>
      have one : stream (framed sys.toConfig) [image] = framed sys.toConfig image := by
        rw [stream_cons, stream_nil, List.append_nil]
      cases side with
      | dll =>
          cases moved
          have here := follows.toDll.append [image] (by simpa using bodyless)
          rw [one] at here
          exact ⟨_, rfl, { follows with toDll := here }⟩
      | service =>
          cases moved
          have here := follows.toService.append [image] (by simpa using bodyless)
          rw [one] at here
          exact ⟨_, rfl, { follows with toService := here }⟩

/-! ## Every traffic is that of some bytes -/

theorem exists_other_mac (tag : Mac) : ∃ mac : Mac, mac ≠ tag := by
  by_cases zero : tag = List.Vector.replicate 16 0
  · refine ⟨List.Vector.replicate 16 1, fun same => ?_⟩
    rw [zero] at same
    exact absurd (congrArg (·.toList) same) (by decide)
  · exact ⟨_, Ne.symm zero⟩

variable (sys) in
/-- A header that is not signed is heard as broken, and its body is not read. -/
theorem heard_unsigned {header : Dll.FrameHeader} (side : Side)
    (invalid : header.validate sys.toConfig = false) :
    sys.Bodyless side header.encode ∧ sys.heard side header.encode = .broken := by
  cases side with
  | dll =>
      rw [Bodyless, heard, Dll.Session.Bodyless, Dll.Session.heard, Dll.FrameHeader.decode_encode]
      refine ⟨?_, if_pos invalid⟩
      rw [Dll.Session.bodyTaken, if_neg (fun both => absurd both.1 (by rw [invalid]; decide))]
  | service =>
      rw [Bodyless, heard, Service.FrameSession.Bodyless, Service.FrameSession.heard,
        Codec.decode_ofDll, Dll.FrameHeader.decode_encode, Codec.validate_ofDll]
      exact ⟨fun passed => absurd passed (by rw [invalid]; decide), if_pos invalid⟩

variable (sys) in
/-- A signed header that announces nothing is heard as its signature. -/
theorem heard_signed (side : Side) (sig : UInt16) (nonce : Nonce) :
    let image := (Dll.FrameHeader.new sys.toConfig sig 0 nonce).encode
    sys.Bodyless side image ∧ sys.heard side image = .frame sig := by
  have valid : (Dll.FrameHeader.new sys.toConfig sig 0 nonce).validate sys.toConfig = true :=
    Dll.FrameHeader.validate_new _ _ _ _
  cases side with
  | dll =>
      show Bodyless sys .dll _ ∧ heard sys .dll _ = _
      rw [Bodyless, heard, Dll.Session.Bodyless, Dll.Session.heard, Dll.FrameHeader.decode_encode]
      refine ⟨?_, if_neg (by rw [valid]; decide)⟩
      rw [Dll.Session.bodyTaken]
      split
      · rfl
      · rfl
  | service =>
      show Bodyless sys .service _ ∧ heard sys .service _ = _
      rw [Bodyless, heard, Service.FrameSession.Bodyless, Service.FrameSession.heard,
        Codec.decode_ofDll, Dll.FrameHeader.decode_encode, Codec.validate_ofDll]
      exact ⟨fun _ => rfl, if_neg (by rw [valid]; decide)⟩

variable (sys) in
/-- Layer 1 of either party can be made to hear anything, without a body. -/
theorem exists_image (side : Side) (received : Layer1.Received) :
    ∃ image, sys.Bodyless side image ∧ sys.heard side image = received := by
  let nonce : Nonce := List.Vector.replicate 12 0
  cases received with
  | frame sig => exact ⟨_, sys.heard_signed side sig nonce⟩
  | broken =>
      let authInfo := (Dll.FrameHeader.mk 0 0 nonce (List.Vector.replicate 16 0)).encode.slice 0 10
        Image.authInfo_inside
      obtain ⟨mac, wrong⟩ := exists_other_mac (sys.tag sys.pskLayer1 nonce authInfo)
      let header := Dll.FrameHeader.mk 0 0 nonce mac
      have invalid : header.validate sys.toConfig = false := by
        rw [← Bool.not_eq_true, Dll.FrameHeader.validate_eq_true_iff]
        intro same
        have signed : header.encode.slice 0 10 Image.authInfo_inside = authInfo := by
          apply List.Vector.eq
          rw [Dll.FrameHeader.encode_authInfo, Dll.FrameHeader.encode_authInfo]
        rw [signed] at same
        exact wrong same
      exact ⟨header.encode, sys.heard_unsigned side invalid⟩

variable (sys) in
theorem dll_react_le (base : Dll.Base) (received : Layer1.Received) :
    (Dll.Session.react sys.toConfig base received).2 ≤ 1 := by
  cases received with
  | broken => exact Nat.le_refl _
  | frame sig =>
      rw [Dll.Session.react]
      cases Dll.signalOf sys.toConfig sig with
      | checkpoint =>
          cases base
          · exact Nat.zero_le _
          · exact Nat.le_refl _
      | regular | test => exact Nat.zero_le _
      | invalid => exact Nat.le_refl _

/-- Whichever way its bytes arrive, the DLL takes the oldest pending frame. -/
theorem advance_dll {joint : Joint} {base : Dll.Base} {state : Service.FrameSessionState}
    {received : Layer1.Received} {rest toService : List Layer1.Received}
    (follows : sys.Follows joint ⟨base, state, received :: rest, toService⟩) {pipe : Dll.Pipe}
    (wired : pipe.wire = joint.toDll) (quiet : pipe.stopAt = none) (up : pipe.brokenAt = none) :
    ∃ after, sys.advance (.dll pipe) joint = some after ∧
      after.toService.length ≤ joint.toService.length + 44 := by
  have here := follows.toDll
  rw [← wired] at here
  obtain ⟨image, behind, ahead, bodyless, _, _⟩ := here.cons
  obtain ⟨after, ran, answers⟩ := Dll.Session.turn_framed sys.toConfig pipe quiet up joint.dll image
    behind ahead bodyless
  obtain ⟨new, _, count, _, written⟩ := answers.output
  let reached : Joint :=
    { joint with
      dll := after
      toService := joint.toService ++ after.written.drop joint.dll.written.length }
  refine ⟨reached, ?_, ?_⟩
  · rw [advance, if_pos ⟨wired, quiet, up⟩, ran]
  · have few := sys.dll_react_le joint.dll.base (Dll.Session.heard sys.toConfig image)
    show (joint.toService ++ after.written.drop joint.dll.written.length).length ≤ _
    rw [written, List.drop_left, Dll.stream_wire, List.length_append, stream_framed_length,
      List.length_map]
    omega

/-- So does the service, while its reader may still read. -/
theorem advance_service {joint : Joint} {base : Dll.Base} {state : Service.FrameSessionState}
    {received : Layer1.Received} {toDll rest : List Layer1.Received}
    (follows : sys.Follows joint ⟨base, state, toDll, received :: rest⟩)
    (short : joint.toService.length < 2 ^ 63) {client : Service.Client}
    (wired : client.wire = joint.toService) (calm : client.cancelAt = none)
    (up : client.brokenAt = none) :
    ∃ after, sys.advance (.service client) joint = some after ∧
      after.toService = joint.toService := by
  have here := follows.toService
  have onWire := follows.toService.cons
  rw [← wired] at here
  obtain ⟨image, behind, ahead, bodyless, _, unread⟩ := here.cons
  have within : ((joint.service.position + 44 : Nat) : Int) ≤ Service.FrameSession.newBudget := by
    have inside := unread.1
    rw [wired] at inside
    show _ ≤ (2 ^ 63 - 1 : Int)
    omega
  obtain ⟨pushed, after, ran, _⟩ := Service.FrameSession.turn_framed client calm sys.toAssembly up
    joint.window joint.service image behind ahead bodyless follows.funded within
  let reached : Joint :=
    { joint with
      service := after
      window := pushed
      toDll := joint.toDll ++ after.written.drop joint.service.written.length }
  refine ⟨reached, ?_, rfl⟩
  rw [advance, if_pos ⟨wired, calm, up⟩, ran]

/-- Each move of the traffic is one of the bytes, and gets at most one frame on the way. -/
theorem exists_advance (act : Traffic.Act) (before : Joint) (traffic next : Traffic)
    (follows : sys.Follows before traffic) (short : before.toService.length < 2 ^ 63)
    (moved : sys.travel act traffic = some next) :
    ∃ move after, sys.act move = act ∧ sys.advance move before = some after ∧
      sys.Follows after next ∧ after.toService.length ≤ before.toService.length + 44 := by
  let nonce : Nonce := List.Vector.replicate 12 0
  obtain ⟨move, after, same, advanced, few⟩ : ∃ move after, sys.act move = act ∧
      sys.advance move before = some after ∧
      after.toService.length ≤ before.toService.length + 44 := by
    obtain ⟨base, state, toDll, toService⟩ := traffic
    cases act with
    | injects side received =>
        obtain ⟨image, bodyless, same⟩ := sys.exists_image side received
        cases side with
        | dll =>
            refine ⟨.injects .dll image bodyless, _, ?_, rfl, Nat.le_add_right _ _⟩
            rw [System.act, same]
        | service =>
            refine ⟨.injects .service image bodyless, _, ?_, rfl, ?_⟩
            · rw [System.act, same]
            · show (before.toService ++ framed sys.toConfig image).length ≤ _
              rw [List.length_append, framed_length]
    | arrives side =>
        cases side with
        | dll =>
            cases toDll with
            | nil => cases moved
            | cons received rest =>
                obtain ⟨after, advanced, few⟩ := advance_dll follows
                  (Dll.Pipe.waiting_wire before.toDll nonce) rfl rfl
                exact ⟨.dll (.waiting before.toDll nonce), after, rfl, advanced, few⟩
        | service =>
            cases toService with
            | nil => cases moved
            | cons received rest =>
                obtain ⟨after, advanced, still⟩ := advance_service follows short
                  (Service.Client.waiting_wire before.toService nonce) rfl rfl
                exact ⟨.service (.waiting before.toService nonce), after, rfl, advanced,
                  by rw [still]; exact Nat.le_add_right _ _⟩
  obtain ⟨target, travelled, kept⟩ := follows_advance move before after traffic follows advanced
  rw [same, moved, Option.some.injEq] at travelled
  subst travelled
  exact ⟨move, after, same, advanced, kept, few⟩

/-! ## Whole runs -/

variable (sys)

theorem joint_follows (moves : List (Joint.Move sys)) (final : Joint)
    (ran : runs sys.advance moves Joint.start = some final) :
    ∃ last, runs sys.travel (moves.map sys.act) Traffic.start = some last ∧
      sys.Follows final last :=
  runs_simulates sys.Follows follows_advance follows_start ran

theorem exists_joint (acts : List Traffic.Act) (last : Traffic)
    (ran : runs sys.travel acts Traffic.start = some last) (short : 44 * acts.length < 2 ^ 63) :
    ∃ moves final, moves.map sys.act = acts ∧ runs sys.advance moves Joint.start = some final ∧
      sys.Follows final last := by
  obtain ⟨moves, final, same, reached, follows, _⟩ := runs_lift
    (fun left joint traffic =>
      sys.Follows joint traffic ∧ joint.toService.length + 44 * left < 2 ^ 63)
    (by
      rintro left act before target next ⟨follows, room⟩ moved
      obtain ⟨move, after, same, advanced, kept, few⟩ :=
        exists_advance act before target next follows (by omega) moved
      exact ⟨move, after, same, advanced, kept, by omega⟩)
    (show sys.Follows Joint.start Traffic.start ∧ 0 + 44 * acts.length < 2 ^ 63 from
      ⟨follows_start, by omega⟩) ran
  exact ⟨moves, final, same, reached, follows⟩

/-- At rest the parties that are none and the checkpoints written or sent in vain make two. -/
theorem joint_at_rest (moves : List (Joint.Move sys)) (final : Joint)
    (ran : runs sys.advance moves Joint.start = some final) (read : final.Read) :
    (decide (final.dll.base = .none)).toNat + (decide (final.service.state = .none)).toNat +
      toll sys.travel sys.surplus (moves.map sys.act) Traffic.start = 2 := by
  obtain ⟨last, travelled, follows⟩ :=
    runs_simulates sys.Follows follows_advance follows_start ran
  have excess := sys.runs_excess travelled
  rw [Traffic.excess_eq, follows.toDll.nil_iff.mpr read.1,
    follows.toService.nil_iff.mpr read.2, ← follows.base, ← follows.state] at excess
  simp only [List.count_nil] at excess
  omega

/-- Two sessions that hear nothing but each other's checkpoints stop after three turns, or
never. -/
theorem joint_dies_out (moves turns : List (Joint.Move sys)) (middle final : Joint)
    (last : Traffic) (ran : runs sys.advance moves Joint.start = some middle)
    (travelled : runs sys.travel (moves.map sys.act) Traffic.start = some last)
    (only : last.OnlyCheckpoints sys.checkpointSignature)
    (unaided : ∀ move ∈ turns, ∃ side, sys.act move = .arrives side)
    (went : runs sys.advance turns middle = some final) :
    (toll sys.travel sys.surplus (moves.map sys.act) Traffic.start ≤ 2 → turns.length ≤ 3) ∧
      (2 < toll sys.travel sys.surplus (moves.map sys.act) Traffic.start → ¬ final.Read) := by
  obtain ⟨reached, same, follows⟩ :=
    runs_simulates sys.Follows follows_advance follows_start ran
  rw [travelled, Option.some.injEq] at same
  subst same
  obtain ⟨after, arrived, followed⟩ := runs_simulates sys.Follows follows_advance follows went
  obtain ⟨sides, same⟩ : turns.map sys.act ∈ Set.range (List.map Traffic.Act.arrives) := by
    rw [Set.range_list_map]
    intro act member
    obtain ⟨move, taken, rfl⟩ := List.mem_map.mp member
    obtain ⟨side, arrives⟩ := unaided move taken
    exact ⟨side, arrives.symm⟩
  rw [← same, runs_map] at arrived
  have excess := sys.runs_excess travelled
  constructor
  · intro few
    have bound := sys.arrivals_le only (by omega) arrived
    have count := congrArg List.length same
    rw [List.length_map, List.length_map] at count
    omega
  · intro many read
    have kept := sys.arrivals_excess only arrived
    rw [Traffic.excess_eq _ after, followed.toDll.nil_iff.mpr read.1,
      followed.toService.nil_iff.mpr read.2] at kept
    simp only [List.count_nil] at kept
    omega

end System

namespace Sample
open Wsac.Sample

/-- A header whose MAC is not its tag. -/
def noise : Image := (Dll.FrameHeader.mk 0 0 nonce (List.Vector.replicate 16 1)).encode

theorem noise_bodyless (side : Side) : system.Bodyless side noise := by
  cases side with
  | dll =>
      show Dll.Session.bodyTaken config (Dll.FrameHeader.decode noise) = 0
      decide +kernel
  | service =>
      intro passed
      exact absurd passed (by decide +kernel)

def dllTurn (wire : List UInt8) : Joint.Move system := .dll (.waiting wire nonce)

def serviceTurn (wire : List UInt8) : Joint.Move system := .service (.waiting wire nonce)

def checkpoint : List UInt8 := framed config greetingImage

/-- Noise at the DLL, then at the service, which has heard of the first. -/
def outward : List (Joint.Move system) :=
  [.injects .dll noise (noise_bodyless .dll), dllTurn (framed config noise),
    serviceTurn checkpoint, .injects .service noise (noise_bodyless .service),
    serviceTurn (checkpoint ++ framed config noise)]

def homeward : List (Joint.Move system) := [dllTurn (framed config noise ++ checkpoint)]

def away : Joint := (runs system.advance outward Joint.start).getD Joint.start

def back : Joint := (runs system.advance homeward away).getD Joint.start

theorem outward_runs : runs system.advance outward Joint.start = some away :=
  (Option.getD_of_ne_none (Option.isSome_iff_ne_none.mp (by decide +kernel)) _).symm

theorem homeward_runs : runs system.advance homeward away = some back :=
  (Option.getD_of_ne_none (Option.isSome_iff_ne_none.mp (by decide +kernel)) _).symm

theorem journey_runs : runs system.advance (outward ++ homeward) Joint.start = some back :=
  (runs_append_eq_some _).mpr ⟨away, outward_runs, homeward_runs⟩

theorem journey_follows : ∃ last,
    runs system.travel ((outward ++ homeward).map system.act) Traffic.start = some last ∧
      system.Follows back last :=
  system.joint_follows (outward ++ homeward) back journey_runs

theorem journey_exists : ∃ moves final,
    moves.map system.act = (outward ++ homeward).map system.act ∧
      runs system.advance moves Joint.start = some final ∧
      system.Follows final ⟨.ready, .none, [], []⟩ :=
  system.exists_joint ((outward ++ homeward).map system.act) ⟨.ready, .none, [], []⟩
    (by decide +kernel) (by decide +kernel)

theorem back_at_rest :
    toll system.travel system.surplus ((outward ++ homeward).map system.act) Traffic.start = 1 := by
  have balance := system.joint_at_rest (outward ++ homeward) back journey_runs
    ⟨by decide +kernel, by decide +kernel⟩
  have none : (decide (back.dll.base = .none)).toNat +
      (decide (back.service.state = .none)).toNat = 1 := by decide +kernel
  omega

theorem homeward_dies_out : homeward.length ≤ 3 :=
  (system.joint_dies_out outward homeward away back
    ⟨.none, .none, [.frame config.checkpointSignature], []⟩ outward_runs (by decide +kernel)
    ⟨by decide, by decide⟩
    (fun move member => ⟨.dll, by rw [List.mem_singleton.mp member]; rfl⟩)
    homeward_runs).1 (by decide +kernel)

end Sample
end Wsac.Link
