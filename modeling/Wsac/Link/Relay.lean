import Wsac.Dll.Exchange
import Wsac.Link.Checkpoints
import Wsac.Service.Exchange

/-! # What one program writes, the other reads

The output of a whole run of either session is put on the wire of the other.  The reader finds
every checkpoint that was written to its end, each at its place, accepts it and finds nothing
else; the first one synchronises it, and it answers all the others. -/

set_option autoImplicit false

namespace Wsac

open Library Library.Exec

/-- Where the frames of a party's headers stand, in terms of the bare frames. -/
theorem places_images {φ : Type} {cfg : Config} {wire : φ → List UInt8} {image : φ → Image}
    (same : ∀ header, wire header = framed cfg (image header)) (headers : List φ) : ∀ start,
      places (framed cfg) start (headers.map image) =
        (places wire start headers).map fun place => (place.1, image place.2) := by
  induction headers with
  | nil => intro start; rfl
  | cons header rest ih =>
      intro start
      rw [List.map_cons, places, places, List.map_cons, ih, same]

theorem mem_of_mem_places {φ α : Type} {wire : φ → List α} {headers : List φ} :
    ∀ {start : Nat} {place : Nat × φ}, place ∈ places wire start headers → place.2 ∈ headers := by
  induction headers with
  | nil => intro start place member; cases member
  | cons header rest ih =>
      intro start place member
      rcases List.mem_cons.mp member with rfl | later
      · exact List.mem_cons_self
      · exact List.mem_cons_of_mem _ (ih later)

namespace Dll

theorem stream_wire (cfg : Config) (headers : List FrameHeader) :
    stream (FrameHeader.wire cfg) headers =
      stream (framed cfg) (headers.map FrameHeader.encode) := by
  rw [stream, stream, List.flatMap_map]
  rfl

/-- A part of what the DLL writes is the beginning of some frame. -/
theorem exists_of_part {cfg : Config} {tail : List UInt8} (part : (emitter cfg).Part tail) :
    ∃ last : Image, tail <+: framed cfg last := by
  rcases part with rfl | ⟨header, _, begins, _⟩
  · exact ⟨List.Vector.replicate 38 0, List.nil_prefix⟩
  · exact ⟨header.encode, begins⟩

/-- To the service a checkpoint of the DLL is one. -/
theorem FrameHeader.IsCheckpoint.heard {cfg : Config} {header : FrameHeader}
    (genuine : header.IsCheckpoint cfg) :
    (Service.FrameHeader.decode header.encode).validate cfg = true ∧
      Service.FrameSession.Bodyless cfg header.encode ∧
      Service.FrameSession.heard cfg header.encode = .frame cfg.checkpointSignature := by
  obtain ⟨nonce, rfl⟩ := genuine
  let header := FrameHeader.new cfg cfg.checkpointSignature 0 nonce
  have decoded : Service.FrameHeader.decode header.encode = Codec.ofDll header := by
    rw [Codec.decode_ofDll, FrameHeader.decode_encode]
  have valid : (Service.FrameHeader.decode header.encode).validate cfg = true := by
    rw [decoded, Codec.validate_ofDll]
    exact FrameHeader.validate_new cfg _ _ _
  refine ⟨valid, fun _ => ?_, ?_⟩
  · rw [decoded]
    rfl
  · rw [Service.FrameSession.heard, if_neg (by rw [valid]; decide), decoded]
    rfl

end Dll

namespace Service

theorem stream_wire (cfg : Config) (headers : List FrameHeader) :
    stream (FrameHeader.wire cfg) headers =
      stream (framed cfg) (headers.map FrameHeader.encode) := by
  rw [stream, stream, List.flatMap_map]
  rfl

/-- To the DLL a checkpoint of the service is one. -/
theorem FrameHeader.IsCheckpoint.heard {cfg : Config} {header : FrameHeader}
    (genuine : header.IsCheckpoint cfg) :
    (Dll.FrameHeader.decode header.encode).validate cfg = true ∧
      Dll.Session.Bodyless cfg header.encode ∧
      Dll.Session.heard cfg header.encode = .frame cfg.checkpointSignature := by
  obtain ⟨nonce, rfl⟩ := genuine
  obtain ⟨source, same⟩ := Codec.ofDll_surjective
    (FrameHeader.new cfg cfg.checkpointSignature 0 nonce)
  have valid : source.validate cfg = true := by
    rw [← Codec.validate_ofDll, same]
    exact FrameHeader.validate_new cfg _ _ _
  have signature : source.sig = cfg.checkpointSignature := congrArg (·.signature) same
  rw [← same, Codec.encode_ofDll, Dll.FrameHeader.decode_encode]
  refine ⟨valid, ?_, ?_⟩
  · rw [Dll.Session.Bodyless, Dll.FrameHeader.decode_encode, Dll.Session.bodyTaken, signature,
      Link.System.signalOf_checkpoint]
    exact if_neg fun test => absurd test.2 (by decide)
  · rw [Dll.Session.heard, Dll.FrameHeader.decode_encode, Dll.Session.received,
      if_neg (by rw [valid]; decide), signature]

end Service

namespace Link.System
variable (sys : System)

theorem dll_reactAll (images : List Image) (checkpoints : ∀ image ∈ images,
      Dll.Session.heard sys.toConfig image = .frame sys.checkpointSignature) :
    Dll.Session.reactAll sys.toConfig (.none, 0) images =
      (if images = [] then .none else .ready, images.length - 1) := by
  apply foldl_tokens
  · intro image member count
    simp [checkpoints image member, Dll.Session.react, signalOf_checkpoint]
  · intro image member count
    simp [checkpoints image member, Dll.Session.react, signalOf_checkpoint]

theorem service_reactAll (images : List Image) (checkpoints : ∀ image ∈ images,
      Service.FrameSession.heard sys.toConfig image = .frame sys.checkpointSignature) :
    Service.FrameSession.reactAll sys.toAssembly (.none, 0) images =
      (if images = [] then .none else .ready, images.length - 1) := by
  apply foldl_tokens
  · intro image member count
    simp [checkpoints image member, Service.FrameSession.react, findHandler_checkpoint]
  · intro image member count
    simp [checkpoints image member, Service.FrameSession.react, findHandler_checkpoint]

/-- Whatever happened to the DLL: a session of the service that is fed its output accepts just
the checkpoints that the DLL wrote to their end. -/
theorem service_reads_dll (pipe : Dll.Pipe) (client : Service.Client)
    (calm : client.cancelAt = none) (up : client.brokenAt = none)
    (short : client.wire.length < 2 ^ 63)
    (fed : client.wire =
      (finalState ((Dll.Session.run sys.toConfig pipe).run Dll.World.start)).written) :
    let writer := finalState ((Dll.Session.run sys.toConfig pipe).run Dll.World.start)
    let reader := finalState (Service.FrameSession.session sys.toAssembly client .new)
    let frames := places (Dll.FrameHeader.wire sys.toConfig) 0 writer.sent
    reader.heads = frames.map (fun frame => (frame.1 + 6, Codec.ofDll frame.2, true)) ∧
      reader.entered = frames.map (fun frame => (frame.1 + 6, Codec.ofDll frame.2)) ∧
      (reader.state, reader.sent.length) =
        (if writer.sent = [] then .none else .ready, writer.sent.length - 1) := by
  obtain ⟨tail, genuine, part, written⟩ := Dll.Session.run_written sys.toConfig pipe
  generalize finalState ((Dll.Session.run sys.toConfig pipe).run Dll.World.start) = writer at *
  obtain ⟨last, begins⟩ := Dll.exists_of_part part
  rw [written, Dll.stream_wire] at fed
  have heard : ∀ image ∈ writer.sent.map Dll.FrameHeader.encode,
      (Service.FrameHeader.decode image).validate sys.toConfig = true ∧
        Service.FrameSession.Bodyless sys.toConfig image ∧
        Service.FrameSession.heard sys.toConfig image = .frame sys.checkpointSignature := by
    intro image member
    obtain ⟨header, sent, rfl⟩ := List.mem_map.mp member
    exact (genuine header sent).heard
  obtain ⟨heads, entered, outcome⟩ := Service.FrameSession.session_images client calm
    sys.toAssembly up (writer.sent.map Dll.FrameHeader.encode) last begins
    (Dll.part_length sys.toConfig part) (fun image member => (heard image member).2.1) fed short
  have same : places (framed sys.toConfig) 0 (writer.sent.map Dll.FrameHeader.encode) =
      (places (Dll.FrameHeader.wire sys.toConfig) 0 writer.sent).map
        fun frame => (frame.1, frame.2.encode) := places_images (fun _ => rfl) writer.sent 0
  have decoded : ∀ frame ∈ places (Dll.FrameHeader.wire sys.toConfig) 0 writer.sent,
      Service.FrameHeader.decode frame.2.encode = Codec.ofDll frame.2 ∧
        (Codec.ofDll frame.2).validate sys.toConfig = true := by
    intro frame member
    have valid := (heard _ (List.mem_map_of_mem (mem_of_mem_places member))).1
    rw [Codec.decode_ofDll, Dll.FrameHeader.decode_encode] at valid ⊢
    exact ⟨rfl, valid⟩
  refine ⟨?_, ?_, ?_⟩
  · rw [heads, Service.FrameSession.headsOfImages, same, List.map_map]
    apply List.map_congr_left
    intro frame member
    rw [Function.comp_apply, (decoded frame member).1, (decoded frame member).2]
  · rw [entered, Service.FrameSession.entriesOfImages, same, List.flatMap_map, List.map_eq_flatMap]
    apply List.flatMap_congr
    intro frame member
    show Service.FrameSession.entriesAt sys.toConfig (frame.1 + 6) frame.2.encode = _
    rw [Service.FrameSession.entriesAt, (decoded frame member).1, if_pos (decoded frame member).2]
  · rw [outcome, service_reactAll sys _ (fun image member => (heard image member).2.2),
      List.length_map]
    simp only [List.map_eq_nil_iff]

/-- Whatever happened to the service's session: the DLL that is fed its output accepts just the
checkpoints that the session wrote to their end. -/
theorem dll_reads_service (client : Service.Client) (reader : Service.PipeReader)
    (pipe : Dll.Pipe) (quiet : pipe.stopAt = none) (up : pipe.brokenAt = none)
    (fed : pipe.wire =
      (finalState (Service.FrameSession.session sys.toAssembly client reader)).written) :
    let writer := finalState (Service.FrameSession.session sys.toAssembly client reader)
    let final := finalState ((Dll.Session.run sys.toConfig pipe).run Dll.World.start)
    let frames := places (Service.FrameHeader.wire sys.toConfig) 0 writer.sent
    final.heads = frames.map
        (fun frame => (frame.1 + 6, Dll.FrameHeader.decode frame.2.encode, true)) ∧
      (final.base, final.sent.length) =
        (if writer.sent = [] then .none else .ready, writer.sent.length - 1) := by
  obtain ⟨tail, genuine, part, written⟩ :=
    Service.FrameSession.session_written client sys.toAssembly reader
  generalize finalState (Service.FrameSession.session sys.toAssembly client reader) = writer at *
  rw [written, Service.stream_wire] at fed
  have heard : ∀ image ∈ writer.sent.map Service.FrameHeader.encode,
      (Dll.FrameHeader.decode image).validate sys.toConfig = true ∧
        Dll.Session.Bodyless sys.toConfig image ∧
        Dll.Session.heard sys.toConfig image = .frame sys.checkpointSignature := by
    intro image member
    obtain ⟨header, sent, rfl⟩ := List.mem_map.mp member
    exact (genuine header sent).heard
  obtain ⟨heads, outcome⟩ := Dll.Session.run_images sys.toConfig pipe quiet up
    (writer.sent.map Service.FrameHeader.encode) (Service.part_length sys.toConfig part)
    (fun image member => (heard image member).2.1) fed
  have same : places (framed sys.toConfig) 0 (writer.sent.map Service.FrameHeader.encode) =
      (places (Service.FrameHeader.wire sys.toConfig) 0 writer.sent).map
        fun frame => (frame.1, frame.2.encode) := places_images (fun _ => rfl) writer.sent 0
  refine ⟨?_, ?_⟩
  · rw [heads, Dll.Session.headsOfImages, same, List.map_map]
    apply List.map_congr_left
    intro frame member
    rw [Function.comp_apply, (heard _ (List.mem_map_of_mem (mem_of_mem_places member))).1]
  · rw [outcome, dll_reactAll sys _ (fun image member => (heard image member).2.2),
      List.length_map]
    simp only [List.map_eq_nil_iff]

end Link.System

@[simp] theorem Dll.Pipe.waiting_wire (wire : List UInt8) (nonce : Nonce) :
    (Dll.Pipe.waiting wire nonce).wire = wire := rfl

@[simp] theorem Service.Client.waiting_wire (wire : List UInt8) (nonce : Nonce) :
    (Service.Client.waiting wire nonce).wire = wire := rfl

namespace Link.Sample
open Wsac.Sample

def greetingImage : Image :=
  (Dll.FrameHeader.new config config.checkpointSignature 0 nonce).encode

/-- The DLL answers the second and the third greeting; the pipe breaks in the second answer. -/
def tornPipe : Dll.Pipe :=
  { Dll.Pipe.waiting (stream (framed config) (List.replicate 3 greetingImage)) nonce with
    brokenAt := some 50 }

def tornReader : Service.Client := Service.Client.waiting
  (finalState ((Dll.Session.run system.toConfig tornPipe).run Dll.World.start)).written nonce

theorem service_reads_torn_dll :
    let reader := finalState (Service.FrameSession.session system.toAssembly tornReader .new)
    (reader.state, reader.sent.length) = (.ready, 0) :=
  (System.service_reads_dll system tornPipe tornReader rfl rfl (by decide +kernel)
    (Service.Client.waiting_wire _ _)).2.2.trans (by decide +kernel)

def greetedSession : Service.Client :=
  Service.Client.waiting (stream (framed config) (List.replicate 3 greetingImage)) nonce

def greetedReader : Dll.Pipe := Dll.Pipe.waiting
  (finalState (Service.FrameSession.session system.toAssembly greetedSession .new)).written nonce

theorem dll_reads_greeted_service :
    let final := finalState ((Dll.Session.run system.toConfig greetedReader).run Dll.World.start)
    (final.base, final.sent.length) = (.ready, 1) :=
  (System.dll_reads_service system greetedSession .new greetedReader rfl rfl
    (Dll.Pipe.waiting_wire _ _)).2.trans (by decide +kernel)

end Link.Sample
end Wsac
