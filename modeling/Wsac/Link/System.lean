import Wsac.Codec
import Wsac.Dll.Turn
import Wsac.Service.Turn
import Wsac.Library.Handshake

/-! # The two programs at the two ends of one pipe

A frame in flight is given by its signature.  Each party reacts to what it
receives as its session does, and what it writes goes to the end of the other
direction; `dll_hears` and `service_hears` say so of the two sessions. -/

set_option autoImplicit false

namespace Wsac.Link

open Library

/-- The three signatures are case labels of one switch of the DLL. -/
structure System extends Service.Assembly where
  distinct : [checkpointSignature, regularSignature, testSignature].Nodup

def Sample.system : System where
  toAssembly := Service.Sample.assembly
  distinct := by decide

inductive Side where
  | dll
  | service
deriving DecidableEq

structure World where
  base : Dll.Base
  state : Service.FrameSessionState
  toDll : List UInt16
  toService : List UInt16
deriving DecidableEq

/-- Both sessions have just been made. -/
def World.start : World := ⟨.none, .none, [], []⟩

def World.synced : World := ⟨.ready, .ready, [], []⟩

/-- No frame is in flight. -/
def World.Quiet (world : World) : Prop := world.toDll = [] ∧ world.toService = []

instance (world : World) : Decidable world.Quiet :=
  inferInstanceAs (Decidable (world.toDll = [] ∧ world.toService = []))

/-- Both none or both ready. -/
def World.Agree (world : World) : Prop :=
  (world.base = .none ∧ world.state = .none) ∨ (world.base = .ready ∧ world.state = .ready)

namespace System
variable (sys : System)

/-- The reaction of one party, with its answers put on the pipe. -/
def hears : Side → Layer1.Received → World → World
  | .dll, received, world =>
      let (base, written) := Dll.Session.react sys.toConfig world.base received
      { world with
        base := base
        toService := world.toService ++ List.replicate written sys.checkpointSignature }
  | .service, received, world =>
      let (state, written) := Service.FrameSession.react sys.toAssembly world.state received
      { world with
        state := state
        toDll := world.toDll ++ List.replicate written sys.checkpointSignature }

/-- The oldest frame on the way to a party arrives. -/
def deliver (side : Side) (world : World) : Option World :=
  match side, world.toDll, world.toService with
  | .dll, [], _ => none
  | .dll, sig :: rest, _ => some (sys.hears .dll (.frame sig) { world with toDll := rest })
  | .service, _, [] => none
  | .service, _, sig :: rest =>
      some (sys.hears .service (.frame sig) { world with toService := rest })

/-! ## The sessions behind the parties -/

theorem dll_hears {offset : Nat} {header : Dll.FrameHeader} {before after : Dll.World}
    (settles : Dll.Session.Settles sys.toConfig offset header before after) (world : World)
    (same : world.base = before.base) :
    ∃ written, after.replies = before.replies ++ written ∧
      sys.hears .dll (Dll.Session.received sys.toConfig header) world =
        { world with base := after.base, toService := world.toService ++ written } := by
  refine ⟨_, settles.replies, ?_⟩
  rw [settles.base, ← same]
  rfl

theorem service_hears {offset : Nat} {head : Service.FrameHeader × Bool}
    {entries : List (Nat × Service.FrameHeader)} {received : Layer1.Received}
    {before after : Service.World} (world : World) (same : world.state = before.state)
    (settles : Service.FrameSession.Settles sys.toConfig before after offset head entries
      (Service.FrameSession.react sys.toAssembly before.state received)) :
    ∃ written, after.replies = before.replies ++ written ∧
      sys.hears .service received world =
        { world with state := after.state, toDll := world.toDll ++ written } := by
  refine ⟨_, settles.replies, ?_⟩
  rw [settles.state, ← same]
  rfl

/-- A checkpoint that the service writes is one to the DLL. -/
theorem dll_receives_checkpoint (nonce : Nonce) :
    Dll.Session.received sys.toConfig (Dll.FrameHeader.decode
      (Service.FrameHeader.new sys.toConfig sys.checkpointSignature 0 nonce).encode) =
      .frame sys.checkpointSignature := by
  obtain ⟨source, same⟩ := Codec.ofDll_surjective
    (Service.FrameHeader.new sys.toConfig sys.checkpointSignature 0 nonce)
  have valid : source.validate sys.toConfig = true := by
    rw [← Codec.validate_ofDll, same]
    exact Service.FrameHeader.validate_new sys.toConfig _ _ _
  have signature : source.sig = sys.checkpointSignature := congrArg (·.signature) same
  rw [← same, Codec.encode_ofDll, Dll.FrameHeader.decode_encode, Dll.Session.received,
    if_neg (by simp [valid]), signature]

/-- A checkpoint that the DLL writes passes `ReadHeader` as one. -/
theorem service_receives_checkpoint (nonce : Nonce) :
    let header := Service.FrameHeader.decode
      (Dll.FrameHeader.new sys.toConfig sys.checkpointSignature 0 nonce).encode
    Service.FrameSession.checkHeader sys.toConfig header = .ok true ∧
      header.signature = sys.checkpointSignature := by
  simp only [Codec.decode_ofDll, Dll.FrameHeader.decode_encode]
  refine ⟨(Codec.checkHeader_iff sys.toConfig _).mpr ⟨?_, ?_⟩, rfl⟩
  · exact Dll.FrameHeader.validate_new sys.toConfig _ _ _
  · show (0 : UInt64).toNat < 2 ^ 63
    decide

end System
end Wsac.Link
