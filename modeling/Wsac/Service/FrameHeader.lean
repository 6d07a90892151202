import Wsac.Config

/-! # `Net/Models/FrameHeader.cs` of the service

A sequential `Pack = 1` struct with a signed 64-bit size.  `MemoryMarshal.Read`
and `MemoryMarshal.Write` are `decode` and `encode`; the signed area is written
to a buffer of its own, not taken from the struct. -/

set_option autoImplicit false

namespace Wsac.Service

open Library Library.LittleEndian

structure FrameHeader where
  signature : UInt16
  dataSize : Int64
  nonce : Nonce
  mac : Mac
deriving DecidableEq

namespace FrameHeader

def encode (header : FrameHeader) : Image :=
  Bytes.ofList (digits 2 header.signature.toNat ++ digits 8 header.dataSize.toUInt64.toNat ++
    header.nonce.toList ++ header.mac.toList) (by simp)

def decode (image : Image) : FrameHeader where
  signature := UInt16.ofNat (value (image.slice 0 2 Image.sig_inside).toList)
  dataSize := (UInt64.ofNat (value (image.slice 2 8 Image.dataSize_inside).toList)).toInt64
  nonce := image.slice 10 12 Image.nonce_inside
  mac := image.slice 22 16 Image.mac_inside

/-- The ten-byte `buffer` of `SignUnsafe`. -/
def signBuffer (header : FrameHeader) : AuthInfo :=
  Bytes.ofList (digits 2 header.signature.toNat ++ digits 8 header.dataSize.toUInt64.toNat)
    (by simp)

def sign (cfg : Config) (header : FrameHeader) : FrameHeader :=
  { header with mac := cfg.tag cfg.pskLayer1 header.nonce header.signBuffer }

def validate (cfg : Config) (header : FrameHeader) : Bool :=
  let signed := header.sign cfg
  header.mac == signed.mac

/-- The constructor: fields, a random nonce, then `SignUnsafe`. -/
def new (cfg : Config) (signature : UInt16) (size : Int64) (nonce : Nonce) : FrameHeader :=
  sign cfg ⟨signature, size, nonce, List.Vector.replicate 16 0⟩

theorem encode_toList (header : FrameHeader) :
    header.encode.toList = digits 2 header.signature.toNat ++
      digits 8 header.dataSize.toUInt64.toNat ++ header.nonce.toList ++ header.mac.toList := rfl

theorem validate_eq_true_iff (cfg : Config) (header : FrameHeader) :
    header.validate cfg = true ↔
      header.mac = cfg.tag cfg.pskLayer1 header.nonce header.signBuffer := by
  simp [validate, sign]

theorem validate_sign (cfg : Config) (header : FrameHeader) :
    (header.sign cfg).validate cfg = true := by
  rw [validate_eq_true_iff]
  rfl

theorem validate_new (cfg : Config) (signature : UInt16) (size : Int64) (nonce : Nonce) :
    (new cfg signature size nonce).validate cfg = true := validate_sign cfg _

end FrameHeader
end Wsac.Service
