import Wsac.Config

/-! # `Model/IO/FrameHeader` of the DLL

The packed struct is its 38 bytes of memory: `encode` lays the fields out in
declaration order, `decode` is the cast of a byte buffer back to the struct. -/

set_option autoImplicit false

namespace Wsac.Dll

open Library Library.LittleEndian

/-- `enum FrameSig : uint16_t` can hold any 16-bit value, so the field does too. -/
structure FrameHeader where
  sig : UInt16
  dataSize : UInt64
  nonce : Nonce
  mac : Mac
deriving DecidableEq

namespace FrameHeader

def encode (header : FrameHeader) : Image :=
  Bytes.ofList (digits 2 header.sig.toNat ++ digits 8 header.dataSize.toNat ++
    header.nonce.toList ++ header.mac.toList) (by simp)

def decode (image : Image) : FrameHeader where
  sig := UInt16.ofNat (value (image.slice 0 2 Image.sig_inside).toList)
  dataSize := UInt64.ofNat (value (image.slice 2 8 Image.dataSize_inside).toList)
  nonce := image.slice 10 12 Image.nonce_inside
  mac := image.slice 22 16 Image.mac_inside

/-- `Sign` hands the first `sizeof sig + sizeof dataSize` bytes of the struct to
the cipher as associated data. -/
def sign (cfg : Config) (header : FrameHeader) : FrameHeader :=
  let ref := header.encode.slice 0 10 Image.authInfo_inside
  { header with mac := cfg.tag cfg.pskLayer1 header.nonce ref }

def validate (cfg : Config) (header : FrameHeader) : Bool :=
  let copy := header.sign cfg
  header.mac == copy.mac

/-- The constructor: fields, a random nonce, then `Sign`. -/
def new (cfg : Config) (sig : UInt16) (size : UInt64) (nonce : Nonce) : FrameHeader :=
  sign cfg ⟨sig, size, nonce, List.Vector.replicate 16 0⟩

/-- `FrameHeader::Null()`; `FrameSig::Null` is 0. -/
def null (cfg : Config) (nonce : Nonce) : FrameHeader := new cfg 0 0 nonce

theorem encode_toList (header : FrameHeader) :
    header.encode.toList = digits 2 header.sig.toNat ++ digits 8 header.dataSize.toNat ++
      header.nonce.toList ++ header.mac.toList := rfl

theorem encode_authInfo (header : FrameHeader) :
    (header.encode.slice 0 10 Image.authInfo_inside).toList =
      digits 2 header.sig.toNat ++ digits 8 header.dataSize.toNat := by
  rw [Bytes.slice_toList, encode_toList, List.drop_zero, List.append_assoc,
    List.take_left' (by simp)]

theorem encode_decode (image : Image) : (decode image).encode = image := by
  apply List.Vector.eq
  have sigExact : (decode image).sig.toNat = value (image.slice 0 2 Image.sig_inside).toList :=
    Nat.mod_eq_of_lt (image.slice 0 2 Image.sig_inside).value_lt
  have sizeExact : (decode image).dataSize.toNat =
      value (image.slice 2 8 Image.dataSize_inside).toList :=
    Nat.mod_eq_of_lt (image.slice 2 8 Image.dataSize_inside).value_lt
  rw [encode_toList, sigExact, sizeExact, Bytes.digits_value, Bytes.digits_value]
  show _ ++ (image.slice 10 12 Image.nonce_inside).toList ++
    (image.slice 22 16 Image.mac_inside).toList = _
  rw [Bytes.slice_append image 0 2 8 (by omega), Bytes.slice_append image 0 10 12 (by omega),
    Bytes.slice_append image 0 22 16 (by omega), Bytes.slice_whole]

theorem decode_encode (header : FrameHeader) : decode header.encode = header := by
  obtain ⟨sig, dataSize, nonce, mac⟩ := header
  let image : Image := encode ⟨sig, dataSize, nonce, mac⟩
  have sigBytes : (image.slice 0 2 Image.sig_inside).toList = digits 2 sig.toNat :=
    Bytes.slice_of_append image 0 2 (by omega) [] _ _ (by simp [image, encode_toList]; rfl)
      rfl (by simp)
  have sizeBytes : (image.slice 2 8 Image.dataSize_inside).toList = digits 8 dataSize.toNat :=
    Bytes.slice_of_append image 2 8 (by omega) (digits 2 sig.toNat) _ _
      (by simp [image, encode_toList]; rfl) (by simp) (by simp)
  have nonceBytes : (image.slice 10 12 Image.nonce_inside).toList = nonce.toList :=
    Bytes.slice_of_append image 10 12 (by omega) (digits 2 sig.toNat ++ digits 8 dataSize.toNat)
      _ mac.toList (by simp [image, encode_toList]) (by simp) (by simp)
  have macBytes : (image.slice 22 16 Image.mac_inside).toList = mac.toList :=
    Bytes.slice_of_append image 22 16 (by omega)
      (digits 2 sig.toNat ++ digits 8 dataSize.toNat ++ nonce.toList) _ []
      (by simp [image, encode_toList]) (by simp) (by simp)
  simp only [decode, mk.injEq]
  refine ⟨?_, ?_, List.Vector.eq _ _ nonceBytes, List.Vector.eq _ _ macBytes⟩
  · rw [sigBytes, value_digits 2 _ sig.toNat_lt, UInt16.ofNat_toNat]
  · rw [sizeBytes, value_digits 8 _ dataSize.toNat_lt, UInt64.ofNat_toNat]

theorem validate_eq_true_iff (cfg : Config) (header : FrameHeader) :
    header.validate cfg = true ↔
      header.mac = cfg.tag cfg.pskLayer1 header.nonce
        (header.encode.slice 0 10 Image.authInfo_inside) := by
  simp [validate, sign]

/-- The signed area does not cover the MAC, so signing twice changes nothing. -/
theorem sign_authInfo (cfg : Config) (header : FrameHeader) :
    (header.sign cfg).encode.slice 0 10 Image.authInfo_inside =
      header.encode.slice 0 10 Image.authInfo_inside := by
  apply List.Vector.eq
  rw [encode_authInfo, encode_authInfo]
  rfl

theorem validate_sign (cfg : Config) (header : FrameHeader) :
    (header.sign cfg).validate cfg = true := by
  rw [validate_eq_true_iff, sign_authInfo]
  rfl

theorem validate_new (cfg : Config) (sig : UInt16) (size : UInt64) (nonce : Nonce) :
    (new cfg sig size nonce).validate cfg = true := validate_sign cfg _

end FrameHeader
end Wsac.Dll
