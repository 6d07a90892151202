import Wsac.Dll.FrameHeader
import Wsac.Service.FrameSession

/-! # One wire image, two packed structs

`ofDll` reads a DLL header as the service's struct with the same bytes.  The two
decoders, the two encoders, the two signed areas and hence the two `Validate`
agree through it; the service refuses the sizes that it reads as negative. -/

set_option autoImplicit false

namespace Wsac.Codec

open Library Library.LittleEndian

/-- The service's view of a DLL header: same fields, the size read as `Int64`. -/
def ofDll (header : Dll.FrameHeader) : Service.FrameHeader :=
  ⟨header.sig, header.dataSize.toInt64, header.nonce, header.mac⟩

theorem decode_ofDll (image : Image) :
    Service.FrameHeader.decode image = ofDll (Dll.FrameHeader.decode image) := rfl

theorem encode_ofDll (header : Dll.FrameHeader) : (ofDll header).encode = header.encode := rfl

theorem ofDll_surjective (header : Service.FrameHeader) :
    ∃ source : Dll.FrameHeader, ofDll source = header :=
  ⟨⟨header.signature, header.dataSize.toUInt64, header.nonce, header.mac⟩, rfl⟩

theorem signBuffer_ofDll (header : Dll.FrameHeader) :
    (ofDll header).signBuffer = header.encode.slice 0 10 Image.authInfo_inside := by
  apply List.Vector.eq
  rw [Dll.FrameHeader.encode_authInfo]
  rfl

theorem validate_ofDll (cfg : Config) (header : Dll.FrameHeader) :
    (ofDll header).validate cfg = header.validate cfg := by
  rw [Bool.eq_iff_iff, Service.FrameHeader.validate_eq_true_iff,
    Dll.FrameHeader.validate_eq_true_iff, signBuffer_ofDll]
  rfl

theorem service_encode_decode (image : Image) :
    (Service.FrameHeader.decode image).encode = image := by
  rw [decode_ofDll, encode_ofDll, Dll.FrameHeader.encode_decode]

theorem service_decode_encode (header : Service.FrameHeader) :
    Service.FrameHeader.decode header.encode = header := by
  obtain ⟨source, rfl⟩ := ofDll_surjective header
  rw [encode_ofDll, decode_ofDll, Dll.FrameHeader.decode_encode]

/-- The unsigned size is the signed one modulo `2 ^ 64`. -/
theorem dataSize_ofDll (header : Dll.FrameHeader) :
    (header.dataSize.toNat : Int) = (ofDll header).dataSize.toInt % 2 ^ 64 := by
  have bound := header.dataSize.toNat_lt
  show _ = header.dataSize.toInt64.toInt % 2 ^ 64
  rw [← Int64.toInt_toBitVec, UInt64.toBitVec_toInt64, BitVec.toInt_eq_toNat_cond]
  simp only [UInt64.toNat_toBitVec]
  split <;> omega

theorem dataSize_nonneg_iff (header : Dll.FrameHeader) :
    0 ≤ (ofDll header).dataSize.toInt ↔ header.dataSize.toNat < 2 ^ 63 := by
  have residue := dataSize_ofDll header
  have above := (ofDll header).dataSize.toInt_lt
  have below := (ofDll header).dataSize.le_toInt
  omega

theorem dataSize_of_nonneg (header : Dll.FrameHeader)
    (fits : header.dataSize.toNat < 2 ^ 63) :
    (ofDll header).dataSize.toInt = header.dataSize.toNat := by
  have residue := dataSize_ofDll header
  have above := (ofDll header).dataSize.toInt_lt
  have nonneg := (dataSize_nonneg_iff header).mpr fits
  omega

theorem dataSize_eq_iff (header : Dll.FrameHeader) :
    (ofDll header).dataSize.toInt = header.dataSize.toNat ↔ header.dataSize.toNat < 2 ^ 63 := by
  constructor
  · intro same
    rw [← dataSize_nonneg_iff, same]
    exact Int.natCast_nonneg _
  · exact dataSize_of_nonneg header

/-- `ReadHeader` lets a frame through when it is signed and its size is no negative `long`. -/
theorem checkHeader_iff (cfg : Config) (header : Dll.FrameHeader) :
    Service.FrameSession.checkHeader cfg (ofDll header) = .ok true ↔
      header.validate cfg = true ∧ header.dataSize.toNat < 2 ^ 63 := by
  have negative : (ofDll header).dataSize < 0 ↔ ¬ header.dataSize.toNat < 2 ^ 63 := by
    rw [← dataSize_nonneg_iff, Int.not_le, Int64.lt_iff_toInt_lt]
    rfl
  unfold Service.FrameSession.checkHeader
  rw [validate_ofDll]
  by_cases broken : header.validate cfg = false
  · rw [if_pos broken, broken]
    simp
  · rw [if_neg broken]
    by_cases oversized : (ofDll header).dataSize < 0
    · rw [if_pos oversized]
      have large := negative.mp oversized
      constructor
      · intro accepted
        cases accepted
      · rintro ⟨_, small⟩
        exact absurd small large
    · rw [if_neg oversized]
      simp only [true_iff]
      exact ⟨by simpa using broken, by simpa [negative] using oversized⟩

/-- Every 38-byte image means the same header to both programs, whichever key and
tag function they share. -/
theorem images_agree (cfg : Config) :
    (∀ image : Image,
      let dll := Dll.FrameHeader.decode image
      let service := Service.FrameHeader.decode image
      (dll.sig = service.signature ∧ dll.nonce = service.nonce ∧ dll.mac = service.mac ∧
        (dll.dataSize.toNat : Int) = service.dataSize.toInt % 2 ^ 64) ∧
      (dll.encode = image ∧ service.encode = image) ∧
      service.validate cfg = dll.validate cfg ∧
      (Service.FrameSession.checkHeader cfg service = .ok true ↔
        dll.validate cfg = true ∧ dll.dataSize.toNat < 2 ^ 63) ∧
      (service.dataSize.toInt = dll.dataSize.toNat ↔ dll.dataSize.toNat < 2 ^ 63)) ∧
    (∀ (signature : UInt16) (size : UInt64) (nonce : Nonce),
      (Service.FrameHeader.decode
        (Dll.FrameHeader.new cfg signature size nonce).encode).validate cfg = true) ∧
    (∀ (signature : UInt16) (size : Int64) (nonce : Nonce),
      (Dll.FrameHeader.decode
        (Service.FrameHeader.new cfg signature size nonce).encode).validate cfg = true) := by
  refine ⟨fun image => ?_, fun signature size nonce => ?_, fun signature size nonce => ?_⟩
  · simp only [decode_ofDll]
    refine ⟨⟨rfl, rfl, rfl, dataSize_ofDll _⟩, ⟨Dll.FrameHeader.encode_decode image, ?_⟩,
      validate_ofDll cfg _, checkHeader_iff cfg _, dataSize_eq_iff _⟩
    rw [← decode_ofDll, service_encode_decode]
  · rw [decode_ofDll, Dll.FrameHeader.decode_encode, validate_ofDll]
    exact Dll.FrameHeader.validate_new cfg signature size nonce
  · have read := decode_ofDll (Service.FrameHeader.new cfg signature size nonce).encode
    rw [service_decode_encode] at read
    rw [← validate_ofDll, ← read]
    exact Service.FrameHeader.validate_new cfg signature size nonce

end Wsac.Codec
