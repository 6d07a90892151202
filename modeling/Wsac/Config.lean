import Wsac.Library.LittleEndian

/-! # What one configure run fixes for both programs

`cmake/SetConfigIn.cmake` draws the preamble, the three signatures and the layer
1 key, and writes the same values to `Config.hpp` and `Config.cs`.  The AEAD
(BCrypt on one side, .NET on the other) is outside the repository: it enters as
the function from key, nonce and associated data to the tag of an empty
plaintext. -/

set_option autoImplicit false

namespace Wsac

open Library

abbrev Nonce := Bytes 12
abbrev Mac := Bytes 16
abbrev Key := Bytes 32
/-- `sizeof sig + sizeof dataSize` bytes. -/
abbrev AuthInfo := Bytes 10
/-- The 38 bytes of a packed frame header. -/
abbrev Image := Bytes 38

/-! Where the fields of a header lie in its image. -/

theorem Image.sig_inside : 0 + 2 ≤ 38 := by decide
theorem Image.dataSize_inside : 2 + 8 ≤ 38 := by decide
theorem Image.nonce_inside : 10 + 12 ≤ 38 := by decide
theorem Image.mac_inside : 22 + 16 ≤ 38 := by decide
theorem Image.authInfo_inside : 0 + 10 ≤ 38 := by decide

structure Config where
  preamble : Bytes 6
  testSignature : UInt16
  regularSignature : UInt16
  checkpointSignature : UInt16
  pskLayer1 : Key
  tag : Key → Nonce → AuthInfo → Mac

theorem Config.preamble_nonempty (cfg : Config) : cfg.preamble.toList ≠ [] := by
  intro empty
  have six : cfg.preamble.toList.length = 6 := List.Vector.toList_length _
  rw [empty] at six
  exact absurd six (by decide)

/-- The DLL switches over the signatures, so it compiles only where they differ. -/
structure Config.Distinct (cfg : Config) : Prop where
  regular : cfg.regularSignature ≠ cfg.checkpointSignature
  test : cfg.testSignature ≠ cfg.checkpointSignature
  last : cfg.testSignature ≠ cfg.regularSignature

namespace Sample

def key : Key := Bytes.ofList ((List.range 32).map UInt8.ofNat) rfl

def nonce : Nonce := Bytes.ofList ((List.range 12).map fun i => UInt8.ofNat (64 + i)) rfl

/-- What ChaCha20-Poly1305 computes under `key` and `nonce` for an empty plaintext. -/
def tags : List (List UInt8 × List UInt8) :=
  [
    ([212, 195, 0, 0, 0, 0, 0, 0, 0, 0],
      [19, 92, 80, 194, 5, 65, 57, 225, 214, 149, 107, 122, 104, 127, 17, 79]),
    ([144, 91, 0, 0, 0, 0, 0, 0, 0, 0],
      [64, 192, 18, 86, 172, 20, 102, 12, 124, 214, 149, 141, 40, 40, 203, 91]),
    ([113, 46, 0, 0, 0, 0, 0, 0, 0, 0],
      [164, 227, 145, 136, 129, 138, 191, 7, 43, 93, 62, 37, 240, 130, 38, 250]),
    ([0, 0, 0, 0, 0, 0, 0, 0, 0, 0],
      [49, 200, 32, 54, 11, 189, 222, 193, 114, 29, 44, 148, 131, 48, 188, 43]),
    ([144, 91, 44, 0, 0, 0, 0, 0, 0, 0],
      [191, 163, 199, 45, 108, 83, 154, 66, 42, 191, 108, 117, 125, 48, 81, 214]),
    ([212, 195, 211, 255, 255, 255, 255, 255, 255, 127],
      [163, 105, 162, 148, 200, 22, 42, 87, 0, 217, 241, 233, 176, 212, 142, 204])
  ]

def tag (psk : Key) (drawn : Nonce) (authInfo : AuthInfo) : Mac :=
  let known := if psk = key ∧ drawn = nonce then (tags.lookup authInfo.toList).getD [] else []
  if size : known.length = 16 then Bytes.ofList known size else List.Vector.replicate 16 0

/-- A configuration to run the programs on. -/
def config : Config where
  preamble := Bytes.ofList [0xA7, 0x1F, 0x3C, 0x52, 0xE0, 0x9B] rfl
  testSignature := 0x2E71
  regularSignature := 0x5B90
  checkpointSignature := 0xC3D4
  pskLayer1 := key
  tag := tag

theorem distinct : config.Distinct := ⟨by decide, by decide, by decide⟩

end Sample
end Wsac
