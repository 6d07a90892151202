import Mathlib.Data.Vector.Basic
import Mathlib.Tactic.Ring

/-! # Little-endian words and slices of fixed-length byte strings

`value` reads a byte string as a little-endian number and `digits width` writes
a number into `width` bytes; the two are inverse on strings of that width and on
numbers below `256 ^ width`.  `overwrite` fills a buffer piece by piece. -/

set_option autoImplicit false

namespace Wsac.Library

/-- A byte string that carries its length. -/
abbrev Bytes (length : Nat) := List.Vector UInt8 length

namespace LittleEndian

def value : List UInt8 → Nat
  | [] => 0
  | byte :: rest => byte.toNat + 256 * value rest

def digits : Nat → Nat → List UInt8
  | 0, _ => []
  | width + 1, number => UInt8.ofNat (number % 256) :: digits width (number / 256)

@[simp] theorem digits_length (width : Nat) : ∀ number, (digits width number).length = width := by
  induction width with
  | zero => intro number; rfl
  | succ width ih => intro number; simp [digits, ih]

theorem value_lt (bytes : List UInt8) : value bytes < 256 ^ bytes.length := by
  induction bytes with
  | nil => simp [value]
  | cons byte rest ih =>
      have byteBound := byte.toNat_lt
      simp only [value, List.length_cons, pow_succ]
      omega

theorem digits_value (bytes : List UInt8) : digits bytes.length (value bytes) = bytes := by
  induction bytes with
  | nil => rfl
  | cons byte rest ih =>
      have byteBound := byte.toNat_lt
      have low : (byte.toNat + 256 * value rest) % 256 = byte.toNat := by omega
      have high : (byte.toNat + 256 * value rest) / 256 = value rest := by omega
      simp only [List.length_cons, value, digits, low, high, ih]
      rw [UInt8.ofNat_toNat]

theorem value_digits (width : Nat) :
    ∀ number, number < 256 ^ width → value (digits width number) = number := by
  induction width with
  | zero => intro number bound; simp at bound; simp [digits, value, bound]
  | succ width ih =>
      intro number bound
      rw [pow_succ] at bound
      have quotientBound : number / 256 < 256 ^ width := by omega
      have lowByte : (UInt8.ofNat (number % 256)).toNat = number % 256 := by
        rw [UInt8.toNat_ofNat', Nat.mod_eq_of_lt (by omega)]
      simp only [digits, value, ih _ quotientBound, lowByte]
      omega

end LittleEndian

namespace Bytes

variable {length : Nat}

def ofList (bytes : List UInt8) (exact : bytes.length = length) : Bytes length := ⟨bytes, exact⟩

@[simp] theorem ofList_toList (bytes : List UInt8) (exact : bytes.length = length) :
    (ofList bytes exact).toList = bytes := rfl

def slice (bytes : Bytes length) (start size : Nat) (inside : start + size ≤ length) :
    Bytes size :=
  ofList ((bytes.toList.drop start).take size) (by
    rw [List.length_take, List.length_drop, List.Vector.toList_length]; omega)

theorem slice_toList (bytes : Bytes length) (start size : Nat) (inside : start + size ≤ length) :
    (bytes.slice start size inside).toList = (bytes.toList.drop start).take size := rfl

/-- Consecutive slices glue together to the longer slice. -/
theorem slice_append (bytes : Bytes length) (start first second : Nat)
    (inside : start + (first + second) ≤ length) :
    (bytes.slice start first (by omega)).toList ++
        (bytes.slice (start + first) second (by omega)).toList =
      (bytes.slice start (first + second) inside).toList := by
  simp only [slice_toList, ← List.drop_drop, List.take_add]

theorem slice_whole (bytes : Bytes length) :
    (bytes.slice 0 length (by omega)).toList = bytes.toList := by
  rw [slice_toList, List.drop_zero, List.take_of_length_le (by rw [List.Vector.toList_length])]

/-- A slice of a concatenation whose first part ends where the slice starts. -/
theorem slice_of_append (bytes : Bytes length) (start size : Nat)
    (inside : start + size ≤ length) (before middle after : List UInt8)
    (split : bytes.toList = before ++ (middle ++ after)) (beforeLength : before.length = start)
    (middleLength : middle.length = size) :
    (bytes.slice start size inside).toList = middle := by
  rw [slice_toList, split, List.drop_left' beforeLength, List.take_left' middleLength]

theorem value_lt (bytes : Bytes length) : LittleEndian.value bytes.toList < 256 ^ length := by
  simpa using LittleEndian.value_lt bytes.toList

theorem digits_value (bytes : Bytes length) :
    LittleEndian.digits length (LittleEndian.value bytes.toList) = bytes.toList := by
  simpa using LittleEndian.digits_value bytes.toList

/-- Write a chunk over the bytes from index `i` on; one that does not fit changes nothing. -/
def overwrite (buffer : Bytes length) (i : Nat) (chunk : List UInt8) : Bytes length :=
  if fits : i + chunk.length ≤ length then
    ofList (buffer.toList.take i ++ chunk ++ buffer.toList.drop (i + chunk.length)) (by
      simp; omega)
  else buffer

theorem overwrite_toList (buffer : Bytes length) (i : Nat) (chunk : List UInt8)
    (fits : i + chunk.length ≤ length) :
    (buffer.overwrite i chunk).toList =
      buffer.toList.take i ++ chunk ++ buffer.toList.drop (i + chunk.length) := by
  unfold overwrite
  rw [dif_pos fits]
  rfl

theorem overwrite_take (buffer : Bytes length) (i : Nat) (chunk : List UInt8)
    (fits : i + chunk.length ≤ length) :
    (buffer.overwrite i chunk).toList.take (i + chunk.length) = buffer.toList.take i ++ chunk := by
  rw [overwrite_toList buffer i chunk fits]
  apply List.take_left'
  rw [List.length_append, List.length_take, List.Vector.toList_length]
  omega

end Bytes
end Wsac.Library
