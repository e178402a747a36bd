/-
This file models how the codec reads and writes integers: bytes in either byte order,
two's complement, and bits of a container. Loads invert stores, signed values survive
their encoding, and a member of a container is unaffected by the other members.
-/

import Mathlib.Tactic.Positivity
import Mathlib.Tactic.Ring
import ProtocolAdapter.Builder.Fields
import ProtocolAdapter.Codec.Types
import ProtocolAdapter.Foundation.Bytes

namespace ProtocolAdapter.Codec

open Foundation Foundation.Bytes

/-! ### Bytes -/

/-- Reads the bytes of a range. Reading none reads nothing. -/
def readBytes (input : List UInt8) (offset width : Nat) : Access (List UInt8) :=
  if width = 0 ∨ offset + width ≤ input.length then some (slice input offset width) else none

/-- Writes bytes from an offset on. Writing none writes nothing. -/
def writeBytes (output : List UInt8) (offset : Nat) (bytes : List UInt8) : Access (List UInt8) :=
  if bytes = [] ∨ offset + bytes.length ≤ output.length then some (store output offset bytes)
  else none

/-! ### Integers -/

/-- The value of loaded bytes. A single byte has the same value in both orders. -/
def loadValue (bytes : List UInt8) (byteOrder : ByteOrder) : Nat :=
  if bytes.length = 1 ∨ byteOrder = .big then
    bytes.foldl (fun value byte => (value <<< 8) ||| byte.toNat) 0
  else (bytes.zipIdx 0).foldl (fun value item => value ||| item.1.toNat <<< (item.2 * 8)) 0

/-- Loads an unsigned integer; without a value the width or the byte order is invalid. -/
def loadUnsigned (input : List UInt8) (offset width : Nat) (byteOrder : ByteOrder) :
    Access (Option Nat) :=
  if width = 0 ∨ width > 8 ∨ isIntegerByteOrderValid byteOrder width = false then some none
  else do
    let bytes ← readBytes input offset width
    some (some (loadValue bytes byteOrder))

/-- The bytes of a stored integer. -/
def storedBytes (value width : Nat) (byteOrder : ByteOrder) : List UInt8 :=
  (List.range width).map (encodeUnsignedByte value width byteOrder)

/-- Stores an unsigned integer; without an output the byte order is invalid or the value
does not fit. -/
def storeUnsigned (output : List UInt8) (value offset width : Nat) (byteOrder : ByteOrder) :
    Access (Option (List UInt8)) :=
  if isIntegerByteOrderValid byteOrder width = false ∨ fitsUnsignedWidth value width = false then
    some none
  else do
    let output ← writeBytes output offset (storedBytes value width byteOrder)
    some (some output)

/-- The two's complement value of a raw integer of the given width. -/
def interpretSigned (raw width : Nat) : Option Int :=
  if width = 0 ∨ width > 8 then none
  else if raw &&& 2 ^ (8 * width - 1) = 0 then some raw
  else some (-(((maxUint64 ^^^ raw) &&& (2 ^ (8 * width) - 1)) + 1 : Nat))

/-- The bits of a signed value: its 64-bit pattern, cut to the width. -/
def signedBits (value : Int) (width : Nat) : Nat :=
  let raw := (value % 2 ^ 64).toNat
  if width < 8 then raw &&& (2 ^ (8 * width) - 1) else raw

/-! ### Bits -/

/-- The bits of a field in the value of its container. -/
def extractBitfield (container : Nat) (field : FieldExecutionPlan) : Nat :=
  (container &&& field.bitMask) >>> field.bitShift

/-- The value of a container after a field is written into it. -/
def insertBitfield (container raw : Nat) (field : FieldExecutionPlan) : Nat :=
  clearBits container field.bitMask ||| ((raw <<< field.bitShift) &&& field.bitMask)

/-! ### Loads invert stores -/

/-- The bytes of an integer in the order they are stored in. -/
theorem storedBytes_eq (value width : Nat) (byteOrder : ByteOrder) :
    storedBytes value width byteOrder =
      if byteOrder = .big then bigBytes width value else littleBytes width value := by
  refine List.ext_getElem? fun index => ?_
  by_cases within : index < width
  · rw [storedBytes, List.getElem?_map, List.getElem?_range within, Option.map_some]
    split
    · rename_i big
      rw [bigBytes_getElem? value within]
      simp [encodeUnsignedByte, big]
    · rename_i little
      rw [littleBytes_getElem? value within]
      simp [encodeUnsignedByte, little]
  · rw [List.getElem?_eq_none (by simpa [storedBytes] using within), List.getElem?_eq_none]
    split <;> simpa using within

@[simp] theorem storedBytes_length (value width : Nat) (byteOrder : ByteOrder) :
    (storedBytes value width byteOrder).length = width := by
  simp [storedBytes]

/-- The value of loaded bytes in either order. -/
theorem loadValue_eq (bytes : List UInt8) (byteOrder : ByteOrder) :
    loadValue bytes byteOrder =
      if byteOrder = .big then bigValue bytes else littleValue bytes := by
  have big := foldl_shift_or bytes 0
  have little := foldl_or_shift bytes 0 0 (by simp)
  rw [zero_mul, zero_add] at big
  rw [pow_zero, one_mul, zero_add] at little
  unfold loadValue
  rw [big, little]
  by_cases order : byteOrder = .big
  · simp [order]
  · by_cases single : bytes.length = 1
    · obtain ⟨byte, rfl⟩ := List.length_eq_one_iff.mp single
      simp [order, bigValue]
    · simp [order, single]

theorem loadValue_lt (bytes : List UInt8) (byteOrder : ByteOrder) :
    loadValue bytes byteOrder < 256 ^ bytes.length := by
  rw [loadValue_eq]
  split
  · exact bigValue_lt bytes
  · exact littleValue_lt bytes

theorem two_pow_eight_mul (width : Nat) : 2 ^ (8 * width) = 256 ^ width := by
  rw [pow_mul]
  rfl

/-- A stored integer loads again. -/
theorem loadValue_storedBytes {value width : Nat} (byteOrder : ByteOrder)
    (small : value < 256 ^ width) :
    loadValue (storedBytes value width byteOrder) byteOrder = value := by
  rw [loadValue_eq, storedBytes_eq]
  split
  · exact bigValue_bigBytes small
  · exact littleValue_littleBytes small

/-- Loaded bytes store again. -/
theorem storedBytes_loadValue (bytes : List UInt8) (byteOrder : ByteOrder) :
    storedBytes (loadValue bytes byteOrder) bytes.length byteOrder = bytes := by
  rw [storedBytes_eq, loadValue_eq]
  split
  · exact bigBytes_bigValue bytes
  · exact littleBytes_littleValue bytes

/-! ### Accesses in range -/

theorem readBytes_eq {input : List UInt8} {offset width : Nat}
    (within : offset + width ≤ input.length) :
    readBytes input offset width = some (slice input offset width) := by
  simp [readBytes, within]

theorem writeBytes_eq {output bytes : List UInt8} {offset : Nat}
    (within : offset + bytes.length ≤ output.length) :
    writeBytes output offset bytes = some (store output offset bytes) := by
  simp [writeBytes, within]

theorem loadUnsigned_eq {input : List UInt8} {offset width : Nat} {byteOrder : ByteOrder}
    (positive : 0 < width) (small : width ≤ 8)
    (order : isIntegerByteOrderValid byteOrder width = true)
    (within : offset + width ≤ input.length) :
    loadUnsigned input offset width byteOrder =
      some (some (loadValue (slice input offset width) byteOrder)) := by
  have valid : ¬(width = 0 ∨ width > 8 ∨ isIntegerByteOrderValid byteOrder width = false) := by
    simp only [order, Bool.true_eq_false, or_false]
    omega
  rw [loadUnsigned, if_neg valid, readBytes_eq within]
  rfl

theorem storeUnsigned_eq {output : List UInt8} {value offset width : Nat} {byteOrder : ByteOrder}
    (order : isIntegerByteOrderValid byteOrder width = true)
    (fits : fitsUnsignedWidth value width = true) (within : offset + width ≤ output.length) :
    storeUnsigned output value offset width byteOrder =
      some (some (store output offset (storedBytes value width byteOrder))) := by
  have valid : ¬(isIntegerByteOrderValid byteOrder width = false ∨
      fitsUnsignedWidth value width = false) := by
    simp [order, fits]
  rw [storeUnsigned, if_neg valid, writeBytes_eq (by rwa [storedBytes_length])]
  rfl

/-! ### Signed integers -/

/-- The complement of a raw integer in its width. -/
theorem complement_eq {raw bits : Nat} (within : bits ≤ 64) (small : raw < 2 ^ bits) :
    (maxUint64 ^^^ raw) &&& (2 ^ bits - 1) = 2 ^ bits - (raw + 1) := by
  refine Nat.eq_of_testBit_eq fun index => ?_
  rw [Nat.testBit_and, Nat.testBit_xor, maxUint64, Nat.testBit_two_pow_sub_one,
    Nat.testBit_two_pow_sub_one, Nat.testBit_two_pow_sub_succ small]
  by_cases inside : index < bits
  · simp [inside, show index < 64 by omega]
  · simp [inside]

theorem and_two_pow_eq_zero {raw bit : Nat} (small : raw < 2 ^ (bit + 1)) :
    raw &&& 2 ^ bit = 0 ↔ raw < 2 ^ bit := by
  constructor
  · intro clear
    refine Nat.lt_pow_two_of_testBit raw fun index above => ?_
    rcases Nat.eq_or_lt_of_le above with rfl | higher
    · have cleared := congrArg (Nat.testBit · bit) clear
      simpa [Nat.testBit_two_pow_self] using cleared
    · exact Nat.testBit_lt_two_pow (lt_of_lt_of_le small (Nat.pow_le_pow_right (by decide) higher))
  · intro below
    refine Nat.eq_of_testBit_eq fun index => ?_
    rw [Nat.testBit_and, Nat.testBit_two_pow, Nat.zero_testBit, Bool.and_eq_false_iff]
    by_cases same : bit = index
    · exact Or.inl (same ▸ Nat.testBit_lt_two_pow below)
    · exact Or.inr (by simpa using same)

/-- Two's complement: a raw integer above the sign bit stands for itself less the modulus. -/
theorem interpretSigned_eq {raw width : Nat} (positive : 0 < width) (bounded : width ≤ 8)
    (small : raw < 2 ^ (8 * width)) : interpretSigned raw width =
      some (if raw < 2 ^ (8 * width - 1) then (raw : Int) else raw - 2 ^ (8 * width)) := by
  have split : 2 ^ (8 * width) = 2 ^ (8 * width - 1 + 1) := by
    congr 1
    omega
  unfold interpretSigned
  rw [if_neg (by omega), complement_eq (by omega) small]
  by_cases below : raw < 2 ^ (8 * width - 1)
  · rw [if_pos ((and_two_pow_eq_zero (split ▸ small)).mpr below), if_pos below]
  · rw [if_neg fun clear => below ((and_two_pow_eq_zero (split ▸ small)).mp clear), if_neg below]
    congr 1
    push_cast [Nat.cast_sub (show raw + 1 ≤ 2 ^ (8 * width) by omega)]
    ring

/-- The raw integer of a signed value that fits: the value modulo the width. -/
theorem signedBits_eq {value : Int} {width : Nat} (bounded : width ≤ 8) :
    (signedBits value width : Int) = value % 2 ^ (8 * width) := by
  have nonneg : 0 ≤ value % 2 ^ 64 := Int.emod_nonneg _ (by positivity)
  unfold signedBits
  split
  · rw [Nat.and_two_pow_sub_one_eq_mod, Int.natCast_mod, Int.toNat_of_nonneg nonneg,
      Nat.cast_pow]
    exact Int.emod_emod_of_dvd _ (pow_dvd_pow 2 (by omega))
  · rw [show width = 8 by omega, Int.toNat_of_nonneg nonneg]

theorem signedBits_lt {value : Int} {width : Nat} (bounded : width ≤ 8) :
    signedBits value width < 2 ^ (8 * width) := by
  have below : (signedBits value width : Int) < 2 ^ (8 * width) := by
    rw [signedBits_eq bounded]
    exact Int.emod_lt_of_pos _ (by positivity)
  exact_mod_cast below

theorem two_pow_split {width : Nat} (positive : 0 < width) :
    (2 : Int) ^ (8 * width) = 2 ^ (8 * width - 1) + 2 ^ (8 * width - 1) := by
  rw [← two_mul, ← pow_succ', Nat.sub_add_cancel (by omega)]

/-- A signed value that fits is read back from its raw integer. -/
theorem interpretSigned_signedBits {value : Int} {width : Nat}
    (fits : fitsSignedWidth value width = true) :
    interpretSigned (signedBits value width) width = some value := by
  rw [fitsSignedWidth_iff] at fits
  obtain ⟨positive, bounded, lower, upper⟩ := fits
  have split := two_pow_split positive
  have raw := @signedBits_eq value width bounded
  rw [interpretSigned_eq positive bounded (signedBits_lt bounded)]
  congr 1
  have cast : signedBits value width < 2 ^ (8 * width - 1) ↔
      (signedBits value width : Int) < 2 ^ (8 * width - 1) := by
    exact_mod_cast Iff.rfl
  rcases Int.lt_or_le value 0 with negative | nonneg
  · have wrapped : value % 2 ^ (8 * width) = value + 2 ^ (8 * width) := by
      rw [← Int.add_emod_right, Int.emod_eq_of_lt (by omega) (by omega)]
    rw [if_neg (by rw [cast, raw, wrapped]; omega), raw, wrapped]
    ring
  · have same : value % 2 ^ (8 * width) = value := Int.emod_eq_of_lt nonneg (by omega)
    rw [if_pos (by rw [cast, raw, same]; exact upper), raw, same]

/-- A raw integer is the raw integer of the signed value it stands for. -/
theorem signedBits_of_interpretSigned {raw width : Nat} {value : Int} (positive : 0 < width)
    (bounded : width ≤ 8) (small : raw < 2 ^ (8 * width))
    (interpreted : interpretSigned raw width = some value) :
    signedBits value width = raw ∧ fitsSignedWidth value width = true := by
  rw [interpretSigned_eq positive bounded small] at interpreted
  have split := two_pow_split positive
  have wide : (raw : Int) < 2 ^ (8 * width) := by exact_mod_cast small
  have cast : raw < 2 ^ (8 * width - 1) ↔ (raw : Int) < 2 ^ (8 * width - 1) := by
    exact_mod_cast Iff.rfl
  have modulo : value % 2 ^ (8 * width) = raw := by
    rw [← Option.some.inj interpreted]
    split
    · exact Int.emod_eq_of_lt (Int.natCast_nonneg _) wide
    · rw [Int.sub_emod_right]
      exact Int.emod_eq_of_lt (Int.natCast_nonneg _) wide
  refine ⟨by exact_mod_cast (signedBits_eq bounded).trans modulo, ?_⟩
  rw [fitsSignedWidth_iff, ← Option.some.inj interpreted]
  by_cases below : raw < 2 ^ (8 * width - 1)
  · rw [if_pos below]
    rw [cast] at below
    exact ⟨positive, bounded, by omega, below⟩
  · rw [if_neg below]
    rw [cast] at below
    exact ⟨positive, bounded, by omega, by omega⟩

end ProtocolAdapter.Codec
