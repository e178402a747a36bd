/-
This file is a library of byte strings: the unsigned number that bytes denote in
either byte order, the bytes of a number in a given width, parts of a byte string, and
stores into it. Storing a number and loading it again gives the number, loading bytes
and storing the number gives the bytes, and a store changes nothing outside its range.
-/

import Mathlib.Data.List.Basic
import Mathlib.Data.Nat.Bitwise
import Mathlib.Tactic.Ring

namespace Foundation.Bytes

/-! ### Numbers and bytes -/

/-- The number that bytes denote, least significant byte first. -/
def littleValue : List UInt8 → Nat
  | [] => 0
  | byte :: rest => byte.toNat + 256 * littleValue rest

/-- The number that bytes denote, most significant byte first. -/
def bigValue (bytes : List UInt8) : Nat := littleValue bytes.reverse

/-- The lowest bytes of a number, least significant byte first. -/
def littleBytes : Nat → Nat → List UInt8
  | 0, _ => []
  | width + 1, number => UInt8.ofNat number :: littleBytes width (number / 256)

/-- The lowest bytes of a number, most significant byte first. -/
def bigBytes (width number : Nat) : List UInt8 := (littleBytes width number).reverse

@[simp] theorem littleBytes_length : ∀ width number : Nat,
    (littleBytes width number).length = width
  | 0, _ => rfl
  | width + 1, number => by rw [littleBytes, List.length_cons, littleBytes_length width]

@[simp] theorem bigBytes_length (width number : Nat) : (bigBytes width number).length = width := by
  rw [bigBytes, List.length_reverse, littleBytes_length]

theorem littleValue_lt : ∀ bytes : List UInt8, littleValue bytes < 256 ^ bytes.length
  | [] => Nat.one_pos
  | byte :: rest => by
    have head := byte.toNat_lt
    have tail := littleValue_lt rest
    rw [littleValue, List.length_cons, pow_succ]
    omega

theorem bigValue_lt (bytes : List UInt8) : bigValue bytes < 256 ^ bytes.length := by
  rw [bigValue, ← List.length_reverse]
  exact littleValue_lt _

theorem littleValue_append : ∀ low high : List UInt8,
    littleValue (low ++ high) = littleValue low + 256 ^ low.length * littleValue high
  | [], high => by simp [littleValue]
  | byte :: rest, high => by
    rw [List.cons_append, littleValue, littleValue, littleValue_append rest high,
      List.length_cons, pow_succ]
    ring

/-- A stored number loads again. -/
theorem littleValue_littleBytes : ∀ {width number : Nat}, number < 256 ^ width →
    littleValue (littleBytes width number) = number
  | 0, number, small => by simp at small; simp [littleBytes, littleValue, small]
  | width + 1, number, small => by
    have rest : number / 256 < 256 ^ width := by
      rw [pow_succ] at small
      exact Nat.div_lt_of_lt_mul (by rwa [mul_comm])
    rw [littleBytes, littleValue, littleValue_littleBytes rest, UInt8.toNat_ofNat']
    omega

theorem bigValue_bigBytes {width number : Nat} (small : number < 256 ^ width) :
    bigValue (bigBytes width number) = number := by
  rw [bigValue, bigBytes, List.reverse_reverse, littleValue_littleBytes small]

/-- Loaded bytes store again. -/
theorem littleBytes_littleValue : ∀ bytes : List UInt8,
    littleBytes bytes.length (littleValue bytes) = bytes
  | [] => rfl
  | byte :: rest => by
    have head := byte.toNat_lt
    have quotient : (byte.toNat + 256 * littleValue rest) / 256 = littleValue rest := by omega
    rw [List.length_cons, littleBytes, littleValue, quotient, littleBytes_littleValue rest]
    congr 1
    apply UInt8.toNat_inj.mp
    rw [UInt8.toNat_ofNat']
    omega

theorem bigBytes_bigValue (bytes : List UInt8) :
    bigBytes bytes.length (bigValue bytes) = bytes := by
  rw [bigBytes, bigValue, ← bytes.length_reverse, littleBytes_littleValue, List.reverse_reverse]

/-- Each stored byte is a shifted part of the number. -/
theorem littleBytes_getElem? : ∀ {width : Nat} (number : Nat) {index : Nat}, index < width →
    (littleBytes width number)[index]? = some (UInt8.ofNat (number >>> (index * 8)))
  | width + 1, number, 0, _ => by simp [littleBytes]
  | width + 1, number, index + 1, within => by
    rw [littleBytes, List.getElem?_cons_succ,
      littleBytes_getElem? (number / 256) (Nat.lt_of_succ_lt_succ within)]
    congr 2
    rw [show (index + 1) * 8 = 8 + index * 8 by ring, Nat.shiftRight_add,
      Nat.shiftRight_eq_div_pow number 8]

theorem bigBytes_getElem? {width : Nat} (number : Nat) {index : Nat} (within : index < width) :
    (bigBytes width number)[index]? =
      some (UInt8.ofNat (number >>> ((width - 1 - index) * 8))) := by
  rw [bigBytes, List.getElem?_reverse (by rwa [littleBytes_length]), littleBytes_length]
  exact littleBytes_getElem? number (by omega)

/-- Accumulating bytes by shifts computes the number, most significant byte first. -/
theorem foldl_shift_or : ∀ (bytes : List UInt8) (start : Nat),
    bytes.foldl (fun value byte => (value <<< 8) ||| byte.toNat) start =
      start * 256 ^ bytes.length + bigValue bytes := by
  intro bytes
  induction bytes with
  | nil => intro start; simp [bigValue, littleValue]
  | cons byte rest inductionHypothesis =>
    intro start
    have joined : (start <<< 8) ||| byte.toNat = start * 256 + byte.toNat := by
      have small := byte.toNat_lt
      rw [← Nat.shiftLeft_add_eq_or_of_lt (by omega), Nat.shiftLeft_eq]
    rw [List.foldl_cons, joined, inductionHypothesis, bigValue, bigValue, List.reverse_cons,
      littleValue_append, List.length_reverse, List.length_cons, pow_succ]
    simp only [littleValue]
    ring

/-- Placing bytes by shifts computes the number, least significant byte first. -/
theorem foldl_or_shift : ∀ (bytes : List UInt8) (position start : Nat), start < 256 ^ position →
    (bytes.zipIdx position).foldl
        (fun value item => value ||| item.1.toNat <<< (item.2 * 8)) start =
      start + 256 ^ position * littleValue bytes := by
  intro bytes
  induction bytes with
  | nil => intro position start _; simp [littleValue]
  | cons byte rest inductionHypothesis =>
    intro position start small
    have head := byte.toNat_lt
    have power : 2 ^ (position * 8) = 256 ^ position := by
      rw [mul_comm, pow_mul]
      rfl
    have joined : start ||| byte.toNat <<< (position * 8) =
        start + 256 ^ position * byte.toNat := by
      rw [Nat.or_comm, ← Nat.shiftLeft_add_eq_or_of_lt (by rwa [power]), Nat.shiftLeft_eq, power]
      ring
    have bound : start + 256 ^ position * byte.toNat < 256 ^ (position + 1) := by
      calc start + 256 ^ position * byte.toNat
          < 256 ^ position + 256 ^ position * byte.toNat := by omega
        _ = 256 ^ position * (byte.toNat + 1) := by ring
        _ ≤ 256 ^ position * 256 := Nat.mul_le_mul_left _ (by omega)
        _ = 256 ^ (position + 1) := (pow_succ _ _).symm
    rw [List.zipIdx_cons, List.foldl_cons, joined, inductionHypothesis _ _ bound, littleValue,
      pow_succ]
    ring

/-! ### Parts of a byte string -/

/-- The bytes of a range. -/
def slice (bytes : List UInt8) (offset width : Nat) : List UInt8 := (bytes.drop offset).take width

theorem slice_length {bytes : List UInt8} {offset width : Nat}
    (within : offset + width ≤ bytes.length) : (slice bytes offset width).length = width := by
  rw [slice, List.length_take, List.length_drop]
  omega

theorem slice_getElem? {bytes : List UInt8} {offset width index : Nat} (within : index < width) :
    (slice bytes offset width)[index]? = bytes[offset + index]? := by
  rw [slice, List.getElem?_take_of_lt within, List.getElem?_drop]

/-- Ranges with the same bytes are equal. -/
theorem slice_congr {left right : List UInt8} {offset width : Nat}
    (same : ∀ index, index < width → left[offset + index]? = right[offset + index]?) :
    slice left offset width = slice right offset width := by
  refine List.ext_getElem? fun index => ?_
  by_cases within : index < width
  · rw [slice_getElem? within, slice_getElem? within, same index within]
  · rw [List.getElem?_eq_none, List.getElem?_eq_none] <;>
      exact (List.length_take_le _ _).trans (Nat.le_of_not_lt within)

/-- A range of the first bytes is a range of the whole. -/
theorem slice_take {bytes : List UInt8} {offset width size : Nat}
    (within : offset + width ≤ size) : slice (bytes.take size) offset width =
      slice bytes offset width :=
  slice_congr fun index bound => by rw [List.getElem?_take_of_lt (by omega)]

/-! ### Stores -/

/-- Replaces the bytes from an offset on; bytes behind the end are ignored. -/
def store (buffer : List UInt8) (offset : Nat) (bytes : List UInt8) : List UInt8 :=
  buffer.mapIdx fun index old =>
    if offset ≤ index then bytes.getD (index - offset) old else old

@[simp] theorem store_length (buffer : List UInt8) (offset : Nat) (bytes : List UInt8) :
    (store buffer offset bytes).length = buffer.length := by
  simp [store]

theorem store_getElem? (buffer : List UInt8) (offset : Nat) (bytes : List UInt8) (index : Nat) :
    (store buffer offset bytes)[index]? = buffer[index]?.map fun old =>
      if offset ≤ index then bytes.getD (index - offset) old else old := by
  simp [store, List.getElem?_mapIdx]

/-- A byte outside the range of a store keeps its value. -/
theorem store_getElem?_outside {buffer bytes : List UInt8} {offset index : Nat}
    (outside : index < offset ∨ offset + bytes.length ≤ index) :
    (store buffer offset bytes)[index]? = buffer[index]? := by
  rw [store_getElem?]
  cases buffer[index]? with
  | none => rfl
  | some old =>
    simp only [Option.map_some]
    split
    · rw [List.getD_eq_default _ _ (by omega)]
    · rfl

/-- A byte inside the range of a store takes the stored value. -/
theorem store_getElem?_inside {buffer bytes : List UInt8} {offset index : Nat}
    (within : offset + bytes.length ≤ buffer.length) (inside : index < bytes.length) :
    (store buffer offset bytes)[offset + index]? = bytes[index]? := by
  rw [store_getElem?, List.getElem?_eq_getElem (by omega : offset + index < buffer.length),
    List.getElem?_eq_getElem inside, Option.map_some, if_pos (Nat.le_add_right _ _),
    Nat.add_sub_cancel_left, List.getD_eq_getElem _ _ inside]

/-- The range of a store holds the stored bytes. -/
theorem slice_store_same {buffer bytes : List UInt8} {offset : Nat}
    (within : offset + bytes.length ≤ buffer.length) :
    slice (store buffer offset bytes) offset bytes.length = bytes := by
  refine List.ext_getElem? fun index => ?_
  by_cases inside : index < bytes.length
  · rw [slice_getElem? inside, store_getElem?_inside within inside]
  · rw [List.getElem?_eq_none, List.getElem?_eq_none]
    · omega
    · exact (List.length_take_le _ _).trans (Nat.le_of_not_lt inside)

/-- A range that shares no byte with a store keeps its bytes. -/
theorem slice_store_disjoint {buffer bytes : List UInt8} {offset other width : Nat}
    (disjoint : other + width ≤ offset ∨ offset + bytes.length ≤ other) :
    slice (store buffer offset bytes) other width = slice buffer other width :=
  slice_congr fun index within => store_getElem?_outside (by omega)

theorem store_singleton (buffer : List UInt8) (offset : Nat) (byte : UInt8) :
    store buffer offset [byte] = buffer.set offset byte := by
  refine List.ext_getElem? fun index => ?_
  by_cases same : index = offset
  · subst same
    rw [store_getElem?, List.getElem?_set_self', Nat.sub_self]
    cases buffer[index]? <;> simp
  · rw [List.getElem?_set_ne (Ne.symm same)]
    refine store_getElem?_outside ?_
    rw [List.length_singleton]
    omega

end Foundation.Bytes
