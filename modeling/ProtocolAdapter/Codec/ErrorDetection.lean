/-
This file proves what the checksums of a record detect. The register of a CRC is the remainder
register of a cyclic code, whatever its width, polynomial and reflections; so a change of the
covered bytes that stays within as many consecutive bits as the register has never goes
unnoticed, and neither does a change of the stored checksum. A sum detects every change of one
byte.
-/

import ProtocolAdapter.Codec.Admissible
import ProtocolAdapter.Foundation.CyclicCode

namespace ProtocolAdapter.Codec

open Foundation Foundation.Bytes Foundation.CyclicCode

/-! ### The parameters of a CRC -/

/-- The polynomial as the register has it. -/
def crcPolynomial (integrity : FrozenIntegrityPlan) : Nat :=
  (UInt32.ofNat integrity.crcPolynomial).toNat

/-- What valid parameters say about the register. -/
structure RegisterValid (integrity : FrozenIntegrityPlan) : Prop where
  width : integrity.crcWidth = 16 ∨ integrity.crcWidth = 32
  invertible : Invertible integrity.crcWidth (crcPolynomial integrity)
  initial : (UInt32.ofNat integrity.crcInitialValue).toNat < 2 ^ integrity.crcWidth
  mask : (crcMask integrity).toNat = 2 ^ integrity.crcWidth - 1

/-- A value without bits outside the mask of its width fits the register. -/
theorem ofNat_lt_of_not_exceedsMask {width value : Nat} (known : width = 16 ∨ width = 32)
    (inside : exceedsMask value (crcWidthMask width) = false) :
    (UInt32.ofNat value).toNat < 2 ^ width := by
  rcases known with rfl | rfl
  · have outside : value &&& 0xFFFF0000 = 0 := by
      simp only [exceedsMask, decide_eq_false_iff_not, not_not] at inside
      exact inside
    refine Nat.lt_pow_two_of_testBit _ fun position above => ?_
    rw [UInt32.toNat_ofNat', Nat.testBit_mod_two_pow]
    by_cases low : position < 32
    · have masked := congrArg (fun bits => bits.testBit position) outside
      have set : (0xFFFF0000 : Nat).testBit position = true := by
        have all : ∀ position < 32, 16 ≤ position → (0xFFFF0000 : Nat).testBit position = true := by
          decide
        exact all position low above
      simp only [Nat.testBit_and, set, Bool.and_true, Nat.zero_testBit] at masked
      rw [masked, Bool.and_false]
    · rw [decide_eq_false low, Bool.false_and]
  · exact UInt32.toNat_lt _

theorem registerValid_of_parameters {integrity : FrozenIntegrityPlan}
    (valid : crcParametersValid integrity = true) : RegisterValid integrity := by
  simp only [crcParametersValid, Bool.and_eq_true, Bool.or_eq_true, decide_eq_true_eq,
    Bool.not_eq_true'] at valid
  obtain ⟨⟨⟨⟨⟨⟨width, -⟩, odd⟩, polynomial⟩, initial⟩, -⟩, -⟩ := valid
  refine ⟨width, ⟨by omega, ofNat_lt_of_not_exceedsMask width polynomial, ?_⟩,
    ofNat_lt_of_not_exceedsMask width initial, ?_⟩
  · rw [crcPolynomial, UInt32.toNat_ofNat', Nat.testBit_mod_two_pow, Nat.testBit_zero]
    rw [Nat.and_one_is_mod] at odd
    simp
    omega
  · unfold crcMask
    rcases width with same | same <;> rw [same] <;> rfl

/-! ### The register -/

section

variable {integrity : FrozenIntegrityPlan}

/-- The bits of a byte in the order the register takes them. -/
def processedBits (integrity : FrozenIntegrityPlan) (byte : UInt8) : List Bool :=
  (List.range 8).map fun index =>
    byte.toNat.testBit (if integrity.crcReflectInput then index else 7 - index)

/-- One bit of the code is one step of the register. -/
theorem crcBit_toNat (valid : RegisterValid integrity) (value : UInt32) :
    (crcBit integrity value).toNat =
      step integrity.crcWidth (crcPolynomial integrity) value.toNat := by
  have bounded : integrity.crcWidth ≤ 32 := by
    have width := valid.width
    omega
  have positive := valid.invertible.positive
  have shift : (UInt32.ofNat (integrity.crcWidth - 1)).toNat % 32 = integrity.crcWidth - 1 := by
    rw [UInt32.toNat_ofNat', Nat.mod_eq_of_lt (by omega), Nat.mod_eq_of_lt (by omega)]
  have one : ((1 : UInt32) <<< UInt32.ofNat (integrity.crcWidth - 1)).toNat =
      2 ^ (integrity.crcWidth - 1) := by
    rw [UInt32.toNat_shiftLeft, shift, UInt32.toNat_one, Nat.one_shiftLeft, Nat.mod_eq_of_lt]
    exact Nat.pow_lt_pow_right (by decide) (by omega)
  have high : value &&& ((1 : UInt32) <<< UInt32.ofNat (integrity.crcWidth - 1)) ≠ 0 ↔
      value.toNat.testBit (integrity.crcWidth - 1) = true := by
    rw [ne_eq, ← UInt32.toNat_inj, UInt32.toNat_and, one, Nat.and_two_pow]
    cases value.toNat.testBit (integrity.crcWidth - 1) <;> simp
  have shifted : ((value <<< 1) &&& crcMask integrity).toNat =
      2 * value.toNat % 2 ^ integrity.crcWidth := by
    rw [UInt32.toNat_and, valid.mask, Nat.and_two_pow_sub_one_eq_mod, UInt32.toNat_shiftLeft]
    change (value.toNat <<< 1) % 2 ^ 32 % 2 ^ integrity.crcWidth = _
    rw [Nat.mod_mod_of_dvd _ (pow_dvd_pow 2 bounded), Nat.shiftLeft_eq, Nat.mul_comm]
  unfold crcBit step
  simp only
  by_cases set : value.toNat.testBit (integrity.crcWidth - 1) = true
  · rw [if_pos (high.mpr set), if_pos set, UInt32.toNat_xor, shifted]
    rfl
  · rw [if_neg (mt high.mp set), if_neg set, shifted, Nat.xor_zero]

/-- A byte is aligned at the top of the register. -/
theorem shifted_input (width : integrity.crcWidth = 16 ∨ integrity.crcWidth = 32) (byte : UInt8) :
    ((if integrity.crcReflectInput then reverseLowBits byte.toUInt32 8 else byte.toUInt32) <<<
        UInt32.ofNat (integrity.crcWidth - 8)).toNat =
      align integrity.crcWidth (processedBits integrity byte) := by
  have all : ∀ reflected : Bool, ∀ code < 256,
      (((if reflected then reverseLowBits (UInt8.ofNat code).toUInt32 8
          else (UInt8.ofNat code).toUInt32) <<< 8).toNat =
        align 16 ((List.range 8).map fun index =>
          (UInt8.ofNat code).toNat.testBit (if reflected then index else 7 - index))) ∧
      (((if reflected then reverseLowBits (UInt8.ofNat code).toUInt32 8
          else (UInt8.ofNat code).toUInt32) <<< 24).toNat =
        align 32 ((List.range 8).map fun index =>
          (UInt8.ofNat code).toNat.testBit (if reflected then index else 7 - index))) := by
    decide +kernel
  have known := all integrity.crcReflectInput byte.toNat byte.toNat_lt
  rw [UInt8.ofNat_toNat] at known
  unfold processedBits
  rcases width with same | same <;> rw [same]
  · exact known.1
  · exact known.2

/-- One byte of the code is eight bits of the register. -/
theorem crcByte_toNat (valid : RegisterValid integrity) (value : UInt32) (byte : UInt8) :
    (crcByte integrity value byte).toNat =
      absorb integrity.crcWidth (crcPolynomial integrity) value.toNat
        (processedBits integrity byte) := by
  have length : (processedBits integrity byte).length = 8 := by simp [processedBits]
  have rounds : ∀ (count : Nat) (value : UInt32),
      ((List.range count).foldl (fun value _ => crcBit integrity value) value).toNat =
        (step integrity.crcWidth (crcPolynomial integrity))^[count] value.toNat := by
    intro count value
    induction count with
    | zero => rfl
    | succ count inductionHypothesis =>
      rw [List.range_succ, List.foldl_append, List.foldl_cons, List.foldl_nil, crcBit_toNat valid,
        inductionHypothesis, Function.iterate_succ_apply']
  have width := valid.width
  rw [absorb_eq_iterate valid.invertible _ _ (by omega), length, ← shifted_input width byte,
    ← UInt32.toNat_xor, ← rounds]
  rfl

/-- The bits of bytes in the order the register takes them. -/
def processedRange (integrity : FrozenIntegrityPlan) (covered : List UInt8) : List Bool :=
  covered.flatMap (processedBits integrity)

theorem crcRegister_toNat (valid : RegisterValid integrity) (covered : List UInt8) :
    ∀ value : UInt32, (covered.foldl (crcByte integrity) value).toNat =
      absorb integrity.crcWidth (crcPolynomial integrity) value.toNat
        (processedRange integrity covered) := by
  induction covered with
  | nil => exact fun _ => rfl
  | cons byte rest inductionHypothesis =>
    intro value
    have split : processedRange integrity (byte :: rest) =
        processedBits integrity byte ++ processedRange integrity rest := rfl
    rw [List.foldl_cons, inductionHypothesis, crcByte_toNat valid, split, absorb_append]

/-! ### The value of a CRC -/

/-- The lowest bits of a number in the opposite order. -/
def reversed : Nat → Nat → Nat
  | 0, _ => 0
  | count + 1, number => 2 * reversed count number + number / 2 ^ count % 2

theorem reversed_lt : ∀ count number : Nat, reversed count number < 2 ^ count
  | 0, _ => Nat.one_pos
  | count + 1, number => by
    have lower := reversed_lt count number
    rw [reversed, pow_succ]
    omega

theorem reversed_injective : ∀ (count : Nat) {left right : Nat},
    reversed count left = reversed count right → left % 2 ^ count = right % 2 ^ count
  | 0, _, _, _ => by rw [pow_zero, Nat.mod_one, Nat.mod_one]
  | count + 1, left, right, same => by
    rw [reversed, reversed] at same
    have lower := reversed_injective count
      (show reversed count left = reversed count right by omega)
    rw [pow_succ, Nat.mod_mul, Nat.mod_mul, lower]
    congr 2
    omega

theorem reverseLowBits_toNat (value : UInt32) {count : Nat} (bounded : count ≤ 32) :
    (reverseLowBits value count).toNat = reversed count value.toNat := by
  have rounds : ∀ rounds ≤ 32, (((List.range rounds).foldl
      (fun (state : UInt32 × UInt32) _ => ((state.1 <<< 1) ||| (state.2 &&& 1), state.2 >>> 1))
      (0, value)).1.toNat = reversed rounds value.toNat) ∧
      ((List.range rounds).foldl
        (fun (state : UInt32 × UInt32) _ => ((state.1 <<< 1) ||| (state.2 &&& 1), state.2 >>> 1))
        (0, value)).2.toNat = value.toNat / 2 ^ rounds := by
    intro rounds
    induction rounds with
    | zero => exact fun _ => ⟨rfl, (Nat.div_one _).symm⟩
    | succ rounds inductionHypothesis =>
      intro within
      obtain ⟨first, second⟩ := inductionHypothesis (by omega)
      have small := reversed_lt rounds value.toNat
      have room : 2 ^ rounds ≤ 2 ^ 31 := Nat.pow_le_pow_right (by decide) (by omega)
      rw [List.range_succ, List.foldl_append, List.foldl_cons, List.foldl_nil]
      constructor
      · rw [UInt32.toNat_or, UInt32.toNat_shiftLeft, UInt32.toNat_and, first, second]
        change (reversed rounds value.toNat <<< 1) % 2 ^ 32 ||| (value.toNat / 2 ^ rounds &&& 1) = _
        rw [Nat.and_one_is_mod, Nat.mod_eq_of_lt (by rw [Nat.shiftLeft_eq]; omega),
          ← Nat.shiftLeft_add_eq_or_of_lt (by omega), Nat.shiftLeft_eq, reversed]
        omega
      · rw [UInt32.toNat_shiftRight, second]
        change (value.toNat / 2 ^ rounds) >>> 1 = _
        rw [Nat.shiftRight_eq_div_pow, Nat.div_div_eq_div_mul, pow_one, ← pow_succ]
  exact (rounds count bounded).1

/-- Covered bytes that differ no wider than the register have different checksums. -/
theorem crcValue_ne (valid : RegisterValid integrity) {left right : List UInt8}
    (differs : DiffersWithin integrity.crcWidth (processedRange integrity left)
      (processedRange integrity right)) :
    crcValue integrity left ≠ crcValue integrity right := by
  intro same
  have bounded : integrity.crcWidth ≤ 32 := by
    have width := valid.width
    omega
  refine absorb_ne valid.invertible valid.initial differs ?_
  have leftRegister := crcRegister_toNat valid left (UInt32.ofNat integrity.crcInitialValue)
  have rightRegister := crcRegister_toNat valid right (UInt32.ofNat integrity.crcInitialValue)
  have leftSmall := absorb_lt valid.invertible valid.initial (processedRange integrity left)
  have rightSmall := absorb_lt valid.invertible valid.initial (processedRange integrity right)
  rw [← leftRegister] at leftSmall ⊢
  rw [← rightRegister] at rightSmall ⊢
  unfold crcValue at same
  simp only at same
  generalize left.foldl (crcByte integrity) (UInt32.ofNat integrity.crcInitialValue) = leftValue
    at same leftSmall ⊢
  generalize right.foldl (crcByte integrity) (UInt32.ofNat integrity.crcInitialValue) = rightValue
    at same rightSmall ⊢
  -- the last exclusive or and the mask lose nothing of a value of the width
  have unmasked : ∀ {one other : UInt32}, one.toNat < 2 ^ integrity.crcWidth →
      other.toNat < 2 ^ integrity.crcWidth →
      (one ^^^ UInt32.ofNat integrity.crcXorOutput) &&& crcMask integrity =
        (other ^^^ UInt32.ofNat integrity.crcXorOutput) &&& crcMask integrity →
      one.toNat = other.toNat := by
    intro one other oneSmall otherSmall equal
    have numbers := congrArg UInt32.toNat equal
    rw [UInt32.toNat_and, UInt32.toNat_and, UInt32.toNat_xor, UInt32.toNat_xor, valid.mask,
      Nat.and_two_pow_sub_one_eq_mod, Nat.and_two_pow_sub_one_eq_mod, Nat.xor_mod_two_pow,
      Nat.xor_mod_two_pow] at numbers
    have plain := xor_right_cancel numbers
    rwa [Nat.mod_eq_of_lt oneSmall, Nat.mod_eq_of_lt otherSmall] at plain
  by_cases reflected : integrity.crcReflectOutput = true
  · rw [if_pos reflected, if_pos reflected] at same
    have turned := unmasked
      (by rw [reverseLowBits_toNat _ bounded]; exact reversed_lt _ _)
      (by rw [reverseLowBits_toNat _ bounded]; exact reversed_lt _ _) same
    rw [reverseLowBits_toNat _ bounded, reverseLowBits_toNat _ bounded] at turned
    have plain := reversed_injective _ turned
    rwa [Nat.mod_eq_of_lt leftSmall, Nat.mod_eq_of_lt rightSmall] at plain
  · rw [if_neg reflected, if_neg reflected] at same
    exact unmasked leftSmall rightSmall same

/-! ### Changes of one byte -/

/-- Two byte strings differ in exactly one byte. -/
def DiffersInOneByte (left right : List UInt8) : Prop :=
  ∃ before byte other after, left = before ++ byte :: after ∧ right = before ++ other :: after ∧
    byte ≠ other

@[simp] theorem processedBits_length (byte : UInt8) :
    (processedBits integrity byte).length = 8 := by
  simp [processedBits]

@[simp] theorem processedRange_length (bytes : List UInt8) :
    (processedRange integrity bytes).length = 8 * bytes.length := by
  simp [processedRange, List.length_flatMap, Nat.mul_comm]

/-- The bits of a byte determine it. -/
theorem processedBits_injective {byte other : UInt8}
    (same : processedBits integrity byte = processedBits integrity other) : byte = other := by
  have each : ∀ index < 8,
      byte.toNat.testBit (if integrity.crcReflectInput then index else 7 - index) =
        other.toNat.testBit (if integrity.crcReflectInput then index else 7 - index) := by
    intro index inside
    have entry := congrArg (fun bits => bits[index]?) same
    simpa only [processedBits, List.getElem?_map, List.getElem?_range inside, Option.map_some,
      Option.some.injEq] using entry
  refine UInt8.toNat_inj.mp (Nat.eq_of_testBit_eq fun position => ?_)
  by_cases inside : position < 8
  · by_cases reflected : integrity.crcReflectInput = true
    · simpa only [if_pos reflected] using each position inside
    · have opposite := each (7 - position) (by omega)
      rwa [if_neg reflected, show 7 - (7 - position) = position by omega] at opposite
  · have above : 2 ^ 8 ≤ 2 ^ position := Nat.pow_le_pow_right (by decide) (by omega)
    rw [Nat.testBit_lt_two_pow (lt_of_lt_of_le byte.toNat_lt above),
      Nat.testBit_lt_two_pow (lt_of_lt_of_le other.toNat_lt above)]

/-- A change of one byte is no wider than the register. -/
theorem DiffersInOneByte.within (width : integrity.crcWidth = 16 ∨ integrity.crcWidth = 32)
    {left right : List UInt8} (differs : DiffersInOneByte left right) :
    DiffersWithin integrity.crcWidth (processedRange integrity left)
      (processedRange integrity right) := by
  obtain ⟨before, byte, other, after, rfl, rfl, different⟩ := differs
  have split : ∀ middle, processedRange integrity (before ++ middle :: after) =
      processedRange integrity before ++
        (processedBits integrity middle ++ processedRange integrity after) := by
    intro middle
    rw [processedRange, List.flatMap_append, List.flatMap_cons]
    rfl
  have rest : ∀ middle, (processedRange integrity (before ++ middle :: after)).drop
      ((processedRange integrity before).length + integrity.crcWidth) =
        (processedRange integrity after).drop (integrity.crcWidth - 8) := by
    intro middle
    have room : integrity.crcWidth = 8 + (integrity.crcWidth - 8) := by omega
    rw [split, ← List.drop_drop, List.drop_left, room, ← List.drop_drop,
      List.drop_left' (processedBits_length middle), Nat.add_sub_cancel_left]
  refine ⟨?_, fun same => different ?_, (processedRange integrity before).length, ?_, ?_⟩
  · simp only [split, List.length_append, processedBits_length]
  · rw [split, split] at same
    have middle := List.append_cancel_right (List.append_cancel_left same)
    exact processedBits_injective middle
  · rw [split, split, List.take_left, List.take_left]
  · rw [rest, rest]

theorem foldl_add (start : UInt8) : ∀ bytes : List UInt8,
    bytes.foldl (· + ·) start = start + bytes.foldl (· + ·) 0 := by
  intro bytes
  induction bytes generalizing start with
  | nil => exact (UInt8.add_zero start).symm
  | cons byte rest inductionHypothesis =>
    rw [List.foldl_cons, List.foldl_cons, inductionHypothesis, inductionHypothesis (0 + byte),
      UInt8.zero_add, UInt8.add_assoc]

/-- A change of one byte changes the sum. -/
theorem DiffersInOneByte.sum_ne {left right : List UInt8} (differs : DiffersInOneByte left right) :
    left.foldl (· + ·) (0 : UInt8) ≠ right.foldl (· + ·) 0 := by
  obtain ⟨before, byte, other, after, rfl, rfl, different⟩ := differs
  intro same
  rw [List.foldl_append, List.foldl_append, List.foldl_cons, List.foldl_cons, foldl_add,
    foldl_add (_ + other), UInt8.add_left_inj, UInt8.add_right_inj] at same
  exact different same

/-! ### Changed frames -/

/-- The stored checksum of a CRC determines its value. -/
theorem checksumBytes_ne (algorithm : integrity.algorithm = .crc)
    (valid : algorithmValid integrity = true) {left right : List UInt8}
    (different : crcValue integrity left ≠ crcValue integrity right) :
    checksumBytes integrity left ≠ checksumBytes integrity right := by
  intro same
  simp only [checksumBytes, algorithm] at same
  have values := congrArg (loadValue · integrity.storageByteOrder) same
  rw [loadValue_storedBytes _ (crcValue_lt left algorithm valid),
    loadValue_storedBytes _ (crcValue_lt right algorithm valid)] at values
  exact different (UInt32.toNat_inj.mp values)

/-- A change of one byte changes every checksum. -/
theorem DiffersInOneByte.checksumBytes_ne (valid : algorithmValid integrity = true)
    {left right : List UInt8} (differs : DiffersInOneByte left right) :
    checksumBytes integrity left ≠ checksumBytes integrity right := by
  cases algorithm : integrity.algorithm with
  | sum8 =>
    simp only [checksumBytes, algorithm, ne_eq, List.cons.injEq, and_true]
    exact differs.sum_ne
  | crc =>
    have register : RegisterValid integrity := by
      simp only [algorithmValid, algorithm] at valid
      exact registerValid_of_parameters valid
    exact Codec.checksumBytes_ne algorithm valid
      (crcValue_ne register (differs.within register.width))

end

section

variable {message : MessageExecutionPlan} {integrity : FrozenIntegrityPlan} {frame : List UInt8}

/-- The place of a checksum has its width. -/
theorem placeIntegrity_width {frameSize : Nat} {place : ResolvedIntegrity}
    (placed : placeIntegrity message integrity frameSize = some place) :
    place.storageWidth = integrityStorageWidth integrity := by
  unfold placeIntegrity at placed
  cases payload : message.boundedPayload with
  | none =>
    simp only [payload] at placed
    split at placed
    · cases placed
    · rw [← Option.some.inj placed]
  | some bounded =>
    simp only [payload, Option.bind_eq_bind, Option.bind_eq_some_iff] at placed
    obtain ⟨payloadLength, -, -, -, placed⟩ := placed
    split at placed
    · split at placed
      · cases placed
      · rw [← Option.some.inj placed]
    · rw [← Option.some.inj placed]

/-- What a frame that carries its checksum says: its descriptor is valid, and the range and
the storage lie in it and apart. -/
structure CarriedChecksum (message : MessageExecutionPlan) (integrity : FrozenIntegrityPlan)
    (frame : List UInt8) (place : ResolvedIntegrity) : Prop where
  descriptor : integrityDescriptorValid message = true
  algorithm : algorithmValid integrity = true
  resolved : resolveIntegrity message frame.length = some place
  width : place.storageWidth = integrityStorageWidth integrity
  range : place.rangeOffset + place.rangeLength ≤ frame.length
  storage : place.storageOffset + place.storageWidth ≤ frame.length
  apart : place.rangeOffset + place.rangeLength ≤ place.storageOffset ∨
    place.storageOffset + place.storageWidth ≤ place.rangeOffset
  carries : slice frame place.storageOffset place.storageWidth =
    checksumBytes integrity (slice frame place.rangeOffset place.rangeLength)

theorem carriedChecksum_of_matches (has : message.integrity = some integrity)
    (matching : integrityMatches message frame frame.length = some true) :
    ∃ place, CarriedChecksum message integrity frame place := by
  have descriptor : integrityDescriptorValid message = true := by
    by_contra invalid
    rw [Bool.not_eq_true] at invalid
    rw [integrityMatches, if_pos invalid] at matching
    cases matching
  have algorithm : algorithmValid integrity = true := by
    unfold integrityDescriptorValid at descriptor
    rw [has] at descriptor
    exact (Bool.and_eq_true _ _ ▸ descriptor).1
  cases resolved : resolveIntegrity message frame.length with
  | none =>
    rw [integrityMatches, if_neg (by simp [descriptor])] at matching
    simp only [has, resolved] at matching
    cases matching
  | some place =>
    have placed := resolved
    unfold resolveIntegrity at placed
    simp only [has, Option.bind_eq_bind, Option.bind_eq_some_iff] at placed
    obtain ⟨found, foundPlace, placed⟩ := placed
    split at placed
    · rename_i inside
      obtain rfl := Option.some.inj placed
      have width := placeIntegrity_width foundPlace
      have range : found.rangeOffset + found.rangeLength ≤ frame.length := by omega
      have storage : found.storageOffset + found.storageWidth ≤ frame.length := by omega
      rw [integrityMatches_resolved descriptor has resolved width range storage,
        Option.some.injEq, beq_iff_eq] at matching
      exact ⟨found, descriptor, algorithm, resolved, width, range, storage, by omega, matching⟩
    · cases placed

/-- A frame with a changed range carries a wrong checksum. -/
theorem CarriedChecksum.changed_range {place : ResolvedIntegrity}
    (checked : CarriedChecksum message integrity frame place)
    (has : message.integrity = some integrity)
    {changed : List UInt8} (sized : changed.length = place.rangeLength)
    (different : checksumBytes integrity (slice frame place.rangeOffset place.rangeLength) ≠
      checksumBytes integrity changed) :
    integrityMatches message (store frame place.rangeOffset changed) frame.length = some false := by
  have apart := checked.apart
  have covered := @slice_store_same frame changed place.rangeOffset (by
    rw [sized]; exact checked.range)
  rw [sized] at covered
  rw [integrityMatches_resolved checked.descriptor has checked.resolved checked.width
      (by rw [store_length]; exact checked.range) (by rw [store_length]; exact checked.storage),
    slice_store_disjoint (by omega), checked.carries, covered, Option.some.injEq,
    beq_eq_false_iff_ne]
  exact different

/-- A frame with a changed checksum carries a wrong checksum. -/
theorem CarriedChecksum.changed_storage {place : ResolvedIntegrity}
    (checked : CarriedChecksum message integrity frame place)
    (has : message.integrity = some integrity)
    {changed : List UInt8} (sized : changed.length = place.storageWidth)
    (different : changed ≠ slice frame place.storageOffset place.storageWidth) :
    integrityMatches message (store frame place.storageOffset changed) frame.length =
      some false := by
  have apart := checked.apart
  have covered := @slice_store_disjoint frame changed place.storageOffset place.rangeOffset
    place.rangeLength (by omega)
  have stored := @slice_store_same frame changed place.storageOffset (by
    rw [sized]; exact checked.storage)
  rw [sized] at stored
  rw [integrityMatches_resolved checked.descriptor has checked.resolved checked.width
      (by rw [store_length]; exact checked.range) (by rw [store_length]; exact checked.storage),
    covered, ← checked.carries, stored, Option.some.injEq, beq_eq_false_iff_ne]
  exact different

end

/-- A message of two bytes and the CRC of sixteen bits behind them. -/
def crcMessage : MessageExecutionPlan where
  frameSize := 4
  integrity := some
    { algorithm := .crc
      rangeOffset := 0
      rangeLength := 2
      storageOffset := 2
      crcWidth := 16
      crcPolynomial := 0x1021
      crcInitialValue := 0xFFFF
      crcXorOutput := 0
      crcReflectInput := false
      crcReflectOutput := false
      storageByteOrder := .big }

/-- A frame that carries its checksum carries a wrong one after any change of one byte it
covers, after any change of the stored checksum and, for a CRC, after any change of the covered
bytes within as many consecutive bits as the register has, in the order it takes them. -/
theorem integrity_detects (message : MessageExecutionPlan) (integrity : FrozenIntegrityPlan)
    (has : message.integrity = some integrity) (frame : List UInt8)
    (matching : integrityMatches message frame frame.length = some true) :
    ∃ place, resolveIntegrity message frame.length = some place ∧
      (integrity.algorithm = .crc → ∀ changed,
        DiffersWithin integrity.crcWidth
          (processedRange integrity (slice frame place.rangeOffset place.rangeLength))
          (processedRange integrity changed) →
        integrityMatches message (store frame place.rangeOffset changed) frame.length =
          some false) ∧
      (∀ changed, DiffersInOneByte (slice frame place.rangeOffset place.rangeLength) changed →
        integrityMatches message (store frame place.rangeOffset changed) frame.length =
          some false) ∧
      ∀ changed, changed.length = place.storageWidth →
        changed ≠ slice frame place.storageOffset place.storageWidth →
        integrityMatches message (store frame place.storageOffset changed) frame.length =
          some false := by
  obtain ⟨place, checked⟩ := carriedChecksum_of_matches has matching
  refine ⟨place, checked.resolved, fun algorithm changed differs => ?_, fun changed differs => ?_,
    fun changed sized different => checked.changed_storage has sized different⟩
  · have register : RegisterValid integrity := by
      have valid := checked.algorithm
      simp only [algorithmValid, algorithm] at valid
      exact registerValid_of_parameters valid
    have sized := differs.lengths
    rw [processedRange_length, processedRange_length, slice_length checked.range] at sized
    exact checked.changed_range has (by omega)
      (checksumBytes_ne algorithm checked.algorithm (crcValue_ne register differs))
  · have sized : changed.length = place.rangeLength := by
      obtain ⟨before, byte, other, after, left, rfl, -⟩ := differs
      have whole := congrArg List.length left
      rw [slice_length checked.range, List.length_append, List.length_cons] at whole
      rw [List.length_append, List.length_cons, whole]
    exact checked.changed_range has sized (differs.checksumBytes_ne checked.algorithm)

/-- Two swapped bytes differ within the register. -/
theorem integrity_detects_swap :
    integrityMatches crcMessage (store [0x31, 0x32, 0x3D, 0xBA] 0 [0x32, 0x31]) 4 = some false := by
  obtain ⟨place, resolved, burst, -⟩ := integrity_detects crcMessage _ rfl [0x31, 0x32, 0x3D, 0xBA]
    (by decide +kernel)
  have found : resolveIntegrity crcMessage 4 = some ⟨0, 2, 2, 2⟩ := by decide +kernel
  obtain rfl := Option.some.inj (resolved.symm.trans found)
  exact burst rfl [0x32, 0x31] ⟨by decide +kernel, by decide +kernel, 0, rfl, by decide +kernel⟩

end ProtocolAdapter.Codec
