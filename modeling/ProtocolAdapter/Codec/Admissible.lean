/-
This file works out the layout of a binary record at each length its message admits: the
payload fills what header and trailer leave, and the checksum reads and is stored inside
the record. In a record of such a length every check of the codec is a plain comparison of
bytes, without a read outside the record.
-/

import ProtocolAdapter.Codec.Valid

namespace ProtocolAdapter.Codec

open Foundation Foundation.Bytes

/-! ### The layout at a length -/

/-- The length of the payload in a record. -/
def payloadSize (message : MessageExecutionPlan) (size : Nat) : Nat :=
  match message.boundedPayload with
  | some bounded => size - bounded.headerLength - bounded.trailerLength
  | none => 0

/-- Where the checksum of a record reads and is stored. -/
def checksumPlace (message : MessageExecutionPlan) (integrity : FrozenIntegrityPlan)
    (size : Nat) : ResolvedIntegrity :=
  match message.boundedPayload with
  | some bounded =>
    let payloadEnd := bounded.headerLength + payloadSize message size
    { rangeOffset := integrity.rangeOffset
      rangeLength := if integrity.rangeEndsAtPayload then payloadEnd - integrity.rangeOffset
        else integrity.rangeLength
      storageOffset := payloadEnd
      storageWidth := integrityStorageWidth integrity }
  | none =>
    { rangeOffset := integrity.rangeOffset
      rangeLength := integrity.rangeLength
      storageOffset := integrity.storageOffset
      storageWidth := integrityStorageWidth integrity }

section

variable {schemaVersion : String} {conversions : List LinearConversionDescriptor}
  {message : MessageExecutionPlan} {size : Nat}

/-- A message with a bounded payload admits the lengths between its shortest and its longest
record. -/
theorem BinaryValid.size_bounded (valid : BinaryValid schemaVersion conversions message)
    (fits : lengthMatches message size = true) {bounded : BoundedPayloadPlan}
    (has : message.boundedPayload = some bounded) :
    size = bounded.headerLength + payloadSize message size + bounded.trailerLength ∧
      bounded.minPayloadLength ≤ payloadSize message size ∧
      payloadSize message size ≤ bounded.maxPayloadLength ∧
      bounded.minFrameLength ≤ size ∧ size ≤ bounded.maxFrameLength := by
  have payload := valid.payload bounded has
  have shortest := payload.shortest
  have longest := payload.longest
  simp only [lengthMatches, has, Bool.not_eq_true', Bool.or_eq_false_iff,
    decide_eq_false_iff_not, not_lt] at fits
  simp only [payloadSize, has]
  omega

theorem size_fixed (fits : lengthMatches message size = true)
    (none : message.boundedPayload = none) : size = message.frameSize := by
  simpa [lengthMatches, none] using fits

/-- The static layout lies in every record. -/
theorem BinaryValid.storageLimit_le (valid : BinaryValid schemaVersion conversions message)
    (fits : lengthMatches message size = true) : storageLimit message ≤ size := by
  cases has : message.boundedPayload with
  | none => rw [storageLimit, has, layoutLimit, size_fixed fits has]
  | some bounded =>
    have whole := (valid.size_bounded fits has).1
    rw [storageLimit, has, layoutLimit]
    omega

/-- The longest record has an admissible length. -/
theorem BinaryValid.lengthMatches_frameSize
    (valid : BinaryValid schemaVersion conversions message) :
    lengthMatches message message.frameSize = true := by
  cases has : message.boundedPayload with
  | none => simp [lengthMatches, has]
  | some bounded =>
    have payload := valid.payload bounded has
    have ordered := payload.ordered
    have shortest := payload.shortest
    have longest := payload.longest
    have frame := payload.frame
    simp only [lengthMatches, has, Bool.not_eq_true', Bool.or_eq_false_iff,
      decide_eq_false_iff_not, not_lt]
    omega

theorem BinaryValid.resolvePayloadLength_eq
    (valid : BinaryValid schemaVersion conversions message)
    (fits : lengthMatches message size = true) :
    resolvePayloadLength message size = some (payloadSize message size) := by
  cases has : message.boundedPayload with
  | none =>
    rw [resolvePayloadLength, payloadSize, has]
    exact if_pos (size_fixed fits has)
  | some bounded =>
    obtain ⟨whole, lower, upper, shortest, longest⟩ := valid.size_bounded fits has
    have same : payloadSize message size = size - bounded.headerLength - bounded.trailerLength := by
      rw [payloadSize, has]
    rw [same] at lower upper whole
    simp only [resolvePayloadLength, has, same]
    rw [if_neg (by omega), if_pos ⟨lower, upper, shortest, longest⟩]

/-! ### The checksum -/

/-- The checksum of a record lies in the record, behind or before what it covers. -/
structure PlaceValid (place : ResolvedIntegrity) (size : Nat) : Prop where
  range : place.rangeOffset + place.rangeLength ≤ size
  storage : place.storageOffset + place.storageWidth ≤ size
  apart : RangesApart place.storageOffset place.storageWidth place.rangeOffset place.rangeLength

theorem BinaryValid.place_valid (valid : BinaryValid schemaVersion conversions message)
    (fits : lengthMatches message size = true) {integrity : FrozenIntegrityPlan}
    (has : message.integrity = some integrity) :
    PlaceValid (checksumPlace message integrity size) size := by
  have checksum := valid.checksum integrity has
  unfold checksumPlace
  cases payload : message.boundedPayload with
  | none =>
    obtain ⟨-, -, -, range, storage, apart⟩ := checksum.fixed payload
    rw [← size_fixed fits payload] at range storage
    exact ⟨range, storage, apart⟩
  | some bounded =>
    obtain ⟨whole, lower, -⟩ := valid.size_bounded fits payload
    have trailer := (valid.payload bounded payload).trailer
    obtain ⟨-, range⟩ := checksum.bounded bounded payload
    rw [has] at trailer
    simp only at trailer ⊢
    by_cases ends : integrity.rangeEndsAtPayload = true
    · rw [if_pos ends] at range
      simp only [ends, if_true]
      exact ⟨by simp only; omega, by simp only; omega, Or.inr (by simp only; omega)⟩
    · rw [if_neg ends] at range
      simp only [ends]
      exact ⟨by simp only [Bool.false_eq_true, if_false]; omega, by simp only; omega,
        Or.inr (by simp only [Bool.false_eq_true, if_false]; omega)⟩

theorem BinaryValid.resolveIntegrity_eq (valid : BinaryValid schemaVersion conversions message)
    (fits : lengthMatches message size = true) {integrity : FrozenIntegrityPlan}
    (has : message.integrity = some integrity) :
    resolveIntegrity message size = some (checksumPlace message integrity size) := by
  have place := valid.place_valid fits has
  have checksum := valid.checksum integrity has
  have placed : placeIntegrity message integrity size =
      some (checksumPlace message integrity size) := by
    unfold placeIntegrity checksumPlace
    cases payload : message.boundedPayload with
    | none =>
      obtain ⟨ends, atEnd, -⟩ := checksum.fixed payload
      simp [ends, atEnd]
    | some bounded =>
      obtain ⟨atEnd, range⟩ := checksum.bounded bounded payload
      obtain ⟨whole, lower, -⟩ := valid.size_bounded fits payload
      simp only [valid.resolvePayloadLength_eq fits, Option.bind_eq_bind, Option.bind_some, atEnd,
        failIf_of_not (show ¬(true = false) by simp)]
      by_cases ends : integrity.rangeEndsAtPayload = true
      · rw [if_pos ends] at range
        simp only [ends, if_true]
        rw [if_neg (by omega)]
      · simp [ends]
  simp only [resolveIntegrity, has, placed, Option.bind_eq_bind, Option.bind_some]
  obtain ⟨range, storage, apart⟩ := place
  unfold RangesApart at apart
  rw [if_pos ⟨by omega, by omega, by omega, by omega, by omega⟩]

/-- The descriptor of the checksum is valid. -/
theorem BinaryValid.integrityDescriptorValid_eq
    (valid : BinaryValid schemaVersion conversions message) :
    integrityDescriptorValid message = true := by
  unfold integrityDescriptorValid
  cases has : message.integrity with
  | none => rfl
  | some integrity =>
    have checksum := valid.checksum integrity has
    simp only [checksum.algorithm, Bool.true_and,
      valid.resolveIntegrity_eq valid.lengthMatches_frameSize has, Option.any_some]
    unfold checksumPlace
    cases payload : message.boundedPayload with
    | none =>
      obtain ⟨-, -, nonempty, -⟩ := checksum.fixed payload
      simp [nonempty]
    | some bounded => simp

end

/-! ### The bytes of a checksum and of a length -/

/-- The CRC of the bytes it covers. -/
def crcValue (integrity : FrozenIntegrityPlan) (covered : List UInt8) : UInt32 :=
  let value := covered.foldl (crcByte integrity) (UInt32.ofNat integrity.crcInitialValue)
  let value :=
    if integrity.crcReflectOutput then reverseLowBits value integrity.crcWidth else value
  (value ^^^ UInt32.ofNat integrity.crcXorOutput) &&& crcMask integrity

/-- The checksum of the bytes it covers, as it is stored. -/
def checksumBytes (integrity : FrozenIntegrityPlan) (covered : List UInt8) : List UInt8 :=
  match integrity.algorithm with
  | .sum8 => [covered.foldl (· + ·) 0]
  | .crc => storedBytes (crcValue integrity covered).toNat (integrityStorageWidth integrity)
      integrity.storageByteOrder

/-- The bytes of the record at the start of a buffer that its checksum covers. -/
def coveredBytes (message : MessageExecutionPlan) (integrity : FrozenIntegrityPlan)
    (data : List UInt8) (size : Nat) : List UInt8 :=
  let place := checksumPlace message integrity size
  slice data place.rangeOffset place.rangeLength

/-- Whether the record at the start of a buffer carries its checksum. -/
def carriesChecksum (message : MessageExecutionPlan) (data : List UInt8) (size : Nat) : Bool :=
  match message.integrity with
  | none => true
  | some integrity =>
    let place := checksumPlace message integrity size
    slice data place.storageOffset place.storageWidth ==
      checksumBytes integrity (coveredBytes message integrity data size)

/-- The computed length of a record, as it is stored. -/
def lengthBytes (message : MessageExecutionPlan) (computed : ComputedLengthPlan) (size : Nat) :
    List UInt8 :=
  storedBytes (actualLength message computed size (payloadSize message size))
    computed.storageWidth computed.byteOrder

/-- Whether the record at the start of a buffer states its length. -/
def statesLength (message : MessageExecutionPlan) (data : List UInt8) (size : Nat) : Bool :=
  match message.computedLength with
  | none => true
  | some computed =>
    slice data computed.storageOffset computed.storageWidth == lengthBytes message computed size

/-- Loaded bytes have a value exactly when they are the bytes of that value. -/
theorem loadValue_eq_iff {bytes : List UInt8} {value width : Nat} (byteOrder : ByteOrder)
    (length : bytes.length = width) (small : value < 256 ^ width) :
    loadValue bytes byteOrder = value ↔ bytes = storedBytes value width byteOrder := by
  constructor
  · rintro rfl
    rw [← length, storedBytes_loadValue]
  · rintro rfl
    exact loadValue_storedBytes byteOrder small

section

variable {schemaVersion : String} {conversions : List LinearConversionDescriptor}
  {message : MessageExecutionPlan} {size : Nat}

theorem crcValue_lt {integrity : FrozenIntegrityPlan} (covered : List UInt8)
    (algorithm : integrity.algorithm = .crc) (valid : algorithmValid integrity = true) :
    (crcValue integrity covered).toNat < 256 ^ integrityStorageWidth integrity := by
  have width : integrity.crcWidth = 16 ∨ integrity.crcWidth = 32 := by
    simp only [algorithmValid, algorithm, crcParametersValid, Bool.and_eq_true, Bool.or_eq_true,
      decide_eq_true_eq] at valid
    exact valid.1.1.1.1.1.1
  simp only [crcValue, integrityStorageWidth, algorithm]
  rw [UInt32.toNat_and]
  refine lt_of_le_of_lt Nat.and_le_right ?_
  unfold crcMask
  rcases width with same | same <;> rw [same] <;> decide

theorem crcStorage_valid {integrity : FrozenIntegrityPlan} (algorithm : integrity.algorithm = .crc)
    (valid : algorithmValid integrity = true) :
    0 < integrityStorageWidth integrity ∧ integrityStorageWidth integrity ≤ 8 ∧
      isIntegerByteOrderValid integrity.storageByteOrder (integrityStorageWidth integrity) =
        true := by
  simp only [algorithmValid, algorithm, crcParametersValid, Bool.and_eq_true, Bool.or_eq_true,
    decide_eq_true_eq] at valid
  obtain ⟨⟨⟨⟨⟨⟨width, -⟩, -⟩, -⟩, -⟩, -⟩, order⟩ := valid
  simp only [integrityStorageWidth, algorithm, isIntegerByteOrderValid]
  rcases width with same | same <;> simpa [same] using order

/-- The checksum of a resolved place is compared byte by byte. -/
theorem integrityMatches_resolved (descriptor : integrityDescriptorValid message = true)
    {integrity : FrozenIntegrityPlan} (has : message.integrity = some integrity)
    {place : ResolvedIntegrity} (resolved : resolveIntegrity message size = some place)
    (width : place.storageWidth = integrityStorageWidth integrity) {data : List UInt8}
    (range : place.rangeOffset + place.rangeLength ≤ data.length)
    (storage : place.storageOffset + place.storageWidth ≤ data.length) :
    integrityMatches message data size =
      some (slice data place.storageOffset place.storageWidth ==
        checksumBytes integrity (slice data place.rangeOffset place.rangeLength)) := by
  have algorithmValid : algorithmValid integrity = true := by
    unfold integrityDescriptorValid at descriptor
    rw [has] at descriptor
    exact (Bool.and_eq_true _ _ ▸ descriptor).1
  unfold integrityMatches
  rw [descriptor, if_neg (by simp)]
  simp only [has, resolved]
  cases algorithm : integrity.algorithm with
  | sum8 =>
    have one : place.storageWidth = 1 := by rw [width, integrityStorageWidth, algorithm]
    have inside : place.storageOffset < data.length := by omega
    have single : slice data place.storageOffset 1 = [data[place.storageOffset]] := by
      rw [slice, List.take_one, List.head?_drop, List.getElem?_eq_getElem inside]
      rfl
    simp only [sum8, readBytes_eq range, Option.bind_eq_bind, Option.bind_some,
      List.getElem?_eq_getElem inside, one, single, checksumBytes, algorithm]
    simp [eq_comm]
  | crc =>
    have small := crcValue_lt (slice data place.rangeOffset place.rangeLength) algorithm
      algorithmValid
    obtain ⟨positive, bounded, order⟩ := crcStorage_valid algorithm algorithmValid
    rw [← width] at positive bounded order small
    have loaded := @loadUnsigned_eq data place.storageOffset _ _ positive bounded order storage
    have meaning := loadValue_eq_iff integrity.storageByteOrder (slice_length storage) small
    simp only [loaded, crc, readBytes_eq range, Option.bind_eq_bind, Option.bind_some,
      checksumBytes, algorithm, ← width]
    rw [Option.some.injEq, Bool.eq_iff_iff, beq_iff_eq, beq_iff_eq, ← meaning, eq_comm]
    rfl

/-- The checksum of a record is compared byte by byte. -/
theorem BinaryValid.integrityMatches_eq (valid : BinaryValid schemaVersion conversions message)
    (fits : lengthMatches message size = true) {data : List UInt8} (room : size ≤ data.length) :
    integrityMatches message data size = some (carriesChecksum message data size) := by
  unfold carriesChecksum
  cases has : message.integrity with
  | none =>
    unfold integrityMatches
    rw [valid.integrityDescriptorValid_eq, if_neg (by simp)]
    simp only [has]
  | some integrity =>
    obtain ⟨range, storage, -⟩ := valid.place_valid fits has
    have width : (checksumPlace message integrity size).storageWidth =
        integrityStorageWidth integrity := by
      unfold checksumPlace
      cases message.boundedPayload <;> rfl
    exact integrityMatches_resolved valid.integrityDescriptorValid_eq has
      (valid.resolveIntegrity_eq fits has) width (by omega) (by omega)

/-! ### The computed length -/

/-- What the descriptor of a computed length guarantees. -/
structure LengthValid (message : MessageExecutionPlan) (computed : ComputedLengthPlan) : Prop where
  positive : 0 < computed.storageWidth
  bounded : computed.storageWidth ≤ 8
  order : isIntegerByteOrderValid computed.byteOrder computed.storageWidth = true
  inside : computed.storageOffset + computed.storageWidth ≤ storageLimit message
  expected : computed.expectedValue = longestLength message computed
  fits : computed.expectedValue < 256 ^ computed.storageWidth
  payload : computed.scope = .payload → message.boundedPayload.isSome = true
  field : ∃ field, message.fields[computed.fieldIndex]? = some field ∧
    computedFieldMatches computed field = true

theorem BinaryValid.length_valid (valid : BinaryValid schemaVersion conversions message)
    {computed : ComputedLengthPlan} (has : message.computedLength = some computed) :
    LengthValid message computed := by
  have accepted := valid.lengthValid
  simp only [computedLengthDescriptorValid, has] at accepted
  split at accepted
  · cases accepted
  rename_i field found
  simp only [Bool.and_eq_true, beq_iff_eq, computedStorageValid, Bool.or_eq_true,
    decide_eq_true_eq] at accepted
  obtain ⟨⟨⟨⟨⟨⟨⟨width, order⟩, offset⟩, inside⟩, scope⟩, expected⟩, fits⟩, matching⟩ := accepted
  have small := (fitsUnsignedWidth_iff.mp fits).2.2
  rw [two_pow_eight_mul, ← expected] at small
  refine ⟨by omega, by omega, ?_, by omega, expected, small, fun payload => ?_,
    field, found, matching⟩
  · unfold isIntegerByteOrderValid
    split
    · rfl
    · rename_i wide
      rw [if_neg wide] at order
      simpa using order
  · rw [payload] at scope
    simp only [Bool.and_eq_true] at scope
    exact scope.1.1

/-- The length of a record fits where it is stored. -/
theorem BinaryValid.actualLength_lt (valid : BinaryValid schemaVersion conversions message)
    (fits : lengthMatches message size = true) {computed : ComputedLengthPlan}
    (has : message.computedLength = some computed) :
    actualLength message computed size (payloadSize message size) <
      256 ^ computed.storageWidth := by
  have facts := valid.length_valid has
  refine lt_of_le_of_lt ?_ facts.fits
  have expected := facts.expected
  unfold actualLength
  unfold longestLength at expected
  cases payload : message.boundedPayload with
  | none => exact le_rfl
  | some bounded =>
    obtain ⟨-, -, upper, -, longest⟩ := valid.size_bounded fits payload
    have frame := (valid.payload bounded payload).frame
    rw [payload] at expected
    cases scope : computed.scope with
    | frame =>
      rw [scope] at expected
      simp only at expected ⊢
      omega
    | payload =>
      rw [scope] at expected
      simp only at expected ⊢
      omega
    | region => exact le_rfl

/-- The computed length of a record is compared byte by byte. -/
theorem BinaryValid.computedLengthMatches_eq
    (valid : BinaryValid schemaVersion conversions message)
    (fits : lengthMatches message size = true) {data : List UInt8} (room : size ≤ data.length) :
    computedLengthMatches message data size = some (statesLength message data size) := by
  unfold computedLengthMatches statesLength
  cases has : message.computedLength with
  | none => rfl
  | some computed =>
    have facts := valid.length_valid has
    have limit := valid.storageLimit_le fits
    have small := valid.actualLength_lt fits has
    have resolved : ∃ length, (if message.boundedPayload.isSome = true then
        resolvePayloadLength message size else some 0) = some length ∧
          length = payloadSize message size := by
      cases payload : message.boundedPayload with
      | none => exact ⟨0, rfl, by rw [payloadSize, payload]⟩
      | some bounded => exact ⟨_, valid.resolvePayloadLength_eq fits, rfl⟩
    obtain ⟨length, resolved, rfl⟩ := resolved
    have within : computed.storageOffset + computed.storageWidth ≤ data.length := by
      have := facts.inside
      omega
    have meaning := loadValue_eq_iff computed.byteOrder (slice_length within) small
    simp only [resolved, loadUnsigned_eq facts.positive facts.bounded facts.order within,
      Option.bind_eq_bind, Option.bind_some, lengthBytes]
    rw [Option.some.injEq, Bool.eq_iff_iff, beq_iff_eq, beq_iff_eq, ← meaning, Option.some.injEq]

end

end ProtocolAdapter.Codec
