/-
This file models the rules of the builder for the layout of a binary message before
its fields: the bounded payload, the integrity rule, the computed length and the bit
containers. A fixed message is laid out in its whole frame; a bounded one keeps
everything but its payload and its trailer in the header.
-/

import ProtocolAdapter.Builder.Checks

namespace ProtocolAdapter

open Foundation

/-! ### Bounded payloads -/

/-- The bytes the static layout of a message may use: its header when its payload is
bounded, its whole frame otherwise. -/
def layoutLimit (boundedPayload : Option BoundedPayloadPlan) (frameSize : Nat) : Nat :=
  match boundedPayload with
  | some bounded => bounded.headerLength
  | none => frameSize

/-- The bytes the checksum of an integrity rule is stored in. -/
def integrityStorageWidth (integrity : IntegrityPlan) : Nat :=
  match integrity.algorithm with
  | .sum8 => 1
  | .crc => integrity.crcWidth / 8

/-- The trailer a bounded message needs for its checksum; a CRC of another width than 16
or 32 has none. -/
def expectedTrailer : Option IntegrityPlan → Option Nat
  | none => some 0
  | some integrity =>
    match integrity.algorithm with
    | .sum8 => some 1
    | .crc =>
      if integrity.crcWidth = 16 ∨ integrity.crcWidth = 32 then some (integrity.crcWidth / 8)
      else none

/-- The sum of sizes, when `std::size_t` can hold every partial sum. -/
def addSizesChecked (sizes : List Nat) : Option Nat :=
  sizes.foldlM (fun total size => addSizeChecked size total) 0

/-- The defects of a bounded payload. -/
def boundedPayloadInvalid (schemaVersion : String) (limits : ResourceProfileLimits)
    (message : MessagePlan) (bounded : BoundedPayloadPlan) (trailer : Nat) : Bool :=
  schemaVersion ∉ ["0.8", "0.9"] || message.computedLength.isNone ||
    bounded.payloadFieldIndex ≥ message.fields.length ||
    !fitsSize bounded.headerLength || bounded.headerLength = 0 ||
    !fitsSize bounded.minPayloadLength || !fitsSize bounded.maxPayloadLength ||
    bounded.minPayloadLength > bounded.maxPayloadLength ||
    !fitsSize bounded.trailerLength || bounded.trailerLength ≠ trailer ||
    !fitsSize bounded.minFrameLength || !fitsSize bounded.maxFrameLength ||
    addSizesChecked [bounded.headerLength, bounded.minPayloadLength, bounded.trailerLength] ≠
      some bounded.minFrameLength ||
    addSizesChecked [bounded.headerLength, bounded.maxPayloadLength, bounded.trailerLength] ≠
      some bounded.maxFrameLength ||
    message.frameLengthBytes ≠ bounded.maxFrameLength ||
    bounded.maxFrameLength > limits.maxFrameBytes

/-- The rules for the bounded payload of a message. -/
def checkBoundedPayload (schemaVersion : String) (limits : ResourceProfileLimits)
    (messageIndex : Nat) (message : MessagePlan) : BuildResult Unit :=
  let diagnostic : PlanBuildDiagnostic :=
    { code := .invalidMessagePlan, messageIndex := messageIndex }
  match message.boundedPayload with
  | none => .ok ()
  | some bounded =>
    match expectedTrailer message.integrity with
    | none => .error diagnostic
    | some trailer =>
      rejectIf (boundedPayloadInvalid schemaVersion limits message bounded trailer) diagnostic

/-! ### Integrity -/

/-- The all-ones value of a CRC width. -/
def crcWidthMask (crcWidth : Nat) : Nat := if crcWidth = 16 then 0xFFFF else 0xFFFFFFFF

/-- Whether a 32-bit value has a bit outside a mask. -/
def exceedsMask (value mask : Nat) : Bool := (value &&& (0xFFFFFFFF ^^^ mask)) ≠ 0

/-- The parameters the checksum engine accepts for a CRC. -/
def crcParametersValid (integrity : IntegrityPlan) : Bool :=
  let mask := crcWidthMask integrity.crcWidth
  (integrity.crcWidth = 16 || integrity.crcWidth = 32) && integrity.crcPolynomial ≠ 0 &&
    (integrity.crcPolynomial &&& 1) ≠ 0 && !exceedsMask integrity.crcPolynomial mask &&
    !exceedsMask integrity.crcInitialValue mask && !exceedsMask integrity.crcXorOutput mask &&
    (integrity.storageByteOrder == .big || integrity.storageByteOrder == .little)

/-- The defects of an integrity algorithm under a schema version. -/
def integrityAlgorithmInvalid (schemaVersion : String) (integrity : IntegrityPlan) : Bool :=
  match integrity.algorithm with
  | .crc => schemaVersion ∉ ["0.6", "0.7", "0.8", "0.9"] || !crcParametersValid integrity
  | .sum8 =>
    schemaVersion ∈ ["0.6", "0.7", "0.8", "0.9"] &&
      (integrity.crcWidth ≠ 0 || integrity.storageByteOrder ≠ .notApplicable)

/-- The defects of the range and the storage of an integrity rule. -/
def integrityPlacementInvalid (boundedPayload : Option BoundedPayloadPlan) (frameSize : Nat)
    (integrity : IntegrityPlan) : Bool :=
  match boundedPayload with
  | some bounded =>
    let reach := bounded.headerLength + bounded.minPayloadLength
    !integrity.storageAtPayloadEnd ||
      if integrity.rangeEndsAtPayload then integrity.rangeOffset > bounded.headerLength
      else integrity.rangeLength = 0 || integrity.rangeOffset > reach ||
        integrity.rangeLength > reach - integrity.rangeOffset
  | none =>
    let width := integrityStorageWidth integrity
    integrity.rangeEndsAtPayload || integrity.storageAtPayloadEnd || integrity.rangeLength = 0 ||
      !isRangeWithin integrity.rangeOffset integrity.rangeLength frameSize ||
      !isRangeWithin integrity.storageOffset width frameSize ||
      (integrity.storageOffset < integrity.rangeOffset + integrity.rangeLength &&
        integrity.rangeOffset < integrity.storageOffset + width)

/-- The rules for the integrity rule of a message. -/
def checkIntegrity (schemaVersion : String) (messageIndex : Nat) (message : MessagePlan) :
    BuildResult Unit :=
  match message.integrity with
  | none => .ok ()
  | some integrity =>
    rejectIf (schemaVersion ∉ ["0.3", "0.4", "0.5", "0.6", "0.7", "0.8", "0.9"] ∨
      integrityAlgorithmInvalid schemaVersion integrity ∨ ¬fitsSize integrity.rangeOffset ∨
      ¬fitsSize integrity.rangeLength ∨ ¬fitsSize integrity.storageOffset ∨
      integrityPlacementInvalid message.boundedPayload message.frameLengthBytes integrity)
      { code := .invalidMessagePlan, messageIndex := messageIndex }

/-! ### Computed lengths -/

/-- The value a computed length has in the longest frame of the message. -/
def computedLengthExpected (message : MessagePlan) (computed : ComputedLengthPlan) : Nat :=
  match computed.scope, message.boundedPayload with
  | .payload, some bounded => bounded.maxPayloadLength
  | .frame, _ => message.frameLengthBytes
  | _, _ => computed.rangeLength

/-- Whether the range of a computed length does not fit its scope. -/
def computedScopeInvalid (message : MessagePlan) (computed : ComputedLengthPlan) : Bool :=
  match computed.scope with
  | .frame => computed.rangeOffset ≠ 0 || computed.rangeLength ≠ 0
  | .region => message.boundedPayload.isSome || computed.rangeLength = 0 ||
      !isRangeWithin computed.rangeOffset computed.rangeLength message.frameLengthBytes
  | .payload => message.boundedPayload.isNone || computed.rangeOffset ≠ 0 ||
      computed.rangeLength ≠ 0

/-- The defects of a computed length. -/
def computedLengthInvalid (schemaVersion : String) (message : MessagePlan)
    (computed : ComputedLengthPlan) : Bool :=
  let expected := computedLengthExpected message computed
  schemaVersion ∉ ["0.7", "0.8", "0.9"] || computed.fieldIndex ≥ message.fields.length ||
    (computed.storageWidth ≠ 1 && computed.storageWidth ≠ 2 && computed.storageWidth ≠ 4) ||
    (if computed.storageWidth = 1 then computed.byteOrder ≠ .notApplicable
      else computed.byteOrder ≠ .big && computed.byteOrder ≠ .little) ||
    !isRangeWithin computed.storageOffset computed.storageWidth
      (layoutLimit message.boundedPayload message.frameLengthBytes) ||
    computedScopeInvalid message computed || computed.expectedValue ≠ expected ||
    !fitsUnsignedWidth expected computed.storageWidth

/-- Whether the field of a computed length is not the one its descriptor states. -/
def computedFieldInvalid (computed : ComputedLengthPlan) (field : FieldPlan) : Bool :=
  field.valueType ≠ .uint64 || field.wireCodec ≠ .unsignedInteger ||
    field.encodeSource ≠ .computed || field.constantValue.isSome ||
    field.signedConstantValue.isSome || field.enumEntries ≠ [] ||
    field.byteOffset ≠ computed.storageOffset || field.byteWidth ≠ computed.storageWidth ||
    field.byteOrder ≠ computed.byteOrder

/-- The rules for the computed length of a message. -/
def checkComputedLength (schemaVersion : String) (messageIndex : Nat) (message : MessagePlan) :
    BuildResult Unit :=
  match message.computedLength with
  | none => .ok ()
  | some computed => do
    rejectIf (¬fitsSize computed.storageOffset ∨ ¬fitsSize computed.storageWidth ∨
      ¬fitsSize computed.rangeOffset ∨ ¬fitsSize computed.rangeLength ∨
      computedLengthInvalid schemaVersion message computed)
      { code := .invalidMessagePlan, messageIndex := messageIndex }
    rejectIf (message.fields[computed.fieldIndex]?.any (computedFieldInvalid computed))
      { code := .invalidFieldPlan, messageIndex := messageIndex
        fieldIndex := computed.fieldIndex }

/-! ### Bit containers -/

/-- The defects of a bit container. -/
def bitContainerInvalid (message : MessagePlan) (container : BitContainerPlan) : Bool :=
  !isStableId container.id || !fitsSize container.byteOffset || !fitsSize container.byteWidth ||
    (container.byteWidth ≠ 1 && container.byteWidth ≠ 2 && container.byteWidth ≠ 4 &&
      container.byteWidth ≠ 8) ||
    !isRangeWithin container.byteOffset container.byteWidth message.frameLengthBytes ||
    !isBitContainerByteOrderValid container.byteOrder container.byteWidth ||
    !fitsUnsignedWidth container.baseValue container.byteWidth ||
    !isRangeWithin container.byteOffset container.byteWidth
      (layoutLimit message.boundedPayload message.frameLengthBytes)

/-- The rules for the bit containers of a message. -/
def checkBitContainers (messageIndex : Nat) (message : MessagePlan) : BuildResult Unit :=
  rejectIf (message.bitContainers.any (bitContainerInvalid message) ∨
    ¬(message.bitContainers.map (·.id)).Nodup)
    { code := .invalidFieldPlan, messageIndex := messageIndex }

/-- The execution descriptor of a bit container. -/
def bitContainerExecution (container : BitContainerPlan) : BitContainerExecutionPlan :=
  { offset := container.byteOffset
    width := container.byteWidth
    byteOrder := container.byteOrder
    baseValue := container.baseValue }

end ProtocolAdapter
