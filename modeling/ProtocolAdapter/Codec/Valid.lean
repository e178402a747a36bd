/-
This file states what the descriptor of a binary message guarantees the codec: every
field, container and checksum has its place, no two share a byte or a bit, the matchers
agree with what no input can change, and nothing of the static layout is left out.
The codec's correctness rests on this structure alone, not on how the builder checks it.
-/

import ProtocolAdapter.Codec.Match
import ProtocolAdapter.Codec.Review
import ProtocolAdapter.Codec.Values

namespace ProtocolAdapter.Codec

open Foundation

/-! ### Fields -/

/-- Whether a field is a member of a bit container. -/
def isMember (field : FieldExecutionPlan) : Bool := field.bitContainerIndex ≠ invalidIndex

/-- Whether the encoder takes the value of a field from the caller. -/
def isInput (field : FieldExecutionPlan) : Bool := field.encodeSource == .input

/-- A member of a container: its bits lie in the container and carry its values. -/
structure MemberValid (container : BitContainerExecutionPlan) (field : FieldExecutionPlan) :
    Prop where
  positive : 0 < field.bitWidth
  inside : field.bitShift + field.bitWidth ≤ 8 * container.width
  mask : field.bitMask = (2 ^ field.bitWidth - 1) <<< field.bitShift
  type : field.valueType = .uint64 ∨ field.valueType = .bool ∨ field.valueType = .enum
  bool : field.valueType = .bool → field.bitWidth = 1
  source : field.encodeSource = .input ∨ (field.valueType = .uint64 ∧
    field.encodeSource = .constant ∧ field.constantValue < 2 ^ field.bitWidth)
  unconverted : hasConversion field = false

/-- An integer with its own bytes. -/
structure IntegerValid (field : FieldExecutionPlan) : Prop where
  positive : 0 < field.width
  bounded : field.width ≤ 8
  order : isIntegerByteOrderValid field.byteOrder field.width = true
  type : field.valueType = .uint64 ∨ field.valueType = .int64 ∨
    (field.valueType = .enum ∧ field.encodeSource = .input)
  constant : field.encodeSource = .constant →
    (field.valueType = .uint64 ∧ fitsUnsignedWidth field.constantValue field.width = true) ∨
      (field.valueType = .int64 ∧ fitsSignedWidth field.signedConstantValue field.width = true)
  computed : field.encodeSource = .computed → field.valueType = .uint64

/-- A byte string. -/
structure BytesValid (field : FieldExecutionPlan) : Prop where
  type : field.valueType = .bytes
  source : field.encodeSource = .input
  unconverted : hasConversion field = false

/-- The three forms of a field. -/
inductive FieldValid (message : MessageExecutionPlan) (field : FieldExecutionPlan) : Prop where
  | member (container : BitContainerExecutionPlan) (real : field.bitContainerIndex ≠ invalidIndex)
      (found : message.bitContainers[field.bitContainerIndex]? = some container)
      (valid : MemberValid container field)
  | integer (plain : field.bitContainerIndex = invalidIndex) (valid : IntegerValid field)
  | bytes (plain : field.bitContainerIndex = invalidIndex) (valid : BytesValid field)

/-- The raw value of a constant field. -/
def constantRaw (field : FieldExecutionPlan) : Nat :=
  if field.valueType = .int64 then signedBits field.signedConstantValue field.width
  else field.constantValue

/-- The number of bits a raw value of a field has. -/
def rawBitCount (field : FieldExecutionPlan) : Nat :=
  if isMember field then field.bitWidth else 8 * field.width

/-- The entries of an enumeration field lie in the arrays of its message, have different
raw values, and fit the field. -/
structure EnumValid (message : MessageExecutionPlan) (field : FieldExecutionPlan)
    (entries : List EnumEntryPlan) : Prop where
  distinct : (entries.map (·.rawValue)).Nodup
  valuesCount : field.enumValuesCount = entries.length
  lookupCount : field.enumLookupCount = entries.length
  fits : ∀ entry ∈ entries, entry.rawValue < 2 ^ rawBitCount field
  values : ∃ rest, message.enumRawValues.drop field.enumValuesBegin =
    entries.map (·.rawValue) ++ rest
  lookup : ∃ rest, message.enumLookupEntries.drop field.enumLookupBegin =
    sortedLookup entries ++ rest

/-- The conversion of a field, when it has one. -/
def ConversionValid (schemaVersion : String) (conversions : List LinearConversionDescriptor)
    (field : FieldExecutionPlan) : Prop :=
  hasConversion field = true → isConversionSchema schemaVersion = true ∧
    field.bitContainerIndex = invalidIndex ∧ field.encodeSource = .input ∧
      ∃ conversion, conversions[field.conversionIndex]? = some conversion ∧ conversion.Valid ∧
        IsRawType conversion.rawValueType ∧ conversion.rawValueType = field.valueType

/-! ### Places -/

/-- Two ranges share no byte. -/
def RangesApart (leftOffset leftWidth rightOffset rightWidth : Nat) : Prop :=
  leftOffset + leftWidth ≤ rightOffset ∨ rightOffset + rightWidth ≤ leftOffset

theorem RangesApart.symm {leftOffset leftWidth rightOffset rightWidth : Nat}
    (apart : RangesApart leftOffset leftWidth rightOffset rightWidth) :
    RangesApart rightOffset rightWidth leftOffset leftWidth := Or.symm apart

/-- Whether a field is the bounded payload of its message. -/
def isPayload (message : MessageExecutionPlan) (fieldIndex : Nat) : Bool :=
  message.boundedPayload.any (·.payloadFieldIndex = fieldIndex)

/-- A bit container in the static layout. -/
structure ContainerValid (message : MessageExecutionPlan) (container : BitContainerExecutionPlan) :
    Prop where
  positive : 0 < container.width
  bounded : container.width ≤ 8
  order : isIntegerByteOrderValid container.byteOrder container.width = true
  inside : container.offset + container.width ≤ storageLimit message
  base : container.baseValue < 2 ^ (8 * container.width)

/-- The bounded payload of a message: header, payload and trailer make up the frame. -/
structure PayloadValid (message : MessageExecutionPlan) (bounded : BoundedPayloadPlan) : Prop where
  ordered : bounded.minPayloadLength ≤ bounded.maxPayloadLength
  shortest : bounded.minFrameLength =
    bounded.headerLength + bounded.minPayloadLength + bounded.trailerLength
  longest : bounded.maxFrameLength =
    bounded.headerLength + bounded.maxPayloadLength + bounded.trailerLength
  frame : message.frameSize = bounded.maxFrameLength
  trailer : bounded.trailerLength =
    match message.integrity with
    | some integrity => integrityStorageWidth integrity
    | none => 0
  field : ∃ field, message.fields[bounded.payloadFieldIndex]? = some field ∧
    field.bitContainerIndex = invalidIndex ∧ field.valueType = .bytes ∧
      field.offset = bounded.headerLength ∧ field.width = bounded.maxPayloadLength
  fixed : message.fixedBytes ≠ []

/-- The checksum of a message. In a fixed frame it has its own bytes; in a bounded one it
is the trailer. -/
structure ChecksumValid (message : MessageExecutionPlan) (integrity : FrozenIntegrityPlan) :
    Prop where
  algorithm : algorithmValid integrity = true
  bounded : ∀ bounded, message.boundedPayload = some bounded →
    integrity.storageAtPayloadEnd = true ∧
      if integrity.rangeEndsAtPayload then integrity.rangeOffset ≤ bounded.headerLength
      else integrity.rangeLength ≠ 0 ∧ integrity.rangeOffset + integrity.rangeLength ≤
        bounded.headerLength + bounded.minPayloadLength
  fixed : message.boundedPayload = none →
    integrity.rangeEndsAtPayload = false ∧ integrity.storageAtPayloadEnd = false ∧
      integrity.rangeLength ≠ 0 ∧
      integrity.rangeOffset + integrity.rangeLength ≤ message.frameSize ∧
      integrity.storageOffset + integrityStorageWidth integrity ≤ message.frameSize ∧
      RangesApart integrity.storageOffset (integrityStorageWidth integrity)
        integrity.rangeOffset integrity.rangeLength
  fields : message.boundedPayload = none → ∀ field ∈ message.fields, isMember field = false →
    RangesApart integrity.storageOffset (integrityStorageWidth integrity) field.offset field.width
  containers : message.boundedPayload = none → ∀ container ∈ message.bitContainers,
    RangesApart integrity.storageOffset (integrityStorageWidth integrity)
      container.offset container.width
  matchers : message.boundedPayload = none → ∀ fixed ∈ message.fixedBytes,
    RangesApart integrity.storageOffset (integrityStorageWidth integrity) fixed.offset 1

/-- An offset lies in a range. -/
def InRange (index offset width : Nat) : Prop := offset ≤ index ∧ index < offset + width

/-- What covers an offset of the static layout. -/
inductive Covered (message : MessageExecutionPlan) (index : Nat) : Prop where
  | field (field : FieldExecutionPlan) (member : field ∈ message.fields)
      (plain : isMember field = false) (inside : InRange index field.offset field.width)
  | container (container : BitContainerExecutionPlan) (member : container ∈ message.bitContainers)
      (inside : InRange index container.offset container.width)
  | fixed (fixed : FixedByteExecutionPlan) (member : fixed ∈ message.fixedBytes)
      (same : fixed.offset = index)
  | checksum (integrity : FrozenIntegrityPlan) (has : message.integrity = some integrity)
      (still : message.boundedPayload = none)
      (inside : InRange index integrity.storageOffset (integrityStorageWidth integrity))

/-- The bit that the constants and the base value of a container give one of its
positions. -/
def DeterminedBit (message : MessageExecutionPlan) (containerIndex : Nat)
    (container : BitContainerExecutionPlan) (position : Nat) (bit : Bool) : Prop :=
  (∃ field ∈ message.fields, field.bitContainerIndex = containerIndex ∧
    field.encodeSource = .constant ∧ field.bitMask.testBit position = true ∧
      (field.constantValue <<< field.bitShift).testBit position = bit) ∨
  ((∀ field ∈ message.fields, field.bitContainerIndex = containerIndex →
    field.bitMask.testBit position = false) ∧ container.baseValue.testBit position = bit)

/-- The position of the lowest bit of a stored byte in the value of a container. -/
def bytePosition (container : BitContainerExecutionPlan) (byteIndex : Nat) : Nat :=
  8 * (if container.byteOrder = .big then container.width - 1 - byteIndex else byteIndex)

/-! ### Messages -/

/-- What the descriptor of a binary message guarantees. -/
structure BinaryValid (schemaVersion : String) (conversions : List LinearConversionDescriptor)
    (message : MessageExecutionPlan) : Prop where
  noDecode : message.textDecode = none
  noEncode : message.textEncode = none
  frameBound : message.frameSize ≤ 65536
  fields : ∀ field ∈ message.fields, FieldValid message field
  enums : ∀ field ∈ message.fields, field.valueType = .enum →
    ∃ entries, EnumValid message field entries
  converted : ∀ field ∈ message.fields, ConversionValid schemaVersion conversions field
  ordinals : ∀ index field, message.fields[index]? = some field → field.encodeSource = .input →
    field.inputOrdinal = (message.fields.take index).countP isInput
  requiredInputs : message.requiredInputCount = message.fields.countP isInput
  slots : ∀ index field, message.fields[index]? = some field → hasConversion field = true →
    field.conversionSlot = (message.fields.take index).countP hasConversion
  computedField : ∀ index field, message.fields[index]? = some field →
    field.encodeSource = .computed →
      ∃ computed, message.computedLength = some computed ∧ computed.fieldIndex = index
  lengthValid : computedLengthDescriptorValid message = true
  lengthFree : ∀ computed, message.computedLength = some computed →
    ∀ fixed ∈ message.fixedBytes,
      RangesApart computed.storageOffset computed.storageWidth fixed.offset 1
  containers : ∀ container ∈ message.bitContainers, ContainerValid message container
  plainInside : ∀ index field, message.fields[index]? = some field → isMember field = false →
    if isPayload message index then field.valueType = .bytes
    else field.offset + field.width ≤ storageLimit message
  plainApart : ∀ (left right : Nat) leftField rightField, left < right →
    message.fields[left]? = some leftField → message.fields[right]? = some rightField →
      isMember leftField = false → isMember rightField = false →
        RangesApart leftField.offset leftField.width rightField.offset rightField.width
  containersApart : ∀ (left right : Nat) leftContainer rightContainer, left < right →
    message.bitContainers[left]? = some leftContainer →
      message.bitContainers[right]? = some rightContainer →
        RangesApart leftContainer.offset leftContainer.width
          rightContainer.offset rightContainer.width
  plainContainersApart : ∀ field ∈ message.fields, isMember field = false →
    ∀ container ∈ message.bitContainers,
      RangesApart container.offset container.width field.offset field.width
  membersApart : ∀ (left right : Nat) leftField rightField, left < right →
    message.fields[left]? = some leftField → message.fields[right]? = some rightField →
      isMember leftField = true →
        leftField.bitContainerIndex = rightField.bitContainerIndex →
          ∀ position, ¬(leftField.bitMask.testBit position = true ∧
            rightField.bitMask.testBit position = true)
  fixedSorted : message.fixedBytes.Pairwise fun left right => left.offset < right.offset
  fixedInside : ∀ fixed ∈ message.fixedBytes, fixed.offset < storageLimit message
  payload : ∀ bounded, message.boundedPayload = some bounded → PayloadValid message bounded
  checksum : ∀ integrity, message.integrity = some integrity → ChecksumValid message integrity
  covered : ∀ index, index < storageLimit message → Covered message index
  constantsAgree : ∀ field ∈ message.fields, isMember field = false →
    field.encodeSource = .constant → ∀ fixed ∈ message.fixedBytes,
      InRange fixed.offset field.offset field.width →
        fixed.value = encodeUnsignedByte (constantRaw field) field.width field.byteOrder
          (fixed.offset - field.offset)
  containersAgree : ∀ containerIndex container, message.bitContainers[containerIndex]? =
      some container → ∀ fixed ∈ message.fixedBytes,
        InRange fixed.offset container.offset container.width → ∀ bit < 8, ∀ determined,
          DeterminedBit message containerIndex container
            (bytePosition container (fixed.offset - container.offset) + bit) determined →
            fixed.value.toNat.testBit bit = determined

end ProtocolAdapter.Codec
