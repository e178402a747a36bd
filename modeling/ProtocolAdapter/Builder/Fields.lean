/-
This file models the loop of the builder over the fields of a binary message. Each
field is placed in the frame or in a bit container, checked against the rules for its
type, its encode source and its conversion, and described for the codec. The loop
counts input fields and conversions, tallies the bits of each container, and lays
the enumeration values of all fields out behind each other.
-/

import ProtocolAdapter.Builder.Layout
import Mathlib.Data.List.Sort

namespace ProtocolAdapter

open Foundation

/-! ### The state of the loop -/

/-- The bytes a field or a container occupies, and its index. -/
structure ByteInterval where
  start : Nat
  stop : Nat
  sourceIndex : Nat := invalidIndex
  deriving DecidableEq

/-- What the fields so far have done to a bit container: the bits they own, the bits no
input can change with their values, and how many members there are. -/
structure ContainerTally where
  memberMask : Nat
  determinedMask : Nat
  determinedValue : Nat
  memberCount : Nat

/-- The parts of a message and its package that the rules for a field read. -/
structure FieldContext where
  schemaVersion : String
  conversions : List LinearConversionDescriptor
  messageIndex : Nat
  message : MessagePlan

/-- The variables of the loop over the fields of a message. The conversion references
are counted over all messages of the package. -/
structure FieldLoopState where
  fieldIds : List String := []
  fieldIntervals : List ByteInterval := []
  tallies : List ContainerTally := []
  inputOrdinal : Nat := 0
  conversionSlot : Nat := 0
  conversionReferenceCounts : List Nat := []
  enumRawValues : List Nat := []
  enumLookupEntries : List EnumLookupExecutionPlan := []
  fields : List FieldExecutionPlan := []

/-- Where a field lies: its own bytes, or those of its container. -/
structure FieldPlacement where
  offset : Nat
  width : Nat
  container : Option BitContainerPlan

/-! ### The rules -/

/-- Whether a field is a member of a bit container. -/
def FieldPlan.isBitfield (field : FieldPlan) : Bool := field.wireCodec == .bitfield

/-- Whether a field has a conversion. -/
def FieldPlan.hasConversion (field : FieldPlan) : Bool := field.conversionIndex ≠ invalidIndex

/-- Places a field, when its range or its container exists. -/
def placeField (message : MessagePlan) (field : FieldPlan) : Option FieldPlacement :=
  if field.isBitfield then
    match message.bitContainers[field.bitContainerIndex]? with
    | none => none
    | some container => some ⟨container.byteOffset, container.byteWidth, some container⟩
  else if fitsSize field.byteOffset && fitsSize field.byteWidth &&
      isRangeWithin field.byteOffset field.byteWidth message.frameLengthBytes then
    some ⟨field.byteOffset, field.byteWidth, none⟩
  else none

/-- In a bounded message the payload field starts behind the header and spans the longest
payload, and every other field lies in the header. -/
def boundedFieldInvalid (message : MessagePlan) (fieldIndex : Nat) (field : FieldPlan)
    (placement : FieldPlacement) : Bool :=
  match message.boundedPayload with
  | none => false
  | some bounded =>
    if fieldIndex = bounded.payloadFieldIndex then
      field.valueType ≠ .bytes || field.wireCodec ≠ .bytes ||
        placement.offset ≠ bounded.headerLength || placement.width ≠ bounded.maxPayloadLength
    else
      !field.isBitfield && ((field.wireCodec == .bytes && placement.width = 0) ||
        !isRangeWithin placement.offset placement.width bounded.headerLength)

/-- An unsigned integer with its own bytes: an input, a constant that fits, or the
computed length of the message. -/
def uint64Valid (context : FieldContext) (fieldIndex : Nat) (field : FieldPlan)
    (width : Nat) : Bool :=
  field.valueType == .uint64 && field.wireCodec == .unsignedInteger && width ≤ 8 &&
    isIntegerByteOrderValid field.byteOrder width && field.enumEntries = [] &&
    field.signedConstantValue.isNone &&
    match field.encodeSource with
    | .input => field.constantValue.isNone
    | .constant => field.constantValue.any (fitsUnsignedWidth · width)
    | .computed =>
      context.schemaVersion ∈ ["0.7", "0.8", "0.9"] && field.constantValue.isNone &&
        context.message.computedLength.any fun computed =>
          computed.fieldIndex = fieldIndex && computed.storageOffset = field.byteOffset &&
            computed.storageWidth = field.byteWidth && computed.byteOrder == field.byteOrder

/-- A signed integer with its own bytes. -/
def int64Valid (context : FieldContext) (field : FieldPlan) (width : Nat) : Bool :=
  context.schemaVersion ∈ ["0.4", "0.5", "0.6", "0.7", "0.8", "0.9"] &&
    field.valueType == .int64 && field.wireCodec == .unsignedInteger && width ≤ 8 &&
    isIntegerByteOrderValid field.byteOrder width && field.enumEntries = [] &&
    field.constantValue.isNone &&
    match field.encodeSource with
    | .input => field.signedConstantValue.isNone
    | .constant => field.signedConstantValue.any (fitsSignedWidth · width)
    | .computed => false

/-- A byte string. -/
def bytesValid (field : FieldPlan) : Bool :=
  field.valueType == .bytes && field.wireCodec == .bytes &&
    field.byteOrder == .notApplicable && field.encodeSource == .input &&
    field.constantValue.isNone && field.signedConstantValue.isNone && field.enumEntries = []

/-- An enumeration with its own bytes. -/
def enumShapeValid (field : FieldPlan) (width : Nat) : Bool :=
  field.valueType == .enum && field.wireCodec == .unsignedInteger && width ≤ 8 &&
    isIntegerByteOrderValid field.byteOrder width && field.encodeSource == .input &&
    field.constantValue.isNone && field.signedConstantValue.isNone && field.enumEntries ≠ []

/-- A member of a bit container of the given width: the bits lie in the container, the type is
one bits can carry, and a constant fits them. -/
def bitMemberValid (field : FieldPlan) (width : Nat) : Bool :=
  field.bitWidth ≠ 0 && field.bitWidth ≤ 64 && field.bitOffset ≤ width * 8 &&
    field.bitWidth ≤ width * 8 - field.bitOffset &&
    (field.valueType == .uint64 || field.valueType == .bool || field.valueType == .enum) &&
    (field.valueType ≠ .bool || field.bitWidth = 1) && field.signedConstantValue.isNone &&
    ((field.encodeSource == .input && field.constantValue.isNone) ||
      (field.valueType == .uint64 && field.encodeSource == .constant &&
        field.constantValue.any (fitsUnsignedBits · field.bitWidth))) &&
    (field.valueType ≠ .enum || field.enumEntries ≠ [])

/-- Whether a field satisfies the rules of no type. -/
def fieldTypeInvalid (context : FieldContext) (fieldIndex : Nat) (field : FieldPlan)
    (width : Nat) : Bool :=
  if field.isBitfield then !bitMemberValid field width
  else !uint64Valid context fieldIndex field width && !int64Valid context field width &&
    !bytesValid field && !enumShapeValid field width

/-- Whether a field refers to a conversion it may not have. -/
def conversionReferenceInvalid (context : FieldContext) (field : FieldPlan) : Bool :=
  field.hasConversion &&
    (context.schemaVersion ∉ ["0.5", "0.6", "0.7", "0.8", "0.9"] ||
      match context.conversions[field.conversionIndex]? with
      | none => true
      | some conversion =>
        field.isBitfield || field.encodeSource ≠ .input ||
          (field.valueType ≠ .uint64 && field.valueType ≠ .int64) ||
          conversion.rawValueType ≠ field.valueType)

/-- The defects of the entries of an enumeration field. -/
def enumEntriesInvalid (field : FieldPlan) (width : Nat) : Bool :=
  field.valueType == .enum &&
    (field.enumEntries.any (fun entry => !isStableId entry.id ||
      !(if field.isBitfield then fitsUnsignedBits entry.rawValue field.bitWidth
        else fitsUnsignedWidth entry.rawValue width)) ||
      ¬(field.enumEntries.map (·.id)).Nodup || ¬(field.enumEntries.map (·.rawValue)).Nodup)

/-! ### The description of a field -/

/-- How far the bits of a member are above the lowest bit of its container. -/
def memberShift (field : FieldPlan) (container : BitContainerPlan) : Nat :=
  match container.bitNumbering with
  | .lsb0 => field.bitOffset
  | .msb0 => container.byteWidth * 8 - field.bitOffset - field.bitWidth

/-- The bits of a member in its container. -/
def memberMask (field : FieldPlan) (container : BitContainerPlan) : Nat :=
  (2 ^ field.bitWidth - 1) <<< memberShift field container

/-- The lookup entries of an enumeration, sorted by raw value. -/
def sortedLookup (entries : List EnumEntryPlan) : List EnumLookupExecutionPlan :=
  (entries.zipIdx.map fun (entry, entryIndex) => ⟨entry.rawValue, entryIndex⟩).insertionSort
    fun left right => left.rawValue ≤ right.rawValue

/-- The entries a field adds to the enumeration arrays of its message. -/
def FieldPlan.enumeration (field : FieldPlan) : List EnumEntryPlan :=
  if field.valueType = .enum then field.enumEntries else []

/-- The execution descriptor of a field. -/
def fieldExecution (state : FieldLoopState) (field : FieldPlan) (placement : FieldPlacement) :
    FieldExecutionPlan :=
  { offset := placement.offset
    width := placement.width
    inputOrdinal := if field.encodeSource = .input then state.inputOrdinal else invalidIndex
    valueType := field.valueType
    byteOrder := field.byteOrder
    encodeSource := field.encodeSource
    hasConstant := field.constantValue.isSome || field.signedConstantValue.isSome
    constantValue := field.constantValue.getD 0
    unknownEnumPolicy := if field.valueType = .enum then field.unknownEnumPolicy else .reject
    enumValuesBegin := state.enumRawValues.length
    enumValuesCount := field.enumeration.length
    enumLookupBegin := state.enumLookupEntries.length
    enumLookupCount := field.enumeration.length
    bitContainerIndex := field.bitContainerIndex
    bitMask := match placement.container with
      | some container => memberMask field container
      | none => 0
    bitShift := match placement.container with
      | some container => memberShift field container
      | none => 0
    bitWidth := field.bitWidth % 256
    signedConstantValue := field.signedConstantValue.getD 0
    conversionIndex := field.conversionIndex
    conversionSlot := if field.hasConversion then state.conversionSlot else invalidIndex }

/-- The bits of a value outside a mask. -/
def clearBits (value mask : Nat) : Nat := value &&& (maxUint64 ^^^ mask)

theorem testBit_clearBits {value mask : Nat} (small : value < 2 ^ 64) (index : Nat) :
    (clearBits value mask).testBit index = (value.testBit index && !mask.testBit index) := by
  rw [clearBits, Nat.testBit_and, Nat.testBit_xor, maxUint64, Nat.testBit_two_pow_sub_one]
  by_cases within : index < 64
  · simp [within]
  · have high := Nat.testBit_lt_two_pow
      (lt_of_lt_of_le small (Nat.pow_le_pow_right (by decide) (Nat.le_of_not_lt within)))
    simp [high]

/-- Adds a member to the tally of its container. An input leaves its bits open, a constant
fixes them. -/
def ContainerTally.addMember (tally : ContainerTally) (field : FieldExecutionPlan) :
    ContainerTally :=
  { memberMask := tally.memberMask ||| field.bitMask
    determinedMask := if field.encodeSource = .input then
      clearBits tally.determinedMask field.bitMask else tally.determinedMask
    determinedValue := if field.encodeSource = .input then tally.determinedValue
      else clearBits tally.determinedValue field.bitMask |||
        ((field.constantValue <<< field.bitShift) &&& field.bitMask)
    memberCount := tally.memberCount + 1 }

/-- Whether the bits of a member already belong to another one. -/
def memberOverlaps (state : FieldLoopState) (field : FieldPlan) (placement : FieldPlacement) :
    Bool :=
  match placement.container, state.tallies[field.bitContainerIndex]? with
  | some container, some tally => (tally.memberMask &&& memberMask field container) ≠ 0
  | _, _ => false

/-! ### The loop -/

/-- The variables of the loop after a field that passed its checks. -/
def FieldLoopState.extend (state : FieldLoopState) (field : FieldPlan)
    (placement : FieldPlacement) : FieldLoopState :=
  let execution := fieldExecution state field placement
  { fieldIds := field.id :: state.fieldIds
    fieldIntervals := if field.isBitfield then state.fieldIntervals
      else state.fieldIntervals ++
        [⟨placement.offset, placement.offset + placement.width, state.fields.length⟩]
    tallies := if field.isBitfield then
        state.tallies.modify field.bitContainerIndex (·.addMember execution)
      else state.tallies
    inputOrdinal := if field.encodeSource = .input then state.inputOrdinal + 1
      else state.inputOrdinal
    conversionSlot := if field.hasConversion then state.conversionSlot + 1
      else state.conversionSlot
    conversionReferenceCounts := if field.hasConversion then
        state.conversionReferenceCounts.modify field.conversionIndex (· + 1)
      else state.conversionReferenceCounts
    enumRawValues := state.enumRawValues ++ field.enumeration.map (·.rawValue)
    enumLookupEntries := state.enumLookupEntries ++ sortedLookup field.enumeration
    fields := state.fields ++ [execution] }

/-- One round of the loop. The index of the field is the number of fields described so
far. -/
def prepareField (context : FieldContext) (state : FieldLoopState) (field : FieldPlan) :
    BuildResult FieldLoopState := do
  let fieldIndex := state.fields.length
  let diagnostic : PlanBuildDiagnostic :=
    { code := .invalidFieldPlan, messageIndex := context.messageIndex, fieldIndex := fieldIndex }
  rejectIf (¬isStableId field.id ∨ field.id ∈ state.fieldIds) diagnostic
  match placeField context.message field with
  | none => .error diagnostic
  | some placement => do
    rejectIf (boundedFieldInvalid context.message fieldIndex field placement) diagnostic
    rejectIf (fieldTypeInvalid context fieldIndex field placement.width) diagnostic
    rejectIf (conversionReferenceInvalid context field) diagnostic
    rejectIf (memberOverlaps state field placement) diagnostic
    rejectIf (enumEntriesInvalid field placement.width) diagnostic
    pure (state.extend field placement)

/-- The variables of the loop before the first field: the containers own their intervals
and determine all their bits. -/
def initialFieldLoop (message : MessagePlan) (conversionReferenceCounts : List Nat) :
    FieldLoopState :=
  { fieldIntervals := message.bitContainers.zipIdx.map fun (container, containerIndex) =>
      ⟨container.byteOffset, container.byteOffset + container.byteWidth, containerIndex⟩
    tallies := message.bitContainers.map fun container =>
      ⟨0, widthMask container.byteWidth, container.baseValue, 0⟩
    conversionReferenceCounts := conversionReferenceCounts }

/-- The loop over the fields, and the rule that no container is without a member. -/
def prepareFields (context : FieldContext) (conversionReferenceCounts : List Nat) :
    BuildResult FieldLoopState := do
  let state ← context.message.fields.foldlM (prepareField context)
    (initialFieldLoop context.message conversionReferenceCounts)
  rejectIf (state.tallies.any (·.memberCount = 0))
    { code := .invalidFieldPlan, messageIndex := context.messageIndex }
  pure state

end ProtocolAdapter
