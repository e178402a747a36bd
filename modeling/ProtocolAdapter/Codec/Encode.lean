/-
This file models the encoder. It matches the values of the caller to the fields of the
message, checks them and the memory the caller lends, writes the record, and reviews
what it has written as if it had received it. A failure after the first write leaves the
bytes behind, but publishes no length.
-/

import ProtocolAdapter.Codec.Match
import ProtocolAdapter.Codec.Review
import ProtocolAdapter.Codec.Values

namespace ProtocolAdapter.Codec

open Foundation Foundation.Operation

/-! ### The state -/

/-- What a call changes: the workspace, the buffer of the caller, and the result. -/
structure EncodeState where
  workspace : ExecutionWorkspace
  output : List UInt8
  result : EncodeResult

/-- An operation of the encoder. -/
abbrev Encoding := Operation EncodeState

/-- Sets the status of the result. -/
def EncodeState.fail (status : CodecStatus) (state : EncodeState) : EncodeState :=
  { state with result := { state.result with status := status } }

/-- Sets the status and withdraws the required size. -/
def EncodeState.refuse (status : CodecStatus) (state : EncodeState) : EncodeState :=
  { state with result := { state.result with status := status, requiredSize := 0 } }

/-- Names the field a later failure is about. -/
def EncodeState.atField (fieldIndex : Nat) (state : EncodeState) : EncodeState :=
  { state with result := { state.result with failedFieldIndex := fieldIndex } }

/-- Names the value a later failure is about. -/
def EncodeState.atValue (valueIndex : Nat) (state : EncodeState) : EncodeState :=
  { state with result := { state.result with failedValueIndex := valueIndex } }

section

variable (status : CodecStatus) (index : Nat) (state : EncodeState)

@[simp] theorem EncodeState.fail_workspace : (state.fail status).workspace = state.workspace := rfl

@[simp] theorem EncodeState.fail_output : (state.fail status).output = state.output := rfl

@[simp] theorem EncodeState.refuse_workspace : (state.refuse status).workspace = state.workspace :=
  rfl

@[simp] theorem EncodeState.refuse_output : (state.refuse status).output = state.output := rfl

@[simp] theorem EncodeState.atField_workspace : (state.atField index).workspace = state.workspace :=
  rfl

@[simp] theorem EncodeState.atField_output : (state.atField index).output = state.output := rfl

@[simp] theorem EncodeState.atValue_workspace : (state.atValue index).workspace = state.workspace :=
  rfl

@[simp] theorem EncodeState.atValue_output : (state.atValue index).output = state.output := rfl

end

/-! ### The checks of a value -/

/-- Whether the length of a byte string is not the one its field asks for. -/
def bytesLengthInvalid (message : MessageExecutionPlan) (fieldIndex : Nat)
    (field : FieldExecutionPlan) (size : Nat) : Bool :=
  match message.boundedPayload with
  | some bounded =>
    if fieldIndex = bounded.payloadFieldIndex then
      size < bounded.minPayloadLength || size > bounded.maxPayloadLength
    else size ≠ field.width
  | none => size ≠ field.width

/-- The failure of a byte string, if it has one. -/
def bytesFailure (plan : PlanBundle) (message : MessageExecutionPlan) (fieldIndex : Nat)
    (field : FieldExecutionPlan) (view : ByteView) : Option CodecStatus :=
  if isTextSchema plan.schemaVersion then
    if view.size < field.textMinLength ∨ view.size > field.textMaxLength then
      some .bytesLengthMismatch
    else if getAddressRange view.data view.size = none then some .invalidArgument
    else if view.bytes.all (isAllowedAscii field) = false then some .asciiCharacterNotAllowed
    else none
  else if bytesLengthInvalid message fieldIndex field view.size then some .bytesLengthMismatch
  else if getAddressRange view.data view.size = none then some .invalidArgument
  else none

/-- The failure of a value whose kind is right, if it has one. -/
def valueFailure (plan : PlanBundle) (messageIndex : Nat) (message : MessageExecutionPlan)
    (fieldIndex : Nat) (field : FieldExecutionPlan) (value : EncodeFieldValue) :
    Option CodecStatus :=
  match field.valueType with
  | .uint64 =>
    if (if field.bitContainerIndex ≠ invalidIndex then
        fitsUnsignedBits value.uint64Value.toNat field.bitWidth
      else fitsUnsignedWidth value.uint64Value.toNat field.width) = false then
      some .valueNotRepresentable
    else none
  | .int64 =>
    if fitsSignedWidth value.int64Value.toInt field.width = false then some .valueNotRepresentable
    else none
  | .bytes => bytesFailure plan message fieldIndex field value.bytesValue
  | .bool => none
  | .enum =>
    if value.enumValue.planScope ≠ some plan.address ∨
        value.enumValue.messageIndex ≠ messageIndex ∨
        value.enumValue.fieldIndex ≠ fieldIndex ∨
        value.enumValue.entryIndex ≥ field.enumValuesCount then
      some .enumReferenceMismatch
    else none

/-- Leaves with a failure, if there is one. -/
def leaveWith : Option CodecStatus → Encoding Unit
  | none => pure ()
  | some status => leave (.refuse status)

/-! ### The inputs -/

/-- One round of the loop over the values: finds the field, refuses what may not be
supplied, and notes where the value of the input stands. -/
def placeValue (plan : PlanBundle) (messageIndex : Nat) (message : MessageExecutionPlan)
    (item : EncodeFieldValue × Nat) : Encoding Unit := do
  let (value, valueIndex) := item
  update (.atValue valueIndex)
  leaveIf (value.field.planScope ≠ some plan.address ∨ value.field.messageIndex ≠ messageIndex)
    (.refuse .fieldReferenceMismatch)
  match message.fields[value.field.fieldIndex]? with
  | none => leave (.refuse .fieldReferenceMismatch)
  | some field => do
    update (.atField value.field.fieldIndex)
    leaveIf (isTextSchema plan.schemaVersion = true ∧ field.textEncodeInput = false)
      (.refuse .fieldReferenceMismatch)
    leaveIf (field.encodeSource = .computed) (.refuse .computedFieldOverride)
    leaveIf (field.encodeSource ≠ .input) (.refuse .constantFieldOverride)
    leaveIf (field.inputOrdinal ≥ message.requiredInputCount) (.refuse .invalidPlan)
    let state ← current
    let present ← access (isPresent state.workspace.encodePresentWords field.inputOrdinal)
    leaveIf (present = true) (.refuse .duplicateField)
    if isConversionSchema plan.schemaVersion = false then do
      leaveIf (valueKindMatches value.valueKind field.valueType = false) (.refuse .typeMismatch)
      leaveWith (valueFailure plan messageIndex message value.field.fieldIndex field value)
    let indices ← access
      (setElement state.workspace.encodeValueIndices field.inputOrdinal valueIndex)
    let words ← access (markPresent state.workspace.encodePresentWords field.inputOrdinal)
    update fun state => { state with workspace := { state.workspace with
      encodeValueIndices := indices, encodePresentWords := words } }

/-- One round of the loop over the fields: an input must have been supplied. -/
def requireField (plan : PlanBundle) (item : FieldExecutionPlan × Nat) : Encoding Unit := do
  let (field, fieldIndex) := item
  update (.atField fieldIndex)
  if field.encodeSource = .input ∧
      (isTextSchema plan.schemaVersion = false ∨ field.textEncodeInput = true) then do
    let state ← current
    let present ← access (isPresent state.workspace.encodePresentWords field.inputOrdinal)
    leaveIf (present = false) (.refuse .missingField)

/-- The value supplied for an input field. -/
def suppliedValue (values : List EncodeFieldValue) (valueIndices : List Nat)
    (field : FieldExecutionPlan) : Access EncodeFieldValue := do
  let valueIndex ← valueIndices[field.inputOrdinal]?
  values[valueIndex]?

/-- Converts a decimal and keeps its raw integer. -/
def convertValue (plan : PlanBundle) (field : FieldExecutionPlan) (value : EncodeFieldValue) :
    Encoding Unit := do
  let state ← current
  leaveIf (field.conversionSlot ≥ state.workspace.encodeConversionRawValues.length)
    (.refuse .invalidPlan)
  leaveIf (value.valueKind ≠ .decimal64) (.refuse .typeMismatch)
  let conversion ← access plan.conversions[field.conversionIndex]?
  match encodeDecimal conversion value.decimal64Value field.width with
  | .error status => leave fun state =>
      let failed := state.refuse (toCodecStatus status)
      { failed with result := { failed.result with conversionError := toConversionError status } }
  | .ok raw => do
    let rawValues ← access
      (setElement state.workspace.encodeConversionRawValues field.conversionSlot raw)
    update fun state => { state with workspace := { state.workspace with
      encodeConversionRawValues := rawValues } }

/-- One round of the loop that checks the values in the order of the fields. -/
def checkFieldValue (plan : PlanBundle) (messageIndex : Nat) (message : MessageExecutionPlan)
    (values : List EncodeFieldValue) (item : FieldExecutionPlan × Nat) : Encoding Unit := do
  let (field, fieldIndex) := item
  if field.encodeSource = .input then do
    update (.atField fieldIndex)
    let state ← current
    let valueIndex ← access state.workspace.encodeValueIndices[field.inputOrdinal]?
    update (.atValue valueIndex)
    let value ← access values[valueIndex]?
    leaveIf (conversionPlanValid plan field = false) (.refuse .invalidPlan)
    if hasConversion field then convertValue plan field value
    else do
      leaveIf (valueKindMatches value.valueKind field.valueType = false) (.refuse .typeMismatch)
      leaveWith (valueFailure plan messageIndex message fieldIndex field value)

/-- Clears the words of the set of supplied inputs. -/
def clearPresence (message : MessageExecutionPlan) : Encoding Unit := do
  let state ← current
  let count := presenceWordCount message.requiredInputCount
  leaveIf (message.requiredInputCount > state.workspace.encodeValueIndices.length ∨
    count > state.workspace.encodePresentWords.length) (.refuse .invalidPlan)
  update fun state => { state with workspace := { state.workspace with
    encodePresentWords :=
      List.replicate count 0 ++ state.workspace.encodePresentWords.drop count } }

/-- Matches the values to the input fields and checks them. A failure withdraws the
required size. -/
def prepareEncodeInputs (plan : PlanBundle) (messageIndex : Nat) (message : MessageExecutionPlan)
    (values : List EncodeFieldValue) : Encoding Unit := do
  clearPresence message
  values.zipIdx.forM (placeValue plan messageIndex message)
  update (.atValue invalidIndex)
  message.fields.zipIdx.forM (requireField plan)
  if isConversionSchema plan.schemaVersion then
    message.fields.zipIdx.forM (checkFieldValue plan messageIndex message values)
  update fun state => (state.atField invalidIndex).atValue invalidIndex

/-! ### The memory of the caller -/

/-- The buffer has room for the record. -/
def checkBuffer (output : MutableByteBuffer) (size : Nat) : Encoding Unit := do
  leaveIf (output.data = none) (.fail .invalidArgument)
  leaveIf (output.capacity < size) (.fail .bufferTooSmall)

/-- A value that is a view shares no memory with the record. -/
def checkAlias (outputRange : AddressRange) (relevant : EncodeFieldValue → Bool)
    (blame : EncodeFieldValue × Nat → EncodeState → EncodeState)
    (item : EncodeFieldValue × Nat) : Encoding Unit :=
  let view := item.1.bytesValue
  if relevant item.1 then
    match getAddressRange view.data view.size with
    | none => leave fun state => blame item (state.fail .invalidArgument)
    | some inputRange =>
      leaveIf (rangesOverlap inputRange outputRange = true) fun state =>
        blame item (state.fail .inputOutputOverlap)
  else pure ()

/-- The record shares no memory with the values. -/
def checkAliases (values : EncodeValues) (output : MutableByteBuffer) (size : Nat)
    (relevant : EncodeFieldValue → Bool)
    (blame : EncodeFieldValue × Nat → EncodeState → EncodeState) : Encoding Unit := do
  match getAddressRange output.data size,
    getArrayAddressRange values.data values.values.length sizeofEncodeFieldValue with
  | some outputRange, some descriptorRange => do
    leaveIf (rangesOverlap descriptorRange outputRange = true) (.fail .inputOutputOverlap)
    values.values.zipIdx.forM (checkAlias outputRange relevant blame)
  | _, _ => leave (.fail .invalidArgument)

/-- Publishes the length of the record. -/
def publishRecord (size : Nat) : Encoding Unit :=
  update fun state => { state with result := { state.result with
    status := .ok, bytesWritten := size, failedValueIndex := invalidIndex
    failedFieldIndex := invalidIndex } }

/-! ### Text messages -/

/-- Whether the value of a variable field would not end at the literal behind it. -/
def terminatorConflicts (field : FieldExecutionPlan) (bytes : List UInt8) :
    List TextSegmentExecutionPlan → Access Bool
  | [] => some false
  | terminator :: _ =>
    if field.textMinLength = field.textMaxLength then some false
    else if terminator.kind ≠ .literal then some true
    else do
      let found ← findFirstAcrossBoundary bytes terminator
      some (found ≠ some bytes.length)

/-- The bytes supplied for a text field, when it is an input of the encode action. -/
def suppliedText (message : MessageExecutionPlan) (values : List EncodeFieldValue)
    (valueIndices : List Nat) (fieldIndex : Nat) :
    Access (Option (FieldExecutionPlan × List UInt8)) :=
  match message.fields[fieldIndex]? with
  | none => some none
  | some field =>
    if field.textEncodeInput = false ∨ field.inputOrdinal ≥ valueIndices.length then some none
    else do
      let value ← suppliedValue values valueIndices field
      some (some (field, value.bytesValue.bytes))

/-- The length of a text record, and the check that it can be taken apart again. -/
def textRecordSize (message : MessageExecutionPlan) (values : List EncodeFieldValue) :
    List TextSegmentExecutionPlan → Nat → Encoding Nat
  | [], size => pure size
  | segment :: rest, size =>
    match segment.kind with
    | .literal => do
      leaveIf (segment.literal.length > maxUint64 - size) (.refuse .invalidPlan)
      textRecordSize message values rest (size + segment.literal.length)
    | .field => do
      let state ← current
      match ← access (suppliedText message values state.workspace.encodeValueIndices
        segment.fieldIndex) with
      | none => leave (.refuse .invalidPlan)
      | some (field, bytes) => do
        leaveIf (bytes.length > maxUint64 - size) (.refuse .invalidPlan)
        let conflicts ← access (terminatorConflicts field bytes rest)
        leaveIf (conflicts = true) fun state =>
          (state.atField segment.fieldIndex).refuse .asciiTerminatorConflict
        textRecordSize message values rest (size + bytes.length)

/-- The bytes of a segment of a text record. -/
def segmentBytes (message : MessageExecutionPlan) (values : List EncodeFieldValue)
    (valueIndices : List Nat) (segment : TextSegmentExecutionPlan) : Access (List UInt8) :=
  match segment.kind with
  | .literal => some segment.literal
  | .field => do
    let field ← message.fields[segment.fieldIndex]?
    let value ← suppliedValue values valueIndices field
    some value.bytesValue.bytes

/-- Writes the segments of a text record behind each other. -/
def writeSegments (message : MessageExecutionPlan) (values : List EncodeFieldValue)
    (valueIndices : List Nat) :
    List TextSegmentExecutionPlan → Nat → List UInt8 → Access (List UInt8)
  | [], _, output => some output
  | segment :: rest, cursor, output => do
    let bytes ← segmentBytes message values valueIndices segment
    let output ← writeBytes output cursor bytes
    writeSegments message values valueIndices rest (cursor + bytes.length) output

/-- Compares a field of the written record with the value supplied for it. -/
def reviewText (message : MessageExecutionPlan) (values : List EncodeFieldValue)
    (valueIndices : List Nat) (encoded : List UInt8) (_ : Unit) (fieldIndex offset length : Nat) :
    Access (Unit × Bool) := do
  match ← suppliedText message values valueIndices fieldIndex with
  | none => some ((), false)
  | some (_, expected) =>
    if expected.length ≠ length then some ((), false)
    else do
      let written ← readBytes encoded offset length
      some ((), written == expected)

/-- Encodes a text record. -/
def encodeText (message : MessageExecutionPlan) (action : TextActionExecutionPlan)
    (values : EncodeValues) (output : MutableByteBuffer) : Encoding Unit := do
  let size ← textRecordSize message values.values action.segments 0
  update fun state => { state with result := { state.result with requiredSize := size } }
  leaveIf (size < action.minRecordLength ∨ size > action.maxRecordLength ∨
    size > message.frameSize) (.refuse .finalReviewFailed)
  checkBuffer output size
  checkAliases values output size (fun _ => true) fun item state => state.atValue item.2
  let state ← current
  let indices := state.workspace.encodeValueIndices
  let written ← access (writeSegments message values.values indices action.segments 0 state.output)
  update fun state => { state with output := written }
  let encoded := written.take size
  let (reviewed, _) ← access (walkTextAction action message encoded true
    (reviewText message values.values indices encoded) ())
  leaveIf (reviewed ≠ .match) (.fail .finalReviewFailed)
  publishRecord size

/-! ### Writing a binary message -/

/-- The raw value of a field that is neither computed nor a byte string. -/
def getEncodeRawValue (message : MessageExecutionPlan) (values : List EncodeFieldValue)
    (workspace : ExecutionWorkspace) (field : FieldExecutionPlan) : Access Nat :=
  if hasConversion field then workspace.encodeConversionRawValues[field.conversionSlot]?
  else if field.valueType = .int64 then do
    let value ←
      if field.encodeSource = .constant then some field.signedConstantValue
      else do
        let value ← suppliedValue values workspace.encodeValueIndices field
        some value.int64Value.toInt
    some (signedBits value field.width)
  else if field.encodeSource = .constant then some field.constantValue
  else do
    let value ← suppliedValue values workspace.encodeValueIndices field
    match field.valueType with
    | .enum => message.enumRawValues[field.enumValuesBegin + value.enumValue.entryIndex]?
    | .bool => some (if value.boolValue then 1 else 0)
    | _ => some value.uint64Value.toNat

/-- Replaces the output by the one an access computes. -/
def writeOutput (write : List UInt8 → Access (List UInt8)) : Encoding Unit := do
  let state ← current
  let output ← access (write state.output)
  update fun state => { state with output := output }

/-- Stores an unsigned integer, or fails the review. -/
def storeOrFail (value offset width : Nat) (byteOrder : ByteOrder)
    (blame : EncodeState → EncodeState) : Encoding Unit := do
  let state ← current
  match ← access (storeUnsigned state.output value offset width byteOrder) with
  | none => leave fun state => blame (state.fail .finalReviewFailed)
  | some output => update fun state => { state with output := output }

def writeFixedBytes (message : MessageExecutionPlan) : Encoding Unit :=
  writeOutput fun output =>
    message.fixedBytes.foldlM
      (fun output fixed => setElement output fixed.offset fixed.value) output

/-- Starts every container from its base value. -/
def startContainers (message : MessageExecutionPlan) : Encoding Unit := do
  let state ← current
  let count := message.bitContainers.length
  leaveIf (count > state.workspace.bitContainerValues.length) (.fail .finalReviewFailed)
  update fun state => { state with workspace := { state.workspace with
    bitContainerValues := message.bitContainers.map (·.baseValue) ++
      state.workspace.bitContainerValues.drop count } }

/-- Writes a field: a byte string and a plain integer into the output, a bit member into
the value of its container. A computed field is written later. -/
def writeField (message : MessageExecutionPlan) (values : List EncodeFieldValue)
    (field : FieldExecutionPlan) : Encoding Unit := do
  let state ← current
  if field.encodeSource = .computed then pure ()
  else if field.valueType = .bytes then do
    let value ← access (suppliedValue values state.workspace.encodeValueIndices field)
    writeOutput fun output => writeBytes output field.offset value.bytesValue.bytes
  else do
    let raw ← access (getEncodeRawValue message values state.workspace field)
    if field.bitContainerIndex ≠ invalidIndex then do
      let container ← access state.workspace.bitContainerValues[field.bitContainerIndex]?
      let values ← access (setElement state.workspace.bitContainerValues field.bitContainerIndex
        (insertBitfield container raw field))
      update fun state =>
        { state with workspace := { state.workspace with bitContainerValues := values } }
    else storeOrFail raw field.offset field.width field.byteOrder id

/-- Stores the value of a container. -/
def writeContainer (item : BitContainerExecutionPlan × Nat) : Encoding Unit := do
  let (container, index) := item
  let state ← current
  let value ← access state.workspace.bitContainerValues[index]?
  storeOrFail value container.offset container.width container.byteOrder id

def writeFields (message : MessageExecutionPlan) (values : List EncodeFieldValue) :
    Encoding Unit := do
  startContainers message
  message.fields.forM (writeField message values)
  message.bitContainers.zipIdx.forM writeContainer

/-- Writes the computed length of the record. -/
def writeComputedLength (message : MessageExecutionPlan) (frameSize : Nat) : Encoding Unit :=
  match message.computedLength with
  | none => pure ()
  | some computed =>
    let payloadLength := match message.boundedPayload with
      | some bounded => frameSize - bounded.headerLength - bounded.trailerLength
      | none => 0
    storeOrFail (actualLength message computed frameSize payloadLength) computed.storageOffset
      computed.storageWidth computed.byteOrder (.atField computed.fieldIndex)

/-- Writes the checksum of the record. -/
def writeIntegrity (message : MessageExecutionPlan) (frameSize : Nat) : Encoding Unit := do
  leaveIf (integrityDescriptorValid message = false) (.fail .finalReviewFailed)
  match message.integrity with
  | none => pure ()
  | some integrity =>
    match resolveIntegrity message frameSize with
    | none => leave (.fail .finalReviewFailed)
    | some resolved => do
      let state ← current
      match integrity.algorithm with
      | .sum8 => do
        let sum ← access (sum8 state.output resolved.rangeOffset resolved.rangeLength)
        writeOutput fun output => setElement output resolved.storageOffset sum
      | .crc => do
        let value ← access (crc integrity state.output resolved.rangeOffset resolved.rangeLength)
        storeOrFail value.toNat resolved.storageOffset resolved.storageWidth
          integrity.storageByteOrder id
      let state ← current
      let matching ← access (integrityMatches message state.output frameSize)
      leaveIf (matching = false) (.fail .finalReviewFailed)

/-! ### The final review -/

/-- Whether a computed field of the record holds the length of the record. -/
def verifyComputed (message : MessageExecutionPlan) (output : List UInt8)
    (frameSize fieldIndex : Nat) (field : FieldExecutionPlan) : Access Bool :=
  match message.computedLength with
  | none => some false
  | some computed =>
    if computed.fieldIndex ≠ fieldIndex then some false
    else do
      let actual ← loadUnsigned output field.offset field.width field.byteOrder
      let expected :=
        if message.boundedPayload.isSome then
          match resolvePayloadLength message frameSize with
          | none => invalidIndex
          | some payloadLength => actualLength message computed frameSize payloadLength
        else computed.expectedValue
      some (actual == some expected)

/-- How the review of a field ends. -/
inductive FieldVerificationStatus where
  | match
  | mismatch
  | internalError
  deriving DecidableEq

/-- A field matches or it does not. -/
def verificationOf (matching : Bool) : FieldVerificationStatus :=
  if matching then .match else .mismatch

/-- The raw value of a field in the record. -/
def loadWritten (message : MessageExecutionPlan) (output : List UInt8)
    (field : FieldExecutionPlan) : Access (Option Nat) :=
  if field.bitContainerIndex ≠ invalidIndex then do
    let container ← message.bitContainers[field.bitContainerIndex]?
    let value ← loadUnsigned output container.offset container.width container.byteOrder
    some (value.map (extractBitfield · field))
  else loadUnsigned output field.offset field.width field.byteOrder

/-- Compares a raw value of the record with what was supplied. -/
def verifyRaw (plan : PlanBundle) (values : List EncodeFieldValue) (workspace : ExecutionWorkspace)
    (field : FieldExecutionPlan) (expected actual : Nat) : Access FieldVerificationStatus :=
  if hasConversion field then do
    let conversion ← plan.conversions[field.conversionIndex]?
    match decodeDecimal conversion actual field.width with
    | .error .internalError => some .internalError
    | .error _ => some .mismatch
    | .ok logical => do
      let value ← suppliedValue values workspace.encodeValueIndices field
      some (verificationOf (decimalEqual logical value.decimal64Value))
  else if field.valueType = .int64 then do
    let signedExpected ←
      if field.encodeSource = .constant then some field.signedConstantValue
      else do
        let value ← suppliedValue values workspace.encodeValueIndices field
        some value.int64Value.toInt
    some (verificationOf (interpretSigned actual field.width == some signedExpected))
  else some (verificationOf (actual == expected))

/-- Reviews a field of the record. -/
def verifyField (plan : PlanBundle) (message : MessageExecutionPlan)
    (values : List EncodeFieldValue) (workspace : ExecutionWorkspace) (output : List UInt8)
    (frameSize fieldIndex : Nat) (field : FieldExecutionPlan) : Access FieldVerificationStatus :=
  if field.encodeSource = .computed then do
    let matching ← verifyComputed message output frameSize fieldIndex field
    some (verificationOf matching)
  else if field.valueType = .bytes then do
    let value ← suppliedValue values workspace.encodeValueIndices field
    let written ← readBytes output field.offset value.bytesValue.size
    some (verificationOf (written == value.bytesValue.bytes))
  else do
    let expected ← getEncodeRawValue message values workspace field
    match ← loadWritten message output field with
    | none => some .mismatch
    | some actual => verifyRaw plan values workspace field expected actual

/-- One round of the loop that reviews the fields. -/
def reviewField (plan : PlanBundle) (message : MessageExecutionPlan)
    (values : List EncodeFieldValue) (frameSize : Nat) (item : FieldExecutionPlan × Nat) :
    Encoding Unit := do
  let (field, fieldIndex) := item
  let state ← current
  let status ← access
    (verifyField plan message values state.workspace state.output frameSize fieldIndex field)
  leaveIf (status = .internalError) fun state => (state.atField fieldIndex).fail .internalError
  leaveIf (status = .mismatch) fun state => (state.atField fieldIndex).fail .finalReviewFailed

/-- Reviews the record: it states its length, it matches its message and no other, and its
fields are the ones supplied. -/
def finalReview (plan : PlanBundle) (pipeline : PipelineExecutionPlan) (messageIndex : Nat)
    (message : MessageExecutionPlan) (values : List EncodeFieldValue) (frameSize : Nat) :
    Encoding Unit := do
  let state ← current
  let lengthOk ← access (computedLengthMatches message state.output frameSize)
  leaveIf (lengthOk = false) fun state =>
    match message.computedLength with
    | some computed => (state.atField computed.fieldIndex).fail .finalReviewFailed
    | none => state.fail .finalReviewFailed
  let found ← access
    (findPipelineMatch pipeline plan.messageExecutionPlans (state.output.take frameSize))
  leaveIf (found.matchCount ≠ 1 ∨ found.messageIndex ≠ messageIndex) (.fail .finalReviewFailed)
  message.fields.zipIdx.forM (reviewField plan message values frameSize)

/-! ### Binary messages -/

/-- The length of the record. A bounded message follows the payload supplied for it. -/
def actualFrameSize (message : MessageExecutionPlan) (values : List EncodeFieldValue) :
    Encoding Nat :=
  match message.boundedPayload with
  | none => pure message.frameSize
  | some bounded =>
    match message.fields[bounded.payloadFieldIndex]? with
    | none => leave (.refuse .finalReviewFailed)
    | some field => do
      let state ← current
      leaveIf (field.inputOrdinal ≥ state.workspace.encodeValueIndices.length)
        (.refuse .finalReviewFailed)
      let value ← access (suppliedValue values state.workspace.encodeValueIndices field)
      let size := bounded.headerLength + value.bytesValue.size + bounded.trailerLength
      leaveIf (size < bounded.minFrameLength ∨ size > bounded.maxFrameLength)
        (.refuse .finalReviewFailed)
      update fun state => { state with result := { state.result with requiredSize := size } }
      pure size

/-- Encodes a binary record. -/
def encodeBinary (plan : PlanBundle) (pipeline : PipelineExecutionPlan) (messageIndex : Nat)
    (message : MessageExecutionPlan) (values : EncodeValues) (output : MutableByteBuffer) :
    Encoding Unit := do
  let frameSize ← actualFrameSize message values.values
  checkBuffer output frameSize
  checkAliases values output frameSize (·.valueKind == .bytes) fun item state =>
    (state.atValue item.2).atField item.1.field.fieldIndex
  leaveIf (computedLengthDescriptorValid message = false) (.fail .finalReviewFailed)
  writeFixedBytes message
  writeFields message values.values
  writeComputedLength message frameSize
  writeIntegrity message frameSize
  finalReview plan pipeline messageIndex message values.values frameSize
  publishRecord frameSize

/-! ### The encoder -/

/-- The checks of a call before its values are read; they end with the pipeline and the
message. -/
def checkEncodeCall (plan : PlanBundle) (pipelineIndex messageIndex : Nat)
    (values : EncodeValues) : Encoding (PipelineExecutionPlan × MessageExecutionPlan) := do
  let state ← current
  leaveIf (state.workspace.planScope ≠ plan.address) (.fail .workspacePlanMismatch)
  leaveIf (supportsCompleteRecordSchema plan.schemaVersion = false) (.fail .invalidPlan)
  leaveIf (values.data = none ∧ values.values.length ≠ 0) id
  leaveIf (getArrayAddressRange values.data values.values.length sizeofEncodeFieldValue = none ∨
    values.values.length > state.workspace.maxValuesPerCall) (.fail .invalidArgument)
  match plan.pipelineExecutionPlans[pipelineIndex]? with
  | none => leave id
  | some pipeline =>
    match plan.messageExecutionPlans[messageIndex]? with
    | none => leave (.fail .messageNotAllowed)
    | some message => do
      let allowed ← access (messageIsAllowed pipeline messageIndex)
      leaveIf (allowed = false) (.fail .messageNotAllowed)
      update fun state =>
        { state with result := { state.result with requiredSize := message.frameSize } }
      leaveIf (isTextSchema plan.schemaVersion = true ∧ message.textEncode = none)
        (.refuse .operationNotSupported)
      pure (pipeline, message)

/-- A call that holds the workspace. -/
def encodeLeased (plan : PlanBundle) (pipelineIndex messageIndex : Nat) (values : EncodeValues)
    (output : MutableByteBuffer) : Encoding Unit := do
  update fun state => { state with workspace := { state.workspace with
    rawIntegerCount := 0, rawIntegerMessageIndex := invalidIndex } }
  let (pipeline, message) ← checkEncodeCall plan pipelineIndex messageIndex values
  prepareEncodeInputs plan messageIndex message values.values
  match message.textEncode with
  | some action => encodeText message action values output
  | none => encodeBinary plan pipeline messageIndex message values output

/-- What a call leaves behind: the result, the workspace it gave back, and the buffer. -/
structure EncodeCall where
  result : EncodeResult
  workspace : ExecutionWorkspace
  output : List UInt8

/-- Encodes a complete record. Without a value, an access was out of range. -/
def encodeCompleteRecord (plan : PlanBundle) (workspace : ExecutionWorkspace)
    (pipelineIndex messageIndex : Nat) (values : EncodeValues) (output : MutableByteBuffer) :
    Option EncodeCall :=
  if workspace.inUse then some ⟨{ status := .workspaceBusy }, workspace, output.contents⟩
  else
    let start : EncodeState := ⟨{ workspace with inUse := true }, output.contents, {}⟩
    match encodeLeased plan pipelineIndex messageIndex values output start with
    | .outOfRange => none
    | .returned state | .done _ state =>
      some ⟨state.result, { state.workspace with inUse := false }, state.output⟩

end ProtocolAdapter.Codec
