/-
This file models the decoder. It finds the one message a record matches, checks the
memory the caller lends, then the length, the checksum and the values, and only then
publishes the fields. A failure keeps what has been written so far, but publishes no
number of fields.
-/

import ProtocolAdapter.Codec.Match
import ProtocolAdapter.Codec.Review
import ProtocolAdapter.Codec.Values

namespace ProtocolAdapter.Codec

open Foundation Foundation.Operation

/-! ### The state -/

/-- What a call changes: the workspace, the slots of the caller, and the result. -/
structure DecodeState where
  workspace : ExecutionWorkspace
  slots : List DecodedFieldSlot
  result : DecodeResult

/-- An operation of the decoder. -/
abbrev Decoding := Operation DecodeState

/-- Sets the status of the result. -/
def DecodeState.fail (status : CodecStatus) (state : DecodeState) : DecodeState :=
  { state with result := { state.result with status := status } }

/-- Sets the status and the field that caused it. -/
def DecodeState.failField (status : CodecStatus) (fieldIndex : Nat) (state : DecodeState) :
    DecodeState :=
  { state with result := { state.result with status := status, failedFieldIndex := fieldIndex } }

/-- A view of bytes of an input. -/
def subView (input : ByteView) (offset length : Nat) : ByteView :=
  { data := input.data.map (· + offset), bytes := Bytes.slice input.bytes offset length }

/-! ### The call -/

/-- The checks of a call before its input is read; they end with the pipeline. -/
def checkDecodeCall (plan : PlanBundle) (pipelineIndex : Nat) (input : ByteView)
    (fieldSlots : FieldSlots) : Decoding PipelineExecutionPlan := do
  let state ← current
  leaveIf (state.workspace.planScope ≠ plan.address) (.fail .workspacePlanMismatch)
  leaveIf (supportsCompleteRecordSchema plan.schemaVersion = false) (.fail .invalidPlan)
  leaveIf ((input.data = none ∧ input.size ≠ 0) ∨
    (fieldSlots.data = none ∧ fieldSlots.slots.length ≠ 0)) id
  match plan.pipelineExecutionPlans[pipelineIndex]? with
  | none => leave id
  | some pipeline => do
    leaveIf (isTextSchema plan.schemaVersion = true ∧ pipeline.textMessageIndices = [])
      (.fail .operationNotSupported)
    pure pipeline

/-- Finds the one message of a pipeline that the input matches. -/
def selectMessage (plan : PlanBundle) (pipeline : PipelineExecutionPlan) (input : ByteView) :
    Decoding (Nat × MessageExecutionPlan) := do
  let found ← access (findPipelineMatch pipeline plan.messageExecutionPlans input.bytes)
  leaveIf (found.matchCount = 0) (.fail .unknownMessage)
  leaveIf (found.matchCount ≠ 1) (.fail .ambiguousMessage)
  update fun state =>
    { state with result := { state.result with messageIndex := found.messageIndex } }
  let message ← access plan.messageExecutionPlans[found.messageIndex]?
  pure (found.messageIndex, message)

/-- The slots hold the given number of fields and share no memory with the input. -/
def checkDecodeOutput (count : Nat) (input : ByteView) (fieldSlots : FieldSlots) :
    Decoding Unit := do
  update fun state => { state with result := { state.result with requiredFieldCount := count } }
  leaveIf (count > fieldSlots.slots.length) (.fail .outputSlotsTooSmall)
  match getAddressRange input.data input.size,
    getArrayAddressRange fieldSlots.data count sizeofDecodedFieldSlot with
  | some inputRange, some slotRange =>
    leaveIf (rangesOverlap inputRange slotRange = true) (.fail .inputOutputOverlap)
  | _, _ => leave (.fail .invalidArgument)

/-- Publishes the number of fields. -/
def publish (count : Nat) (tainted : Bool) : Decoding Unit :=
  update fun state =>
    { state with result := { state.result with
        status := .ok, fieldCount := count, failedFieldIndex := invalidIndex, tainted := tainted } }

/-! ### Text messages -/

/-- Writes the slot of a text field, unless all slots of the action are written. -/
def materializeText (plan : PlanBundle) (messageIndex count : Nat) (input : ByteView)
    (progress : List DecodedFieldSlot × Nat) (fieldIndex offset length : Nat) :
    Access ((List DecodedFieldSlot × Nat) × Bool) :=
  if progress.2 ≥ count then some (progress, false)
  else do
    let slots ← setElement progress.1 progress.2
      { field := ⟨plan.address, messageIndex, fieldIndex⟩
        valueKind := .bytes
        bytesValue := subView input offset length }
    some ((slots, progress.2 + 1), true)

/-- The status of a text record whose walk did not reach its end. -/
def textWalkFailure : TextWalkStatus → CodecStatus
  | .invalidCharacter => .asciiCharacterNotAllowed
  | .invalidPlan => .invalidPlan
  | _ => .unknownMessage

/-- Decodes a text record: one walk checks its characters, a second one fills the slots. -/
def decodeText (plan : PlanBundle) (messageIndex : Nat) (message : MessageExecutionPlan)
    (action : TextActionExecutionPlan) (input : ByteView) : Decoding Unit := do
  let count := message.textDecodeFieldCount
  let (validation, _) ←
    access (walkTextAction action message input.bytes true acceptField ())
  leaveIf (validation ≠ .match) (.fail (textWalkFailure validation))
  let state ← current
  let (materialized, slots, written) ← access (walkTextAction action message input.bytes false
    (materializeText plan messageIndex count input) (state.slots, 0))
  update fun state => { state with slots := slots }
  leaveIf (materialized ≠ .match ∨ written ≠ count) (.fail .invalidPlan)
  publish written false

/-! ### Binary messages -/

/-- The record states its length and carries its checksum. -/
def checkRecord (message : MessageExecutionPlan) (input : ByteView) : Decoding Unit := do
  leaveIf (computedLengthDescriptorValid message = false) (.fail .invalidPlan)
  let lengthOk ← access (computedLengthMatches message input.bytes input.size)
  leaveIf (lengthOk = false) fun state =>
    match message.computedLength with
    | some computed => state.failField .lengthMismatch computed.fieldIndex
    | none => state.fail .lengthMismatch
  leaveIf (integrityDescriptorValid message = false) (.fail .invalidPlan)
  let integrityOk ← access (integrityMatches message input.bytes input.size)
  leaveIf (integrityOk = false) (.fail .integrityFailed)

/-- Loads the value of a container into the workspace. -/
def loadContainer (input : ByteView) (item : BitContainerExecutionPlan × Nat) : Decoding Unit := do
  let (container, index) := item
  match ← access
      (loadUnsigned input.bytes container.offset container.width container.byteOrder) with
  | none => leave (.fail .invalidPlan)
  | some value => do
    let state ← current
    let values ← access (setElement state.workspace.bitContainerValues index value)
    update fun state =>
      { state with workspace := { state.workspace with bitContainerValues := values } }

/-- Loads the values of all containers of a message. -/
def loadContainers (message : MessageExecutionPlan) (input : ByteView) : Decoding Unit := do
  let state ← current
  leaveIf (message.bitContainers.length > state.workspace.bitContainerValues.length)
    (.fail .invalidPlan)
  message.bitContainers.zipIdx.forM (loadContainer input)

/-- The raw value of a field that is not a byte string: bits of its container, or its own
bytes. -/
def loadField (input : ByteView) (field : FieldExecutionPlan) : Decoding (Option Nat) :=
  if field.bitContainerIndex ≠ invalidIndex then do
    let state ← current
    let value ← access state.workspace.bitContainerValues[field.bitContainerIndex]?
    pure (some (extractBitfield value field))
  else access (loadUnsigned input.bytes field.offset field.width field.byteOrder)

/-- Converts the raw value of a field and keeps both for the caller. -/
def precheckConversion (plan : PlanBundle) (input : ByteView) (converted fieldIndex : Nat)
    (field : FieldExecutionPlan) : Decoding Unit := do
  let state ← current
  leaveIf (field.conversionSlot ≥ state.workspace.decodeDecimalCoefficients.length ∨
    converted ≥ state.workspace.rawIntegerBits.length) (.failField .invalidPlan fieldIndex)
  match ← access (loadUnsigned input.bytes field.offset field.width field.byteOrder) with
  | none => leave (.failField .invalidPlan fieldIndex)
  | some rawValue => do
    let conversion ← access plan.conversions[field.conversionIndex]?
    match decodeDecimal conversion rawValue field.width with
    | .error status => leave fun state =>
        let failed := state.failField (toCodecStatus status) fieldIndex
        { failed with result := { failed.result with
            conversionError := toConversionError status } }
    | .ok logical => do
      let workspace := state.workspace
      let coefficients ← access (setElement workspace.decodeDecimalCoefficients
        field.conversionSlot logical.coefficient)
      let scales ← access (setElement workspace.decodeDecimalScales field.conversionSlot
        logical.scale)
      let rawBits ← access (setElement workspace.rawIntegerBits converted rawValue)
      let kinds ← access (setElement workspace.rawIntegerKinds converted field.valueType)
      let indices ← access (setElement workspace.rawIntegerFieldIndices converted fieldIndex)
      update fun state => { state with workspace := { state.workspace with
        decodeDecimalCoefficients := coefficients
        decodeDecimalScales := scales
        rawIntegerBits := rawBits
        rawIntegerKinds := kinds
        rawIntegerFieldIndices := indices } }

/-- Whether an enumeration field has a value without an entry. Such a value is refused or
taints the record. -/
def precheckEnum (message : MessageExecutionPlan) (input : ByteView) (fieldIndex : Nat)
    (field : FieldExecutionPlan) : Decoding Bool := do
  match ← loadField input field with
  | none => leave (.failField .invalidPlan fieldIndex)
  | some rawValue => do
    let entry ← access (findEnumEntry message field rawValue)
    leaveIf (entry = none ∧ field.unknownEnumPolicy = .reject)
      (.failField .unknownEnumValue fieldIndex)
    pure entry.isNone

/-- How many fields have been converted, and whether a value without an entry was met. -/
structure Precheck where
  converted : Nat := 0
  tainted : Bool := false

/-- One round of the loop that checks the values before any is published. -/
def precheckField (plan : PlanBundle) (message : MessageExecutionPlan) (input : ByteView)
    (progress : Precheck) (item : FieldExecutionPlan × Nat) : Decoding Precheck := do
  let (field, fieldIndex) := item
  leaveIf (isConversionSchema plan.schemaVersion = true ∧ conversionPlanValid plan field = false)
    (.failField .invalidPlan fieldIndex)
  if isConversionSchema plan.schemaVersion = true ∧ hasConversion field = true then do
    precheckConversion plan input progress.converted fieldIndex field
    pure { progress with converted := progress.converted + 1 }
  else if field.valueType ≠ .enum then pure progress
  else do
    let unknown ← precheckEnum message input fieldIndex field
    pure { progress with tainted := progress.tainted || unknown }

/-- The bytes of a byte string; absent when the payload has no valid length. -/
def byteCount (message : MessageExecutionPlan) (input : ByteView) (fieldIndex : Nat)
    (field : FieldExecutionPlan) : Option Nat :=
  if message.boundedPayload.any (·.payloadFieldIndex = fieldIndex) then
    resolvePayloadLength message input.size
  else some field.width

/-- Puts a raw value into the slot of a field. -/
def rawSlot (plan : PlanBundle) (messageIndex : Nat) (message : MessageExecutionPlan)
    (fieldIndex : Nat) (field : FieldExecutionPlan) (slot : DecodedFieldSlot) (rawValue : Nat) :
    Decoding DecodedFieldSlot :=
  match field.valueType with
  | .uint64 => pure { slot with uint64Value := UInt64.ofNat rawValue }
  | .int64 =>
    match interpretSigned rawValue field.width with
    | none => leave (.failField .invalidPlan fieldIndex)
    | some value => pure { slot with int64Value := Int64.ofInt value }
  | .bool => pure { slot with boolValue := rawValue ≠ 0 }
  | _ => do
    let entry ← access (findEnumEntry message field rawValue)
    pure { slot with enumValue :=
      { known := entry.isSome
        rawValue := UInt64.ofNat rawValue
        reference := match entry with
          | some entryIndex => ⟨plan.address, messageIndex, fieldIndex, entryIndex⟩
          | none => {} } }

/-- The slot of a field. -/
def fieldSlot (plan : PlanBundle) (messageIndex : Nat) (message : MessageExecutionPlan)
    (input : ByteView) (fieldIndex : Nat) (field : FieldExecutionPlan) :
    Decoding DecodedFieldSlot :=
  let slot : DecodedFieldSlot :=
    { field := ⟨plan.address, messageIndex, fieldIndex⟩
      valueKind := getLogicalValueKind field.valueType }
  if hasConversion field then do
    let state ← current
    let coefficient ← access state.workspace.decodeDecimalCoefficients[field.conversionSlot]?
    let scale ← access state.workspace.decodeDecimalScales[field.conversionSlot]?
    pure { slot with
      valueKind := .decimal64, decimal64Value := { coefficient := coefficient, scale := scale } }
  else if field.valueType = .bytes then
    match byteCount message input fieldIndex field with
    | none => leave (.failField .invalidPlan fieldIndex)
    | some count => pure { slot with bytesValue := subView input field.offset count }
  else do
    match ← loadField input field with
    | none => leave (.failField .invalidPlan fieldIndex)
    | some rawValue => rawSlot plan messageIndex message fieldIndex field slot rawValue

/-- One round of the loop that fills the slots. -/
def materializeField (plan : PlanBundle) (messageIndex : Nat) (message : MessageExecutionPlan)
    (input : ByteView) (item : FieldExecutionPlan × Nat) : Decoding Unit := do
  let (field, fieldIndex) := item
  let slot ← fieldSlot plan messageIndex message input fieldIndex field
  let state ← current
  let slots ← access (setElement state.slots fieldIndex slot)
  update fun state => { state with slots := slots }

/-- Decodes a binary record. -/
def decodeBinary (plan : PlanBundle) (messageIndex : Nat) (message : MessageExecutionPlan)
    (input : ByteView) : Decoding Unit := do
  checkRecord message input
  loadContainers message input
  let checked ← message.fields.zipIdx.foldlM (precheckField plan message input) {}
  message.fields.zipIdx.forM (materializeField plan messageIndex message input)
  publish message.fields.length checked.tainted
  update fun state => { state with workspace := { state.workspace with
    rawIntegerCount := checked.converted, rawIntegerMessageIndex := messageIndex } }

/-! ### The decoder -/

/-- A call that holds the workspace. -/
def decodeLeased (plan : PlanBundle) (pipelineIndex : Nat) (input : ByteView)
    (fieldSlots : FieldSlots) : Decoding Unit := do
  update fun state => { state with workspace := { state.workspace with
    rawIntegerCount := 0, rawIntegerMessageIndex := invalidIndex } }
  let pipeline ← checkDecodeCall plan pipelineIndex input fieldSlots
  let (messageIndex, message) ← selectMessage plan pipeline input
  match message.textDecode with
  | some action => do
    checkDecodeOutput message.textDecodeFieldCount input fieldSlots
    decodeText plan messageIndex message action input
  | none => do
    checkDecodeOutput message.fields.length input fieldSlots
    decodeBinary plan messageIndex message input

/-- What a call leaves behind: the result, the workspace it gave back, and the slots. -/
structure DecodeCall where
  result : DecodeResult
  workspace : ExecutionWorkspace
  slots : List DecodedFieldSlot

/-- Decodes a complete record. Without a value, an access was out of range. -/
def decodeCompleteRecord (plan : PlanBundle) (workspace : ExecutionWorkspace)
    (pipelineIndex : Nat) (input : ByteView) (fieldSlots : FieldSlots) : Option DecodeCall :=
  if workspace.inUse then some ⟨{ status := .workspaceBusy }, workspace, fieldSlots.slots⟩
  else
    let start : DecodeState := ⟨{ workspace with inUse := true }, fieldSlots.slots, {}⟩
    match decodeLeased plan pipelineIndex input fieldSlots start with
    | .outOfRange => none
    | .returned state | .done _ state =>
      some ⟨state.result, { state.workspace with inUse := false }, state.slots⟩

/-! ### Raw integers -/

/-- The kind of a raw integer. -/
inductive RawIntegerKind where
  | uint64
  | int64
  deriving DecidableEq

/-- The raw integer of a converted field. -/
structure RawIntegerValue where
  field : FieldRef := {}
  kind : RawIntegerKind := .uint64
  uint64Value : UInt64 := 0
  int64Value : Int64 := 0
  deriving DecidableEq

/-- The number of raw integers the last call has kept. -/
def ExecutionWorkspace.lastRawIntegerCount (workspace : ExecutionWorkspace) : Nat :=
  workspace.rawIntegerCount

/-- A raw integer the last call has kept; absent when there are not as many. The workspace
holds the plan by its address. -/
def ExecutionWorkspace.getLastRawInteger (plan : PlanBundle) (workspace : ExecutionWorkspace)
    (index : Nat) : Access (Option RawIntegerValue) :=
  if index ≥ workspace.rawIntegerCount then some none
  else do
    let fieldIndex ← workspace.rawIntegerFieldIndices[index]?
    let kind ← workspace.rawIntegerKinds[index]?
    if kind ≠ .uint64 ∧ kind ≠ .int64 then some none
    else do
      let bits ← workspace.rawIntegerBits[index]?
      let output : RawIntegerValue :=
        { field := ⟨workspace.planScope, workspace.rawIntegerMessageIndex, fieldIndex⟩ }
      if kind ≠ .int64 then some (some { output with uint64Value := UInt64.ofNat bits })
      else do
        let message ← plan.messageExecutionPlans[workspace.rawIntegerMessageIndex]?
        let field ← message.fields[fieldIndex]?
        let value := (interpretSigned bits field.width).getD 0
        some (some { output with kind := .int64, int64Value := Int64.ofInt value })

end ProtocolAdapter.Codec
