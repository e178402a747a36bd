/-
This file models what a compiled protocol tells about its records: its texts, its pipelines,
its messages, and the fields and enumeration entries that are numbered through across all
messages. A field is looked up in the message whose range holds its number, an entry in the
field whose range holds its number.
-/

import ProtocolAdapter.Description.Metadata
import ProtocolAdapter.PublicApi.Types

namespace ProtocolAdapter.PublicApi

open Description

/-! ### Descriptions -/

/-- Where an encode takes the value of a field from. -/
inductive EncodeValueSource where
  | callerInput
  | constant
  | computed
  | notReferenced
  deriving DecidableEq

structure ProtocolDescription where
  schemaVersion : String
  protocolId : String
  protocolVersion : String
  displayName : List UInt8
  description : List UInt8
  sourceRef : List UInt8
  deriving DecidableEq

structure PipelineDescription where
  index : Nat
  id : String
  directionId : String
  displayName : List UInt8
  description : List UInt8
  sourceRef : List UInt8
  messageCount : Nat
  deriving DecidableEq

/-- A message, with the range of its fields among the fields of all messages. -/
structure MessageDescription where
  index : Nat
  id : String
  directionId : String
  displayName : List UInt8
  description : List UInt8
  sourceRef : List UInt8
  fieldBegin : Nat
  fieldCount : Nat
  deriving DecidableEq

/-- A field, with the range of its entries among the entries of all fields. -/
structure FieldDescription where
  flatIndex : Nat
  messageIndex : Nat
  indexInMessage : Nat
  id : String
  displayName : List UInt8
  description : List UInt8
  sourceRef : List UInt8
  valueKind : ValueKind
  encodeValueSource : EncodeValueSource
  enumBegin : Nat
  enumCount : Nat
  deriving DecidableEq

structure EnumDescription where
  flatIndex : Nat
  fieldFlatIndex : Nat
  indexInField : Nat
  id : String
  displayName : List UInt8
  rawValue : Nat
  deriving DecidableEq

/-! ### Queries -/

/-- The state a compiled protocol answers from, when it has one with a description. -/
def heldState (compiled : Option CompiledProtocolArtifacts) : Option CompiledProtocolArtifacts :=
  match compiled with
  | none => none
  | some state => if state.description.storage = [] then none else some state

/-- The kind of the logical values of a field. -/
def planValueKind (field : FieldExecutionPlan) : ValueKind :=
  if field.conversionIndex ≠ invalidIndex then .decimal64
  else
    match field.valueType with
    | .uint64 => .uint64
    | .int64 => .int64
    | .bytes => .bytes
    | .enum => .enum
    | .bool => .bool

/-- Where an encode of a message takes the value of a field from. -/
def mapEncodeValueSource (message : MessageExecutionPlan) (field : FieldExecutionPlan) :
    EncodeValueSource :=
  if message.textDecode.isSome ∨ message.textEncode.isSome then
    if message.textEncode.isSome ∧ field.textEncodeInput = true then .callerInput
    else .notReferenced
  else
    match field.encodeSource with
    | .input => .callerInput
    | .constant => .constant
    | .computed => .computed

namespace CompiledProtocol

def protocol (compiled : Option CompiledProtocolArtifacts) : Option ProtocolDescription := do
  let state ← heldState compiled
  let item := state.description.protocol
  some
    { schemaVersion := state.plan.schemaVersion
      protocolId := state.plan.protocolId
      protocolVersion := state.plan.protocolVersion
      displayName := state.description.resolve item.displayName
      description := state.description.resolve item.description
      sourceRef := state.description.resolve item.sourceRef }

def pipeline (compiled : Option CompiledProtocolArtifacts) (index : Nat) :
    Option PipelineDescription := do
  let state ← heldState compiled
  let source ← state.plan.pipelines[index]?
  let item ← state.description.pipelines[index]?
  some
    { index := index
      id := source.id
      directionId := source.directionId
      displayName := state.description.resolve item.displayName
      description := state.description.resolve item.description
      sourceRef := state.description.resolve item.sourceRef
      messageCount := source.messageIndices.length }

def messageCount (compiled : Option CompiledProtocolArtifacts) : Nat :=
  match heldState compiled with
  | none => 0
  | some state => state.plan.messages.length

def message (compiled : Option CompiledProtocolArtifacts) (index : Nat) :
    Option MessageDescription := do
  let state ← heldState compiled
  let source ← state.plan.messages[index]?
  let item ← state.description.messages[index]?
  if item.fieldBegin > state.description.fields.length ∨
      item.fieldCount > state.description.fields.length - item.fieldBegin ∨
      item.fieldCount ≠ source.fields.length then none
  else
    some
      { index := index
        id := source.id
        directionId := source.directionId
        displayName := state.description.resolve item.displayName
        description := state.description.resolve item.description
        sourceRef := state.description.resolve item.sourceRef
        fieldBegin := item.fieldBegin
        fieldCount := item.fieldCount }

def fieldCount (compiled : Option CompiledProtocolArtifacts) : Nat :=
  match heldState compiled with
  | none => 0
  | some state => state.description.fields.length

/-- Whether a range of a flat table holds a number. -/
def holdsFlat (flat start count : Nat) : Bool := start ≤ flat ∧ flat - start < count

def field (compiled : Option CompiledProtocolArtifacts) (flatIndex : Nat) :
    Option FieldDescription := do
  let state ← heldState compiled
  let item ← state.description.fields[flatIndex]?
  let messageIndex ← state.description.messages.findIdx? fun message =>
    holdsFlat flatIndex message.fieldBegin message.fieldCount
  let range ← state.description.messages[messageIndex]?
  let fieldIndex := flatIndex - range.fieldBegin
  let message ← state.plan.messages[messageIndex]?
  let source ← message.fields[fieldIndex]?
  let execution ← state.plan.messageExecutionPlans[messageIndex]?
  let executionField ← execution.fields[fieldIndex]?
  if item.enumBegin > state.description.enums.length ∨
      item.enumCount > state.description.enums.length - item.enumBegin ∨
      item.enumCount ≠ source.enumEntries.length then none
  else
    some
      { flatIndex := flatIndex
        messageIndex := messageIndex
        indexInMessage := fieldIndex
        id := source.id
        displayName := state.description.resolve item.displayName
        description := state.description.resolve item.description
        sourceRef := state.description.resolve item.sourceRef
        valueKind := planValueKind executionField
        encodeValueSource := mapEncodeValueSource execution executionField
        enumBegin := item.enumBegin
        enumCount := item.enumCount }

def enumCount (compiled : Option CompiledProtocolArtifacts) : Nat :=
  match heldState compiled with
  | none => 0
  | some state => state.description.enums.length

def enum (compiled : Option CompiledProtocolArtifacts) (flatIndex : Nat) :
    Option EnumDescription := do
  let state ← heldState compiled
  let item ← state.description.enums[flatIndex]?
  let fieldFlatIndex ← state.description.fields.findIdx? fun field =>
    holdsFlat flatIndex field.enumBegin field.enumCount
  let range ← state.description.fields[fieldFlatIndex]?
  let field ← field compiled fieldFlatIndex
  let enumIndex := flatIndex - range.enumBegin
  let message ← state.plan.messages[field.messageIndex]?
  let planField ← message.fields[field.indexInMessage]?
  let source ← planField.enumEntries[enumIndex]?
  some
    { flatIndex := flatIndex
      fieldFlatIndex := fieldFlatIndex
      indexInField := enumIndex
      id := source.id
      displayName := state.description.resolve item.displayName
      rawValue := source.rawValue }

end CompiledProtocol

end ProtocolAdapter.PublicApi
