/-
This file defines the assembly of a plan draft from a budgeted schema: every record is
copied under its draft type, prefix tables are built for synchronisation bytes and
literals, and the conversions of all fields are laid out behind each other.
-/

import ProtocolAdapter.ConfigCompiler.Budget
import ProtocolAdapter.Foundation.PrefixTable

namespace ProtocolAdapter.ConfigCompiler

open Foundation

/-! ### Prefix tables -/

/-- Extends the prefix table of a pattern by one entry for each of its further symbols. -/
def extendPrefixTable (pattern : List UInt8) : List UInt8 → List Nat → Nat → List Nat
  | [], table, _ => table
  | symbol :: rest, table, matched =>
    let matched := PrefixTable.advance pattern table matched symbol
    extendPrefixTable pattern rest (table ++ [matched]) matched

/-- The prefix table of a pattern; its first entry is zero. -/
def prefixTable (pattern : List UInt8) : List Nat :=
  match pattern with
  | [] => []
  | _ :: rest => extendPrefixTable pattern rest [0] 0

/-! ### Records -/

def assembleFraming (framing : FramingProfileIr) : FramingPlan where
  id := framing.id
  inputKind := framing.inputKind
  strategy := framing.strategy
  frameLengthBytes := framing.frameLengthBytes
  syncBytes := framing.syncBytes
  syncPrefixTable := prefixTable framing.syncBytes
  lengthFieldOffset := framing.lengthFieldOffset
  lengthFieldWidth := framing.lengthFieldWidth
  lengthFieldByteOrder := framing.lengthFieldByteOrder
  minimumFrameLength := framing.minimumFrameLength
  maximumFrameLength := framing.maximumFrameLength

def assemblePipeline (pipeline : PipelineIr) (resolved : ResolvedPipelineIr) : PipelinePlan where
  id := pipeline.id
  directionId := pipeline.directionId
  framingProfileIndex := resolved.framingProfileIndex
  messageIndices := resolved.messageIndices

def assembleSegment (segment : TextSegmentIr) : TextSegmentPlan where
  kind := segment.kind
  literal := segment.literal
  prefixTable := prefixTable segment.literal
  fieldIndex := segment.fieldIndex

def assembleAction (action : TextActionIr) : TextActionPlan where
  segments := action.segments.map assembleSegment
  minRecordLength := action.minRecordLength
  maxRecordLength := action.maxRecordLength

def assembleText (layout : AsciiTextLayoutIr) : AsciiTextPlan where
  decode := layout.decode.map assembleAction
  encode := layout.encode.map assembleAction

def assembleMatcher (matcher : MatcherClauseIr) : MatcherPlan where
  kind := matcher.kind
  lengthBytes := matcher.lengthBytes
  byteOffset := matcher.byteOffset
  bytes := matcher.bytes

def assembleContainer (container : BitContainerIr) : BitContainerPlan where
  id := container.id
  byteOffset := container.byteOffset
  byteWidth := container.byteWidth
  byteOrder := container.byteOrder
  bitNumbering := container.bitNumbering
  baseValue := container.baseValue

def assembleIntegrity (integrity : IntegrityIr) : IntegrityPlan where
  algorithm := integrity.algorithm
  rangeOffset := integrity.rangeOffset
  rangeLength := integrity.rangeLength
  storageOffset := integrity.storageOffset
  rangeEndsAtPayload := integrity.rangeEndsAtPayload
  storageAtPayloadEnd := integrity.storageAtPayloadEnd
  crcWidth := integrity.crcWidth
  crcPolynomial := integrity.crcPolynomial
  crcInitialValue := integrity.crcInitialValue
  crcXorOutput := integrity.crcXorOutput
  crcReflectInput := integrity.crcReflectInput
  crcReflectOutput := integrity.crcReflectOutput
  storageByteOrder := integrity.storageByteOrder

def assembleBoundedPayload (layout : BoundedPayloadIr) : BoundedPayloadPlan where
  payloadFieldIndex := layout.payloadFieldIndex
  headerLength := layout.headerLength
  minPayloadLength := layout.minPayloadLength
  maxPayloadLength := layout.maxPayloadLength
  trailerLength := layout.trailerLength
  minFrameLength := layout.minFrameLength
  maxFrameLength := layout.maxFrameLength

/-- The computed length of the first field that has one. -/
def assembleComputedLength (message : MessageIr) : Option ComputedLengthPlan := do
  let (field, index) ← message.fields.zipIdx.find? fun item => item.1.computedLength.isSome
  let computed ← field.computedLength
  some
    { fieldIndex := index
      storageOffset := field.wire.byteOffset
      storageWidth := field.wire.byteWidth
      byteOrder := field.wire.byteOrder
      scope := computed.scope
      rangeOffset := computed.rangeOffset
      rangeLength := computed.rangeLength
      expectedValue :=
        match computed.scope with
        | .frame => message.frameLengthBytes
        | .payload => (message.boundedPayload.getD {}).maxPayloadLength
        | .region => computed.rangeLength }

/-- Copies a field; `conversions` are the conversions of the fields before it. -/
def assembleField (field : FieldIr) (conversions : List LinearConversionDescriptor) :
    FieldPlan where
  id := field.id
  valueType := field.valueType
  wireCodec := field.wire.codec
  byteOffset := field.wire.byteOffset
  byteWidth := field.wire.byteWidth
  byteOrder := field.wire.byteOrder
  encodeSource := field.encode.source
  constantValue := field.encode.constantValue
  unknownEnumPolicy := field.unknownEnumPolicy
  enumEntries := field.enumEntries.map fun entry => { id := entry.id, rawValue := entry.rawValue }
  bitContainerIndex := field.wire.bitContainerIndex
  bitOffset := field.wire.bitOffset
  bitWidth := field.wire.bitWidth
  signedConstantValue := field.encode.signedConstantValue
  conversionIndex := if field.conversion.isSome then conversions.length else invalidIndex
  textMinLength := field.wire.textMinLength
  textMaxLength := field.wire.textMaxLength
  allowedAsciiLow := field.wire.allowedAsciiLow
  allowedAsciiHigh := field.wire.allowedAsciiHigh

/-- Copies the fields of a message and appends their conversions. -/
def assembleFields : List FieldIr → List LinearConversionDescriptor →
    List FieldPlan × List LinearConversionDescriptor
  | [], conversions => ([], conversions)
  | field :: rest, conversions =>
    let (fields, after) := assembleFields rest
      (conversions ++ field.conversion.toList.map fun conversion => conversion.derived)
    (assembleField field conversions :: fields, after)

/-- Copies a message and appends the conversions of its fields. -/
def assembleMessage (message : MessageIr) (conversions : List LinearConversionDescriptor) :
    MessagePlan × List LinearConversionDescriptor :=
  let (fields, conversions) := assembleFields message.fields conversions
  ({ id := message.id
     directionId := message.directionId
     frameLengthBytes := message.frameLengthBytes
     matchers := message.matcherClauses.map assembleMatcher
     bitContainers := message.bitContainers.map assembleContainer
     integrity := message.integrity.map assembleIntegrity
     boundedPayload := message.boundedPayload.map assembleBoundedPayload
     computedLength := assembleComputedLength message
     fields := fields
     asciiText := message.asciiText.map assembleText }, conversions)

/-- Copies the messages of a package and lays their conversions out behind each other. -/
def assembleMessages : List MessageIr → List LinearConversionDescriptor →
    List MessagePlan × List LinearConversionDescriptor
  | [], conversions => ([], conversions)
  | message :: rest, conversions =>
    let (plan, conversions) := assembleMessage message conversions
    let (plans, conversions) := assembleMessages rest conversions
    (plan :: plans, conversions)

/-- Assembles the draft of a budgeted schema. -/
def assemble (budgeted : BudgetedParts) : PlanDraftData :=
  let parts := budgeted.validated
  let schema := parts.schema
  let (messages, conversions) := assembleMessages schema.messages []
  { schemaVersion := schema.schemaVersion
    protocolId := schema.protocolId
    protocolVersion := schema.protocolVersion
    resourceProfile := schema.resourceProfile
    resourceRequirements := parts.requirements
    framingProfiles := schema.framingProfiles.map assembleFraming
    pipelines := (schema.pipelines.zip parts.resolvedPipelines).map fun (pipeline, resolved) =>
      assemblePipeline pipeline resolved
    messages := messages
    conversions := conversions
    approvedPlanMemory := budgeted.planMemory
    planMemoryLimitBytes := budgeted.planMemoryLimitBytes }

end ProtocolAdapter.ConfigCompiler
