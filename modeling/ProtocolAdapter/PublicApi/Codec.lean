/-
This file models the public codec for complete records: how it is created from a compiled
protocol, its calls, the moves between codecs, and the views of the last decoded record. A
codec keeps the record of its last successful decode; a view names its codec and carries the
two counters it was taken at.
-/

import ProtocolAdapter.Codec.Decode
import ProtocolAdapter.Codec.Encode
import ProtocolAdapter.Description.Metadata
import ProtocolAdapter.PublicApi.Types

namespace ProtocolAdapter.PublicApi

open Foundation Description

open Codec (ExecutionWorkspace MutableByteBuffer decodeCompleteRecord encodeCompleteRecord)

/-! ### Translations -/

/-- The public status for a status of the codec core. -/
def mapStatus : Codec.CodecStatus → CodecStatus
  | .ok => .ok
  | .invalidArgument => .invalidArgument
  | .invalidPlan => .invalidCompiledProtocol
  | .workspacePlanMismatch => .invalidCompiledProtocol
  | .workspaceBusy => .workspaceBusy
  | .unknownMessage => .unknownMessage
  | .ambiguousMessage => .ambiguousMessage
  | .outputSlotsTooSmall => .outputSlotsTooSmall
  | .integrityFailed => .integrityFailed
  | .messageNotAllowed => .messageNotAllowed
  | .fieldReferenceMismatch => .fieldReferenceMismatch
  | .duplicateField => .duplicateField
  | .missingField => .missingField
  | .typeMismatch => .typeMismatch
  | .valueNotRepresentable => .valueNotRepresentable
  | .bytesLengthMismatch => .bytesLengthMismatch
  | .unknownEnumValue => .unknownEnumValue
  | .enumReferenceMismatch => .enumReferenceMismatch
  | .constantFieldOverride => .constantFieldOverride
  | .inputOutputOverlap => .inputOutputOverlap
  | .bufferTooSmall => .bufferTooSmall
  | .finalReviewFailed => .finalReviewFailed
  | .internalError => .internalError
  | .asciiCharacterNotAllowed => .asciiCharacterNotAllowed
  | .asciiTerminatorConflict => .asciiTerminatorConflict
  | .operationNotSupported => .operationNotSupported
  | .computedFieldOverride => .computedFieldOverride
  | .lengthMismatch => .lengthMismatch

/-- The public conversion error. -/
def mapConversionError : Codec.ConversionError → ConversionError
  | .none => .none
  | .decimalScaleOutOfRange => .decimalScaleOutOfRange
  | .rawNotIntegral => .rawNotIntegral
  | .rawOutOfRange => .rawOutOfRange
  | .logicalOutOfRange => .logicalOutOfRange

/-- The public kind of a decoded value. -/
def mapValueKind : Codec.LogicalValueKind → ValueKind
  | .uint64 => .uint64
  | .int64 => .int64
  | .bool => .bool
  | .bytes => .bytes
  | .enum => .enum
  | .decimal64 => .decimal64

/-- The flat index of a field of a message. -/
def resolveFlatFieldIndex (state : CompiledProtocolArtifacts) (messageIndex fieldIndex : Nat) :
    Option Nat := do
  let message ← state.description.messages[messageIndex]?
  if fieldIndex ≥ message.fieldCount ∨ message.fieldBegin > state.description.fields.length ∨
      fieldIndex > state.description.fields.length - message.fieldBegin then none
  else
    let flat := message.fieldBegin + fieldIndex
    if flat < state.description.fields.length then some flat else none

/-- The flat index of the enumeration entry a decoded value stands for. -/
def flatEnumIndex (state : CompiledProtocolArtifacts) (slot : Codec.DecodedFieldSlot) :
    Access (Option Nat) :=
  if slot.enumValue.known = false then some none
  else
    match resolveFlatFieldIndex state slot.field.messageIndex slot.field.fieldIndex with
    | none => some none
    | some fieldFlat => do
      let field ← state.description.fields[fieldFlat]?
      let entry := slot.enumValue.reference.entryIndex
      if entry ≥ field.enumCount ∨ field.enumBegin > state.description.enums.length ∨
          entry > state.description.enums.length - field.enumBegin then some none
      else
        let flat := field.enumBegin + entry
        some (if flat < state.description.enums.length then some flat else none)

/-- The value of the codec core for a public value. -/
def mapValue (plan : PlanBundle) (source : EncodeValue) : Codec.EncodeFieldValue :=
  let target : Codec.EncodeFieldValue :=
    { field := ⟨some plan.address, source.field.messageIndex, source.field.fieldIndex⟩ }
  match source.kind with
  | .uint64 => { target with valueKind := .uint64, uint64Value := source.uint64Value }
  | .int64 => { target with valueKind := .int64, int64Value := source.int64Value }
  | .bool => { target with valueKind := .bool, boolValue := source.boolValue }
  | .bytes => { target with valueKind := .bytes, bytesValue := source.bytesValue }
  | .enum =>
    { target with
      valueKind := .enum
      enumValue := ⟨some plan.address, source.enum.messageIndex, source.enum.fieldIndex,
        source.enum.entryIndex⟩ }
  | .decimal64 => { target with valueKind := .decimal64, decimal64Value := source.decimal64Value }

/-! ### The codec -/

/-- Adds one to a 64-bit counter. -/
def increment (counter : Nat) : Nat := (counter + 1) % 2 ^ 64

/-- The execution state of a codec. -/
structure Impl where
  state : CompiledProtocolArtifacts
  workspace : ExecutionWorkspace
  decodedSlots : Codec.FieldSlots
  mappedValues : Codec.EncodeValues
  report : ExecutionMemoryReport
  generation : Nat := 0
  published : Bool := false
  publishedMessageIndex : Nat := invalidIndex
  publishedFieldCount : Nat := 0

/-- A codec. It has no execution state after it was moved from. -/
structure CompleteRecordCodec where
  impl : Option Impl := none
  viewEpoch : Nat := 1

/-- Whether the record of a generation is published. -/
def Impl.isPublished (impl : Impl) (generation : Nat) : Bool :=
  impl.published && impl.generation == generation

/-- Withdraws the last record, before a call. -/
def Impl.beginGuardedCall (impl : Impl) : Impl :=
  { impl with
    generation := increment impl.generation
    published := false
    publishedMessageIndex := invalidIndex
    publishedFieldCount := 0 }

/-- Invalidates the views of a codec. The epoch zero is skipped. -/
def CompleteRecordCodec.advanceViewEpoch (codec : CompleteRecordCodec) : CompleteRecordCodec :=
  let epoch := increment codec.viewEpoch
  { codec with viewEpoch := if epoch = 0 then increment epoch else epoch }

/-- Whether a message belongs to a pipeline. -/
def isAssociated (state : CompiledProtocolArtifacts) (pipelineIndex messageIndex : Nat) : Bool :=
  match state.plan.pipelines[pipelineIndex]?, state.plan.pipelineExecutionPlans[pipelineIndex]? with
  | some pipeline, some execution =>
    messageIndex < state.plan.messageExecutionPlans.length &&
      messageIndex < state.description.messages.length &&
      pipeline.messageIndices.contains messageIndex &&
      (match execution.allowedMessageWords[messageIndex / 64]? with
      | none => false
      | some word => word.testBit (messageIndex % 64))
  | _, _ => false

/-- Decodes a record with the codec at the place `self`. A call that finds the codec in use
by another thread is refused. -/
def CompleteRecordCodec.decode (codec : CompleteRecordCodec) (self : Nat) (contended : Bool)
    (pipelineIndex : Nat) (frame : ByteView) : Access (DecodeResult × CompleteRecordCodec) :=
  match codec.impl with
  | none => some ({ status := .invalidCompiledProtocol }, codec)
  | some impl =>
    if contended then some ({ status := .workspaceBusy }, codec)
    else do
      let impl := impl.beginGuardedCall
      let call ← decodeCompleteRecord impl.state.plan impl.workspace pipelineIndex frame
        impl.decodedSlots
      let decoded := call.result
      let impl := { impl with
        workspace := call.workspace
        decodedSlots := { impl.decodedSlots with slots := call.slots } }
      let codec := { codec with impl := some impl }
      let result : DecodeResult :=
        { status := mapStatus decoded.status
          requiredFieldCount := decoded.requiredFieldCount
          conversionError := mapConversionError decoded.conversionError
          outputTainted := decoded.tainted }
      let matchedMessageIndex :=
        if decoded.messageIndex ≠ invalidIndex then some decoded.messageIndex else none
      if decoded.messageIndex ≠ invalidIndex ∧
          isAssociated impl.state pipelineIndex decoded.messageIndex = false then
        some ({ result with status := .internalError }, codec)
      else if decoded.status = .ok ∧ matchedMessageIndex = none then
        some ({ result with
          status := .internalError, matchedMessageIndex := matchedMessageIndex }, codec)
      else
        let result := { result with
          matchedMessageIndex := matchedMessageIndex
          failedFieldFlatIndex :=
            if decoded.failedFieldIndex ≠ invalidIndex then
              resolveFlatFieldIndex impl.state decoded.messageIndex decoded.failedFieldIndex
            else none }
        if decoded.status = .ok then
          some ({ result with record := ⟨some self, codec.viewEpoch, impl.generation⟩ },
            { codec with
              impl := some { impl with
                published := true
                publishedMessageIndex := decoded.messageIndex
                publishedFieldCount := decoded.fieldCount } })
        else some (result, codec)

/-- What an encode leaves: its result, the codec, and the contents of the output buffer. -/
structure EncodeEnd where
  result : EncodeResult
  codec : CompleteRecordCodec
  output : List UInt8

/-- Encodes a record. -/
def CompleteRecordCodec.encode (codec : CompleteRecordCodec) (contended : Bool)
    (pipelineIndex messageIndex : Nat) (values : EncodeValues) (output : MutableByteBuffer) :
    Access EncodeEnd :=
  match codec.impl with
  | none => some ⟨{ status := .invalidCompiledProtocol }, codec, output.contents⟩
  | some impl =>
    if contended then some ⟨{ status := .workspaceBusy }, codec, output.contents⟩
    else
      let impl := impl.beginGuardedCall
      let started := { codec with impl := some impl }
      if values.values.length > impl.mappedValues.values.length then
        some ⟨{ status := .inputValuesTooMany }, started, output.contents⟩
      else if values.data = none ∧ values.values.length ≠ 0 then
        some ⟨{ status := .invalidArgument }, started, output.contents⟩
      else do
        let mapped := values.values.map (mapValue impl.state.plan)
        let call ← encodeCompleteRecord impl.state.plan impl.workspace pipelineIndex messageIndex
          { impl.mappedValues with values := mapped } output
        let encoded := call.result
        let mappedValues := { impl.mappedValues with
          values := mapped ++ impl.mappedValues.values.drop values.values.length }
        let result : EncodeResult :=
          { status := mapStatus encoded.status
            bytesWritten := encoded.bytesWritten
            requiredSize := encoded.requiredSize
            failedValueIndex :=
              if encoded.failedValueIndex ≠ invalidIndex then some encoded.failedValueIndex
              else none
            failedFieldFlatIndex :=
              if encoded.failedFieldIndex ≠ invalidIndex then
                resolveFlatFieldIndex impl.state messageIndex encoded.failedFieldIndex
              else none
            conversionError := mapConversionError encoded.conversionError }
        some ⟨result,
          { codec with
            impl := some { impl with workspace := call.workspace, mappedValues := mappedValues } },
          call.output⟩

/-! ### Creation -/

/-- The sizes of the objects of a codec on the target. -/
structure CodecSizes where
  completeRecordCodec : Nat
  impl : Nat
  compiledState : Nat

/-- What the allocator answers while a codec is created: where its slots and its mapped
values lie, or how it fails. -/
inductive CodecAllocation where
  | allocated (slots values : Nat)
  | badAlloc
  | threw

/-- The result of a creation. -/
structure CompleteRecordCodecCreateResult where
  status : CodecStatus := .invalidArgument
  codec : Option CompleteRecordCodec := none
  memory : ExecutionMemoryReport := {}

/-- The number of allocations of the workspace of the codec core. -/
def coreWorkspaceAllocationCount (layout : ExecutionResourceLayout) : Nat :=
  (if layout.encodeValueIndexCount ≠ 0 then 1 else 0) +
    (if layout.encodePresenceWordCount ≠ 0 then 1 else 0) +
    (if layout.bitContainerValueCount ≠ 0 then 1 else 0) +
    (if layout.conversionValueCount ≠ 0 then 6 else 0)

/-- Adds sizes to a total as long as it can be represented. -/
def addAll : Nat → List Nat → Nat × Bool
  | total, [] => (total, true)
  | total, size :: rest =>
    match checkedAdd total size with
    | none => (total, false)
    | some total => addAll total rest

/-- The slots of an array of a length; an empty array has no address. -/
def arrayAddress (address length : Nat) : Option Nat := if length = 0 then none else some address

/-- Creates a codec for a compiled protocol. -/
def createCompleteRecordCodec (sizes : CodecSizes) (allocation : CodecAllocation)
    (compiled : Option CompiledProtocolArtifacts) (options : CompleteRecordCodecOptions) :
    CompleteRecordCodecCreateResult :=
  match compiled with
  | none => { status := .invalidCompiledProtocol }
  | some state =>
    let layout := state.plan.executionResourceLayout
    let decodedCapacity :=
      if options.decodedFieldCapacity = 0 then layout.maxFieldsPerMessage
      else options.decodedFieldCapacity
    if decodedCapacity > layout.maxFieldsPerMessage then { status := .invalidArgument }
    else
      match checkedMultiply decodedCapacity Codec.sizeofDecodedFieldSlot,
        checkedMultiply layout.maxFieldsPerMessage Codec.sizeofEncodeFieldValue with
      | some decodedSlotBytes, some encodeMappingBytes =>
        let facadeBytes := sizes.completeRecordCodec + sizes.impl
        let (total, represented) :=
          addAll layout.estimatedWorkspaceBytes [decodedSlotBytes, encodeMappingBytes, facadeBytes]
        let report : ExecutionMemoryReport :=
          { coreWorkspaceBytes := layout.estimatedWorkspaceBytes
            decodedSlotBytes := decodedSlotBytes
            encodeMappingBytes := encodeMappingBytes
            facadeBytes := facadeBytes
            codecAccountedTotalBytes := total
            retainedCompiledStateFacadeBytes := sizes.compiledState }
        if represented = false ∨ total > options.executionMemoryLimitBytes then
          { status := .resourceLimitExceeded, memory := report }
        else
          let report := { report with
            allocationCount := 2 + coreWorkspaceAllocationCount layout +
              (if decodedCapacity ≠ 0 then 1 else 0) +
              (if layout.maxFieldsPerMessage ≠ 0 then 1 else 0) }
          match allocation with
          | .badAlloc => { status := .allocationFailed, memory := report }
          | .threw => { status := .internalError, memory := report }
          | .allocated slots values =>
            { status := .ok
              codec := some
                { impl := some
                    { state := state
                      workspace := .fresh state.plan
                      decodedSlots :=
                        ⟨arrayAddress slots decodedCapacity, List.replicate decodedCapacity {}⟩
                      mappedValues :=
                        ⟨arrayAddress values layout.maxFieldsPerMessage,
                          List.replicate layout.maxFieldsPerMessage {}⟩
                      report := report } }
              memory := report }
      | _, _ => { status := .resourceLimitExceeded }

end ProtocolAdapter.PublicApi
