/-
This file models what a compiled protocol tells about its pipelines: the messages of a pipeline,
which of them can be decoded and encoded, and how the pipeline cuts its input into records.
-/

import ProtocolAdapter.PublicApi.Codec

namespace ProtocolAdapter.PublicApi

open Description

/-! ### Messages of a pipeline -/

/-- Whether the encoded size of a message is its only size or the largest. -/
inductive EncodeOutputSizeKind where
  | notAvailable
  | exact
  | upperBound
  deriving DecidableEq

/-- What a pipeline can do with a message. -/
structure MessageExecutionDescription where
  pipelineIndex : Nat := 0
  messageIndex : Nat := 0
  decodeAvailable : Bool := false
  encodeAvailable : Bool := false
  encodeOutputSize : Nat := 0
  encodeOutputSizeKind : EncodeOutputSizeKind := .notAvailable
  deriving DecidableEq

/-- Whether the word table of a pipeline has the bit of a message. -/
def isAllowedMessage (pipeline : PipelineExecutionPlan) (messageIndex : Nat) : Bool :=
  match pipeline.allowedMessageWords[messageIndex / 64]? with
  | none => false
  | some word => word.testBit (messageIndex % 64)

/-- Whether a decode on the pipeline considers a message. -/
def isDecodeCandidate (pipeline : PipelineExecutionPlan) (messageIndex : Nat) : Bool :=
  (pipeline.candidateGroups.any fun group => group.messageIndices.contains messageIndex) ||
    pipeline.variableMessageIndices.contains messageIndex ||
    pipeline.textMessageIndices.contains messageIndex

/-- The number of messages of a pipeline, when there is one. -/
def pipelineMessageCount (state : CompiledProtocolArtifacts) (pipelineIndex : Nat) : Option Nat :=
  if pipelineIndex ≥ state.description.pipelines.length then none
  else state.plan.pipelines[pipelineIndex]?.map fun pipeline => pipeline.messageIndices.length

/-- The index of a message of a pipeline. -/
def pipelineMessageIndex (state : CompiledProtocolArtifacts) (pipelineIndex association : Nat) :
    Option Nat := do
  let pipeline ← state.plan.pipelines[pipelineIndex]?
  let messageIndex ← pipeline.messageIndices[association]?
  if messageIndex ≥ state.plan.messages.length then none else some messageIndex

/-- The size of the records of a message that can be encoded. -/
def encodeOutput (message : MessageExecutionPlan) : Bool × Nat × EncodeOutputSizeKind :=
  let kind (minimum maximum : Nat) : EncodeOutputSizeKind :=
    if minimum = maximum then .exact else .upperBound
  if message.textDecode.isSome || message.textEncode.isSome then
    match message.textEncode with
    | none => (false, 0, .notAvailable)
    | some action =>
      (true, action.maxRecordLength, kind action.minRecordLength action.maxRecordLength)
  else
    match message.boundedPayload with
    | some payload =>
      (true, payload.maxFrameLength, kind payload.minFrameLength payload.maxFrameLength)
    | none => (true, message.frameSize, .exact)

/-- What a pipeline can do with one of its messages. -/
def pipelineMessageExecution (state : CompiledProtocolArtifacts)
    (pipelineIndex messageIndex : Nat) : Option MessageExecutionDescription := do
  let pipeline ← state.plan.pipelines[pipelineIndex]?
  let execution ← state.plan.pipelineExecutionPlans[pipelineIndex]?
  let message ← state.plan.messageExecutionPlans[messageIndex]?
  if pipeline.messageIndices.contains messageIndex = false ∨
      isAllowedMessage execution messageIndex = false then none
  else
    let (available, size, kind) := encodeOutput message
    some
      { pipelineIndex := pipelineIndex
        messageIndex := messageIndex
        decodeAvailable := isDecodeCandidate execution messageIndex
        encodeAvailable := available
        encodeOutputSize := size
        encodeOutputSizeKind := kind }

/-! ### The input of a pipeline -/

/-- The input a pipeline takes. -/
inductive PipelineInputKind where
  | completeRecord
  | streamChunk
  deriving DecidableEq

/-- How a pipeline cuts its input. -/
inductive PipelineFramingStrategy where
  | completeRecord
  | fixedLength
  | syncFixedLength
  | syncLengthField
  | asciiCrlf
  deriving DecidableEq

inductive PipelineFramingQueryStatus where
  | ok
  | invalidCompiledProtocol
  | pipelineOutOfRange
  | internalContractViolation
  deriving DecidableEq

structure PipelineFramingDescription where
  pipelineIndex : Nat := 0
  inputKind : PipelineInputKind := .completeRecord
  strategy : PipelineFramingStrategy := .completeRecord
  maximumCandidateFrameBytes : Option Nat := none
  deriving DecidableEq

/-- The strategy of a stream profile, and the size of its largest frame. -/
def streamStrategy (profile : FrozenFramingPlan) : Option (PipelineFramingStrategy × Nat) :=
  match profile.strategy with
  | .fixedLength => some (.fixedLength, profile.frameLengthBytes)
  | .syncFixedLength => some (.syncFixedLength, profile.frameLengthBytes)
  | .syncLengthField => some (.syncLengthField, profile.maximumFrameLength)
  | .asciiCrlf => some (.asciiCrlf, profile.maximumFrameLength)
  | .completeRecord => none

/-- Describes how a pipeline cuts its input. -/
def queryPipelineFramingDescription (state : CompiledProtocolArtifacts) (pipelineIndex : Nat) :
    PipelineFramingQueryStatus × Option PipelineFramingDescription :=
  match state.plan.pipelines[pipelineIndex]? with
  | none => (.pipelineOutOfRange, none)
  | some pipeline =>
    match state.plan.framingProfiles[pipeline.framingProfileIndex]? with
    | none => (.internalContractViolation, none)
    | some profile =>
      match profile.inputKind with
      | .completeRecord =>
        if profile.strategy ≠ .completeRecord then (.internalContractViolation, none)
        else (.ok, some { pipelineIndex := pipelineIndex })
      | .streamChunk =>
        match streamStrategy profile with
        | none => (.internalContractViolation, none)
        | some (strategy, maximum) =>
          if maximum = 0 ∨ maximum > maxStreamFrameBytesHardLimit ∨ maximum > maxUint64 then
            (.internalContractViolation, none)
          else
            (.ok, some
              { pipelineIndex := pipelineIndex
                inputKind := .streamChunk
                strategy := strategy
                maximumCandidateFrameBytes := some maximum })

end ProtocolAdapter.PublicApi
