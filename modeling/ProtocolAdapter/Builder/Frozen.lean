/-
This file inverts the builder: it states everything a successful freeze has checked
and where each part of the frozen plan comes from, so that no later proof unfolds the
builder as a whole.
-/

import ProtocolAdapter.Builder.Freeze

namespace ProtocolAdapter

open Foundation

/-- A plan frozen from a draft: the checks that passed and the origin of each part. -/
structure FrozenFrom (target : TargetLayout) (draft : PlanDraftData) (plan : PlanBundle) :
    Prop where
  metadata : checkMetadata draft = .ok ()
  requirements : checkRequirements (getResourceProfileLimits draft.resourceProfile) draft =
    .ok plan.resourceRequirements
  prepared : ∃ state : MessageLoopState,
    prepareMessages (getResourceProfileLimits draft.resourceProfile) draft = .ok state ∧
      finishLayout target (getResourceProfileLimits draft.resourceProfile) draft.messages
        state.layout = .ok plan.executionResourceLayout ∧
      state.executions = plan.messageExecutionPlans
  indexed : preparePipelines draft plan.messageExecutionPlans draft.pipelines 0 [] =
    .ok plan.pipelineExecutionPlans
  schemaVersion : plan.schemaVersion = draft.schemaVersion
  resourceProfile : plan.resourceProfile = draft.resourceProfile
  framingProfiles : plan.framingProfiles = draft.framingProfiles
  pipelines : plan.pipelines = draft.pipelines
  messages : plan.messages = draft.messages.map freezeMessage
  conversions : plan.conversions = draft.conversions

/-- A successful freeze passed all checks. -/
theorem frozenFrom_of_freezeImpl {target : TargetLayout} {draft : PlanDraftData}
    {storage : Option Nat} {plan : PlanBundle}
    (frozen : freezeImpl target draft storage = .ok plan) : FrozenFrom target draft plan := by
  simp only [freezeImpl, bind_eq_ok, pure_eq_ok] at frozen
  obtain ⟨_, metadata, requirements, checked, prepared, messages, layout, finished, pipelines,
    indexed, estimate, -, ⟨address, report⟩, -, rfl⟩ := frozen
  exact ⟨metadata, checked, ⟨prepared, messages, finished, rfl⟩, indexed, rfl, rfl, rfl, rfl, rfl,
    rfl⟩

/-- The schema version of a frozen plan is supported. -/
theorem FrozenFrom.supported {target : TargetLayout} {draft : PlanDraftData} {plan : PlanBundle}
    (frozen : FrozenFrom target draft plan) : plan.schemaVersion ∈ supportedSchemaVersions := by
  have metadata := frozen.metadata
  simp only [checkMetadata, rejectIf_eq_ok, not_or, not_not] at metadata
  rw [frozen.schemaVersion]
  exact metadata.1

/-- The parts of the requirements check. -/
theorem FrozenFrom.requirements_parts {target : TargetLayout} {draft : PlanDraftData}
    {plan : PlanBundle} (frozen : FrozenFrom target draft plan) :
    checkConversions (getResourceProfileLimits draft.resourceProfile) draft = .ok () ∧
      ∃ start counted result, draft.messages.zipIdx.foldlM
          (countMessage (getResourceProfileLimits draft.resourceProfile)) start = .ok counted ∧
        checkFramings draft.schemaVersion (getResourceProfileLimits draft.resourceProfile)
          draft.framingProfiles 0 [] counted = .ok result := by
  have checked := frozen.requirements
  simp only [checkRequirements, bind_eq_ok] at checked
  obtain ⟨_, conversions, _, -, counted, counting, result, framings, -⟩ := checked
  exact ⟨conversions, _, counted, result, counting, framings⟩

/-- Every stream profile of a frozen plan is valid. -/
theorem FrozenFrom.streamValid {target : TargetLayout} {draft : PlanDraftData}
    {plan : PlanBundle} (frozen : FrozenFrom target draft plan) {framing : FrozenFramingPlan}
    (member : framing ∈ plan.framingProfiles) (kind : framing.inputKind = .streamChunk) :
    framing.StreamValid := by
  obtain ⟨-, _, _, _, -, framings⟩ := frozen.requirements_parts
  rw [frozen.framingProfiles] at member
  exact streamValid_of_checkFramings _ _ _ _ _ framings framing member kind

/-! ### A draft that freezes -/

/-- The type layouts of a 64-bit target. -/
def sampleTarget : TargetLayout where
  maxAlignment := 16
  valueTypeSize := 4
  planBundle := ⟨432, 8⟩
  framingPlan := ⟨136, 8⟩
  pipelinePlan := ⟨56, 8⟩
  messagePlan := ⟨320, 8⟩
  matcherPlan := ⟨48, 8⟩
  bitContainerPlan := ⟨64, 8⟩
  fieldPlan := ⟨176, 8⟩
  enumEntryPlan := ⟨24, 8⟩
  linearConversion := ⟨144, 8⟩
  messageExecution := ⟨512, 8⟩
  fixedByteExecution := ⟨16, 8⟩
  bitContainerExecution := ⟨32, 8⟩
  fieldExecution := ⟨200, 8⟩
  enumLookupExecution := ⟨16, 8⟩
  textSegmentExecution := ⟨48, 8⟩
  pipelineExecution := ⟨80, 8⟩
  candidateGroupExecution := ⟨24, 8⟩

/-- A message with a sync pattern, its own length, two bit members that share a byte with
a base bit, a signed integer, a payload of one to three bytes and a checksum. -/
def sampleMessage : MessagePlan where
  id := "report"
  directionId := "up"
  frameLengthBytes := 10
  matchers := [{ kind := .fixedBytes, byteOffset := 0, bytes := [0xAA, 0x55] }]
  bitContainers := [{ id := "flags", byteOffset := 3, byteWidth := 1, baseValue := 0x80 }]
  integrity := some { rangeOffset := 2, rangeEndsAtPayload := true, storageAtPayloadEnd := true }
  boundedPayload := some
    { payloadFieldIndex := 4
      headerLength := 6
      minPayloadLength := 1
      maxPayloadLength := 3
      trailerLength := 1
      minFrameLength := 8
      maxFrameLength := 10 }
  computedLength := some
    { fieldIndex := 0, storageOffset := 2, storageWidth := 1, expectedValue := 10 }
  fields := [
    { id := "size", byteOffset := 2, byteWidth := 1, encodeSource := .computed },
    { id := "mode", wireCodec := .bitfield, bitContainerIndex := 0, bitWidth := 4 },
    { id := "version", wireCodec := .bitfield, bitContainerIndex := 0, bitOffset := 4
      bitWidth := 3, encodeSource := .constant, constantValue := some 5 },
    { id := "level", valueType := .int64, byteOffset := 4, byteWidth := 2, byteOrder := .big },
    { id := "body", valueType := .bytes, wireCodec := .bytes, byteOffset := 6, byteWidth := 3 }]

/-- A package with that message in a stream whose frames state their length. -/
def sampleDraft : PlanDraftData where
  schemaVersion := "0.9"
  protocolId := "sample"
  protocolVersion := "1"
  resourceProfile := .constrained
  resourceRequirements :=
    { maxFrameBytes := 10
      framingProfileCount := 1
      pipelineCount := 1
      messageCount := 1
      totalFieldCount := 5
      totalMatcherCount := 1
      totalBitContainerCount := 1
      totalIntegrityRuleCount := 1
      totalComputedLengthCount := 1
      maxStreamFrameBytes := 16
      maxSyncBytes := 2
      maxFramingBufferBytes := 16 }
  framingProfiles := [
    { id := "link"
      inputKind := .streamChunk
      strategy := .syncLengthField
      syncBytes := [0xAA, 0x55]
      syncPrefixTable := [0, 0]
      lengthFieldOffset := 2
      lengthFieldWidth := 1
      minimumFrameLength := 3
      maximumFrameLength := 16 }]
  pipelines := [{ id := "main", directionId := "up", messageIndices := [0] }]
  messages := [sampleMessage]
  approvedPlanMemory :=
    { objectBytes := 432
      stringBytes := 57
      matcherBytes := 34
      metadataContainerBytes := 1512
      executionDescriptorBytes := 1624
      indexBytes := 16
      extensionBytes := 18
      alignmentBytes := 19
      allocationCount := 32
      upstreamAllocationCount := 1
      accountedTotalBytes := 3712 }

/-- The capability for that package. -/
def sampleBudgeted : BudgetedPlanDraft := ⟨sampleDraft, by decide⟩

/-- The description of that message for the codec. -/
def sampleExecution : MessageExecutionPlan where
  frameSize := 10
  requiredInputCount := 3
  integrity := sampleMessage.integrity
  boundedPayload := sampleMessage.boundedPayload
  computedLength := sampleMessage.computedLength
  fixedBytes := [⟨0, 0xAA⟩, ⟨1, 0x55⟩]
  bitContainers := [{ offset := 3, width := 1, baseValue := 0x80 }]
  fields := [
    { offset := 2, width := 1, inputOrdinal := invalidIndex, encodeSource := .computed },
    { offset := 3, width := 1, inputOrdinal := 0, bitContainerIndex := 0, bitMask := 0x0F
      bitWidth := 4 },
    { offset := 3, width := 1, inputOrdinal := invalidIndex, encodeSource := .constant
      hasConstant := true, constantValue := 5, bitContainerIndex := 0, bitMask := 0x70
      bitShift := 4, bitWidth := 3 },
    { offset := 4, width := 2, inputOrdinal := 1, valueType := .int64, byteOrder := .big },
    { offset := 6, width := 3, inputOrdinal := 2, valueType := .bytes }]

/-- The plan frozen from that package. -/
def samplePlan : PlanBundle where
  address := 4096
  schemaVersion := "0.9"
  protocolId := "sample"
  protocolVersion := "1"
  resourceProfile := .constrained
  resourceRequirements := sampleDraft.resourceRequirements
  framingProfiles := sampleDraft.framingProfiles
  pipelines := sampleDraft.pipelines
  messages := [freezeMessage sampleMessage]
  conversions := []
  executionResourceLayout :=
    { maxFieldsPerMessage := 5
      maxInputFieldsPerMessage := 3
      encodeValueIndexCount := 3
      encodePresenceWordCount := 1
      bitContainerValueCount := 1
      estimatedWorkspaceBytes := 40 }
  messageExecutionPlans := [sampleExecution]
  pipelineExecutionPlans := [{ allowedMessageWords := [1], variableMessageIndices := [0] }]
  memoryReport := sampleDraft.approvedPlanMemory

theorem sampleBudgeted_freezes :
    freeze sampleTarget sampleBudgeted (some 4096) = .ok samplePlan := by
  rfl

/-! ### Two messages -/

/-- A reading in tenths. -/
def tenths : LinearConversionDescriptor where
  rawValueType := .int64
  scaleNumerator := 1
  scaleDenominator := 10
  decimalPlaces := 1
  scaleCoefficient := { words := #v[1, 0, 0, 0, 0, 0, 0, 0] }

/-- A message whose first byte is fixed and an input at once, with an integer. -/
def pairMessage (id : String) (tag : UInt8) (width conversionIndex : Nat) : MessagePlan where
  id := id
  directionId := "up"
  frameLengthBytes := 1 + width
  matchers := [{ kind := .fixedBytes, byteOffset := 0, bytes := [tag] }]
  fields := [
    { id := "tag", byteOffset := 0, byteWidth := 1 },
    { id := "level", valueType := .int64, byteOffset := 1, byteWidth := width, byteOrder := .big
      conversionIndex := conversionIndex }]

/-- The pipeline of the two messages. -/
def pairPipeline : PipelinePlan where
  id := "main"
  directionId := "up"
  messageIndices := [0, 1]

/-- A package of two messages. -/
def pairDraft : PlanDraftData :=
  { sampleDraft with
    resourceRequirements :=
      { maxFrameBytes := 4
        framingProfileCount := 1
        pipelineCount := 1
        messageCount := 2
        totalFieldCount := 4
        totalMatcherCount := 2
        totalConversionCount := 1 }
    framingProfiles := [{ id := "record" }]
    pipelines := [pairPipeline]
    messages := [pairMessage "setting" 1 2 invalidIndex, pairMessage "reading" 2 3 0]
    conversions := [tenths]
    approvedPlanMemory :=
      { objectBytes := 432
        stringBytes := 56
        matcherBytes := 34
        metadataContainerBytes := 1648
        executionDescriptorBytes := 1952
        indexBytes := 24
        extensionBytes := 144
        alignmentBytes := 38
        allocationCount := 36
        upstreamAllocationCount := 1
        accountedTotalBytes := 4328 } }

/-- The capability for that package. -/
def pairBudgeted : BudgetedPlanDraft := ⟨pairDraft, by decide⟩

/-- The description of a message of the pair for the codec. -/
def pairExecution (tag : UInt8) (width conversionIndex : Nat) : MessageExecutionPlan where
  frameSize := 1 + width
  requiredInputCount := 2
  fixedBytes := [⟨0, tag⟩]
  fields := [
    { width := 1 },
    { offset := 1, width := width, inputOrdinal := 1, valueType := .int64, byteOrder := .big
      conversionIndex := conversionIndex
      conversionSlot := if conversionIndex = invalidIndex then invalidIndex else 0 }]

/-- The candidates of the pipeline. -/
def pairCandidates : PipelineExecutionPlan where
  allowedMessageWords := [3]
  candidateGroups := [⟨3, [0]⟩, ⟨4, [1]⟩]

/-- The plan frozen from that package. -/
def pairPlan : PlanBundle :=
  { samplePlan with
    resourceRequirements := pairDraft.resourceRequirements
    framingProfiles := pairDraft.framingProfiles
    pipelines := pairDraft.pipelines
    messages := pairDraft.messages.map freezeMessage
    conversions := [tenths]
    executionResourceLayout :=
      { maxFieldsPerMessage := 2
        maxInputFieldsPerMessage := 2
        encodeValueIndexCount := 2
        encodePresenceWordCount := 1
        conversionValueCount := 1
        estimatedWorkspaceBytes := 64 }
    messageExecutionPlans := [pairExecution 1 2 invalidIndex, pairExecution 2 3 0]
    pipelineExecutionPlans := [pairCandidates]
    memoryReport := pairDraft.approvedPlanMemory }

theorem pairBudgeted_freezes : freeze sampleTarget pairBudgeted (some 4096) = .ok pairPlan := by
  rfl

end ProtocolAdapter
