/-
This file models the account of plan memory. Every frozen array is one request; a
request aligns the running total, adds its payload to the total and to its category,
and fails when a sum leaves the limit. The builder accounts the prepared plan twice,
first as an estimate and then in the order in which it freezes the arrays, so both
orders are written out here. The sizes and alignments of the element types are those
of the compilation target.
-/

import ProtocolAdapter.Foundation.Validation
import ProtocolAdapter.Plan.Bundle

namespace ProtocolAdapter

open Foundation

/-! ### The compilation target -/

/-- The size and the alignment of a type. -/
structure TypeLayout where
  size : Nat
  alignment : Nat

/-- One byte, the layout of `char` and `std::uint8_t`. -/
def byteLayout : TypeLayout := ⟨1, 1⟩

/-- Eight bytes, the layout of `std::size_t` and `std::uint64_t` on 64-bit targets. -/
def wordLayout : TypeLayout := ⟨8, 8⟩

/-- The layouts of the frozen record types, the strictest alignment of the target, and the
size of the value type enumeration. -/
structure TargetLayout where
  maxAlignment : Nat
  valueTypeSize : Nat
  planBundle : TypeLayout
  framingPlan : TypeLayout
  pipelinePlan : TypeLayout
  messagePlan : TypeLayout
  matcherPlan : TypeLayout
  bitContainerPlan : TypeLayout
  fieldPlan : TypeLayout
  enumEntryPlan : TypeLayout
  linearConversion : TypeLayout
  messageExecution : TypeLayout
  fixedByteExecution : TypeLayout
  bitContainerExecution : TypeLayout
  fieldExecution : TypeLayout
  enumLookupExecution : TypeLayout
  textSegmentExecution : TypeLayout
  pipelineExecution : TypeLayout
  candidateGroupExecution : TypeLayout

/-! ### One request -/

/-- An array of elements of one type, accounted under one category. -/
structure ArrayRequest where
  count : Nat
  element : TypeLayout
  category : PlanMemoryCategory

/-- Whether a value is a power of two. -/
def isPowerOfTwo (value : Nat) : Bool := value ≠ 0 && (value &&& (value - 1)) = 0

/-- The sum of two sizes, when `std::size_t` can hold it. -/
def addChecked (value total : Nat) : Option Nat :=
  if value > maxUint64 - total then none else some (total + value)

/-- The bytes accounted under a category. -/
def PlanMemoryReport.categoryBytes (report : PlanMemoryReport) : PlanMemoryCategory → Nat
  | .object => report.objectBytes
  | .string => report.stringBytes
  | .matcher => report.matcherBytes
  | .metadataContainer => report.metadataContainerBytes
  | .executionDescriptor => report.executionDescriptorBytes
  | .index => report.indexBytes
  | .extension => report.extensionBytes

/-- The report with other bytes under a category. -/
def PlanMemoryReport.setCategoryBytes (report : PlanMemoryReport) (bytes : Nat) :
    PlanMemoryCategory → PlanMemoryReport
  | .object => { report with objectBytes := bytes }
  | .string => { report with stringBytes := bytes }
  | .matcher => { report with matcherBytes := bytes }
  | .metadataContainer => { report with metadataContainerBytes := bytes }
  | .executionDescriptor => { report with executionDescriptorBytes := bytes }
  | .index => { report with indexBytes := bytes }
  | .extension => { report with extensionBytes := bytes }

/-- Accounts one allocation after padding the total to its alignment. An empty payload
allocates nothing. -/
def addAllocation (target : TargetLayout) (limitBytes payloadBytes alignment : Nat)
    (category : PlanMemoryCategory) (report : PlanMemoryReport) : Option PlanMemoryReport :=
  if payloadBytes = 0 then some report
  else if !isPowerOfTwo alignment || alignment > target.maxAlignment then none
  else
    let remainder := report.accountedTotalBytes &&& (alignment - 1)
    let padding := if remainder = 0 then 0 else alignment - remainder
    do
      let padded ← addChecked padding report.accountedTotalBytes
      let total ← addChecked payloadBytes padded
      failIf (total > limitBytes)
      let categoryBytes ← addChecked payloadBytes (report.categoryBytes category)
      let alignmentBytes ← addChecked padding report.alignmentBytes
      let allocationCount ← addChecked 1 report.allocationCount
      some { report.setCategoryBytes categoryBytes category with
        alignmentBytes := alignmentBytes
        allocationCount := allocationCount
        upstreamAllocationCount := 1
        accountedTotalBytes := total }

/-- Accounts one array, when `std::size_t` can hold the size of its payload. -/
def addArray (target : TargetLayout) (limitBytes : Nat) (report : PlanMemoryReport)
    (request : ArrayRequest) : Option PlanMemoryReport :=
  if request.count ≠ 0 ∧ request.element.size > maxUint64 / request.count then none
  else
    addAllocation target limitBytes (request.element.size * request.count)
      request.element.alignment request.category report

/-- Accounts a sequence of arrays from an empty report on. -/
def accountArrays (target : TargetLayout) (limitBytes : Nat) (requests : List ArrayRequest) :
    Option PlanMemoryReport :=
  requests.foldlM (addArray target limitBytes) {}

/-! ### The requests of a plan -/

/-- A string keeps its UTF-8 bytes, without a terminator. -/
def stringRequest (value : String) : ArrayRequest := ⟨value.utf8ByteSize, byteLayout, .string⟩

/-- The arrays of the configuration facts, after the plan object itself. -/
def draftRequests (target : TargetLayout) (draft : PlanDraftData) : List ArrayRequest :=
  [⟨1, target.planBundle, .object⟩, stringRequest draft.schemaVersion,
    stringRequest draft.protocolId, stringRequest draft.protocolVersion,
    ⟨draft.framingProfiles.length, target.framingPlan, .metadataContainer⟩] ++
  draft.framingProfiles.flatMap (fun framing =>
    [stringRequest framing.id, ⟨framing.syncBytes.length, byteLayout, .extension⟩,
      ⟨framing.syncBytes.length, wordLayout, .extension⟩]) ++
  ⟨draft.pipelines.length, target.pipelinePlan, .metadataContainer⟩ ::
  draft.pipelines.flatMap (fun pipeline =>
    [stringRequest pipeline.id, stringRequest pipeline.directionId,
      ⟨pipeline.messageIndices.length, wordLayout, .metadataContainer⟩]) ++
  ⟨draft.messages.length, target.messagePlan, .metadataContainer⟩ ::
  draft.messages.flatMap (fun message =>
    [stringRequest message.id, stringRequest message.directionId,
      ⟨message.matchers.length, target.matcherPlan, .metadataContainer⟩] ++
    message.matchers.map (fun matcher => ⟨matcher.bytes.length, byteLayout, .matcher⟩) ++
    ⟨message.bitContainers.length, target.bitContainerPlan, .metadataContainer⟩ ::
    message.bitContainers.map (fun container => stringRequest container.id) ++
    ⟨message.fields.length, target.fieldPlan, .metadataContainer⟩ ::
    message.fields.flatMap (fun field =>
      [stringRequest field.id,
        ⟨field.enumEntries.length, target.enumEntryPlan, .metadataContainer⟩] ++
      field.enumEntries.map (fun entry => stringRequest entry.id))) ++
  [⟨draft.conversions.length, target.linearConversion, .extension⟩]

/-- The arrays of a text action. -/
def textActionRequests (target : TargetLayout) : Option TextActionPlan → List ArrayRequest
  | none => []
  | some action =>
    ⟨action.segments.length, target.textSegmentExecution, .executionDescriptor⟩ ::
    action.segments.flatMap (fun segment =>
      [⟨segment.literal.length, byteLayout, .matcher⟩,
        ⟨segment.prefixTable.length, wordLayout, .matcher⟩])

/-- The arrays of the message execution descriptors. -/
def messageExecutionRequests (target : TargetLayout)
    (messages : List PreparedMessageExecutionPlan) : List ArrayRequest :=
  ⟨messages.length, target.messageExecution, .executionDescriptor⟩ ::
  messages.flatMap (fun message =>
    [⟨message.fixedBytes.length, target.fixedByteExecution, .matcher⟩,
      ⟨message.bitContainers.length, target.bitContainerExecution, .executionDescriptor⟩,
      ⟨message.fields.length, target.fieldExecution, .executionDescriptor⟩,
      ⟨message.enumRawValues.length, wordLayout, .index⟩,
      ⟨message.enumLookupEntries.length, target.enumLookupExecution, .index⟩] ++
    textActionRequests target message.textDecode ++ textActionRequests target message.textEncode)

/-- The arrays of the index lists of candidate groups. -/
def groupIndexRequests (pipeline : PreparedPipelineExecutionPlan) : List ArrayRequest :=
  pipeline.candidateGroups.map (fun group => ⟨group.messageIndices.length, wordLayout, .index⟩)

/-- The arrays of the pipeline execution descriptors in the order of the estimate. -/
def pipelineEstimateRequests (target : TargetLayout)
    (pipelines : List PreparedPipelineExecutionPlan) : List ArrayRequest :=
  ⟨pipelines.length, target.pipelineExecution, .executionDescriptor⟩ ::
  pipelines.flatMap (fun pipeline =>
    [⟨pipeline.allowedMessageWords.length, wordLayout, .index⟩,
      ⟨pipeline.candidateGroups.length, target.candidateGroupExecution, .executionDescriptor⟩,
      ⟨pipeline.variableMessageIndices.length, wordLayout, .index⟩,
      ⟨pipeline.textMessageIndices.length, wordLayout, .index⟩] ++ groupIndexRequests pipeline)

/-- The arrays of the pipeline execution descriptors in the order they are frozen. -/
def pipelineFreezeRequests (target : TargetLayout)
    (pipelines : List PreparedPipelineExecutionPlan) : List ArrayRequest :=
  ⟨pipelines.length, target.pipelineExecution, .executionDescriptor⟩ ::
  pipelines.flatMap (fun pipeline =>
    [⟨pipeline.allowedMessageWords.length, wordLayout, .index⟩,
      ⟨pipeline.variableMessageIndices.length, wordLayout, .index⟩,
      ⟨pipeline.textMessageIndices.length, wordLayout, .index⟩,
      ⟨pipeline.candidateGroups.length, target.candidateGroupExecution, .executionDescriptor⟩] ++
    groupIndexRequests pipeline)

/-- The estimate the builder compares with the approved report. -/
def estimatePreparedPlanMemory (target : TargetLayout) (draft : PlanDraftData)
    (messages : List PreparedMessageExecutionPlan)
    (pipelines : List PreparedPipelineExecutionPlan) (limitBytes : Nat) :
    Option PlanMemoryReport :=
  accountArrays target limitBytes (draftRequests target draft ++
    messageExecutionRequests target messages ++ pipelineEstimateRequests target pipelines)

/-- The report of the arena after the plan is frozen into a block of the given size;
without it an allocation failed. -/
def freezeIntoArena (target : TargetLayout) (draft : PlanDraftData)
    (messages : List PreparedMessageExecutionPlan)
    (pipelines : List PreparedPipelineExecutionPlan) (capacityBytes : Nat) :
    Option PlanMemoryReport :=
  accountArrays target capacityBytes (draftRequests target draft ++
    messageExecutionRequests target messages ++ pipelineFreezeRequests target pipelines)

end ProtocolAdapter
