/-
This file models the builder as a whole: it checks a draft, prepares the execution
descriptors, bounds the memory of the workspace and of the plan, and freezes the
plan at the address of the storage block it was given.
-/

import ProtocolAdapter.Builder.Pipeline
import ProtocolAdapter.Builder.Requirements
import ProtocolAdapter.Plan.Memory

namespace ProtocolAdapter

open Foundation

/-! ### The workspace -/

/-- The bytes of one conversion slot of a workspace: two words for the value, a raw
integer with its type and its field, and the raw value of an encode. -/
def conversionWorkspaceBytesPerSlot (valueTypeSize : Nat) : Nat :=
  8 + 4 + 8 + valueTypeSize + 8 + 8

/-- The bytes a workspace needs for its slots, when `std::size_t` can hold them. -/
def workspaceBytes (valueTypeSize : Nat) (layout : ExecutionResourceLayout) : Option Nat := do
  let valueIndexBytes ← multiplySizeChecked layout.encodeValueIndexCount 8
  let presenceWordBytes ← multiplySizeChecked layout.encodePresenceWordCount 8
  let bitContainerBytes ← multiplySizeChecked layout.bitContainerValueCount 8
  let conversionBytes ← multiplySizeChecked layout.conversionValueCount
    (conversionWorkspaceBytesPerSlot valueTypeSize)
  let bytes ← addSizeChecked presenceWordBytes valueIndexBytes
  let bytes ← addSizeChecked bitContainerBytes bytes
  addSizeChecked conversionBytes bytes

/-- Completes the layout of the workspace and bounds its bytes by the session memory. -/
def finishLayout (target : TargetLayout) (limits : ResourceProfileLimits)
    (messages : List MessagePlan) (layout : ExecutionResourceLayout) :
    BuildResult ExecutionResourceLayout :=
  let layout := { layout with
    encodeValueIndexCount := layout.maxInputFieldsPerMessage
    encodePresenceWordCount := wordCount layout.maxInputFieldsPerMessage
    bitContainerValueCount := messages.foldl
      (fun count message => max count message.bitContainers.length) layout.bitContainerValueCount }
  match workspaceBytes target.valueTypeSize layout with
  | none => .error { code := .resourceLimitExceeded }
  | some bytes => do
    rejectIf (bytes > limits.maxSessionMemoryBytes) { code := .resourceLimitExceeded }
    pure { layout with estimatedWorkspaceBytes := bytes }

/-! ### Plan memory -/

/-- The limit on plan memory: the draft's own one when it states one, else the profile's,
and never more than the hard limit. -/
def effectivePlanMemoryLimit (limits : ResourceProfileLimits) (draft : PlanDraftData) : Nat :=
  if draft.planMemoryLimitBytes = 0 then
    min limits.maxPlanMemoryBytes v01MaxPlanMemoryHardLimit
  else min draft.planMemoryLimitBytes v01MaxPlanMemoryHardLimit

/-- The diagnostic of a rule about plan memory. -/
def memoryDiagnostic (code : PlanBuildError) (requiredBytes limitBytes : Nat)
    (draft : PlanDraftData) : PlanBuildDiagnostic :=
  { code := code
    requiredBytes := requiredBytes
    limitBytes := limitBytes
    resourceProfile := draft.resourceProfile }

/-- The rules for the estimate of plan memory: within the limit and as approved. -/
def checkEstimate (target : TargetLayout) (limits : ResourceProfileLimits) (draft : PlanDraftData)
    (messages : List PreparedMessageExecutionPlan)
    (pipelines : List PreparedPipelineExecutionPlan) : BuildResult PlanMemoryReport :=
  let limit := effectivePlanMemoryLimit limits draft
  match estimatePreparedPlanMemory target draft messages pipelines maxUint64 with
  | none => .error (memoryDiagnostic .planMemoryLimitExceeded maxUint64 limit draft)
  | some estimate => do
    rejectIf (estimate.accountedTotalBytes > limit)
      (memoryDiagnostic .planMemoryLimitExceeded estimate.accountedTotalBytes limit draft)
    rejectIf (draft.approvedPlanMemory ≠ estimate)
      (memoryDiagnostic .planMemoryEstimateMismatch estimate.accountedTotalBytes
        draft.approvedPlanMemory.accountedTotalBytes draft)
    pure estimate

/-- Freezes the arrays of the plan into a storage block of the estimated size. `storage` is
the address the allocation returned, absent when it failed. -/
def freezeStorage (target : TargetLayout) (draft : PlanDraftData)
    (messages : List PreparedMessageExecutionPlan)
    (pipelines : List PreparedPipelineExecutionPlan) (estimate : PlanMemoryReport)
    (storage : Option Nat) : BuildResult (Nat × PlanMemoryReport) :=
  match storage, freezeIntoArena target draft messages pipelines estimate.accountedTotalBytes with
  | some address, some report => do
    rejectIf (estimate ≠ report ∨ report.accountedTotalBytes ≠ estimate.accountedTotalBytes)
      (memoryDiagnostic .planMemoryEstimateMismatch report.accountedTotalBytes
        estimate.accountedTotalBytes draft)
    pure (address, report)
  | _, _ => .error { code := .allocationFailed }

/-! ### The builder -/

/-- A frozen message keeps the facts of its draft. -/
def freezeMessage (message : MessagePlan) : FrozenMessagePlan :=
  { id := message.id
    directionId := message.directionId
    frameLengthBytes := message.frameLengthBytes
    matchers := message.matchers
    bitContainers := message.bitContainers
    integrity := message.integrity
    boundedPayload := message.boundedPayload
    computedLength := message.computedLength
    fields := message.fields }

/-- Checks a draft, prepares it and freezes it. -/
def freezeImpl (target : TargetLayout) (draft : PlanDraftData) (storage : Option Nat) :
    BuildResult PlanBundle := do
  let limits := getResourceProfileLimits draft.resourceProfile
  checkMetadata draft
  let requirements ← checkRequirements limits draft
  let prepared ← prepareMessages limits draft
  let layout ← finishLayout target limits draft.messages prepared.layout
  let pipelines ← preparePipelines draft prepared.executions draft.pipelines 0 []
  let estimate ← checkEstimate target limits draft prepared.executions pipelines
  let (address, report) ←
    freezeStorage target draft prepared.executions pipelines estimate storage
  pure
    { address := address
      schemaVersion := draft.schemaVersion
      protocolId := draft.protocolId
      protocolVersion := draft.protocolVersion
      resourceProfile := draft.resourceProfile
      resourceRequirements := requirements
      framingProfiles := draft.framingProfiles
      pipelines := draft.pipelines
      messages := draft.messages.map freezeMessage
      conversions := draft.conversions
      executionResourceLayout := layout
      messageExecutionPlans := prepared.executions
      pipelineExecutionPlans := pipelines
      memoryReport := report }

/-- Freezes the draft of a capability. -/
def freeze (target : TargetLayout) (budgeted : BudgetedPlanDraft) (storage : Option Nat) :
    BuildResult PlanBundle :=
  freezeImpl target budgeted.draft storage

end ProtocolAdapter
