/-
This file defines the budget stage of the compiler: the account of the plan memory a
validated schema will need, and the limits of its resource profile on counts, sizes and
that account.
-/

import ProtocolAdapter.ConfigCompiler.Validate
import ProtocolAdapter.Plan.Memory

namespace ProtocolAdapter.ConfigCompiler

open Foundation

/-! ### The estimate -/

/-- The arrays of the configuration facts of a schema, after the plan object itself. -/
def schemaRequests (target : TargetLayout) (parts : ValidatedParts) : List ArrayRequest :=
  let schema := parts.schema
  [⟨1, target.planBundle, .object⟩, stringRequest schema.schemaVersion,
    stringRequest schema.protocolId, stringRequest schema.protocolVersion,
    ⟨schema.framingProfiles.length, target.framingPlan, .metadataContainer⟩] ++
  schema.framingProfiles.flatMap (fun framing =>
    [stringRequest framing.id, ⟨framing.syncBytes.length, byteLayout, .extension⟩,
      ⟨framing.syncBytes.length, wordLayout, .extension⟩]) ++
  ⟨schema.pipelines.length, target.pipelinePlan, .metadataContainer⟩ ::
  (schema.pipelines.zip parts.resolvedPipelines).flatMap (fun (pipeline, resolved) =>
    [stringRequest pipeline.id, stringRequest pipeline.directionId,
      ⟨resolved.messageIndices.length, wordLayout, .metadataContainer⟩]) ++
  ⟨schema.messages.length, target.messagePlan, .metadataContainer⟩ ::
  schema.messages.flatMap (fun message =>
    [stringRequest message.id, stringRequest message.directionId,
      ⟨message.matcherClauses.length, target.matcherPlan, .metadataContainer⟩] ++
    message.matcherClauses.map (fun matcher => ⟨matcher.bytes.length, byteLayout, .matcher⟩) ++
    ⟨message.bitContainers.length, target.bitContainerPlan, .metadataContainer⟩ ::
    message.bitContainers.map (fun container => stringRequest container.id) ++
    ⟨message.fields.length, target.fieldPlan, .metadataContainer⟩ ::
    message.fields.flatMap (fun field =>
      [stringRequest field.id,
        ⟨field.enumEntries.length, target.enumEntryPlan, .metadataContainer⟩] ++
      field.enumEntries.map (fun entry => stringRequest entry.id)))

/-- The conversions of a schema. -/
def conversionCount (schema : SchemaIr) : Nat :=
  (schema.messages.flatMap fun message =>
    message.fields.filter fun field => field.conversion.isSome).length

/-- The arrays of a text action. -/
def actionRequests (target : TargetLayout) : Option TextActionIr → List ArrayRequest
  | none => []
  | some action =>
    ⟨action.segments.length, target.textSegmentExecution, .executionDescriptor⟩ ::
    action.segments.flatMap (fun segment =>
      [⟨segment.literal.length, byteLayout, .matcher⟩,
        ⟨segment.literal.length, wordLayout, .matcher⟩])

/-- The arrays of the text actions of a message. -/
def textRequests (target : TargetLayout) (message : MessageIr) : List ArrayRequest :=
  match message.asciiText with
  | none => []
  | some layout => actionRequests target layout.decode ++ actionRequests target layout.encode

/-- The enumeration entries of a message. -/
def enumEntryCount (message : MessageIr) : Nat :=
  (message.fields.map fun field => field.enumEntries.length).sum

/-- The arrays of the execution descriptors of the messages. -/
def executionRequests (target : TargetLayout) (messages : List MessageIr) : List ArrayRequest :=
  ⟨messages.length, target.messageExecution, .executionDescriptor⟩ ::
  messages.flatMap (fun message =>
    [⟨((fixedBytesOf message).map Prod.fst).dedup.length, target.fixedByteExecution, .matcher⟩,
      ⟨message.bitContainers.length, target.bitContainerExecution, .executionDescriptor⟩,
      ⟨message.fields.length, target.fieldExecution, .executionDescriptor⟩,
      ⟨enumEntryCount message, wordLayout, .index⟩,
      ⟨enumEntryCount message, target.enumLookupExecution, .index⟩] ++
    textRequests target message)

/-- How many messages of a pipeline share each frame length, from the shortest on. -/
def candidateGroups (messages : List MessageIr) : List Nat :=
  let lengths := (messages.filter fun message =>
    message.asciiText.isNone && message.boundedPayload.isNone).map (·.frameLengthBytes)
  (lengths.insertionSort (· ≤ ·)).dedup.map lengths.count

/-- The arrays of the execution descriptors of the pipelines. -/
def pipelineRequests (target : TargetLayout) (parts : ValidatedParts) : List ArrayRequest :=
  let schema := parts.schema
  let allowedWordCount :=
    schema.messages.length / 64 + if schema.messages.length % 64 = 0 then 0 else 1
  ⟨schema.pipelines.length, target.pipelineExecution, .executionDescriptor⟩ ::
  parts.resolvedPipelines.flatMap (fun pipeline =>
    let messages := pipeline.messageIndices.map fun index => schema.messages.getD index {}
    let groups := candidateGroups messages
    [⟨allowedWordCount, wordLayout, .index⟩,
      ⟨groups.length, target.candidateGroupExecution, .executionDescriptor⟩,
      ⟨(messages.filter fun message =>
        message.asciiText.isNone && message.boundedPayload.isSome).length, wordLayout, .index⟩,
      ⟨(messages.filter fun message => (decodeAction message).isSome).length, wordLayout,
        .index⟩] ++
    groups.map (fun count => ⟨count, wordLayout, .index⟩))

/-- The account of the plan memory a validated schema will need. -/
def estimateSchemaPlanMemory (target : TargetLayout) (parts : ValidatedParts)
    (limitBytes : Nat) : Option PlanMemoryReport :=
  accountArrays target limitBytes (schemaRequests target parts ++
    ⟨conversionCount parts.schema, target.linearConversion, .extension⟩ ::
    executionRequests target parts.schema.messages ++ pipelineRequests target parts)

/-! ### The limits -/

/-- The diagnostic a check of the budget stage sets. -/
def budget (jsonPointer detail : String) : CompileDiagnostic :=
  { stage := .resourceBudget
    code := .resourceLimitExceeded
    jsonPointer := jsonPointer
    detail := detail }

/-- Rejects a count above its limit. -/
def checkResourceCount (value limit : Nat) (pointer detail : String) : Compiled Unit :=
  rejectIf (value > limit) (budget pointer detail)

/-- The diagnostic of an exceeded account of plan memory. -/
def planMemoryDiagnostic (requiredBytes limitBytes : Nat) (profile : ResourceProfile) :
    CompileDiagnostic :=
  { budget "" "accounted immutable plan memory exceeds the selected resource profile" with
    resourceKind := .planAccountedMemory
    requiredBytes := requiredBytes
    limitBytes := limitBytes
    resourceProfile := profile }

/-- Checks the sizes of frames and synchronisation bytes. -/
def checkFrameSizes (limits : ResourceProfileLimits) (requirements : ResourceRequirements) :
    Compiled Unit := do
  rejectIf (requirements.maxFrameBytes > limits.maxFrameBytes)
    (budget "/messages" "maximum frame length exceeds the selected resource profile")
  rejectIf (requirements.maxStreamFrameBytes > limits.maxFrameBytes ∨
      requirements.maxStreamFrameBytes > maxStreamFrameBytesHardLimit)
    (budget "/framing_profiles" "stream frame length exceeds the selected resource profile")
  rejectIf (requirements.maxSyncBytes > limits.maxSyncBytes ∨
      requirements.maxSyncBytes > maxStreamSyncBytesHardLimit)
    (budget "/framing_profiles" "sync header length exceeds the selected resource profile")
  rejectIf (requirements.maxFramingBufferBytes > limits.maxSessionMemoryBytes ∨
      requirements.maxFramingBufferBytes > maxStreamSessionMemoryBytesHardLimit)
    (budget "/framing_profiles" "framing buffer bytes exceed the per-stream memory limit")

/-- Checks the counts of the whole package. -/
def checkPackageCounts (limits : ResourceProfileLimits) (requirements : ResourceRequirements) :
    Compiled Unit := do
  checkResourceCount requirements.framingProfileCount limits.maxFramingProfiles
    "/framing_profiles" "framing profile count exceeds the selected resource profile"
  checkResourceCount requirements.pipelineCount limits.maxPipelines "/pipelines"
    "pipeline count exceeds the selected resource profile"
  checkResourceCount requirements.messageCount limits.maxMessages "/messages"
    "message count exceeds the selected resource profile"
  checkResourceCount requirements.totalFieldCount limits.maxTotalFields "/messages"
    "total field count exceeds the selected resource profile"
  checkResourceCount requirements.totalMatcherCount limits.maxTotalMatchers "/messages"
    "matcher count exceeds the selected resource profile"
  checkResourceCount requirements.totalEnumEntryCount limits.maxTotalEnumEntries "/messages"
    "enum entry count exceeds the selected resource profile"
  checkResourceCount requirements.totalBitContainerCount limits.maxTotalFields "/messages"
    "bit container count exceeds the selected resource profile"
  checkResourceCount requirements.totalIntegrityRuleCount limits.maxMessages "/messages"
    "integrity rule count exceeds the message count limit"
  checkResourceCount requirements.totalTextSegmentCount
    (4 * limits.maxTotalFields + 2 * limits.maxMessages) "/messages"
    "text segment count exceeds the derived Plan limit"
  checkResourceCount requirements.totalComputedLengthCount limits.maxMessages "/messages"
    "computed length count exceeds the message count limit"
  checkResourceCount requirements.totalConversionCount limits.maxTotalFields "/messages"
    "conversion count exceeds the total field limit"

/-- Checks the segments of one template of a text message. -/
def checkActionCount (limits : ResourceProfileLimits) (action : Option TextActionIr)
    (pointer detail : String) : Compiled Unit :=
  match action with
  | none => .ok ()
  | some action => checkResourceCount action.segments.length (2 * limits.maxFieldsPerMessage + 1)
      pointer detail

/-- Checks the counts of one message. -/
def checkMessageCounts (limits : ResourceProfileLimits) (message : MessageIr) :
    Compiled Unit := do
  checkResourceCount message.fields.length limits.maxFieldsPerMessage
    (childPointer message.origin.jsonPointer "fields")
    "field count exceeds the selected resource profile"
  checkResourceCount message.matcherClauses.length limits.maxMatchersPerMessage
    (childPointer message.origin.jsonPointer "matcher")
    "matcher count exceeds the selected resource profile"
  checkResourceCount message.bitContainers.length limits.maxFieldsPerMessage
    (childPointer message.origin.jsonPointer "bit_containers")
    "bit container count exceeds the selected resource profile"
  message.fields.forM fun field =>
    checkResourceCount field.enumEntries.length limits.maxEnumEntriesPerField
      (childPointer field.origin.jsonPointer "enum_entries")
      "enum entry count exceeds the selected resource profile"
  match message.asciiText with
  | none => pure ()
  | some layout => do
    checkActionCount limits layout.decode (childPointer layout.origin.jsonPointer "decode")
      "Decode text segment count exceeds the derived Message limit"
    checkActionCount limits layout.encode (childPointer layout.origin.jsonPointer "encode")
      "Encode text segment count exceeds the derived Message limit"

/-- What the budget stage hands over: the validated schema, the account of its plan, and
the limit the account was approved under. -/
structure BudgetedParts where
  validated : ValidatedParts
  planMemory : PlanMemoryReport
  planMemoryLimitBytes : Nat

/-- Approves the resources of a validated schema. -/
def approveBudget (target : TargetLayout) (parts : ValidatedParts) : Compiled BudgetedParts := do
  let profile := parts.schema.resourceProfile
  let limits := getResourceProfileLimits profile
  checkFrameSizes limits parts.requirements
  checkPackageCounts limits parts.requirements
  parts.schema.messages.forM (checkMessageCounts limits)
  let limitBytes := min limits.maxPlanMemoryBytes v01MaxPlanMemoryHardLimit
  match estimateSchemaPlanMemory target parts maxUint64 with
  | none => .error (planMemoryDiagnostic maxUint64 limitBytes profile)
  | some planMemory => do
    rejectIf (planMemory.accountedTotalBytes > limitBytes)
      (planMemoryDiagnostic planMemory.accountedTotalBytes limitBytes profile)
    pure { validated := parts, planMemory := planMemory, planMemoryLimitBytes := limitBytes }

end ProtocolAdapter.ConfigCompiler
