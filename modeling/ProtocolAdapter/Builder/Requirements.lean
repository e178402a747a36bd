/-
This file models the first part of the builder: the metadata of the draft, the
conversions it carries, and the counts and sizes it recomputes from the draft to
compare them with the approved requirements.
-/

import ProtocolAdapter.Builder.Framing
import ProtocolAdapter.Plan.Conversion

namespace ProtocolAdapter

open Foundation

/-! ### Metadata and conversions -/

/-- The schema versions the builder accepts. -/
def supportedSchemaVersions : List String :=
  ["0.1", "0.2", "0.3", "0.4", "0.5", "0.6", "0.7", "0.8", "0.9", "0.10", "0.11"]

/-- The rules for the metadata of a draft. -/
def checkMetadata (draft : PlanDraftData) : BuildResult Unit :=
  rejectIf (draft.schemaVersion ∉ supportedSchemaVersions ∨ ¬isStableId draft.protocolId ∨
    draft.protocolVersion = "" ∨ draft.framingProfiles = [] ∨ draft.pipelines = [] ∨
    draft.messages = []) { code := .invalidMetadata }

/-- The schema versions that know conversions. -/
def conversionSchemaVersions : List String := ["0.5", "0.6", "0.7", "0.8", "0.9", "0.10", "0.11"]

/-- Whether a descriptor is not the one its own fractions derive. -/
def conversionInvalid (schemaVersion : String) (conversion : LinearConversionDescriptor) : Bool :=
  schemaVersion ∉ conversionSchemaVersions ||
    (conversion.rawValueType ≠ .uint64 && conversion.rawValueType ≠ .int64) ||
    match deriveLinearConversion conversion.rawValueType conversion.scaleNumerator
      conversion.scaleDenominator conversion.biasNumerator conversion.biasDenominator with
    | .error _ => true
    | .ok recomputed => conversion ≠ recomputed

/-- The rules for the conversions of a draft. -/
def checkConversions (limits : ResourceProfileLimits) (draft : PlanDraftData) :
    BuildResult Unit := do
  rejectIf (draft.conversions.length > limits.maxTotalFields) { code := .resourceLimitExceeded }
  rejectIf (draft.conversions.any (conversionInvalid draft.schemaVersion))
    { code := .invalidFieldPlan }

/-! ### Counts -/

/-- The text segments of an action, zero for an absent one. -/
def textActionSegmentCount : Option TextActionPlan → Nat
  | none => 0
  | some action => action.segments.length

/-- Counts the text segments of a message within the limits of its profile. -/
def countTextSegments (limits : ResourceProfileLimits) (requirements : ResourceRequirements)
    (message : MessagePlan) : Option ResourceRequirements :=
  match message.asciiText with
  | none => some requirements
  | some text => do
    let perActionLimit := 2 * limits.maxFieldsPerMessage + 1
    let totalLimit := 4 * limits.maxTotalFields + 2 * limits.maxMessages
    failIf (textActionSegmentCount text.decode > perActionLimit ∨
      textActionSegmentCount text.encode > perActionLimit)
    let decoded ←
      addSizeChecked (textActionSegmentCount text.decode) requirements.totalTextSegmentCount
    let total ← addSizeChecked (textActionSegmentCount text.encode) decoded
    failIf (total > totalLimit)
    some { requirements with totalTextSegmentCount := total }

/-- Counts the parts of a message within the limits of its profile. -/
def countMessageParts (limits : ResourceProfileLimits) (requirements : ResourceRequirements)
    (message : MessagePlan) : Option ResourceRequirements := do
  failIf (message.frameLengthBytes > limits.maxFrameBytes ∨
    message.fields.length > limits.maxFieldsPerMessage ∨
    message.bitContainers.length > limits.maxFieldsPerMessage ∨
    message.matchers.length > limits.maxMatchersPerMessage)
  let totalFieldCount ← addSizeChecked message.fields.length requirements.totalFieldCount
  let totalMatcherCount ← addSizeChecked message.matchers.length requirements.totalMatcherCount
  let totalBitContainerCount ←
    addSizeChecked message.bitContainers.length requirements.totalBitContainerCount
  let totalIntegrityRuleCount ←
    addSizeChecked (if message.integrity.isSome then 1 else 0)
      requirements.totalIntegrityRuleCount
  let totalComputedLengthCount ←
    addSizeChecked (if message.computedLength.isSome then 1 else 0)
      requirements.totalComputedLengthCount
  failIf (totalFieldCount > limits.maxTotalFields ∨ totalBitContainerCount > limits.maxTotalFields ∨
    totalIntegrityRuleCount > limits.maxMessages ∨
    totalComputedLengthCount > limits.maxMessages ∨
    totalMatcherCount > limits.maxTotalMatchers)
  some { requirements with
    maxFrameBytes := max requirements.maxFrameBytes message.frameLengthBytes
    totalFieldCount := totalFieldCount
    totalMatcherCount := totalMatcherCount
    totalBitContainerCount := totalBitContainerCount
    totalIntegrityRuleCount := totalIntegrityRuleCount
    totalComputedLengthCount := totalComputedLengthCount }

/-- Counts the enumeration entries of a field within the limits of its profile. -/
def countEnumEntries (limits : ResourceProfileLimits) (requirements : ResourceRequirements)
    (field : FieldPlan) : Option ResourceRequirements := do
  failIf (field.enumEntries.length > limits.maxEnumEntriesPerField)
  let total ← addSizeChecked field.enumEntries.length requirements.totalEnumEntryCount
  failIf (total > limits.maxTotalEnumEntries)
  some { requirements with totalEnumEntryCount := total }

/-- A count, or the diagnostic of the limit it exceeds. -/
def orReject (diagnostic : PlanBuildDiagnostic) : Option ResourceRequirements →
    BuildResult ResourceRequirements
  | none => .error diagnostic
  | some requirements => .ok requirements

/-- Counts a message: its text segments, its parts, then the entries of its fields. -/
def countMessage (limits : ResourceProfileLimits) (requirements : ResourceRequirements)
    (item : MessagePlan × Nat) : BuildResult ResourceRequirements := do
  let (message, messageIndex) := item
  let diagnostic : PlanBuildDiagnostic :=
    { code := .resourceLimitExceeded, messageIndex := messageIndex }
  let requirements ← orReject diagnostic (countTextSegments limits requirements message)
  let requirements ← orReject diagnostic (countMessageParts limits requirements message)
  message.fields.zipIdx.foldlM (fun requirements (field, fieldIndex) =>
    orReject { diagnostic with fieldIndex := fieldIndex }
      (countEnumEntries limits requirements field)) requirements

/-- Recomputes the requirements of a draft and compares them with the approved ones. -/
def checkRequirements (limits : ResourceProfileLimits) (draft : PlanDraftData) :
    BuildResult ResourceRequirements := do
  let requirements : ResourceRequirements :=
    { framingProfileCount := draft.framingProfiles.length
      pipelineCount := draft.pipelines.length
      messageCount := draft.messages.length
      totalConversionCount := draft.conversions.length }
  checkConversions limits draft
  rejectIf (draft.framingProfiles.length > limits.maxFramingProfiles ∨
    draft.pipelines.length > limits.maxPipelines ∨
    draft.messages.length > limits.maxMessages) { code := .resourceLimitExceeded }
  let requirements ← draft.messages.zipIdx.foldlM (countMessage limits) requirements
  let requirements ←
    checkFramings draft.schemaVersion limits draft.framingProfiles 0 [] requirements
  rejectIf (draft.resourceRequirements ≠ requirements) { code := .resourceRequirementsMismatch }
  pure requirements

/-! ### What accepted requirements guarantee -/

/-- The conversions of an accepted draft are valid. -/
theorem valid_of_checkConversions {limits : ResourceProfileLimits} {draft : PlanDraftData}
    (checked : checkConversions limits draft = .ok ()) :
    ∀ conversion ∈ draft.conversions, conversion.Valid ∧
      (conversion.rawValueType = .uint64 ∨ conversion.rawValueType = .int64) := by
  intro conversion member
  simp only [checkConversions, rejectIf_bind_eq_ok, rejectIf_eq_ok, List.any_eq_true,
    not_exists, not_and, Bool.not_eq_true] at checked
  have accepted := checked.2 conversion member
  simp only [conversionInvalid, Bool.or_eq_false_iff, Bool.and_eq_false_iff,
    decide_eq_false_iff_not, not_not] at accepted
  obtain ⟨⟨-, rawType⟩, derived⟩ := accepted
  refine ⟨?_, rawType⟩
  split at derived
  · cases derived
  · rename_i recomputed run
    have same : conversion = recomputed := by simpa using derived
    rw [← same] at run
    exact (valid_of_deriveLinearConversion run).1

/-- A successful count keeps the bounds of the message it counted. -/
theorem bounds_of_countMessage {limits : ResourceProfileLimits} {message : MessagePlan}
    {messageIndex : Nat} {requirements result : ResourceRequirements}
    (counted : countMessage limits requirements (message, messageIndex) = .ok result) :
    message.frameLengthBytes ≤ limits.maxFrameBytes ∧
      message.fields.length ≤ limits.maxFieldsPerMessage ∧
      message.bitContainers.length ≤ limits.maxFieldsPerMessage := by
  simp only [countMessage, bind_eq_ok] at counted
  obtain ⟨texts, -, parts, partsRun, -⟩ := counted
  cases counting : countMessageParts limits texts message with
  | none => simp [counting, orReject] at partsRun
  | some next =>
    simp only [countMessageParts, Option.bind_eq_bind, Option.bind_eq_some_iff,
      failIf_eq_some] at counting
    obtain ⟨-, within, -⟩ := counting
    omega

end ProtocolAdapter
