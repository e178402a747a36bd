/-
This file models the workspace of the stream framer: the candidate buffer, the
progress counters that survive between submissions, and the admission of a
workspace for one stream pipeline of a plan.
-/

import ProtocolAdapter.Plan.Bundle

namespace ProtocolAdapter.Framing

/-! ### Results -/

/-- The status of a framer operation. -/
inductive SubmitApiStatus where
  | ok
  | invalidArgument
  | invalidPlan
  | workspacePlanMismatch
  | workspaceBusy
  | reentrantCall
  | limitExceeded
  | internalError
  deriving DecidableEq

/-- Why a submission stopped. -/
inductive SubmitStopReason where
  | inputExhausted
  | needMore
  | workBudgetReached
  | sinkStop
  deriving DecidableEq

/-- The last defect a submission found in the stream. -/
inductive FramingIssue where
  | none
  | malformedLength
  | recordTooLong
  deriving DecidableEq

/-- What a submission consumed, delivered, discarded and spent. -/
structure SubmitResult where
  apiStatus : SubmitApiStatus := .ok
  stopReason : SubmitStopReason := .inputExhausted
  bytesConsumed : Nat := 0
  framesDelivered : Nat := 0
  bytesDiscarded : Nat := 0
  malformedCandidates : Nat := 0
  lastFramingIssue : FramingIssue := .none
  workUnitsUsed : Nat := 0
  deriving DecidableEq

/-- The limits a host may request; zero selects the default of the profile. -/
structure FramingLimitOverrides where
  maxSubmitBytes : Nat := 0
  maxFramesPerSubmit : Nat := 0
  maxWorkUnits : Nat := 0
  maxSyncBytes : Nat := 0
  maxSessionMemoryBytes : Nat := 0

/-! ### The workspace -/

/-- The states of the framer. -/
inductive State where
  | collectFixed
  | searchSync
  | copySync
  | readLength
  | collectDeclared
  | deliverPending
  | rescanInvalid
  | compactInvalid
  | collectAscii
  | discardUntilCrlf
  deriving DecidableEq

/-- The state of one logical stream. The workspace borrows the plan at `planScope`
and the framing profile of its pipeline. `inUse` is the occupation flag and
`inCallback` records that a sink called from this workspace has not returned. -/
structure StreamFramingWorkspace where
  planScope : Nat
  framing : FrozenFramingPlan
  pipelineIndex : Nat
  buffer : List UInt8
  bufferedSize : Nat := 0
  targetSize : Nat := 0
  syncMatch : Nat := 0
  copySyncIndex : Nat := 0
  rescanIndex : Nat := 0
  rescanMatch : Nat := 0
  compactStart : Nat := 0
  compactSize : Nat := 0
  compactMoved : Nat := 0
  maxSubmitBytes : Nat
  maxFramesPerSubmit : Nat
  maxWorkUnits : Nat
  maxSessionMemoryBytes : Nat
  totalDiscardedBytes : Nat := 0
  totalMalformedCandidates : Nat := 0
  previousWasCr : Bool := false
  state : State := .collectFixed
  inUse : Bool := false
  inCallback : Bool := false
  deriving DecidableEq

/-- Whether the framer can progress without new input. -/
def StreamFramingWorkspace.hasInternalWork (workspace : StreamFramingWorkspace) : Bool :=
  match workspace.state with
  | .copySync | .rescanInvalid | .compactInvalid | .deliverPending => true
  | .readLength =>
    workspace.bufferedSize ≥
      workspace.framing.lengthFieldOffset + workspace.framing.lengthFieldWidth
  | _ => false

/-- Whether the framer holds a started frame. -/
def StreamFramingWorkspace.hasHalfFrame (workspace : StreamFramingWorkspace) : Bool :=
  match workspace.state with
  | .collectAscii | .collectFixed | .collectDeclared | .readLength => workspace.bufferedSize ≠ 0
  | .discardUntilCrlf => true
  | .searchSync => workspace.syncMatch ≠ 0
  | _ => false

/-- Drops the current candidate and the recovery progress. The buffer, the binding
and the accumulated statistics stay. -/
def StreamFramingWorkspace.resetCandidate (workspace : StreamFramingWorkspace) :
    StreamFramingWorkspace :=
  let cleared := { workspace with
    bufferedSize := 0
    targetSize := 0
    syncMatch := 0
    copySyncIndex := 0
    rescanIndex := 0
    rescanMatch := 0
    compactStart := 0
    compactSize := 0
    compactMoved := 0
    previousWasCr := false }
  match workspace.framing.strategy with
  | .asciiCrlf => { cleared with state := .collectAscii }
  | .fixedLength =>
    { cleared with state := .collectFixed, targetSize := workspace.framing.frameLengthBytes }
  | _ => { cleared with state := .searchSync }

/-- The size of the workspace object on the 64-bit targets. -/
def sizeofStreamFramingWorkspace : Nat := 184

/-- The bytes accounted for a workspace. -/
def StreamFramingWorkspace.accountedWorkspaceBytes (workspace : StreamFramingWorkspace) : Nat :=
  sizeofStreamFramingWorkspace + workspace.buffer.length

/-! ### Creation -/

/-- The outcome of creating a workspace. -/
structure WorkspaceCreateResult where
  apiStatus : SubmitApiStatus := .invalidPlan
  workspace : Option StreamFramingWorkspace := none
  accountedWorkspaceBytes : Nat := 0
  effectiveSessionLimitBytes : Nat := 0
  deriving DecidableEq

/-- The requested limit or the default of the profile, when it is admissible. -/
def selectLimit (requested profileDefault hardLimit : Nat) : Option Nat :=
  let selected := if requested = 0 then profileDefault else requested
  if selected = 0 ∨ selected > hardLimit then none else some selected

/-- The versions of the schema that frame streams. -/
def supportsStreamSchema (schemaVersion : String) : Bool :=
  schemaVersion == "0.9" || schemaVersion == "0.11"

/-- The longest candidate a profile can buffer. -/
def frameCapacity (framing : FrozenFramingPlan) : Nat :=
  match framing.strategy with
  | .syncLengthField | .asciiCrlf => framing.maximumFrameLength
  | _ => framing.frameLengthBytes

/-- The work every submission must be able to spend to make progress. -/
def minimumProgressBudget (framing : FrozenFramingPlan) : Nat :=
  max 4 (1 + 2 * framing.syncBytes.length)

/-- The limits of a workspace after the overrides are resolved. -/
structure EffectiveLimits where
  maxSubmit : Nat
  maxFrames : Nat
  maxWork : Nat
  maxSync : Nat
  maxSession : Nat

/-- Resolves every override against the profile and the hard limits. -/
def selectLimits (profile : ResourceProfileLimits) (overrides : FramingLimitOverrides) :
    Option EffectiveLimits := do
  let maxSubmit ← selectLimit overrides.maxSubmitBytes profile.maxSubmitBytes
    maxStreamSubmitBytesHardLimit
  let maxFrames ← selectLimit overrides.maxFramesPerSubmit profile.maxFramesPerSubmit
    maxStreamFramesPerSubmitHardLimit
  let maxWork ← selectLimit overrides.maxWorkUnits profile.maxFramerWorkUnits
    maxStreamWorkUnitsHardLimit
  let maxSync ← selectLimit overrides.maxSyncBytes profile.maxSyncBytes
    maxStreamSyncBytesHardLimit
  let maxSession ← selectLimit overrides.maxSessionMemoryBytes profile.maxSessionMemoryBytes
    maxStreamSessionMemoryBytesHardLimit
  pure ⟨maxSubmit, maxFrames, maxWork, maxSync, maxSession⟩

/-- The stream profile a pipeline of the plan is bound to. -/
def streamFraming (plan : PlanBundle) (pipelineIndex : Nat) : Option FrozenFramingPlan := do
  let pipeline ← plan.pipelines[pipelineIndex]?
  let framing ← plan.framingProfiles[pipeline.framingProfileIndex]?
  if framing.inputKind = .streamChunk then some framing else none

/-- A fresh workspace with the given limits and candidate buffer. -/
def StreamFramingWorkspace.fresh (plan : PlanBundle) (pipelineIndex : Nat)
    (framing : FrozenFramingPlan) (limits : EffectiveLimits) : StreamFramingWorkspace :=
  { planScope := plan.address
    framing := framing
    pipelineIndex := pipelineIndex
    buffer := List.replicate (frameCapacity framing) 0
    maxSubmitBytes := limits.maxSubmit
    maxFramesPerSubmit := limits.maxFrames
    maxWorkUnits := limits.maxWork
    maxSessionMemoryBytes := limits.maxSession : StreamFramingWorkspace }.resetCandidate

/-- Admits a workspace for a stream pipeline. `allocated` says whether the object and
its buffer could be allocated. -/
def createStreamFramingWorkspace (plan : PlanBundle) (pipelineIndex : Nat)
    (overrides : FramingLimitOverrides) (allocated : Bool) : WorkspaceCreateResult :=
  if ¬supportsStreamSchema plan.schemaVersion then {}
  else
    match streamFraming plan pipelineIndex,
      selectLimits (getResourceProfileLimits plan.resourceProfile) overrides with
    | some framing, some limits =>
      let capacity := frameCapacity framing
      if capacity = 0 ∨ capacity > maxStreamFrameBytesHardLimit ∨ capacity > maxUint64 ∨
          framing.syncBytes.length > limits.maxSync ∨
          framing.syncPrefixTable.length ≠ framing.syncBytes.length ∨
          capacity > maxUint64 - sizeofStreamFramingWorkspace then {}
      else
        let accounted := sizeofStreamFramingWorkspace + capacity
        if accounted > limits.maxSession ∨ limits.maxWork < minimumProgressBudget framing then
          { apiStatus := .limitExceeded
            accountedWorkspaceBytes := accounted
            effectiveSessionLimitBytes := limits.maxSession }
        else if allocated then
          { apiStatus := .ok
            workspace := some (.fresh plan pipelineIndex framing limits)
            accountedWorkspaceBytes := accounted
            effectiveSessionLimitBytes := limits.maxSession }
        else
          { apiStatus := .internalError
            accountedWorkspaceBytes := accounted
            effectiveSessionLimitBytes := limits.maxSession }
    | _, _ => {}

/-- What admission guarantees about a workspace. -/
theorem createStreamFramingWorkspace_workspace {plan : PlanBundle} {pipelineIndex : Nat}
    {overrides : FramingLimitOverrides} {allocated : Bool} {workspace : StreamFramingWorkspace}
    (created : (createStreamFramingWorkspace plan pipelineIndex overrides allocated).workspace =
      some workspace) :
    supportsStreamSchema plan.schemaVersion = true ∧
      ∃ framing limits, streamFraming plan pipelineIndex = some framing ∧
        selectLimits (getResourceProfileLimits plan.resourceProfile) overrides = some limits ∧
        0 < frameCapacity framing ∧ minimumProgressBudget framing ≤ limits.maxWork ∧
        workspace = .fresh plan pipelineIndex framing limits := by
  unfold createStreamFramingWorkspace at created
  split at created
  · cases created
  · rename_i supported
    refine ⟨by simpa using supported, ?_⟩
    split at created
    · rename_i framing limits framed selected
      refine ⟨framing, limits, framed, selected, ?_⟩
      simp only at created
      split at created
      · cases created
      · rename_i admissible
        split at created
        · cases created
        · rename_i affordable
          split at created
          · simp only [Option.some.injEq] at created
            exact ⟨by omega, by omega, created.symm⟩
          · cases created
    · cases created

end ProtocolAdapter.Framing
