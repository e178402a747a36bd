/-
This file models the public stream framer: its statuses, how one is created for a stream
pipeline of a compiled protocol, and its calls. It owns a workspace of the framer core and
translates what that core reports.
-/

import ProtocolAdapter.Framing.Renewal
import ProtocolAdapter.PublicApi.Execution

namespace ProtocolAdapter.PublicApi

open Foundation Description

open Framing (StreamFramingWorkspace StatefulSink pushStreamChunkWith resetStreamFramingWorkspace
  createStreamFramingWorkspace FrameSinkAction SubmitApiStatus SubmitStopReason FramingIssue)

/-! ### Results -/

inductive StreamFramerStatus where
  | ok
  | invalidArgument
  | invalidCompiledProtocol
  | pipelineOutOfRange
  | inputKindNotStream
  | resourceLimitExceeded
  | allocationFailed
  | workspaceBusy
  | reentrantCall
  | internalError
  deriving DecidableEq

inductive StreamFramerStopReason where
  | inputExhausted
  | needMore
  | workBudgetReached
  | sinkStop
  deriving DecidableEq

inductive StreamFramingIssue where
  | none
  | malformedLength
  | recordTooLong
  deriving DecidableEq

inductive StreamFramingPhase where
  | collecting
  | deliveryPending
  | discardingUntilCrlf
  deriving DecidableEq

/-- Whether a pipeline frames a stream. -/
structure StreamFramingCapability where
  status : StreamFramerStatus := .invalidCompiledProtocol
  available : Bool := false
  deriving DecidableEq

/-- The limits a host asks for. Zero stands for the default of the resource profile. -/
structure StreamFramerOptions where
  maxSubmitBytes : Nat := 0
  maxFramesPerSubmit : Nat := 0
  maxWorkUnits : Nat := 0
  maxSyncBytes : Nat := 0
  maxSessionMemoryBytes : Nat := 0
  deriving DecidableEq

structure StreamFramingMemoryReport where
  internalWorkspaceBytes : Nat := 0
  facadeBytes : Nat := 0
  framerAccountedTotalBytes : Nat := 0
  retainedCompiledStateFacadeBytes : Nat := 0
  effectiveSessionLimitBytes : Nat := 0
  allocationCount : Nat := 0
  deriving DecidableEq

/-- What one submission did. -/
structure StreamSubmitResult where
  status : StreamFramerStatus := .invalidArgument
  stopReason : StreamFramerStopReason := .inputExhausted
  bytesConsumed : Nat := 0
  candidatesDelivered : Nat := 0
  bytesDiscarded : Nat := 0
  malformedCandidates : Nat := 0
  lastIssue : StreamFramingIssue := .none
  workUnitsUsed : Nat := 0
  deriving DecidableEq

structure StreamFramerObservation where
  status : StreamFramerStatus := .invalidCompiledProtocol
  phase : StreamFramingPhase := .collecting
  bufferedBytes : Nat := 0
  hasInternalWork : Bool := false
  effectiveMaxSubmitBytes : Nat := 0
  effectiveMaxWorkUnits : Nat := 0
  deriving DecidableEq

/-! ### Translations -/

/-- The public status for a status of the framer core. -/
def mapFramerStatus : SubmitApiStatus → StreamFramerStatus
  | .ok => .ok
  | .invalidArgument => .invalidArgument
  | .invalidPlan => .invalidCompiledProtocol
  | .workspacePlanMismatch => .invalidCompiledProtocol
  | .workspaceBusy => .workspaceBusy
  | .reentrantCall => .reentrantCall
  | .limitExceeded => .resourceLimitExceeded
  | .internalError => .internalError

def mapStopReason : SubmitStopReason → StreamFramerStopReason
  | .inputExhausted => .inputExhausted
  | .needMore => .needMore
  | .workBudgetReached => .workBudgetReached
  | .sinkStop => .sinkStop

def mapIssue : FramingIssue → StreamFramingIssue
  | .none => .none
  | .malformedLength => .malformedLength
  | .recordTooLong => .recordTooLong

def mapPhase : Framing.StreamFramingPhase → StreamFramingPhase
  | .collecting => .collecting
  | .deliveryPending => .deliveryPending
  | .discardingUntilCrlf => .discardingUntilCrlf

/-- The public result for a result of the framer core. -/
def mapSubmitResult (submitted : Framing.SubmitResult) : StreamSubmitResult where
  status := mapFramerStatus submitted.apiStatus
  stopReason := mapStopReason submitted.stopReason
  bytesConsumed := submitted.bytesConsumed
  candidatesDelivered := submitted.framesDelivered
  bytesDiscarded := submitted.bytesDiscarded
  malformedCandidates := submitted.malformedCandidates
  lastIssue := mapIssue submitted.lastFramingIssue
  workUnitsUsed := submitted.workUnitsUsed

@[simp] theorem mapFramerStatus_eq_ok {apiStatus : SubmitApiStatus} :
    mapFramerStatus apiStatus = .ok ↔ apiStatus = .ok := by
  cases apiStatus <;> simp [mapFramerStatus]

/-! ### The framer -/

/-- A framer of one pipeline of a compiled protocol. The candidate buffer of its workspace
lies at `frameData`. -/
structure StreamFramer where
  state : CompiledProtocolArtifacts
  pipelineIndex : Nat
  workspace : StreamFramingWorkspace
  frameData : Option Nat
  memory : StreamFramingMemoryReport

/-- What decides whether an operation may begin: whether a callback of the object is active
in the calling thread, and whether another thread is inside the object. -/
structure CallGuard where
  callbackActive : Bool := false
  contended : Bool := false
  deriving DecidableEq

section

variable {σ : Type}

/-- Submits a chunk. The sink keeps a state, and is absent for a null pointer. -/
def StreamFramer.push (framer : StreamFramer) (guarded : CallGuard) (input : ByteView)
    (sink : Option (StatefulSink σ)) (memory : σ) :
    Access (StreamSubmitResult × σ × StreamFramer) :=
  match sink with
  | none => some ({}, memory, framer)
  | some function =>
    if input.data = none ∧ input.size ≠ 0 then some ({}, memory, framer)
    else if guarded.callbackActive then some ({ status := .reentrantCall }, memory, framer)
    else if guarded.contended then some ({ status := .workspaceBusy }, memory, framer)
    else do
      let (memory, submitted) ← pushStreamChunkWith framer.state.plan framer.workspace
        framer.pipelineIndex input function memory
      some (mapSubmitResult submitted.result, memory,
        { framer with workspace := submitted.workspace })

/-- Drops the candidate of the framer. -/
def StreamFramer.reset (framer : StreamFramer) (guarded : CallGuard) :
    StreamFramerStatus × StreamFramer :=
  if guarded.callbackActive then (.reentrantCall, framer)
  else if guarded.contended then (.workspaceBusy, framer)
  else
    let (apiStatus, workspace) :=
      resetStreamFramingWorkspace framer.state.plan framer.workspace framer.pipelineIndex
    (mapFramerStatus apiStatus, { framer with workspace := workspace })

/-- Observes the framer; nothing advances. -/
def StreamFramer.observe (framer : StreamFramer) (guarded : CallGuard) :
    StreamFramerObservation :=
  if guarded.callbackActive then { status := .reentrantCall }
  else if guarded.contended then { status := .workspaceBusy }
  else
    let observed := framer.workspace.observe
    { status := .ok
      phase := mapPhase observed.phase
      bufferedBytes := observed.bufferedBytes
      hasInternalWork := observed.hasInternalWork
      effectiveMaxSubmitBytes := observed.effectiveMaxSubmitBytes
      effectiveMaxWorkUnits := observed.effectiveMaxWorkUnits }

end

/-! ### Creation -/

/-- Whether a pipeline frames a stream, by its description. -/
def queryStreamFramingCapability (state : CompiledProtocolArtifacts) (pipelineIndex : Nat) :
    StreamFramingCapability :=
  match queryPipelineFramingDescription state pipelineIndex with
  | (.pipelineOutOfRange, _) => { status := .pipelineOutOfRange }
  | (.ok, some description) =>
    { status := .ok, available := description.inputKind = .streamChunk }
  | _ => {}

/-- Whether no option exceeds its hard limit. -/
def optionsWithinHardLimits (options : StreamFramerOptions) : Bool :=
  options.maxSubmitBytes ≤ maxStreamSubmitBytesHardLimit &&
    options.maxFramesPerSubmit ≤ maxStreamFramesPerSubmitHardLimit &&
    options.maxWorkUnits ≤ maxStreamWorkUnitsHardLimit &&
    options.maxSyncBytes ≤ maxStreamSyncBytesHardLimit &&
    options.maxSessionMemoryBytes ≤ maxStreamSessionMemoryBytesHardLimit

/-- The sizes of the objects of a framer on the target. -/
structure FramerSizes where
  streamFramer : Nat
  impl : Nat
  compiledState : Nat

/-- What the allocator answers while a framer is created: where its candidate buffer lies, or
how the creation fails. -/
inductive FramerAllocation where
  | allocated (frameData : Nat)
  | workspaceThrew
  | badAlloc
  | threw

/-- Whether the workspace could be allocated. -/
def FramerAllocation.ofWorkspace : FramerAllocation → Bool
  | .workspaceThrew => false
  | _ => true

structure StreamFramerCreateResult where
  status : StreamFramerStatus := .invalidArgument
  framer : Option StreamFramer := none
  memory : StreamFramingMemoryReport := {}

/-- Creates a framer for a stream pipeline of a compiled protocol. -/
def createStreamFramer (sizes : FramerSizes) (allocation : FramerAllocation)
    (compiled : Option CompiledProtocolArtifacts) (pipelineIndex : Nat)
    (options : StreamFramerOptions) : StreamFramerCreateResult :=
  match compiled with
  | none => { status := .invalidCompiledProtocol }
  | some state =>
    match state.plan.pipelines[pipelineIndex]? with
    | none => { status := .pipelineOutOfRange }
    | some pipeline =>
      match state.plan.framingProfiles[pipeline.framingProfileIndex]? with
      | none => { status := .invalidCompiledProtocol }
      | some profile =>
        if profile.inputKind ≠ .streamChunk then { status := .inputKindNotStream }
        else if optionsWithinHardLimits options = false ∨
            (options.maxSyncBytes ≠ 0 ∧ profile.syncBytes.length > options.maxSyncBytes) then
          { status := .resourceLimitExceeded }
        else
          let created := createStreamFramingWorkspace state.plan pipelineIndex
            ⟨options.maxSubmitBytes, options.maxFramesPerSubmit, options.maxWorkUnits,
              options.maxSyncBytes, options.maxSessionMemoryBytes⟩
            allocation.ofWorkspace
          let facadeBytes := sizes.streamFramer + sizes.impl
          let memory : StreamFramingMemoryReport :=
            { internalWorkspaceBytes := created.accountedWorkspaceBytes
              facadeBytes := facadeBytes
              framerAccountedTotalBytes := created.accountedWorkspaceBytes
              retainedCompiledStateFacadeBytes := sizes.compiledState
              effectiveSessionLimitBytes := created.effectiveSessionLimitBytes
              allocationCount := 4 }
          match checkedAdd created.accountedWorkspaceBytes facadeBytes with
          | none => { status := .resourceLimitExceeded, memory := memory }
          | some total =>
            let memory := { memory with framerAccountedTotalBytes := total }
            match created.apiStatus, created.workspace, allocation with
            | .ok, some workspace, .allocated frameData =>
              { status := .ok
                framer := some
                  ⟨state, pipelineIndex, workspace,
                    arrayAddress frameData workspace.buffer.length, memory⟩
                memory := memory }
            | .ok, some _, .threw => { status := .internalError, memory := memory }
            | .ok, some _, _ => { status := .allocationFailed, memory := memory }
            | .internalError, _, _ => { status := .allocationFailed, memory := memory }
            | apiStatus, _, _ => { status := mapFramerStatus apiStatus, memory := memory }

/-- A framer that is created keeps the state, and has a workspace of its pipeline. -/
theorem createStreamFramer_framer {sizes : FramerSizes} {allocation : FramerAllocation}
    {state : CompiledProtocolArtifacts} {pipelineIndex : Nat} {options : StreamFramerOptions}
    {framer : StreamFramer}
    (made : (createStreamFramer sizes allocation (some state) pipelineIndex options).framer =
      some framer) :
    framer.state = state ∧ framer.pipelineIndex = pipelineIndex ∧
      (createStreamFramingWorkspace state.plan pipelineIndex
        ⟨options.maxSubmitBytes, options.maxFramesPerSubmit, options.maxWorkUnits,
          options.maxSyncBytes, options.maxSessionMemoryBytes⟩ true).workspace =
        some framer.workspace := by
  unfold createStreamFramer at made
  simp only at made
  split at made
  · cases made
  split at made
  · cases made
  split at made
  · cases made
  split at made
  · cases made
  split at made
  · cases made
  split at made <;> try cases made
  rename_i admitted
  exact ⟨rfl, rfl, admitted⟩

end ProtocolAdapter.PublicApi
