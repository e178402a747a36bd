/-
This file models the session of the internal host endpoint: how it is created from a plan
and bindings, and its operations. A session owns one codec workspace for each channel, and
a framer for each stream. Its operations run one after the other; while a callback runs
the session is busy, and every operation on a busy session is refused.
-/

import ProtocolAdapter.HostEndpoint.Types

namespace ProtocolAdapter.HostEndpoint

open Codec Framing Foundation

/-! ### The session -/

/-- A channel: its own workspaces, slots and buffer. The candidate buffer of the framer
lies at `frameData`. -/
structure Channel where
  binding : Nat
  generation : Nat := 0
  faulted : Bool := false
  core : ExecutionWorkspace
  framer : Option StreamFramingWorkspace := none
  frameData : Option Nat := none
  fields : FieldSlots := {}
  values : EncodeValues := {}
  bytes : MutableByteBuffer := {}

/-- A binding with its range of channels. -/
structure Binding where
  endpoint : List UInt8
  action : Action
  pipeline : Nat
  first : Nat
  count : Nat

/-- A session. -/
structure Session where
  plan : PlanBundle
  identity : Nat
  bindings : List Binding := []
  channels : List Channel := []
  accounted : Nat := 0
  busy : Bool := false

/-- The position of the last element with a property. -/
def lastIndex {α : Type} (holds : α → Bool) (items : List α) : Option Nat :=
  items.zipIdx.foldl (fun found item => if holds item.1 then some item.2 else found) none

/-- Whether a message of the plan can be decoded, or encoded. -/
def supports (plan : PlanBundle) (message : Nat) (action : Action) : Access Bool :=
  if isTextSchema plan.schemaVersion = false then some true
  else do
    let execution ← plan.messageExecutionPlans[message]?
    match action with
    | .decode => some execution.textDecode.isSome
    | .encode => some execution.textEncode.isSome

/-! ### Creation -/

/-- Adds `count` items of a width to the accounted bytes, within the limit. -/
def charge (used count width limit : Nat) : Option Nat :=
  if used > limit ∨ (width ≠ 0 ∧ count > (limit - used) / width) then none
  else some (used + count * width)

/-- The sizes of the objects of a session on the target. -/
structure SessionSizes where
  impl : Nat
  session : Nat
  identity : Nat
  binding : Nat
  channel : Nat
  executionWorkspace : Nat

/-- Where the vectors of a channel lie. -/
structure ChannelMemory where
  fields : Nat
  values : Nat
  bytes : Nat
  frame : Nat

/-- What the allocator answers while a session is created. -/
structure Allocator where
  identity : Nat
  tables : Bool
  binding : Nat → Bool
  vectors : Nat → Option ChannelMemory
  framer : Nat → Bool
  core : Nat → Bool

/-- A creation that may fail with a status. -/
abbrev Creation := ExceptT Status Access

/-- Fails with a status when `condition` holds. -/
def failIf (condition : Prop) [Decidable condition] (status : Status) : Creation Unit :=
  if condition then throw status else pure ()

/-- The number of all channels, unless there are too many. -/
def countChannels (limits : Limits) : List BindingSpec → Nat → Option Nat
  | [], total => some total
  | spec :: rest, total =>
    if spec.streams = 0 ∨ total > limits.maxChannels ∨
        spec.streams > limits.maxChannels - total then none
    else countChannels limits rest (total + spec.streams)

/-- Charges the session, or fails because of the limit. -/
def Session.charge (session : Session) (limits : Limits) (count width : Nat) : Creation Session :=
  match HostEndpoint.charge session.accounted count width limits.maxAccountedBytes with
  | none => throw .limitExceeded
  | some accounted => pure { session with accounted := accounted }

/-- The pipeline a specification is about, when it can be bound. -/
def bindPipeline (limits : Limits) (session : Session) (spec : BindingSpec) : Creation Nat := do
  failIf (spec.endpoint = [] ∨ spec.pipeline = "" ∨
    (spec.action = .encode ∧ spec.streams ≠ 1)) .invalidBinding
  failIf (spec.endpoint.length > limits.maxIdentityBytes ∨
    spec.pipeline.utf8ByteSize > limits.maxIdentityBytes) .limitExceeded
  failIf (∃ existing ∈ session.bindings,
    existing.endpoint = spec.endpoint ∧ existing.action = spec.action) .invalidBinding
  match lastIndex (·.id == spec.pipeline) session.plan.pipelines with
  | none => throw .invalidBinding
  | some pipeline => do
    let bound ← (session.plan.pipelines[pipeline]? : Access FrozenPipelinePlan)
    let supported ← (bound.messageIndices.mapM (supports session.plan · spec.action) :
      Access (List Bool))
    failIf (∀ other ∈ supported, other = false) .unsupported
    pure pipeline

/-- The framer of a stream channel. It may use the memory that is left. -/
def openFramer (allocator : Allocator) (limits : Limits) (session : Session) (spec : BindingSpec)
    (pipeline : Nat) : Creation (Session × StreamFramingWorkspace) := do
  let remaining := limits.maxAccountedBytes - session.accounted
  failIf (remaining = 0) .limitExceeded
  let requested := spec.framingLimits.maxSessionMemoryBytes
  failIf (requested > maxStreamSessionMemoryBytesHardLimit) .limitExceeded
  let profile := getResourceProfileLimits session.plan.resourceProfile
  let engineLimit :=
    if requested = 0 then min profile.maxSessionMemoryBytes maxStreamSessionMemoryBytesHardLimit
    else requested
  let created := createStreamFramingWorkspace session.plan pipeline
    { spec.framingLimits with maxSessionMemoryBytes := min engineLimit remaining }
    (allocator.framer session.channels.length)
  match created.apiStatus, created.workspace with
  | .ok, some workspace => do
    let session ← session.charge limits 1 created.accountedWorkspaceBytes
    pure (session, workspace)
  | .limitExceeded, _ => throw .limitExceeded
  | _, _ => throw .unsupported

/-- The address of a block of memory; an empty block has none. -/
def blockAddress (address size : Nat) : Option Nat := if size = 0 then none else some address

/-- Prepares the codec workspace of a channel and appends the channel. -/
def Session.append (allocator : Allocator) (session : Session) (channel : Channel) :
    Creation Session := do
  failIf (allocator.core session.channels.length = false) .allocationFailed
  pure { session with
    channels := session.channels ++ [{ channel with core := .fresh session.plan }] }

/-- Opens one channel of a binding. -/
def openChannel (allocator : Allocator) (sizes : SessionSizes) (limits : Limits)
    (spec : BindingSpec) (binding pipeline : Nat) (session : Session) : Creation Session := do
  let layout := session.plan.executionResourceLayout
  let index := session.channels.length
  let session ← session.charge limits 1 sizes.executionWorkspace
  let session ← session.charge limits 1 layout.estimatedWorkspaceBytes
  let slots := layout.maxFieldsPerMessage
  let channel : Channel := { binding := binding, core := .fresh session.plan }
  match spec.action with
  | .decode => do
    let session ← session.charge limits slots sizeofDecodedFieldSlot
    match allocator.vectors index with
    | none => throw .allocationFailed
    | some memory => do
      let channel := { channel with
        fields := ⟨blockAddress memory.fields slots, List.replicate slots {}⟩ }
      let bound ← (session.plan.pipelines[pipeline]? : Access FrozenPipelinePlan)
      let profile ← (session.plan.framingProfiles[bound.framingProfileIndex]? :
        Access FrozenFramingPlan)
      match profile.inputKind with
      | .streamChunk => do
        let (session, framer) ← openFramer allocator limits session spec pipeline
        session.append allocator { channel with
          framer := framer, frameData := blockAddress memory.frame framer.buffer.length }
      | .completeRecord => session.append allocator channel
  | .encode => do
    let size := session.plan.resourceRequirements.maxFrameBytes
    failIf (size > limits.maxAccountedBytes) .limitExceeded
    let session ← session.charge limits size 1
    let session ← session.charge limits slots sizeofEncodeFieldValue
    match allocator.vectors index with
    | none => throw .allocationFailed
    | some memory =>
      session.append allocator { channel with
        bytes := ⟨blockAddress memory.bytes size, List.replicate size 0⟩
        values := ⟨blockAddress memory.values slots, List.replicate slots {}⟩ }

/-- Binds one specification and opens its channels. -/
def openBinding (allocator : Allocator) (sizes : SessionSizes) (limits : Limits)
    (session : Session) (spec : BindingSpec) : Creation Session := do
  let pipeline ← bindPipeline limits session spec
  let session ← session.charge limits (spec.endpoint.length + 1) 1
  let index := session.bindings.length
  failIf (allocator.binding index = false) .allocationFailed
  let session := { session with
    bindings := session.bindings ++
      [⟨spec.endpoint, spec.action, pipeline, session.channels.length, spec.streams⟩] }
  (List.range spec.streams).foldlM (fun session _ =>
    openChannel allocator sizes limits spec index pipeline session) session

/-- Creates a session that owns a plan. Nothing is published unless all bindings and
channels are ready. -/
def Session.create (allocator : Allocator) (sizes : SessionSizes) (plan : PlanBundle)
    (specs : List BindingSpec) (limits : Limits) : Creation Session := do
  failIf (specs = []) .invalidArgument
  failIf (plan.schemaVersion ≠ "0.9" ∧ plan.schemaVersion ≠ "0.10" ∧
    plan.schemaVersion ≠ "0.11") .unsupported
  failIf (specs.length > limits.maxBindings ∨ limits.maxBindings > 64 ∨ limits.maxChannels > 64 ∨
    limits.maxIdentityBytes > 256 ∨ limits.maxAccountedBytes > 64 * 1024 * 1024) .limitExceeded
  match countChannels limits specs 0 with
  | none => throw .limitExceeded
  | some total => do
    let session : Session :=
      { plan := plan
        identity := allocator.identity
        accounted := sizes.impl + sizes.session + sizes.identity }
    let session ← session.charge limits specs.length sizes.binding
    let session ← session.charge limits total sizes.channel
    failIf (allocator.tables = false) .allocationFailed
    specs.foldlM (openBinding allocator sizes limits) session

end ProtocolAdapter.HostEndpoint
