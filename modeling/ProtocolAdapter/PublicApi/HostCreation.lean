/-
This file models how a public host endpoint is created. The bindings are admitted one after the
other under the limits of the host; then every channel gets its codec, its framer when it
decodes a stream, and its buffer when it encodes. The buffer of an encode channel is as large as
the longest record of its pipeline.
-/

import ProtocolAdapter.PublicApi.HostOperations

namespace ProtocolAdapter.PublicApi

open Foundation Description

/-! ### The encode capacity of a pipeline -/

/-- What a host needs to encode the messages of a pipeline. -/
structure EncodePipelineCapacity where
  valid : Bool := false
  available : Bool := false
  messageCount : Nat := 0
  maximumOutputSize : Nat := 0
  deriving DecidableEq

/-- What a pipeline can do with its message at an association. -/
def associatedExecution (state : CompiledProtocolArtifacts) (pipelineIndex association : Nat) :
    Option MessageExecutionDescription := do
  let messageIndex ← pipelineMessageIndex state pipelineIndex association
  pipelineMessageExecution state pipelineIndex messageIndex

/-- Adds up the messages at some associations. -/
def addEncodeMessages (state : CompiledProtocolArtifacts) (pipelineIndex : Nat) :
    List Nat → EncodePipelineCapacity → EncodePipelineCapacity
  | [], result => result
  | association :: rest, result =>
    match associatedExecution state pipelineIndex association with
    | none => { result with valid := false }
    | some execution =>
      if execution.encodeAvailable = false then addEncodeMessages state pipelineIndex rest result
      else if execution.encodeOutputSizeKind = .notAvailable then { result with valid := false }
      else if result.messageCount = maxUint64 then { result with valid := false }
      else
        addEncodeMessages state pipelineIndex rest { result with
          available := true
          messageCount := result.messageCount + 1
          maximumOutputSize :=
            if execution.encodeOutputSize > result.maximumOutputSize then
              execution.encodeOutputSize
            else result.maximumOutputSize }

/-- The messages of a pipeline that can be encoded: their number, and the size of the longest
record. -/
def queryEncodePipelineCapacity (state : CompiledProtocolArtifacts) (pipelineIndex : Nat) :
    EncodePipelineCapacity :=
  match pipelineMessageCount state pipelineIndex with
  | none => {}
  | some count => addEncodeMessages state pipelineIndex (List.range count) { valid := true }

/-- The messages of a pipeline that can be encoded. -/
def encodeMessageIndices (state : CompiledProtocolArtifacts) (pipelineIndex count : Nat) :
    List Nat :=
  (List.range count).filterMap fun association => do
    let messageIndex ← pipelineMessageIndex state pipelineIndex association
    let execution ← pipelineMessageExecution state pipelineIndex messageIndex
    if execution.encodeAvailable then some messageIndex else none

/-! ### Translations -/

def mapCodecCreateStatus : CodecStatus → HostStatus
  | .ok => .ok
  | .invalidCompiledProtocol => .invalidCompiledProtocol
  | .resourceLimitExceeded => .resourceLimitExceeded
  | .allocationFailed => .allocationFailed
  | _ => .internalError

def mapFramerCreateStatus : StreamFramerStatus → HostStatus
  | .ok => .ok
  | .invalidCompiledProtocol => .invalidCompiledProtocol
  | .resourceLimitExceeded => .resourceLimitExceeded
  | .allocationFailed => .allocationFailed
  | .pipelineOutOfRange | .inputKindNotStream | .invalidArgument => .invalidBinding
  | _ => .internalError

/-! ### Reports -/

/-- Makes additions to a report, up to the first that cannot be represented. -/
def addReports (report : HostMemoryReport) :
    List (HostMemoryReport → Option HostMemoryReport) → HostMemoryReport × Bool
  | [] => (report, true)
  | add :: rest =>
    match add report with
    | none => (report, false)
    | some report => addReports report rest

/-- Adds to the total. -/
def addTotal (size : Nat) (report : HostMemoryReport) :
    Option HostMemoryReport :=
  (checkedAdd report.hostAccountedTotalBytes size).map fun total =>
    { report with hostAccountedTotalBytes := total }

/-- Adds to the number of allocations. -/
def addAllocations (count : Nat) (report : HostMemoryReport) :
    Option HostMemoryReport :=
  (checkedAdd report.allocationCount count).map fun total =>
    { report with allocationCount := total }

def addCodec (size : Nat) (report : HostMemoryReport) : Option HostMemoryReport :=
  (checkedAdd report.codecAccountedBytes size).map fun total =>
    { report with codecAccountedBytes := total }

def addFramer (size : Nat) (report : HostMemoryReport) :
    Option HostMemoryReport :=
  (checkedAdd report.framerAccountedBytes size).map fun total =>
    { report with framerAccountedBytes := total }

/-! ### Limits -/

def hardMaxBindings : Nat := 64

def hardMaxChannels : Nat := 64

def hardMaxIdentityBytes : Nat := 256

def hardMaxAccountedBytes : Nat := 64 * 1024 * 1024

/-- Whether limits admit no host with a number of bindings. -/
def HostLimits.refuse (limits : HostLimits) (bindingCount : Nat) : Bool :=
  limits.maxBindings = 0 || limits.maxBindings > hardMaxBindings ||
    limits.maxChannels = 0 || limits.maxChannels > hardMaxChannels ||
    limits.maxIdentityBytes = 0 || limits.maxIdentityBytes > hardMaxIdentityBytes ||
    limits.maxAccountedBytes = 0 || limits.maxAccountedBytes > hardMaxAccountedBytes ||
    bindingCount > limits.maxBindings

/-- Whether a binding asks for other limits of its framer than the default ones. -/
def hasFramingOverrides (options : StreamFramerOptions) : Bool := options ≠ {}

/-- The sizes of the objects of a host on the target. -/
structure HostSizes where
  hostEndpoint : Nat
  impl : Nat
  scopeToken : Nat
  compiledState : Nat
  binding : Nat
  channel : Nat
  index : Nat
  codec : CodecSizes
  framer : FramerSizes

/-! ### Admission -/

/-- What the bindings admitted so far need. -/
structure HostAdmission where
  report : HostMemoryReport
  totalChannels : Nat := 0
  encodeChannelCount : Nat := 0
  encodeBindingCount : Nat := 0

/-- Admits the identity of a binding. -/
def admitIdentity (state : CompiledProtocolArtifacts) (limits : HostLimits)
    (earlier : List HostBindingSpec) (spec : HostBindingSpec) (admission : HostAdmission) :
    Except HostStatus HostAdmission := do
  rejectIf (spec.endpointKey.length > limits.maxIdentityBytes) .resourceLimitExceeded
  rejectIf (spec.endpointKey = [] ∨ spec.pipelineIndex ≥ state.plan.pipelines.length)
    .invalidBinding
  rejectIf (earlier.any (fun prior =>
    prior.action == spec.action && prior.endpointKey == spec.endpointKey) = true) .duplicateBinding
  match checkedAdd admission.report.identityStorageBytes (spec.endpointKey.length + 1) with
  | none => .error .resourceLimitExceeded
  | some bytes =>
    .ok { admission with report := { admission.report with identityStorageBytes := bytes } }

/-- Admits the channels of a binding. -/
def admitChannels (limits : HostLimits) (count : Nat) (admission : HostAdmission) :
    Except HostStatus HostAdmission :=
  match checkedAdd admission.totalChannels count with
  | none => .error .resourceLimitExceeded
  | some total => do
    rejectIf (total > limits.maxChannels) .resourceLimitExceeded
    pure { admission with totalChannels := total }

/-- Admits a binding that decodes: a message of its pipeline can be decoded. -/
def admitDecode (state : CompiledProtocolArtifacts) (limits : HostLimits) (spec : HostBindingSpec)
    (associations : Nat) (admission : HostAdmission) : Except HostStatus HostAdmission := do
  rejectIf (spec.decodeStreamCount = 0) .invalidBinding
  let admission ← admitChannels limits spec.decodeStreamCount admission
  rejectIf ((List.range associations).any (fun association =>
    ((associatedExecution state spec.pipelineIndex association).getD {}).decodeAvailable) = false)
    .invalidBinding
  pure admission

/-- Admits a binding that encodes: a message of its pipeline can be encoded. -/
def admitEncode (sizes : HostSizes) (state : CompiledProtocolArtifacts) (limits : HostLimits)
    (spec : HostBindingSpec) (admission : HostAdmission) : Except HostStatus HostAdmission := do
  rejectIf (spec.decodeStreamCount ≠ 1 ∨ hasFramingOverrides spec.framingOptions = true)
    .invalidBinding
  let capacity := queryEncodePipelineCapacity state spec.pipelineIndex
  rejectIf (capacity.valid = false) .invalidBinding
  match (checkedMultiply sizes.index capacity.messageCount).bind
      (checkedAdd admission.report.bindingStorageBytes),
    checkedAdd admission.report.encodeBufferBytes capacity.maximumOutputSize with
  | some bindingBytes, some bufferBytes => do
    let admission ← admitChannels limits 1 { admission with
      report := { admission.report with
        bindingStorageBytes := bindingBytes, encodeBufferBytes := bufferBytes } }
    rejectIf (capacity.available = false) .invalidBinding
    pure { admission with
      encodeBindingCount := admission.encodeBindingCount + 1
      encodeChannelCount :=
        admission.encodeChannelCount + if capacity.maximumOutputSize ≠ 0 then 1 else 0 }
  | _, _ => .error .resourceLimitExceeded

/-- Admits how a binding cuts its input. -/
def admitFraming (state : CompiledProtocolArtifacts) (spec : HostBindingSpec) :
    Except HostStatus Unit :=
  let stream := queryStreamFramingCapability state spec.pipelineIndex
  rejectIf (stream.status ≠ .ok ∨ (spec.action = .decode ∧ stream.available = false ∧
    hasFramingOverrides spec.framingOptions = true)) .invalidBinding

/-- Admits a binding after earlier ones. -/
def admitBinding (sizes : HostSizes) (state : CompiledProtocolArtifacts) (limits : HostLimits)
    (earlier : List HostBindingSpec) (spec : HostBindingSpec) (admission : HostAdmission) :
    Access (Except HostStatus HostAdmission) :=
  match admitIdentity state limits earlier spec admission with
  | .error status => some (.error status)
  | .ok admission => do
    let associations ← pipelineMessageCount state spec.pipelineIndex
    some (do
      let admission ← match spec.action with
        | .decode => admitDecode state limits spec associations admission
        | .encode => admitEncode sizes state limits spec admission
      admitFraming state spec
      pure admission)

/-- Admits bindings one after the other. -/
def admitBindings (sizes : HostSizes) (state : CompiledProtocolArtifacts) (limits : HostLimits) :
    List HostBindingSpec → List HostBindingSpec → HostAdmission →
      Access (Except HostStatus HostAdmission)
  | _, [], admission => some (.ok admission)
  | earlier, spec :: rest, admission => do
    match ← admitBinding sizes state limits earlier spec admission with
    | .error status => some (.error status)
    | .ok admission => admitBindings sizes state limits (earlier ++ [spec]) rest admission

/-! ### Channels -/

/-- What the allocator answers for memory of the host itself. -/
inductive HostAllocation where
  | allocated (address : Nat)
  | badAlloc
  | threw

/-- What the allocator answers while a host is created: for its tables, for the texts and the
tables of a binding, for the objects of a channel, and for the host. -/
structure HostAllocator where
  tables : HostAllocation
  binding : Nat → HostAllocation
  codec : Nat → CodecAllocation
  framer : Nat → FramerAllocation
  buffer : Nat → HostAllocation
  endpoint : HostAllocation

/-- A creation that has failed, with its report. -/
abbrev HostFailure := HostStatus × HostMemoryReport

/-- The address of allocated memory. -/
def allocate (report : HostMemoryReport) : HostAllocation → Except HostFailure Nat
  | .allocated address => .ok address
  | .badAlloc => .error (.allocationFailed, report)
  | .threw => .error (.internalError, report)

/-- Goes on with a report unless an addition could not be represented. -/
def requireReport : HostMemoryReport × Bool → Except HostFailure HostMemoryReport
  | (report, true) => .ok report
  | (report, false) => .error (.resourceLimitExceeded, report)

/-- Creates the codec of a channel. -/
def openCodec (sizes : HostSizes) (allocation : CodecAllocation)
    (state : CompiledProtocolArtifacts) (limits : HostLimits) (report : HostMemoryReport) :
    Except HostFailure (CompleteRecordCodec × HostMemoryReport) :=
  let created := createCompleteRecordCodec sizes.codec allocation (some state) limits.codecOptions
  match created.status, created.codec with
  | .ok, some codec => do
    let total := created.memory.codecAccountedTotalBytes
    let report ← requireReport (addReports report
      [addCodec total, addTotal total, addAllocations created.memory.allocationCount])
    pure (codec, report)
  | status, _ => .error (mapCodecCreateStatus status, report)

/-- Creates the framer of a channel, when it decodes a stream. -/
def openFramer (sizes : HostSizes) (allocation : FramerAllocation)
    (state : CompiledProtocolArtifacts) (spec : HostBindingSpec) (report : HostMemoryReport) :
    Except HostFailure (Option StreamFramer × HostMemoryReport) :=
  if spec.action = .decode ∧
      (queryStreamFramingCapability state spec.pipelineIndex).available = true then
    let created := createStreamFramer sizes.framer allocation (some state) spec.pipelineIndex
      spec.framingOptions
    match created.status, created.framer with
    | .ok, some framer => do
      let total := created.memory.framerAccountedTotalBytes
      let report ← requireReport (addReports report
        [addFramer total, addTotal total, addAllocations created.memory.allocationCount])
      pure (some framer, report)
    | status, _ => .error (mapFramerCreateStatus status, report)
  else .ok (none, report)

/-- Creates the buffer of a channel, when it encodes records. -/
def openBuffer (allocation : HostAllocation) (spec : HostBindingSpec) (capacity : Nat)
    (report : HostMemoryReport) : Except HostFailure Codec.MutableByteBuffer :=
  if spec.action = .encode ∧ capacity ≠ 0 then do
    let address ← allocate report allocation
    pure ⟨some address, List.replicate capacity 0⟩
  else .ok {}

/-- Creates the channel at an index, for a binding. -/
def openChannel (sizes : HostSizes) (allocator : HostAllocator)
    (state : CompiledProtocolArtifacts) (limits : HostLimits) (bindingIndex : Nat)
    (spec : HostBindingSpec) (capacity index : Nat) (report : HostMemoryReport) :
    Except HostFailure (HostChannel × HostMemoryReport) := do
  let (codec, report) ← openCodec sizes (allocator.codec index) state limits report
  let (framer, report) ← openFramer sizes (allocator.framer index) state spec report
  let encodeBuffer ← openBuffer (allocator.buffer index) spec capacity report
  rejectIf (report.hostAccountedTotalBytes > limits.maxAccountedBytes)
    (.resourceLimitExceeded, report)
  pure ({ bindingIndex, codec, framer, encodeBuffer }, report)

/-- Creates channels of a binding behind others. -/
def openChannels (sizes : HostSizes) (allocator : HostAllocator)
    (state : CompiledProtocolArtifacts) (limits : HostLimits) (bindingIndex : Nat)
    (spec : HostBindingSpec) (capacity : Nat) :
    Nat → List HostChannel → HostMemoryReport →
      Except HostFailure (List HostChannel × HostMemoryReport)
  | 0, channels, report => .ok (channels, report)
  | count + 1, channels, report => do
    let (channel, report) ← openChannel sizes allocator state limits bindingIndex spec capacity
      channels.length report
    openChannels sizes allocator state limits bindingIndex spec capacity count
      (channels ++ [channel]) report

/-- The number of channels of a binding. -/
def HostBindingSpec.channelCount (spec : HostBindingSpec) : Nat :=
  match spec.action with
  | .decode => spec.decodeStreamCount
  | .encode => 1

/-- The binding for a specification, with its first channel. -/
def bindSpec (state : CompiledProtocolArtifacts) (spec : HostBindingSpec) (firstChannel : Nat) :
    HostBinding where
  endpoint := spec.endpointKey
  action := spec.action
  pipelineIndex := spec.pipelineIndex
  encodeMessageIndices :=
    match spec.action with
    | .decode => []
    | .encode => encodeMessageIndices state spec.pipelineIndex
      ((pipelineMessageCount state spec.pipelineIndex).getD 0)
  firstChannel := firstChannel
  channelCount := spec.channelCount

/-- Creates the bindings with their channels, behind those created before. -/
def openBindings (sizes : HostSizes) (allocator : HostAllocator)
    (state : CompiledProtocolArtifacts) (limits : HostLimits) :
    List HostBindingSpec → List HostBinding → List HostChannel → HostMemoryReport →
      Except HostFailure (List HostBinding × List HostChannel × HostMemoryReport)
  | [], bindings, channels, report => .ok (bindings, channels, report)
  | spec :: rest, bindings, channels, report => do
    let _ ← allocate report (allocator.binding bindings.length)
    let capacity := (queryEncodePipelineCapacity state spec.pipelineIndex).maximumOutputSize
    let (opened, report) ← openChannels sizes allocator state limits bindings.length spec capacity
      spec.channelCount channels report
    openBindings sizes allocator state limits rest
      (bindings ++ [bindSpec state spec channels.length]) opened report

/-! ### Creation -/

structure HostEndpointCreateResult where
  status : HostStatus := .invalidArgument
  host : Option HostEndpoint := none
  memory : HostMemoryReport := {}

/-- The report of a host whose bindings were admitted, with its total. -/
def totalReport (admission : HostAdmission) (channelBytes : Nat) : HostMemoryReport × Bool :=
  let report := { admission.report with
    channelStorageBytes := channelBytes
    hostAccountedTotalBytes := admission.report.facadeBytes }
  addReports report
    [addTotal report.scopePayloadBytes, addTotal report.bindingStorageBytes,
      addTotal report.identityStorageBytes, addTotal report.channelStorageBytes,
      addTotal report.encodeBufferBytes]

/-- Opens a host whose bindings were admitted. -/
def openHost (sizes : HostSizes) (allocator : HostAllocator) (scope : Nat)
    (state : CompiledProtocolArtifacts) (specs : List HostBindingSpec) (limits : HostLimits)
    (report : HostMemoryReport) : Except HostFailure HostEndpoint := do
  let _ ← allocate report allocator.tables
  let (bindings, channels, report) ← openBindings sizes allocator state limits specs [] [] report
  let _ ← allocate report allocator.endpoint
  pure { state, scope, bindings, channels, memory := report }

/-- Creates a host whose bindings were admitted. -/
def createAdmitted (sizes : HostSizes) (allocator : HostAllocator) (scope : Nat)
    (state : CompiledProtocolArtifacts) (specs : List HostBindingSpec) (limits : HostLimits)
    (admission : HostAdmission) : HostEndpointCreateResult :=
  match checkedMultiply sizes.channel admission.totalChannels with
  | none => { status := .resourceLimitExceeded }
  | some channelBytes =>
    let (report, represented) := totalReport admission channelBytes
    if represented = false ∨ report.hostAccountedTotalBytes > limits.maxAccountedBytes then
      { status := .resourceLimitExceeded, memory := report }
    else
      let report := { report with
        allocationCount := 5 + specs.length + admission.encodeBindingCount +
          admission.encodeChannelCount }
      match openHost sizes allocator scope state specs limits report with
      | .error (status, report) => { status := status, memory := report }
      | .ok host => { status := .ok, host := some host, memory := host.memory }

/-- Creates a host for a compiled protocol. Its scope is new. -/
def createHostEndpoint (sizes : HostSizes) (allocator : HostAllocator) (scope : Nat)
    (compiled : Option CompiledProtocolArtifacts) (specs : List HostBindingSpec)
    (limits : HostLimits) : Access HostEndpointCreateResult :=
  match compiled with
  | none => some { status := .invalidCompiledProtocol }
  | some state =>
    if specs = [] then some {}
    else if limits.refuse specs.length = true then some { status := .resourceLimitExceeded }
    else
      match checkedMultiply sizes.binding specs.length with
      | none => some { status := .resourceLimitExceeded }
      | some bindingBytes => do
        let report : HostMemoryReport :=
          { facadeBytes := sizes.hostEndpoint + sizes.impl
            scopePayloadBytes := sizes.scopeToken
            bindingStorageBytes := bindingBytes
            retainedCompiledStateFacadeBytes := sizes.compiledState }
        match ← admitBindings sizes state limits [] specs { report := report } with
        | .error status => some { status := status }
        | .ok admission => some (createAdmitted sizes allocator scope state specs limits admission)

end ProtocolAdapter.PublicApi
