/-
This file models the operations of the public host endpoint. An operation resolves its handle
and checks its arguments, then runs the codec or the framer of one channel, and hands what
they produce to the callbacks. A callback that throws leaves its channel faulted until the
channel is reset.
-/

import ProtocolAdapter.PublicApi.HostTypes

namespace ProtocolAdapter.PublicApi

open Foundation Description

open Codec (MutableByteBuffer)

open Framing (StatefulSink FrameSinkAction)

/-! ### The host -/

/-- A binding with its range of channels and the messages it can encode. -/
structure HostBinding where
  endpoint : List UInt8
  action : HostAction
  pipelineIndex : Nat
  encodeMessageIndices : List Nat := []
  firstChannel : Nat
  channelCount : Nat

/-- A channel: its codec, its framer when it decodes a stream, and its encode buffer. -/
structure HostChannel where
  bindingIndex : Nat
  generation : Nat := 1
  faulted : Bool := false
  codec : CompleteRecordCodec
  framer : Option StreamFramer := none
  encodeBuffer : MutableByteBuffer := {}

/-- A host. Its scope is its identity among all hosts. -/
structure HostEndpoint where
  state : CompiledProtocolArtifacts
  scope : Nat
  bindings : List HostBinding
  channels : List HostChannel
  memory : HostMemoryReport

/-- Replaces a channel. -/
def HostEndpoint.withChannel (host : HostEndpoint) (index : Nat) (channel : HostChannel) :
    HostEndpoint :=
  { host with channels := host.channels.set index channel }

/-- The channel a handle names, or the status that says why it names none. -/
def HostEndpoint.resolve (host : HostEndpoint) (alive : Nat → Bool) (handle : HostChannelHandle) :
    Except HostStatus (Nat × HostChannel) :=
  if handle.assigned = false then .error .invalidBinding
  else if handle.scope ≠ host.scope then
    .error (if alive handle.scope then .foreignHandle else .expiredHandle)
  else
    match host.channels[handle.channelIndex]? with
    | none => .error .invalidBinding
    | some channel =>
      if handle.generation ≠ channel.generation then .error .staleHandle
      else .ok (handle.channelIndex, channel)

/-! ### Find, observe and reset -/

/-- Finds the channel of an endpoint. -/
def HostEndpoint.find (host : HostEndpoint) (context : CallContext) (endpointKey : List UInt8)
    (action : HostAction) (decodeStreamIndex : Nat) : Access HostFindResult :=
  match context.refusal host.scope with
  | some status => some { status := status }
  | none =>
    if endpointKey = [] then some {}
    else
      match host.bindings.find? fun binding =>
        binding.endpoint == endpointKey && binding.action == action with
      | none => some { status := .invalidBinding }
      | some binding =>
        if decodeStreamIndex ≥ binding.channelCount then some { status := .invalidBinding }
        else do
          let index := binding.firstChannel + decodeStreamIndex
          let channel ← host.channels[index]?
          some { status := .ok, handle := ⟨host.scope, index, channel.generation, true⟩ }

/-- Observes a channel. -/
def HostEndpoint.observe (host : HostEndpoint) (context : CallContext)
    (handle : HostChannelHandle) : Access HostObservation :=
  match context.refusal host.scope with
  | some status => some { status := status }
  | none =>
    match host.resolve context.alive handle with
    | .error status => some { status := status }
    | .ok (_, channel) => do
      let binding ← host.bindings[channel.bindingIndex]?
      let observed : HostObservation :=
        { status := .ok
          action := binding.action
          generation := channel.generation
          resetRequired := channel.faulted
          stream := channel.framer.isSome }
      match channel.framer with
      | none => some observed
      | some framer =>
        let framing := framer.observe {}
        some { observed with
          framing := framing
          status := if framing.status ≠ .ok then .framingFailed else .ok }

/-- Resets a channel: its candidate, its views and its fault go, and its generation advances. -/
def HostEndpoint.reset (host : HostEndpoint) (context : CallContext)
    (handle : HostChannelHandle) : HostStatus × HostEndpoint :=
  match context.refusal host.scope with
  | some status => (status, host)
  | none =>
    match host.resolve context.alive handle with
    | .error status => (status, host)
    | .ok (index, channel) =>
      if channel.generation = maxUint64 then (.generationExhausted, host)
      else
        let renewed : HostChannel := { channel with
          codec := channel.codec.advanceViewEpoch
          generation := channel.generation + 1
          faulted := false }
        match channel.framer with
        | none => (.ok, host.withChannel index renewed)
        | some framer =>
          match framer.reset {} with
          | (.ok, framer) => (.ok, host.withChannel index { renewed with framer := framer })
          | (_, framer) =>
            (.framingFailed, host.withChannel index { channel with framer := framer })

/-! ### Candidates -/

/-- The codecs of a host of which only the one at a place can be read. A callback reads no
other while that codec works. -/
def codecAt (place : Nat) (codec : CompleteRecordCodec) : Codecs :=
  List.replicate place ({} : CompleteRecordCodec) ++ [codec]

/-- Reads all of a record. -/
def DecodedRecordView.reading (view : DecodedRecordView) (codecs : Codecs) :
    Access RecordReading := do
  let fields ← (List.range (view.fieldCount codecs)).mapM fun ordinal =>
    (view.fieldAt ordinal).reading codecs
  some
    { hasValue := view.hasValue codecs
      messageIndex := view.messageIndex codecs
      fields := fields }

section

variable {σ : Type}

/-- What an operation has done so far: the channel, the result, the memory of the callbacks,
and the candidates it has handled. -/
structure HostAttempt (σ : Type) where
  channel : HostChannel
  result : HostOperationResult
  memory : σ
  handled : List HandledCandidate := []

/-- Calls a callback under its scope. One that throws leaves the channel faulted. -/
def HostAttempt.invoke {View : Type} (attempt : HostAttempt σ) (scopes : List Nat)
    (callback : HostCallback σ View) (view : View) (record : RecordReading) :
    CallbackEnd × HostAttempt σ :=
  let (run, memory) := callback scopes attempt.memory view record
  match run with
  | .returned _ => (run, { attempt with memory := memory })
  | .threw =>
    (run, { attempt with
      memory := memory
      channel := { attempt.channel with faulted := true }
      result := { attempt.result with status := .callbackFailed, resetRequired := true } })

/-- Whether a callback lets the operation go on. -/
def CallbackEnd.continues (run : CallbackEnd) : Bool := run = .returned .continue

/-- Whether a callback has returned. -/
def CallbackEnd.completed (run : CallbackEnd) : Bool := run ≠ .threw

/-- Shows a decoded candidate to the observer, when there is one. -/
def invokeObserver (scopes : List Nat) (observer : Option (HostCallback σ HostCandidateView))
    (view : HostCandidateView) (record : RecordReading) (attempt : HostAttempt σ) :
    Option CallbackEnd × HostAttempt σ :=
  match observer with
  | none => (none, attempt)
  | some function =>
    let (run, attempt) := attempt.invoke scopes function view record
    (some run,
      if run.completed then
        { attempt with result := { attempt.result with
            observerCallbacksReturned := attempt.result.observerCallbacksReturned + 1 } }
      else attempt)

/-- Hands a successful output to the business sink. -/
def invokeBusiness (scopes : List Nat) (sink : HostCallback σ HostOutputView)
    (view : HostOutputView) (record : RecordReading) (attempt : HostAttempt σ) :
    CallbackEnd × HostAttempt σ :=
  let (run, attempt) := attempt.invoke scopes sink view record
  (run,
    if run.completed then
      { attempt with result := { attempt.result with
          businessCallbacksReturned := attempt.result.businessCallbacksReturned + 1 } }
    else attempt)

/-- Accounts a decode with a status. -/
def HostOperationResult.decoded (result : HostOperationResult) (status : CodecStatus) :
    HostOperationResult :=
  let result := { result with
    candidates := result.candidates + 1
    decodeAttempts := result.decodeAttempts + 1
    codecAttempted := true
    codecStatus := status }
  if status = .ok then { result with decodeSuccesses := result.decodeSuccesses + 1 }
  else
    { result with
      decodeFailures := result.decodeFailures + 1
      status := if result.status = .ok then .codecFailed else result.status }

/-- The view of a decoded candidate. -/
def candidateView (generation : Nat) (frame : ByteView) (decoded : DecodeResult) :
    HostCandidateView where
  generation := generation
  frame := frame
  decodeStatus := decoded.status
  record := decoded.record
  matchedMessageIndex := decoded.matchedMessageIndex
  requiredFieldCount := decoded.requiredFieldCount
  failedFieldFlatIndex := decoded.failedFieldFlatIndex
  conversionError := decoded.conversionError
  outputTainted := decoded.outputTainted

/-- The view of a record that was decoded successfully. -/
def outputView (generation : Nat) (frame : ByteView) (decoded : DecodeResult)
    (record : RecordReading) : HostOutputView where
  action := .decode
  generation := generation
  messageIndex := record.messageIndex
  record := decoded.record
  frame := frame

/-- Records a candidate as handled. -/
def HostAttempt.handle (attempt : HostAttempt σ) (candidate : HandledCandidate) :
    HostAttempt σ :=
  { attempt with handled := attempt.handled ++ [candidate] }

/-- Shows a decoded candidate to the observer and, when it was decoded successfully and the
observer did not throw, delivers it. Tells whether to go on. -/
def handOver (scopes : List Nat) (sink : HostCallback σ HostOutputView)
    (observer : Option (HostCallback σ HostCandidateView)) (frame : ByteView)
    (decoded : DecodeResult) (record : RecordReading) (attempt : HostAttempt σ) :
    Bool × HostAttempt σ :=
  let view := candidateView attempt.channel.generation frame decoded
  let (run, attempt) := invokeObserver scopes observer view record attempt
  let candidate : HandledCandidate :=
    { frame := frame, decoded := decoded, record := record, observed := run.map (view, ·) }
  if run.all (·.completed) = false then (false, attempt.handle candidate)
  else if decoded.status ≠ .ok then (run.all (·.continues), attempt.handle candidate)
  else
    let output := outputView attempt.channel.generation frame decoded record
    let (business, attempt) := invokeBusiness scopes sink output record attempt
    (run.all (·.continues) && business.continues,
      attempt.handle { candidate with delivered := some (output, business) })

/-- Decodes a candidate once, with the codec of the channel at an index, and hands it over. -/
def decodeCandidate (scopes : List Nat) (sink : HostCallback σ HostOutputView)
    (observer : Option (HostCallback σ HostCandidateView)) (index pipelineIndex : Nat)
    (frame : ByteView) (attempt : HostAttempt σ) : Access (Bool × HostAttempt σ) := do
  let (decoded, codec) ← attempt.channel.codec.decode index false pipelineIndex frame
  let record ← decoded.record.reading (codecAt index codec)
  some (handOver scopes sink observer frame decoded record { attempt with
    channel := { attempt.channel with codec := codec }
    result := attempt.result.decoded decoded.status })

/-! ### Decode, push and encode -/

/-- What an operation leaves behind. -/
structure OperationEnd (σ : Type) where
  result : HostOperationResult
  host : HostEndpoint
  memory : σ
  handled : List HandledCandidate := []
  encoded : Option (HostOutputView × CallbackEnd) := none

/-- An operation that ends without effect. -/
def HostEndpoint.refuse (host : HostEndpoint) (result : HostOperationResult)
    (status : HostStatus) (memory : σ) : OperationEnd σ :=
  { result := { result with status := status }, host := host, memory := memory }

/-- The end of an operation on the channel at an index. -/
def HostEndpoint.finish (host : HostEndpoint) (index : Nat) (attempt : HostAttempt σ) :
    OperationEnd σ :=
  { result := { attempt.result with resetRequired := attempt.channel.faulted }
    host := host.withChannel index attempt.channel
    memory := attempt.memory
    handled := attempt.handled }

/-- Decodes a complete record. -/
def HostEndpoint.decode (host : HostEndpoint) (context : CallContext)
    (handle : HostChannelHandle) (frame : ByteView) (callbacks : HostCallbacks σ) (memory : σ) :
    Access (OperationEnd σ) :=
  match context.refusal host.scope with
  | some status => some (host.refuse {} status memory)
  | none =>
    match host.resolve context.alive handle with
    | .error status => some (host.refuse {} status memory)
    | .ok (index, channel) => do
      let binding ← host.bindings[channel.bindingIndex]?
      let result : HostOperationResult := { generation := channel.generation }
      if binding.action ≠ .decode then some (host.refuse result .wrongAction memory)
      else if channel.framer.isSome then some (host.refuse result .wrongInputKind memory)
      else
        match callbacks.sink with
        | none => some (host.refuse result .invalidArgument memory)
        | some sink =>
          if frame.data = none ∧ frame.size ≠ 0 then
            some (host.refuse result .invalidArgument memory)
          else if channel.faulted then
            some (host.refuse { result with resetRequired := true } .resetRequired memory)
          else do
            let (_, attempt) ← decodeCandidate (callbackScope host.scope context.scopes) sink
              callbacks.observer index binding.pipelineIndex frame
              { channel := channel, result := { result with status := .ok }, memory := memory }
            some (host.finish index { attempt with
              result := { attempt.result with bytesConsumed := frame.size } })

/-- The sink that a host gives to the framer of a channel. -/
def candidateSink (scopes : List Nat) (sink : HostCallback σ HostOutputView)
    (observer : Option (HostCallback σ HostCandidateView)) (index pipelineIndex : Nat)
    (frameData : Option Nat) : StatefulSink (HostAttempt σ) := fun attempt frame => do
  let (continues, attempt) ← decodeCandidate scopes sink observer index pipelineIndex
    { data := frameData, bytes := frame } attempt
  some (if continues then .continue else .stop, attempt)

/-- Drives the framer of a channel over a chunk. -/
def pushChannel (scopes : List Nat) (sink : HostCallback σ HostOutputView)
    (observer : Option (HostCallback σ HostCandidateView)) (index pipelineIndex : Nat)
    (framer : StreamFramer) (input : ByteView) (attempt : HostAttempt σ) :
    Access (HostAttempt σ) := do
  let (framing, attempt, framer) ← framer.push {} input
    (some (candidateSink scopes sink observer index pipelineIndex framer.frameData)) attempt
  some { attempt with
    channel := { attempt.channel with framer := some framer }
    result := { attempt.result with
      framing := framing
      bytesConsumed := framing.bytesConsumed
      status :=
        if framing.status ≠ .ok ∧ attempt.result.status ≠ .callbackFailed then .framingFailed
        else attempt.result.status } }

/-- Submits a chunk to a stream. -/
def HostEndpoint.push (host : HostEndpoint) (context : CallContext) (handle : HostChannelHandle)
    (input : ByteView) (callbacks : HostCallbacks σ) (memory : σ) : Access (OperationEnd σ) :=
  match context.refusal host.scope with
  | some status => some (host.refuse {} status memory)
  | none =>
    match host.resolve context.alive handle with
    | .error status => some (host.refuse {} status memory)
    | .ok (index, channel) => do
      let binding ← host.bindings[channel.bindingIndex]?
      let result : HostOperationResult := { generation := channel.generation }
      if binding.action ≠ .decode then some (host.refuse result .wrongAction memory)
      else
        match channel.framer with
        | none => some (host.refuse result .wrongInputKind memory)
        | some framer =>
          match callbacks.sink with
          | none => some (host.refuse result .invalidArgument memory)
          | some sink =>
            if input.data = none ∧ input.size ≠ 0 then
              some (host.refuse result .invalidArgument memory)
            else if channel.faulted then
              some (host.refuse { result with resetRequired := true } .resetRequired memory)
            else do
              let attempt ← pushChannel (callbackScope host.scope context.scopes) sink
                callbacks.observer index binding.pipelineIndex framer input
                { channel := channel
                  result := { result with status := .ok, framingAttempted := true }
                  memory := memory }
              some (host.finish index attempt)

/-- Goes on with the internal work of a stream. -/
def HostEndpoint.continue (host : HostEndpoint) (context : CallContext)
    (handle : HostChannelHandle) (callbacks : HostCallbacks σ) (memory : σ) :
    Access (OperationEnd σ) :=
  host.push context handle {} callbacks memory

/-- Encodes on the channel of a binding, and delivers the record when it was encoded. -/
def encodeChannel (host : HostEndpoint) (scopes : List Nat) (index : Nat) (channel : HostChannel)
    (pipelineIndex messageIndex : Nat) (values : EncodeValues)
    (sink : HostCallback σ HostOutputView) (result : HostOperationResult) (memory : σ) :
    Access (OperationEnd σ) := do
  let encoded ← channel.codec.encode false pipelineIndex messageIndex values channel.encodeBuffer
  let buffer : MutableByteBuffer := { channel.encodeBuffer with contents := encoded.output }
  let channel := { channel with codec := encoded.codec, encodeBuffer := buffer }
  let result := { result with codecAttempted := true, codecStatus := encoded.result.status }
  if encoded.result.status ≠ .ok then
    some
      { result := { result with status := .codecFailed }
        host := host.withChannel index channel
        memory := memory }
  else
    let output : HostOutputView :=
      { action := .encode
        generation := channel.generation
        messageIndex := messageIndex
        bytes := ⟨buffer.data, encoded.output.take encoded.result.bytesWritten⟩ }
    let (run, attempt) := invokeBusiness scopes sink output {}
      { channel := channel
        result := { result with status := .ok, bytesProduced := encoded.result.bytesWritten }
        memory := memory }
    some { host.finish index attempt with encoded := some (output, run) }

/-- Encodes a message of a binding. -/
def HostEndpoint.encode (host : HostEndpoint) (context : CallContext)
    (handle : HostChannelHandle) (messageIndex : Nat) (values : EncodeValues)
    (sink : Option (HostCallback σ HostOutputView)) (memory : σ) : Access (OperationEnd σ) :=
  match context.refusal host.scope with
  | some status => some (host.refuse {} status memory)
  | none =>
    match host.resolve context.alive handle with
    | .error status => some (host.refuse {} status memory)
    | .ok (index, channel) => do
      let binding ← host.bindings[channel.bindingIndex]?
      let result : HostOperationResult := { generation := channel.generation }
      if binding.action ≠ .encode then some (host.refuse result .wrongAction memory)
      else if channel.faulted then
        some (host.refuse { result with resetRequired := true } .resetRequired memory)
      else if binding.encodeMessageIndices.contains messageIndex = false then
        some (host.refuse result .invalidArgument memory)
      else
        match sink with
        | none => some (host.refuse result .invalidArgument memory)
        | some function =>
          if values.data = none ∧ values.values.length ≠ 0 then
            some (host.refuse result .invalidArgument memory)
          else
            encodeChannel host (callbackScope host.scope context.scopes) index channel
              binding.pipelineIndex messageIndex values function result memory

/-! ### Calls -/

/-- What a call leaves: its reply, the host, the memory of its callbacks, and what happened. -/
structure HostOutcome (σ : Type) where
  reply : HostReply
  memory : σ
  handled : List HandledCandidate := []
  encoded : Option (HostOutputView × CallbackEnd) := none

/-- The outcome of an operation. -/
def OperationEnd.outcome (done : OperationEnd σ) : HostOutcome σ × HostEndpoint :=
  (⟨.operation done.result, done.memory, done.handled, done.encoded⟩, done.host)

/-- Makes a call. -/
def HostEndpoint.call (host : HostEndpoint) (call : HostCall σ) :
    Access (HostOutcome σ × HostEndpoint) :=
  let quiet (reply : HostReply) : HostOutcome σ := { reply := reply, memory := call.memory }
  match call.request with
  | .find endpointKey action decodeStreamIndex =>
    (host.find call.context endpointKey action decodeStreamIndex).map fun result =>
      (quiet (.find result), host)
  | .observe handle =>
    (host.observe call.context handle).map fun observed => (quiet (.observation observed), host)
  | .reset handle =>
    let (status, host) := host.reset call.context handle
    some (quiet (.status status), host)
  | .decode handle frame =>
    (host.decode call.context handle frame call.callbacks call.memory).map (·.outcome)
  | .push handle input =>
    (host.push call.context handle input call.callbacks call.memory).map (·.outcome)
  | .continue handle =>
    (host.continue call.context handle call.callbacks call.memory).map (·.outcome)
  | .encode handle messageIndex values =>
    (host.encode call.context handle messageIndex values call.callbacks.sink call.memory).map
      (·.outcome)

/-- Makes calls one after the other. -/
def HostEndpoint.run (host : HostEndpoint) :
    List (HostCall σ) → Access (List (HostOutcome σ) × HostEndpoint)
  | [] => some ([], host)
  | call :: rest => do
    let (outcome, host) ← host.call call
    let (outcomes, host) ← host.run rest
    some (outcome :: outcomes, host)

end

end ProtocolAdapter.PublicApi
