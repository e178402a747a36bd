/-
This file models the operations of a session. An operation checks its handle and its
arguments, then runs the codec or the framer of one channel, and hands what they produce
to the callbacks of the host. A callback that throws leaves its channel faulted.
-/

import ProtocolAdapter.HostEndpoint.Session

namespace ProtocolAdapter.HostEndpoint

open Codec Framing Foundation

/-! ### Handles -/

/-- The handle of a channel, by the endpoint, the action and the stream of its binding. -/
def Session.find (session : Session) (endpoint : List UInt8) (action : Action) (stream : Nat) :
    Handle :=
  if session.busy then {}
  else
    match session.bindings.find? fun binding =>
      binding.endpoint == endpoint && binding.action == action && stream < binding.count with
    | none => {}
    | some binding => { scope := session.identity, channel := binding.first + stream }

/-- The channel a handle names, when it is a handle of this session. -/
def Session.resolve (session : Session) (handle : Handle) : Option (Nat × Channel) :=
  if handle.scope = some session.identity then
    session.channels[handle.channel]?.map fun channel => (handle.channel, channel)
  else none

/-- Replaces a channel, at the end of an operation. -/
def Session.withChannel (session : Session) (index : Nat) (channel : Channel) : Session :=
  { session with channels := session.channels.set index channel, busy := false }

/-- Observes a channel. -/
def Session.observe (session : Session) (handle : Handle) : Observation :=
  if session.busy then { status := .busy }
  else
    match session.resolve handle with
    | none => {}
    | some (_, channel) =>
      { status := .ok
        generation := channel.generation
        resetRequired := channel.faulted
        stream := channel.framer.isSome
        framing := (channel.framer.map (·.observe)).getD {} }

/-- Resets a decode channel: its candidate and its fault go, and its generation advances. -/
def Session.reset (session : Session) (handle : Handle) : Access (Status × Session) :=
  if session.busy then some (.busy, session)
  else
    match session.resolve handle with
    | none => some (.invalidBinding, session)
    | some (index, channel) => do
      let binding ← session.bindings[channel.binding]?
      if binding.action ≠ .decode then some (.invalidBinding, session)
      else if channel.generation = maxUint64 then some (.limitExceeded, session)
      else
        let renewed : Channel :=
          { channel with generation := channel.generation + 1, faulted := false }
        match channel.framer with
        | none => some (.ok, session.withChannel index renewed)
        | some framer =>
          match resetStreamFramingWorkspace session.plan framer binding.pipeline with
          | (.ok, framer) => some (.ok, session.withChannel index { renewed with framer := framer })
          | (_, framer) =>
            some (.framingFailed, session.withChannel index { channel with framer := framer })

section

variable {σ : Type}

/-! ### Candidates -/

/-- What an operation has done so far: the channel, the result, and the state of the host. -/
structure Attempt (σ : Type) where
  channel : Channel
  result : Result
  host : σ

/-- Hands a successful output to the business sink, and tells whether to go on. -/
def deliver (plan : PlanBundle) (sink : Callback σ Output) (output : Output)
    (attempt : Attempt σ) : Bool × Attempt σ :=
  let output := { output with
    plan := some plan.address, generation := attempt.channel.generation }
  match sink attempt.host output with
  | (.returned action, host) =>
    (action = .continue, { attempt with
      result := { attempt.result with
        successfulOutputs := attempt.result.successfulOutputs + 1 }
      host := host })
  | (.threw, host) =>
    (false,
      { channel := { attempt.channel with faulted := true }
        result := { attempt.result with status := .callbackFailed }
        host := host })

/-- Shows a candidate to the observer, and tells whether to go on; there is no answer when
the observer threw. -/
def observeCandidate (observer : Option (Callback σ Candidate)) (candidate : Candidate)
    (attempt : Attempt σ) : Option Bool × Attempt σ :=
  match observer with
  | none => (some true, attempt)
  | some function =>
    match function attempt.host candidate with
    | (.returned action, host) =>
      (some (action = .continue), { attempt with
        result := { attempt.result with
          observedCandidates := attempt.result.observedCandidates + 1 }
        host := host })
    | (.threw, host) =>
      (none,
        { channel := { attempt.channel with faulted := true }
          result := { attempt.result with status := .callbackFailed }
          host := host })

/-- The raw integers a host can read from a workspace. -/
def lastRawIntegers (plan : PlanBundle) (workspace : ExecutionWorkspace) :
    Access (List (Option RawIntegerValue)) :=
  (List.range workspace.lastRawIntegerCount).mapM (workspace.getLastRawInteger plan)

/-- Accounts the status of a decode. -/
def Result.decoded (result : Result) (status : CodecStatus) : Result :=
  let result := { result with codecAttempted := true, codecStatus := status }
  if status ≠ .ok then
    { result with decodeFailures := result.decodeFailures + 1, status := .codecFailed }
  else { result with decodeSuccesses := result.decodeSuccesses + 1 }

/-- Shows a decoded candidate to the observer and, when it was decoded successfully, delivers
it to the business sink. -/
def handOver (plan : PlanBundle) (sink : Callback σ Output)
    (observer : Option (Callback σ Candidate)) (candidate : Candidate) (attempt : Attempt σ) :
    Bool × Attempt σ :=
  match observeCandidate observer candidate attempt with
  | (none, attempt) => (false, attempt)
  | (some continueObserving, attempt) =>
    if candidate.decoded.status ≠ .ok then (continueObserving, attempt)
    else
      let (continueBusiness, attempt) := deliver plan sink
        { messageIndex := candidate.decoded.messageIndex, fields := candidate.fields } attempt
      (continueBusiness && continueObserving, attempt)

/-- Decodes a candidate and hands it over. -/
def decodeCandidate (plan : PlanBundle) (pipeline : Nat) (bytes : ByteView)
    (sink : Callback σ Output) (observer : Option (Callback σ Candidate)) (attempt : Attempt σ) :
    Access (Bool × Attempt σ) := do
  let call ← decodeCompleteRecord plan attempt.channel.core pipeline bytes attempt.channel.fields
  let decoded := call.result
  let rawIntegers ←
    if decoded.status = .ok then lastRawIntegers plan call.workspace else some []
  let candidate : Candidate :=
    { generation := attempt.channel.generation
      plan := some plan.address
      frame := bytes
      decoded := decoded
      fields := if decoded.status = .ok then call.slots.take decoded.fieldCount else []
      rawIntegers := rawIntegers }
  some (handOver plan sink observer candidate
    { channel := { attempt.channel with
        core := call.workspace, fields := { attempt.channel.fields with slots := call.slots } }
      result := attempt.result.decoded decoded.status
      host := attempt.host })

/-! ### The operations -/

/-- What an operation leaves behind. -/
structure OperationEnd (σ : Type) where
  result : Result
  session : Session
  host : σ

/-- An operation that ends without effect. -/
def Session.refuse (session : Session) (result : Result) (status : Status) (host : σ) :
    OperationEnd σ :=
  ⟨{ result with status := status }, session, host⟩

/-- The end of an operation on a channel. -/
def Session.finish (session : Session) (index : Nat) (attempt : Attempt σ) : OperationEnd σ :=
  ⟨attempt.result, session.withChannel index attempt.channel, attempt.host⟩

/-- Decodes a complete record on a channel that is not a stream. -/
def Session.decode (session : Session) (handle : Handle) (bytes : ByteView)
    (callbacks : Callbacks σ) (host : σ) : Access (OperationEnd σ) :=
  if session.busy then some (session.refuse {} .busy host)
  else
    match session.resolve handle with
    | none => some (session.refuse {} .invalidBinding host)
    | some (index, channel) => do
      let result : Result := { generation := channel.generation }
      let binding ← session.bindings[channel.binding]?
      if binding.action ≠ .decode then some (session.refuse result .invalidBinding host)
      else if channel.framer.isSome then some (session.refuse result .wrongInputKind host)
      else if channel.faulted then some (session.refuse result .resetRequired host)
      else
        match callbacks.sink with
        | none => some (session.refuse result .invalidArgument host)
        | some sink =>
          if bytes.data = none ∧ bytes.size ≠ 0 then
            some (session.refuse result .invalidArgument host)
          else do
            let (_, attempt) ← decodeCandidate session.plan binding.pipeline bytes sink
              callbacks.observer ⟨channel, { result with status := .ok }, host⟩
            some (session.finish index attempt)

/-- The sink that a session gives to the framer of a channel. -/
def candidateSink (plan : PlanBundle) (pipeline : Nat) (frameData : Option Nat)
    (sink : Callback σ Output) (observer : Option (Callback σ Candidate)) :
    StatefulSink (Attempt σ) := fun attempt frame => do
  let (continues, attempt) ←
    decodeCandidate plan pipeline { data := frameData, bytes := frame } sink observer attempt
  some (if continues then .continue else .stop, attempt)

/-- Drives the framer of a channel over a chunk. -/
def pushChannel (plan : PlanBundle) (pipeline : Nat) (framer : StreamFramingWorkspace)
    (bytes : ByteView) (sink : Callback σ Output) (observer : Option (Callback σ Candidate))
    (attempt : Attempt σ) : Access (Attempt σ) := do
  let (attempt, final) ← pushStreamChunkWith plan framer pipeline bytes
    (candidateSink plan pipeline attempt.channel.frameData sink observer) attempt
  let attempt : Attempt σ := { attempt with
    channel := { attempt.channel with framer := final.workspace }
    result := { attempt.result with framing := final.result } }
  if final.result.apiStatus ≠ .ok then
    some { attempt with
      channel := { attempt.channel with faulted := true }
      result := { attempt.result with status := .framingFailed } }
  else some attempt

/-- Submits a chunk to a stream channel. An empty chunk is accepted only while the framer
has internal work. -/
def Session.push (session : Session) (handle : Handle) (bytes : ByteView)
    (callbacks : Callbacks σ) (host : σ) : Access (OperationEnd σ) :=
  if session.busy then some (session.refuse {} .busy host)
  else
    match session.resolve handle with
    | none => some (session.refuse {} .invalidBinding host)
    | some (index, channel) => do
      let result : Result := { generation := channel.generation }
      let binding ← session.bindings[channel.binding]?
      if binding.action ≠ .decode then some (session.refuse result .invalidBinding host)
      else
        match channel.framer with
        | none => some (session.refuse result .wrongInputKind host)
        | some framer =>
          if channel.faulted then some (session.refuse result .resetRequired host)
          else
            match callbacks.sink with
            | none => some (session.refuse result .invalidArgument host)
            | some sink =>
              if (bytes.data = none ∧ bytes.size ≠ 0) ∨
                  (bytes.size = 0 ∧ framer.observe.hasInternalWork = false) then
                some (session.refuse result .invalidArgument host)
              else do
                let attempt ← pushChannel session.plan binding.pipeline framer bytes sink
                  callbacks.observer
                  ⟨channel, { result with status := .ok, framingAttempted := true }, host⟩
                some (session.finish index attempt)

/-- Copies the named values into the slots of a channel, each with the reference of its
field, and tells whether all of them could be resolved. -/
def resolveValues (plan : PlanBundle) (message : Nat) (fields : List FrozenFieldPlan) :
    List (NamedValue × Nat) → List EncodeFieldValue → Bool × List EncodeFieldValue
  | [], slots => (true, slots)
  | (named, index) :: rest, slots =>
    if named.value.field ≠ {} then (false, slots)
    else
      match lastIndex (·.id == named.fieldId) fields with
      | none => (false, slots)
      | some field =>
        resolveValues plan message fields rest
          (slots.set index { named.value with field := ⟨some plan.address, message, field⟩ })

/-- Encodes on a channel, and delivers the record when it was encoded. -/
def encodeChannel (plan : PlanBundle) (pipeline message count : Nat) (sink : Callback σ Output)
    (attempt : Attempt σ) : Access (Attempt σ) := do
  let channel := attempt.channel
  let call ← encodeCompleteRecord plan channel.core pipeline message
    { channel.values with values := channel.values.values.take count } channel.bytes
  let encoded := call.result
  let attempt : Attempt σ :=
    { channel := { channel with
        core := call.workspace, bytes := { channel.bytes with contents := call.output } }
      result := { attempt.result with
        codecAttempted := true
        codecStatus := encoded.status
        status := if encoded.status = .ok then .ok else .codecFailed }
      host := attempt.host }
  if encoded.status = .ok then
    some (deliver plan sink
      { action := .encode
        messageIndex := message
        bytes := ⟨channel.bytes.data, call.output.take encoded.bytesWritten⟩ } attempt).2
  else some attempt

/-- Encodes a message, given by its name, from named values. Its result does not tell the
generation of the channel. -/
def Session.encode (session : Session) (handle : Handle) (messageId : String)
    (values : NamedValues) (sink : Option (Callback σ Output)) (host : σ) :
    Access (OperationEnd σ) :=
  if session.busy then some (session.refuse {} .busy host)
  else
    match session.resolve handle with
    | none => some (session.refuse {} .invalidBinding host)
    | some (index, channel) => do
      let binding ← session.bindings[channel.binding]?
      if binding.action ≠ .encode then some (session.refuse {} .invalidBinding host)
      else if channel.faulted then some (session.refuse {} .resetRequired host)
      else do
        let bound ← session.plan.pipelines[binding.pipeline]?
        let ids ← bound.messageIndices.mapM fun candidate =>
          session.plan.messages[candidate]?.map fun message => (message, candidate)
        match (ids.filter (·.1.id == messageId)).getLast? with
        | none => some (session.refuse {} .invalidBinding host)
        | some (plan, message) => do
          let supported ← supports session.plan message .encode
          if supported = false then some (session.refuse {} .unsupported host)
          else
            match sink with
            | none => some (session.refuse {} .invalidArgument host)
            | some sink =>
              if (values.values ≠ [] ∧ values.data = none) ∨
                  values.values.length > channel.values.values.length then
                some (session.refuse {} .invalidArgument host)
              else
                let (resolved, slots) := resolveValues session.plan message plan.fields
                  values.values.zipIdx channel.values.values
                let channel := { channel with values := { channel.values with values := slots } }
                if resolved = false then
                  some (session.finish index
                    ⟨channel, { status := .invalidBinding }, host⟩)
                else do
                  let attempt ← encodeChannel session.plan binding.pipeline message
                    values.values.length sink ⟨channel, {}, host⟩
                  some (session.finish index attempt)

/-! ### Calls -/

/-- A call of a host on its session. -/
inductive Call (σ : Type) where
  | decode (handle : Handle) (bytes : ByteView) (callbacks : Callbacks σ)
  | push (handle : Handle) (bytes : ByteView) (callbacks : Callbacks σ)
  | encode (handle : Handle) (messageId : String) (values : NamedValues)
      (sink : Option (Callback σ Output))
  | reset (handle : Handle)

/-- Makes a call. The result of a reset is its status alone. -/
def Session.call (session : Session) (host : σ) : Call σ → Access (OperationEnd σ)
  | .decode handle bytes callbacks => session.decode handle bytes callbacks host
  | .push handle bytes callbacks => session.push handle bytes callbacks host
  | .encode handle messageId values sink => session.encode handle messageId values sink host
  | .reset handle =>
    (session.reset handle).map fun (status, session) => ⟨{ status := status }, session, host⟩

/-- Makes the calls of a host one after the other, and collects their results. -/
def Session.run (session : Session) (host : σ) :
    List (Call σ) → Access (List Result × Session × σ)
  | [] => some ([], session, host)
  | call :: rest => do
    let done ← session.call host call
    let (results, session, host) ← done.session.run done.host rest
    some (done.result :: results, session, host)

end

end ProtocolAdapter.HostEndpoint
