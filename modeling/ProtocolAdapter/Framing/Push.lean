/-
This file models the submission of a chunk to the stream framer. One round of the
framer's loop is a function from the state of the submission to either the next
round or the end of the call, with one definition for each state of the workspace.
The inner loops of the copy and rescan states re-enter the same state, so each of
their iterations is a round here. Every round charges its work before it consumes
or moves anything, which bounds the number of rounds.
-/

import ProtocolAdapter.Framing.Workspace
import ProtocolAdapter.Foundation.PrefixTable

namespace ProtocolAdapter.Framing

open Foundation

/-! ### The submission -/

/-- The answer of a sink. Stopping does not take back the delivered frame. -/
inductive FrameSinkAction where
  | continue
  | stop
  deriving DecidableEq

/-- A sink answers every frame of a submission, given its ordinal in the call. -/
abbrev FrameSinkFunction := Nat → List UInt8 → FrameSinkAction

/-- The sink of a submission; the function is absent for a null pointer. -/
structure FrameSink where
  function : Option FrameSinkFunction := none

/-- The state of a submission between two rounds. `delivered` lists the frames
handed to the sink so far. -/
structure PushState where
  workspace : StreamFramingWorkspace
  result : SubmitResult := {}
  inputIndex : Nat := 0
  delivered : List (List UInt8) := []

/-- A round of the loop either continues or ends the call. -/
inductive Round where
  | continue (next : PushState)
  | stop (final : PushState)

/-- Spends work units, unless the budget of the call is exhausted. -/
def PushState.charge (push : PushState) (amount : Nat) : Option PushState :=
  if amount > push.workspace.maxWorkUnits - push.result.workUnitsUsed then none
  else some { push with
    result := { push.result with workUnitsUsed := push.result.workUnitsUsed + amount } }

/-- Ends the call because the work budget or the frame quota is reached. -/
def PushState.budgetStop (push : PushState) : Round :=
  .stop { push with result := { push.result with stopReason := .workBudgetReached } }

/-- Ends the call with an internal error. -/
def PushState.internalError (push : PushState) : Round :=
  .stop { push with result := { push.result with apiStatus := .internalError } }

/-- Accounts discarded bytes in the result and in the lifetime statistics. -/
def PushState.recordDiscard (push : PushState) (amount : Nat) : PushState :=
  { push with
    result := { push.result with bytesDiscarded := push.result.bytesDiscarded + amount }
    workspace := { push.workspace with
      totalDiscardedBytes := push.workspace.totalDiscardedBytes + amount } }

/-- Accounts a malformed candidate. -/
def PushState.recordMalformed (push : PushState) (issue : FramingIssue) : PushState :=
  { push with
    result := { push.result with
      malformedCandidates := push.result.malformedCandidates + 1
      lastFramingIssue := issue }
    workspace := { push.workspace with
      totalMalformedCandidates := push.workspace.totalMalformedCandidates + 1 } }

/-- Replaces the workspace. -/
def PushState.withWorkspace (push : PushState) (workspace : StreamFramingWorkspace) : PushState :=
  { push with workspace := workspace }

/-- The call ends because the input is used up. -/
def PushState.inputEnd (push : PushState) : Round :=
  let stopReason : SubmitStopReason :=
    if push.workspace.hasInternalWork then .workBudgetReached
    else if push.workspace.hasHalfFrame then .needMore
    else .inputExhausted
  .stop { push with result := { push.result with stopReason := stopReason } }

/-- Consumes the next input byte. -/
def PushState.consume (push : PushState) : PushState :=
  { push with
    inputIndex := push.inputIndex + 1
    result := { push.result with bytesConsumed := push.result.bytesConsumed + 1 } }

/-- Appends a byte to the candidate buffer. -/
def StreamFramingWorkspace.appendByte (workspace : StreamFramingWorkspace) (byte : UInt8) :
    StreamFramingWorkspace :=
  { workspace with
    buffer := workspace.buffer.set workspace.bufferedSize byte
    bufferedSize := workspace.bufferedSize + 1 }

/-- Whether the candidate buffer is full. -/
def StreamFramingWorkspace.bufferFull (workspace : StreamFramingWorkspace) : Bool :=
  workspace.bufferedSize ≥ workspace.buffer.length

/-- Hands a frame to the sink and returns its answer with the state after the call. -/
def PushState.deliver (push : PushState) (sink : FrameSinkFunction) :
    FrameSinkAction × PushState :=
  let frame := push.workspace.buffer.take push.workspace.bufferedSize
  (sink push.result.framesDelivered frame,
    { push with
      result := { push.result with framesDelivered := push.result.framesDelivered + 1 }
      delivered := push.delivered ++ [frame]
      workspace := push.workspace.resetCandidate })

/-! ### One round in each state -/

/-- A pending frame is delivered unless the quota is used up. -/
def deliverPendingRound (sink : FrameSinkFunction) (push : PushState) : Round :=
  if push.result.framesDelivered ≥ push.workspace.maxFramesPerSubmit then push.budgetStop
  else
    let (action, next) := push.deliver sink
    match action with
    | .stop => .stop { next with result := { next.result with stopReason := .sinkStop } }
    | .continue => .continue next

/-- Collects one byte of a CR LF record; the terminator is tested before the limit. -/
def collectAsciiRound (input : List UInt8) (push : PushState) : Round :=
  match input[push.inputIndex]? with
  | none => push.inputEnd
  | some byte =>
    match push.charge 2 with
    | none => push.budgetStop
    | some push =>
      if push.workspace.bufferFull then push.internalError
      else
        let push := push.consume
        let workspace := push.workspace.appendByte byte
        let terminated := workspace.bufferedSize ≥ 2 &&
          workspace.buffer[workspace.bufferedSize - 2]? == some 0x0D && byte == 0x0A
        if terminated then
          .continue (push.withWorkspace { workspace with state := .deliverPending })
        else if workspace.bufferedSize = workspace.buffer.length then
          let push := (push.withWorkspace workspace).recordMalformed .recordTooLong
          let push := push.recordDiscard workspace.bufferedSize
          .continue (push.withWorkspace { push.workspace with
            previousWasCr := byte == 0x0D
            bufferedSize := 0
            state := .discardUntilCrlf })
        else .continue (push.withWorkspace workspace)

/-- Drops one byte of a record that is too long, up to its terminator. -/
def discardUntilCrlfRound (input : List UInt8) (push : PushState) : Round :=
  match input[push.inputIndex]? with
  | none => push.inputEnd
  | some byte =>
    match push.charge 2 with
    | none => push.budgetStop
    | some push =>
      let push := push.consume.recordDiscard 1
      let terminated := push.workspace.previousWasCr && byte == 0x0A
      if terminated then
        .continue (push.withWorkspace { push.workspace with
          previousWasCr := false
          state := .collectAscii })
      else
        .continue (push.withWorkspace { push.workspace with previousWasCr := byte == 0x0D })

/-- Copies one frozen sync byte into the candidate, or leaves the copy state. -/
def copySyncRound (push : PushState) : Round :=
  match push.workspace.framing.syncBytes[push.workspace.copySyncIndex]? with
  | some byte =>
    match push.charge 1 with
    | none => push.budgetStop
    | some push =>
      if push.workspace.bufferFull then push.internalError
      else
        let workspace := push.workspace.appendByte byte
        .continue (push.withWorkspace { workspace with
          copySyncIndex := workspace.copySyncIndex + 1 })
  | none =>
    let workspace := { push.workspace with copySyncIndex := 0 }
    match workspace.framing.strategy with
    | .syncFixedLength =>
      let target := workspace.framing.frameLengthBytes
      .continue (push.withWorkspace { workspace with
        targetSize := target
        state := if workspace.bufferedSize = target then .deliverPending else .collectDeclared })
    | _ => .continue (push.withWorkspace { workspace with state := .readLength })

/-- Work units of one symbol: one to enter, two for each fallback, one to compare. -/
def scanUnits (framing : FrozenFramingPlan) (matched : Nat) (byte : UInt8) : Nat :=
  2 + 2 * PrefixTable.fallbackCount framing.syncBytes framing.syncPrefixTable matched byte

/-- Rescans one byte behind a bad candidate, or resumes the search in the input. -/
def rescanInvalidRound (push : PushState) : Round :=
  let workspace := push.workspace
  if workspace.rescanIndex < workspace.bufferedSize then
    let byte := workspace.buffer.getD workspace.rescanIndex 0
    let sync := workspace.framing.syncBytes
    let nextMatch :=
      PrefixTable.advance sync workspace.framing.syncPrefixTable workspace.rescanMatch byte
    match push.charge (scanUnits workspace.framing workspace.rescanMatch byte) with
    | none => push.budgetStop
    | some push =>
      let rescanIndex := workspace.rescanIndex + 1
      let workspace := { workspace with rescanMatch := nextMatch, rescanIndex := rescanIndex }
      if nextMatch = sync.length then
        .continue (push.withWorkspace { workspace with
          compactStart := rescanIndex - sync.length
          compactSize := workspace.bufferedSize - (rescanIndex - sync.length)
          compactMoved := 0
          state := .compactInvalid })
      else .continue (push.withWorkspace workspace)
  else
    let retained := workspace.rescanMatch
    let push := push.recordDiscard (workspace.bufferedSize - retained)
    .continue (push.withWorkspace { push.workspace with
      bufferedSize := 0
      syncMatch := retained
      rescanIndex := 0
      rescanMatch := 0
      state := .searchSync })

/-- The overlapping copy of a block to a lower position of the buffer. -/
def moveBytes (buffer : List UInt8) (destination source count : Nat) : List UInt8 :=
  buffer.take destination ++ (buffer.drop source).take count ++ buffer.drop (destination + count)

/-- Ends the compaction: the recovered candidate starts the buffer. -/
def finishCompact (push : PushState) : Round :=
  let push := push.recordDiscard push.workspace.compactStart
  .continue (push.withWorkspace { push.workspace with
    bufferedSize := push.workspace.compactSize
    compactStart := 0
    compactSize := 0
    compactMoved := 0
    rescanIndex := 0
    rescanMatch := 0
    state := .readLength })

/-- Moves as much of the recovered candidate as the budget allows. -/
def compactInvalidRound (push : PushState) : Round :=
  let workspace := push.workspace
  let remaining := workspace.compactSize - workspace.compactMoved
  let available := workspace.maxWorkUnits - push.result.workUnitsUsed
  if remaining ≠ 0 then
    let chunk := min remaining available
    if chunk = 0 then push.budgetStop
    else
      match push.charge chunk with
      | none => push.budgetStop
      | some push =>
        let push := push.withWorkspace { workspace with
          buffer := moveBytes workspace.buffer workspace.compactMoved
            (workspace.compactStart + workspace.compactMoved) chunk
          compactMoved := workspace.compactMoved + chunk }
        if push.workspace.compactMoved ≠ push.workspace.compactSize then push.budgetStop
        else finishCompact push
  else finishCompact push

/-- Reads the declared length from the candidate buffer, most significant byte first. -/
def readDeclared (framing : FrozenFramingPlan) (buffer : List UInt8) : Nat :=
  let width := framing.lengthFieldWidth
  (List.range width).foldl (fun declared index =>
    let encodedIndex :=
      if framing.lengthFieldByteOrder = .little then width - 1 - index else index
    (declared <<< 8) ||| (buffer.getD (framing.lengthFieldOffset + encodedIndex) 0).toNat) 0

/-- Completes the header of the candidate and then admits or rejects its length. -/
def readLengthRound (input : List UInt8) (push : PushState) : Round :=
  let framing := push.workspace.framing
  let headerEnd := framing.lengthFieldOffset + framing.lengthFieldWidth
  if push.workspace.bufferedSize < headerEnd then
    match input[push.inputIndex]? with
    | none => push.inputEnd
    | some byte =>
      match push.charge 2 with
      | none => push.budgetStop
      | some push =>
        if push.workspace.bufferFull then push.internalError
        else .continue (push.consume.withWorkspace (push.workspace.appendByte byte))
  else
    match push.charge framing.lengthFieldWidth with
    | none => push.budgetStop
    | some push =>
      let declared := readDeclared framing push.workspace.buffer
      if declared < framing.minimumFrameLength ∨ declared > framing.maximumFrameLength ∨
          declared > push.workspace.buffer.length then
        let push := push.recordMalformed .malformedLength
        .continue (push.withWorkspace { push.workspace with
          rescanIndex := 1
          rescanMatch := 0
          state := .rescanInvalid })
      else
        .continue (push.withWorkspace { push.workspace with
          targetSize := declared
          state := if push.workspace.bufferedSize = declared then .deliverPending
            else .collectDeclared })

/-- Collects one byte of a candidate whose length is known. -/
def collectRound (input : List UInt8) (push : PushState) : Round :=
  if push.workspace.bufferedSize = push.workspace.targetSize then
    .continue (push.withWorkspace { push.workspace with state := .deliverPending })
  else
    match input[push.inputIndex]? with
    | none => push.inputEnd
    | some byte =>
      match push.charge 2 with
      | none => push.budgetStop
      | some push =>
        if push.workspace.bufferFull then push.internalError
        else .continue (push.consume.withWorkspace (push.workspace.appendByte byte))

/-- Matches one input byte against the sync pattern. -/
def searchSyncRound (input : List UInt8) (push : PushState) : Round :=
  match input[push.inputIndex]? with
  | none => push.inputEnd
  | some byte =>
    let workspace := push.workspace
    let sync := workspace.framing.syncBytes
    let oldMatch := workspace.syncMatch
    let nextMatch := PrefixTable.advance sync workspace.framing.syncPrefixTable oldMatch byte
    match push.charge (scanUnits workspace.framing oldMatch byte) with
    | none => push.budgetStop
    | some push =>
      let push := push.consume
      if nextMatch = sync.length then
        .continue (push.withWorkspace { workspace with
          syncMatch := 0
          bufferedSize := 0
          copySyncIndex := 0
          state := .copySync })
      else
        .continue
          ((push.withWorkspace { workspace with syncMatch := nextMatch }).recordDiscard
            (oldMatch + 1 - nextMatch))

/-! ### The call -/

/-- One round of the submission loop. -/
def pushRound (input : List UInt8) (sink : FrameSinkFunction) (push : PushState) : Round :=
  match push.workspace.state with
  | .deliverPending => deliverPendingRound sink push
  | .collectAscii => collectAsciiRound input push
  | .discardUntilCrlf => discardUntilCrlfRound input push
  | .copySync => copySyncRound push
  | .rescanInvalid => rescanInvalidRound push
  | .compactInvalid => compactInvalidRound push
  | .readLength => readLengthRound input push
  | .collectFixed | .collectDeclared => collectRound input push
  | .searchSync => searchSyncRound input push

/-- The submission loop for at most `fuel` rounds. -/
def pushLoop (input : List UInt8) (sink : FrameSinkFunction) : Nat → PushState → Option PushState
  | 0, _ => none
  | fuel + 1, push =>
    match pushRound input sink push with
    | .continue next => pushLoop input sink fuel next
    | .stop final => some final

/-- The rounds one submission can take: at most four rounds in a row neither spend a
work unit nor deliver a frame. -/
def roundLimit (workspace : StreamFramingWorkspace) : Nat :=
  5 * (workspace.maxWorkUnits + workspace.maxFramesPerSubmit) + 5

/-- A call that is answered before it touches the workspace. -/
def PushState.refuse (workspace : StreamFramingWorkspace) (apiStatus : SubmitApiStatus) :
    PushState :=
  { workspace := workspace, result := { apiStatus := apiStatus } }

/-- Submits a chunk to a workspace of the plan and returns the state the call ends in.
There is none when the loop does not end, which `pushStreamChunk_isSome` excludes. -/
def pushStreamChunk (plan : PlanBundle) (workspace : StreamFramingWorkspace)
    (pipelineIndex : Nat) (input : ByteView) (sink : FrameSink) : Option PushState :=
  match sink.function with
  | none => some (.refuse workspace .invalidArgument)
  | some function =>
    if input.data = none ∧ input.size ≠ 0 then some (.refuse workspace .invalidArgument)
    else if ¬supportsStreamSchema plan.schemaVersion ∨ pipelineIndex ≥ plan.pipelines.length then
      some (.refuse workspace .invalidPlan)
    else if workspace.planScope ≠ plan.address ∨ workspace.pipelineIndex ≠ pipelineIndex then
      some (.refuse workspace .workspacePlanMismatch)
    else if workspace.inCallback then some (.refuse workspace .reentrantCall)
    else if workspace.inUse then some (.refuse workspace .workspaceBusy)
    else if input.size > workspace.maxSubmitBytes then some (.refuse workspace .limitExceeded)
    else pushLoop input.bytes function (roundLimit workspace) { workspace := workspace }

/-- Drops the candidate of a workspace of the plan. -/
def resetStreamFramingWorkspace (plan : PlanBundle) (workspace : StreamFramingWorkspace)
    (pipelineIndex : Nat) : SubmitApiStatus × StreamFramingWorkspace :=
  if workspace.planScope ≠ plan.address ∨ workspace.pipelineIndex ≠ pipelineIndex then
    (.workspacePlanMismatch, workspace)
  else if workspace.inCallback then (.reentrantCall, workspace)
  else if workspace.inUse then (.workspaceBusy, workspace)
  else (.ok, workspace.resetCandidate)

end ProtocolAdapter.Framing
