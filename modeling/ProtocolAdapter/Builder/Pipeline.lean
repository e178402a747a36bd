/-
This file models the rules of the builder for pipelines: the messages a pipeline
refers to, what a stream profile demands of them, and that no record can match two of
its binary messages. The messages are then indexed the way the codec searches them.
-/

import ProtocolAdapter.Builder.Message

namespace ProtocolAdapter

open Foundation

/-! ### Exclusion -/

/-- The length of the shortest record of a message. -/
def MessageExecutionPlan.minimumLength (message : MessageExecutionPlan) : Nat :=
  match message.boundedPayload with
  | some bounded => bounded.minFrameLength
  | none => message.frameSize

/-- The length of the longest record of a message. -/
def MessageExecutionPlan.maximumLength (message : MessageExecutionPlan) : Nat :=
  match message.boundedPayload with
  | some bounded => bounded.maxFrameLength
  | none => message.frameSize

/-- Whether sorted fixed bytes agree wherever both fix a byte. -/
def fixedBytesAgree : List FixedByteExecutionPlan → List FixedByteExecutionPlan → Bool
  | [], _ => true
  | _, [] => true
  | left :: lefts, right :: rights =>
    if left.offset < right.offset then fixedBytesAgree lefts (right :: rights)
    else if right.offset < left.offset then fixedBytesAgree (left :: lefts) rights
    else if left.value ≠ right.value then false
    else fixedBytesAgree lefts rights

/-- Whether a record could match two messages. -/
def fixedMatchersCanIntersect (left right : MessageExecutionPlan) : Bool :=
  if left.maximumLength < right.minimumLength || right.maximumLength < left.minimumLength then
    false
  else fixedBytesAgree left.fixedBytes right.fixedBytes

/-! ### Stream profiles -/

/-- Whether a CR LF profile cannot cut the records of a message's decode action. -/
def asciiCandidateInvalid (framing : FramingPlan) (message : MessagePlan)
    (prepared : MessageExecutionPlan) : Bool :=
  match prepared.textDecode with
  | none => false
  | some decode =>
    match message.asciiText.bind (·.decode) with
    | none => true
    | some action => decode.maxRecordLength > framing.maximumFrameLength ||
        !proveAsciiCrLfBoundary action message.fields

/-- Whether a profile with frames of one length cannot cut the records of a message. -/
def fixedFrameInvalid (framing : FramingPlan) (prepared : MessageExecutionPlan) : Bool :=
  (framing.strategy == .fixedLength || framing.strategy == .syncFixedLength) &&
    (prepared.minimumLength ≠ framing.frameLengthBytes ||
      prepared.maximumLength ≠ framing.frameLengthBytes)

/-- Whether the records of a message do not start with the sync pattern. -/
def syncBytesInvalid (framing : FramingPlan) (prepared : MessageExecutionPlan) : Bool :=
  framing.strategy ≠ .fixedLength &&
    framing.syncBytes.zipIdx.any fun (byte, offset) =>
      findFixedByte prepared.fixedBytes offset ≠ some byte

/-- Whether the records of a message do not state their length where the profile reads
it. -/
def lengthFieldInvalid (framing : FramingPlan) (message : MessagePlan)
    (prepared : MessageExecutionPlan) : Bool :=
  framing.strategy == .syncLengthField &&
    (prepared.minimumLength < framing.minimumFrameLength ||
      prepared.maximumLength > framing.maximumFrameLength ||
      match message.computedLength with
      | none => true
      | some computed => computed.scope ≠ .frame ||
          computed.storageOffset ≠ framing.lengthFieldOffset ||
          computed.storageWidth ≠ framing.lengthFieldWidth ||
          computed.byteOrder ≠ framing.lengthFieldByteOrder)

/-- Whether a stream profile cannot cut the records of a message. -/
def streamMessageInvalid (framing : FramingPlan) (message : MessagePlan)
    (prepared : MessageExecutionPlan) : Bool :=
  if framing.strategy = .asciiCrlf then asciiCandidateInvalid framing message prepared
  else fixedFrameInvalid framing prepared || syncBytesInvalid framing prepared ||
    lengthFieldInvalid framing message prepared

/-! ### The index of a pipeline -/

/-- The number of bits of a word of the allowed-message set. -/
def bitsPerAllowedMessageWord : Nat := 64

/-- The number of words a set of the given size needs. -/
def wordCount (size : Nat) : Nat :=
  size / bitsPerAllowedMessageWord + if size % bitsPerAllowedMessageWord = 0 then 0 else 1

/-- Appends a message to the candidate group of its frame size; the groups stay sorted. -/
def insertCandidate (frameSize messageIndex : Nat) :
    List PreparedCandidateGroupExecutionPlan → List PreparedCandidateGroupExecutionPlan
  | [] => [⟨frameSize, [messageIndex]⟩]
  | group :: rest =>
    if frameSize < group.frameSize then ⟨frameSize, [messageIndex]⟩ :: group :: rest
    else if frameSize = group.frameSize then
      { group with messageIndices := group.messageIndices ++ [messageIndex] } :: rest
    else group :: insertCandidate frameSize messageIndex rest

/-- Adds a message to the set of allowed messages. -/
def allowMessage (words : List Nat) (messageIndex : Nat) : List Nat :=
  words.modify (messageIndex / bitsPerAllowedMessageWord)
    (· ||| 1 <<< (messageIndex % bitsPerAllowedMessageWord))

/-- Enters a message into the index: text messages with a decode action, bounded
messages, and fixed messages each in their own list, and text messages without a
decode action in none. -/
def PipelineExecutionPlan.enter (pipeline : PipelineExecutionPlan) (messageIndex : Nat)
    (prepared : MessageExecutionPlan) : PipelineExecutionPlan :=
  let allowed := { pipeline with
    allowedMessageWords := allowMessage pipeline.allowedMessageWords messageIndex }
  if prepared.textDecode.isSome then
    { allowed with textMessageIndices := allowed.textMessageIndices ++ [messageIndex] }
  else if prepared.textEncode.isSome then allowed
  else if prepared.boundedPayload.isSome then
    { allowed with variableMessageIndices := allowed.variableMessageIndices ++ [messageIndex] }
  else
    { allowed with
      candidateGroups := insertCandidate prepared.frameSize messageIndex allowed.candidateGroups }

/-- The variables of the loop over the messages of a pipeline. -/
structure PipelineLoopState where
  seen : List Nat := []
  execution : PreparedPipelineExecutionPlan

/-- Whether an earlier message of the pipeline can match a record of this one. -/
def ambiguousWith (executions : List PreparedMessageExecutionPlan)
    (prepared : PreparedMessageExecutionPlan) (earlierIndex : Nat) : Bool :=
  executions[earlierIndex]?.any fun earlier =>
    earlier.textDecode.isNone && prepared.textDecode.isNone &&
      fixedMatchersCanIntersect earlier prepared

/-- One round of the loop over the messages of a pipeline. -/
def preparePipelineMessage (draft : PlanDraftData)
    (executions : List PreparedMessageExecutionPlan) (pipelineIndex : Nat)
    (pipeline : PipelinePlan) (framing : FramingPlan) (state : PipelineLoopState)
    (messageIndex : Nat) : BuildResult PipelineLoopState := do
  let diagnostic : PlanBuildDiagnostic :=
    { code := .invalidPipelinePlan, pipelineIndex := pipelineIndex, messageIndex := messageIndex }
  match draft.messages[messageIndex]?, executions[messageIndex]? with
  | some message, some prepared => do
    rejectIf (messageIndex ∈ state.seen ∨ message.directionId ≠ pipeline.directionId) diagnostic
    rejectIf (framing.inputKind = .streamChunk ∧ streamMessageInvalid framing message prepared)
      diagnostic
    rejectIf (state.seen.any (ambiguousWith executions prepared))
      { diagnostic with code := .ambiguousMatcher }
    pure
      { seen := messageIndex :: state.seen
        execution := state.execution.enter messageIndex prepared }
  | _, _ => .error diagnostic

/-- One round of the loop over the pipelines. A CR LF profile needs a decode action. -/
def preparePipeline (draft : PlanDraftData) (executions : List PreparedMessageExecutionPlan)
    (pipelineIds : List String) (pipelineIndex : Nat) (pipeline : PipelinePlan) :
    BuildResult PreparedPipelineExecutionPlan := do
  let diagnostic : PlanBuildDiagnostic :=
    { code := .invalidPipelinePlan, pipelineIndex := pipelineIndex }
  rejectIf (¬isStableId pipeline.id ∨ ¬isStableId pipeline.directionId ∨
    pipeline.id ∈ pipelineIds ∨ pipeline.messageIndices = []) diagnostic
  match draft.framingProfiles[pipeline.framingProfileIndex]? with
  | none => .error diagnostic
  | some framing => do
    let start : PipelineLoopState :=
      { execution :=
          { framingProfileIndex := pipeline.framingProfileIndex
            allowedMessageWords := List.replicate (wordCount draft.messages.length) 0 } }
    let state ← pipeline.messageIndices.foldlM
      (preparePipelineMessage draft executions pipelineIndex pipeline framing) start
    -- under this profile the messages with a decode action are the candidates counted
    rejectIf (framing.strategy = .asciiCrlf ∧ state.execution.textMessageIndices = []) diagnostic
    pure state.execution

/-- Prepares the pipelines of a draft in order. -/
def preparePipelines (draft : PlanDraftData) (executions : List PreparedMessageExecutionPlan) :
    List PipelinePlan → Nat → List String → BuildResult (List PreparedPipelineExecutionPlan)
  | [], _, _ => .ok []
  | pipeline :: rest, pipelineIndex, pipelineIds => do
    let execution ← preparePipeline draft executions pipelineIds pipelineIndex pipeline
    let later ← preparePipelines draft executions rest (pipelineIndex + 1)
      (pipeline.id :: pipelineIds)
    pure (execution :: later)

end ProtocolAdapter
