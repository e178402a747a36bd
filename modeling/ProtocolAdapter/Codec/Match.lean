/-
This file models how the codec finds the message of a record: fixed messages are grouped
by their length and the group is found by binary search, bounded and text messages are
tried one by one. It also models the two lookups of the codec, the messages a pipeline
allows and the entries of an enumeration.
-/

import ProtocolAdapter.Builder.Pipeline
import ProtocolAdapter.Codec.TextWalk
import ProtocolAdapter.Foundation.BinarySearch

namespace ProtocolAdapter.Codec

open Foundation

/-! ### Candidates -/

/-- The group of the fixed messages of a length. -/
def findCandidateGroup (pipeline : PipelineExecutionPlan) (frameSize : Nat) :
    Access (Option CandidateGroupExecutionPlan) := do
  let groups := pipeline.candidateGroups
  let first ← BinarySearch.lowerBound
    (fun middle => groups[middle]?.map fun group => group.frameSize < frameSize)
    groups.length 0 groups.length
  if first = groups.length then some none
  else do
    let group ← groups[first]?
    some (if group.frameSize ≠ frameSize then none else some group)

/-- Whether an input has the given fixed bytes, up to the first it has not. -/
def fixedBytesMatch (input : List UInt8) : List FixedByteExecutionPlan → Access Bool
  | [] => some true
  | fixed :: rest => do
    let byte ← input[fixed.offset]?
    if byte ≠ fixed.value then some false else fixedBytesMatch input rest

/-- Whether an input has the length of a message. -/
def lengthMatches (message : MessageExecutionPlan) (size : Nat) : Bool :=
  match message.boundedPayload with
  | some bounded => !(size < bounded.minFrameLength || size > bounded.maxFrameLength)
  | none => size == message.frameSize

/-- Whether an input has the length and the fixed bytes of a message. -/
def messageMatches (message : MessageExecutionPlan) (input : List UInt8) : Access Bool :=
  if lengthMatches message input.length = false then some false
  else fixedBytesMatch input message.fixedBytes

/-- How many messages match, and the first of them. -/
structure MatchOutcome where
  matchCount : Nat := 0
  messageIndex : Nat := invalidIndex
  deriving DecidableEq

/-- Counts a match. -/
def MatchOutcome.count (outcome : MatchOutcome) (messageIndex : Nat) : MatchOutcome :=
  { matchCount := outcome.matchCount + 1
    messageIndex := if outcome.matchCount + 1 = 1 then messageIndex else outcome.messageIndex }

/-- Tries one message. -/
def tryMessage (messages : List MessageExecutionPlan)
    (rule : MessageExecutionPlan → Access Bool) (outcome : MatchOutcome) (messageIndex : Nat) :
    Access MatchOutcome := do
  let message ← messages[messageIndex]?
  let found ← rule message
  some (if found then outcome.count messageIndex else outcome)

/-- The messages of a pipeline that an input matches. -/
def findPipelineMatch (pipeline : PipelineExecutionPlan) (messages : List MessageExecutionPlan)
    (input : List UInt8) : Access MatchOutcome := do
  let group ← findCandidateGroup pipeline input.length
  let candidates := match group with
    | none => []
    | some group => group.messageIndices
  let outcome ← candidates.foldlM (tryMessage messages (messageMatches · input)) {}
  let outcome ← pipeline.variableMessageIndices.foldlM
    (tryMessage messages (messageMatches · input)) outcome
  pipeline.textMessageIndices.foldlM (tryMessage messages (textMessageMatches · input)) outcome

/-! ### Lookups -/

/-- Whether a message belongs to a pipeline. -/
def messageIsAllowed (pipeline : PipelineExecutionPlan) (messageIndex : Nat) : Access Bool := do
  let word ← pipeline.allowedMessageWords[messageIndex / bitsPerAllowedMessageWord]?
  some ((word &&& 1 <<< (messageIndex % bitsPerAllowedMessageWord)) ≠ 0)

/-- The entry of an enumeration that has a raw value. -/
def findEnumEntry (message : MessageExecutionPlan) (field : FieldExecutionPlan)
    (rawValue : Nat) : Access (Option Nat) := do
  let stop := field.enumLookupBegin + field.enumLookupCount
  let first ← BinarySearch.lowerBound
    (fun middle => message.enumLookupEntries[middle]?.map fun entry => entry.rawValue < rawValue)
    field.enumLookupCount field.enumLookupBegin stop
  if first = stop then some none
  else do
    let entry ← message.enumLookupEntries[first]?
    some (if entry.rawValue ≠ rawValue then none else some entry.entryIndex)

end ProtocolAdapter.Codec
