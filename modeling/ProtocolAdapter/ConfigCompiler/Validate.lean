/-
This file defines the domain validation of a package: unique identifiers, the stream
framing profiles, the messages, and the pipelines with the messages they refer to. A
validated schema keeps the fact that only bit members name a container, so that the
draft assembled from it is a draft the builder can take.
-/

import ProtocolAdapter.ConfigCompiler.ValidateMessage

namespace ProtocolAdapter.ConfigCompiler

open Foundation

/-! ### Framing profiles -/

/-- Checks that identifiers are unique, each given with the pointer of its record. -/
def buildUniqueIdIndex : List (String × ConfigOrigin) → List String → Compiled Unit
  | [], _ => .ok ()
  | (id, origin) :: rest, taken => do
    rejectIf (id ∈ taken)
      (domain .duplicateId (childPointer origin.jsonPointer "id")
        "stable ID is duplicated in its scope")
    buildUniqueIdIndex rest (id :: taken)

/-- Whether the members of an ASCII profile are not those of its strategy. -/
def asciiProfileInvalid (framing : FramingProfileIr) : Bool :=
  framing.syncBytes ≠ [0x0D, 0x0A] || framing.frameLengthBytes ≠ 0 ||
    framing.lengthFieldOffset ≠ 0 || framing.lengthFieldWidth ≠ 0 ||
    framing.lengthFieldByteOrder ≠ .notApplicable || framing.minimumFrameLength ≠ 0 ||
    framing.maximumFrameLength < 2

/-- Whether the length field and the bounds of a profile contradict each other. -/
def lengthFieldInvalid (framing : FramingProfileIr) : Bool :=
  framing.strategy ≠ .syncLengthField || framing.syncBytes = [] ||
    (framing.lengthFieldWidth ≠ 1 && framing.lengthFieldWidth ≠ 2 &&
      framing.lengthFieldWidth ≠ 4) ||
    (framing.lengthFieldWidth = 1 && framing.lengthFieldByteOrder ≠ .notApplicable) ||
    (framing.lengthFieldWidth ≠ 1 && framing.lengthFieldByteOrder ≠ .big &&
      framing.lengthFieldByteOrder ≠ .little) ||
    framing.minimumFrameLength = 0 || framing.minimumFrameLength > framing.maximumFrameLength ||
    framing.lengthFieldOffset > maxUint64 - framing.lengthFieldWidth ||
    framing.lengthFieldOffset + framing.lengthFieldWidth > framing.minimumFrameLength

/-- The largest value of a length field of the given width. -/
def lengthFieldRange (width : Nat) : Nat :=
  if width = 1 then 0xFF else if width = 2 then 0xFFFF else 0xFFFFFFFF

/-- Checks a profile whose frames declare their length. -/
def validateLengthFieldProfile (framing : FramingProfileIr) : Compiled Unit := do
  rejectIf (lengthFieldInvalid framing)
    (domain .fieldOutOfBounds framing.origin.jsonPointer
      "stream length field and frame bounds are inconsistent")
  rejectIf (framing.lengthFieldOffset < framing.syncBytes.length ∧
      framing.lengthFieldOffset + framing.lengthFieldWidth > 0)
    (domain .fieldOverlap (childPointer framing.origin.jsonPointer "length_field")
      "stream length field overlaps the offset-zero sync header")
  rejectIf (framing.maximumFrameLength > lengthFieldRange framing.lengthFieldWidth)
    (domain .valueNotRepresentable
      (childPointer framing.origin.jsonPointer "maximum_frame_length")
      "maximum stream frame length does not fit the length field")

/-- Checks the members of a framing profile against its strategy. A profile of whole
records with another strategy fails without setting a diagnostic. -/
def validateStreamFramingLocal (framing : FramingProfileIr) : Compiled Unit :=
  if framing.inputKind = .completeRecord then rejectIf (framing.strategy ≠ .completeRecord) {}
  else match framing.strategy with
    | .fixedLength => rejectIf (framing.frameLengthBytes = 0)
        (domain .integerOutOfRange (childPointer framing.origin.jsonPointer "frame_length_bytes")
          "fixed stream frame length must be greater than zero")
    | .syncFixedLength => rejectIf (framing.frameLengthBytes = 0 ∨ framing.syncBytes = [] ∨
          framing.syncBytes.length > framing.frameLengthBytes)
        (domain .fieldOutOfBounds framing.origin.jsonPointer
          "sync header must fit inside the fixed stream frame")
    | .asciiCrlf => rejectIf (asciiProfileInvalid framing)
        (domain .asciiStreamProfileMismatch framing.origin.jsonPointer
          "ASCII CRLF framing profile members are inconsistent")
    | .syncLengthField | .completeRecord => validateLengthFieldProfile framing

/-- The longest frame of a stream profile. -/
def streamFrameLimit (framing : FramingProfileIr) : Nat :=
  if framing.strategy = .syncLengthField ∨ framing.strategy = .asciiCrlf then
    framing.maximumFrameLength
  else framing.frameLengthBytes

/-- Validates one framing profile and accounts for it. -/
def validateFraming (requirements : ResourceRequirements) (framing : FramingProfileIr) :
    Compiled ResourceRequirements := do
  validateStreamFramingLocal framing
  if framing.inputKind = .streamChunk then do
    rejectIf (streamFrameLimit framing > maxUint64)
      (domain .integerOutOfRange framing.origin.jsonPointer
        "stream frame limit cannot be represented by this build")
    pure { requirements with
      maxStreamFrameBytes := max requirements.maxStreamFrameBytes (streamFrameLimit framing)
      maxSyncBytes := max requirements.maxSyncBytes framing.syncBytes.length }
  else pure requirements

/-! ### Messages of one pipeline -/

/-- The first value a clause fixes for an offset. -/
def fixedBytesOf (message : MessageIr) : FixedBytes :=
  (message.matcherClauses.filter fun matcher => matcher.kind = .fixedBytes).flatMap fun matcher =>
    matcher.bytes.zipIdx.map fun item => (matcher.byteOffset + item.2, item.1)

/-- The shortest frame of a message, as the comparison of two matchers takes it. -/
def minimumFrame (message : MessageIr) : Nat :=
  match message.boundedPayload with
  | some layout => layout.minFrameLength
  | none => message.frameLengthBytes

/-- Whether some frame can satisfy the matchers of two messages. -/
def fixedMatchersCanIntersect (left right : MessageIr) : Bool :=
  if left.asciiText.isSome ∨ right.asciiText.isSome then false
  else if left.frameLengthBytes < minimumFrame right ∨
      right.frameLengthBytes < minimumFrame left then false
  else (fixedBytesOf right).all fun item =>
    match (fixedBytesOf left).lookup item.1 with
    | some byte => byte = item.2
    | none => true

/-- The shortest and the longest frame of a message. -/
def messageFrameBounds (message : MessageIr) : Nat × Nat :=
  match message.boundedPayload with
  | some layout => (layout.minFrameLength, layout.maxFrameLength)
  | none => (message.frameLengthBytes, message.frameLengthBytes)

/-- Whether the matcher of a message fixes the synchronisation bytes at the start of the
frame. The first clause that reaches an offset decides it. -/
def messageHasSyncMatcher (message : MessageIr) (sync : List UInt8) : Bool :=
  sync.zipIdx.all fun (byte, offset) =>
    let clause := message.matcherClauses.find? fun matcher => matcher.kind = .fixedBytes &&
      matcher.byteOffset ≤ offset && offset - matcher.byteOffset < matcher.bytes.length
    match clause with
    | some matcher => matcher.bytes[offset - matcher.byteOffset]? = some byte
    | none => false

/-- Whether a message computes its frame length where the profile reads it. -/
def messageHasLengthField (message : MessageIr) (framing : FramingProfileIr) : Bool :=
  message.fields.any fun field => field.valueType = .uint64 &&
    (match field.computedLength with
      | some computed => computed.scope = .frame
      | none => false) &&
    field.wire.codec = .unsignedInteger && field.wire.byteOffset = framing.lengthFieldOffset &&
    field.wire.byteWidth = framing.lengthFieldWidth &&
    field.wire.byteOrder = framing.lengthFieldByteOrder

/-! ### Pipelines -/

/-- A pipeline with its references resolved to indices of the package. -/
structure ResolvedPipelineIr where
  framingProfileIndex : Nat
  messageIndices : List Nat
  deriving DecidableEq

/-- Resolves the message references of a pipeline in order; `resolved` are the indices
before, latest first. -/
def resolveMessages (messages : List MessageIr) (pipeline : PipelineIr) :
    List String → Nat → List String → List Nat → Compiled (List Nat)
  | [], _, _, resolved => .ok resolved.reverse
  | id :: rest, index, seen, resolved => do
    let pointer := indexPointer (childPointer pipeline.origin.jsonPointer "message_ids") index
    rejectIf (id ∈ seen)
      (domain .duplicateReference pointer "pipeline message reference is duplicated")
    match messages.zipIdx.find? fun item => item.1.id = id with
    | none => .error (domain .unknownReference pointer "pipeline references an unknown message")
    | some (message, messageIndex) => do
      rejectIf (message.directionId ≠ pipeline.directionId)
        (domain .directionMismatch pointer
          "pipeline and referenced message direction_id values differ")
      rejectIf (∃ earlier ∈ resolved, fixedMatchersCanIntersect (messages.getD earlier {}) message)
        (domain .ambiguousMatcher pointer
          "referenced message matcher intersects an earlier message matcher in this pipeline")
      resolveMessages messages pipeline rest (index + 1) (id :: seen) (messageIndex :: resolved)

/-- Checks a message of a pipeline that splits records at carriage return and line feed. -/
def validateAsciiStreamMessage (pipeline : PipelineIr) (framing : FramingProfileIr)
    (message : MessageIr) (layout : AsciiTextLayoutIr) (decode : TextActionIr) :
    Compiled Unit := do
  rejectIf (decode.maxRecordLength > framing.maximumFrameLength)
    (domain .asciiStreamProfileMismatch (childPointer pipeline.origin.jsonPointer "message_ids")
      "ASCII stream Decode record exceeds maximum_frame_length")
  rejectIf (!proveAsciiCrLfBoundary decode message.fields)
    (domain .asciiStreamBoundaryUnproven layout.origin.jsonPointer
      "first CRLF cannot be proven to occur exactly at the Decode record end")

/-- The decode template of a message, with the layout it belongs to. -/
def decodeAction (message : MessageIr) : Option (AsciiTextLayoutIr × TextActionIr) := do
  let layout ← message.asciiText
  let decode ← layout.decode
  some (layout, decode)

/-- Checks a message of a pipeline that splits a binary stream. -/
def validateBinaryStreamMessage (pipeline : PipelineIr) (framing : FramingProfileIr)
    (message : MessageIr) : Compiled Unit := do
  let pointer := childPointer pipeline.origin.jsonPointer "message_ids"
  let bounds := messageFrameBounds message
  rejectIf ((framing.strategy = .fixedLength ∨ framing.strategy = .syncFixedLength) ∧
      (bounds.1 ≠ framing.frameLengthBytes ∨ bounds.2 ≠ framing.frameLengthBytes))
    (domain .fieldOutOfBounds pointer
      "fixed stream profile requires every message to have the same exact length")
  rejectIf (framing.strategy ≠ .fixedLength ∧ !messageHasSyncMatcher message framing.syncBytes)
    (domain .matcherConflict pointer
      "stream message matcher does not contain the complete offset-zero sync header")
  rejectIf (framing.strategy = .syncLengthField ∧
      (bounds.1 < framing.minimumFrameLength ∨ bounds.2 > framing.maximumFrameLength ∨
        !messageHasLengthField message framing))
    (domain .fieldOutOfBounds pointer
      "length-field stream profile and referenced message bounds or computed length differ")

/-- Checks the messages of a pipeline against its stream profile. -/
def validateStreamMessages (pipeline : PipelineIr) (framing : FramingProfileIr)
    (messages : List MessageIr) : Compiled Unit :=
  if framing.inputKind ≠ .streamChunk then .ok ()
  else if framing.strategy = .asciiCrlf then do
    messages.forM fun message =>
      match decodeAction message with
      | some (layout, decode) => validateAsciiStreamMessage pipeline framing message layout decode
      | none => pure ()
    rejectIf (messages.all fun message => (decodeAction message).isNone)
      (domain .asciiStreamProfileMismatch (childPointer pipeline.origin.jsonPointer "message_ids")
        "ASCII stream Pipeline requires at least one Decode-capable Message")
  else messages.forM (validateBinaryStreamMessage pipeline framing)

/-- Resolves and checks a pipeline. -/
def validatePipeline (schema : SchemaIr) (pipeline : PipelineIr) : Compiled ResolvedPipelineIr :=
  match schema.framingProfiles.zipIdx.find? fun item =>
    item.1.id = pipeline.inputFramingProfileId with
  | none => .error (domain .unknownReference
      (childPointer pipeline.origin.jsonPointer "input_framing_profile_id")
      "pipeline references an unknown framing profile")
  | some (framing, framingIndex) => do
    let messageIndices ← resolveMessages schema.messages pipeline pipeline.messageIds 0 [] []
    validateStreamMessages pipeline framing
      (messageIndices.filterMap fun index => schema.messages[index]?)
    pure { framingProfileIndex := framingIndex, messageIndices := messageIndices }

/-! ### The package -/

/-- Validates the messages of a package in order. -/
def validateMessages : List MessageIr → ResourceRequirements →
    Compiled (List MessageIr × ResourceRequirements)
  | [], requirements => .ok ([], requirements)
  | message :: rest, requirements => do
    let (message, requirements) ← validateMessageDomain message requirements
    let (messages, requirements) ← validateMessages rest requirements
    pure (message :: messages, requirements)

/-- What validation hands over: the schema with its references resolved, and the
resources it needs. -/
structure ValidatedParts where
  schema : SchemaIr
  resolvedPipelines : List ResolvedPipelineIr
  requirements : ResourceRequirements

/-- Validates a package. -/
def validateSchema (schema : SchemaIr) : Compiled ValidatedParts := do
  buildUniqueIdIndex (schema.framingProfiles.map fun item => (item.id, item.origin)) []
  buildUniqueIdIndex (schema.pipelines.map fun item => (item.id, item.origin)) []
  buildUniqueIdIndex (schema.messages.map fun item => (item.id, item.origin)) []
  let requirements ← schema.framingProfiles.foldlM validateFraming
    { framingProfileCount := schema.framingProfiles.length
      pipelineCount := schema.pipelines.length
      messageCount := schema.messages.length }
  let (messages, requirements) ← validateMessages schema.messages
    { requirements with maxFramingBufferBytes := requirements.maxStreamFrameBytes }
  let schema := { schema with messages := messages }
  let resolvedPipelines ← schema.pipelines.mapM (validatePipeline schema)
  pure { schema, resolvedPipelines, requirements }

end ProtocolAdapter.ConfigCompiler
