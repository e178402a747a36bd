/-
This file models the rest of the rules of the builder for a message: no two fields
overlap, the matchers agree with each other and with everything the layout already
determines, and every byte of the static layout belongs to a field, a container, a
matcher or the checksum. It then prepares all messages of a draft.
-/

import ProtocolAdapter.Builder.Fields
import ProtocolAdapter.Builder.Text

namespace ProtocolAdapter

open Foundation

/-! ### Intervals -/

/-- The order in which intervals are sorted: by start, then by end. -/
def ByteInterval.Precedes (left right : ByteInterval) : Prop :=
  left.start < right.start ∨ (left.start = right.start ∧ left.stop ≤ right.stop)

instance : DecidableRel ByteInterval.Precedes := fun left right => by
  unfold ByteInterval.Precedes
  infer_instance

/-- Intervals sorted by start, then by end. -/
def sortIntervals (intervals : List ByteInterval) : List ByteInterval :=
  intervals.insertionSort ByteInterval.Precedes

/-- Rejects sorted intervals of which one starts before its predecessor ends. -/
def checkOverlap (messageIndex : Nat) : List ByteInterval → BuildResult Unit
  | first :: second :: rest =>
    if second.start < first.stop then
      .error { code := .invalidFieldPlan, messageIndex := messageIndex
               fieldIndex := second.sourceIndex }
    else checkOverlap messageIndex (second :: rest)
  | _ => .ok ()

/-- How far sorted intervals cover the bytes from the first on, without a gap. -/
def coveredEnd : List ByteInterval → Nat → Option Nat
  | [], covered => some covered
  | interval :: rest, covered =>
    if interval.start > covered then none else coveredEnd rest (max covered interval.stop)

/-- Whether intervals cover exactly the first bytes of a frame. -/
def coversWholeFrame (intervals : List ByteInterval) (frameSize : Nat) : Bool :=
  intervals ≠ [] && coveredEnd (sortIntervals intervals) 0 == some frameSize

/-! ### Matchers -/

/-- Adds a byte to the fixed bytes, sorted by offset; fails when another value is fixed
there. -/
def insertFixedByte (offset : Nat) (value : UInt8) :
    List FixedByteExecutionPlan → Option (List FixedByteExecutionPlan)
  | [] => some [⟨offset, value⟩]
  | head :: rest =>
    if offset < head.offset then some (⟨offset, value⟩ :: head :: rest)
    else if offset = head.offset then
      if value = head.value then some (head :: rest) else none
    else (insertFixedByte offset value rest).map (head :: ·)

/-- Adds the bytes of a matcher from its offset on. -/
def insertFixedBytes : Nat → List UInt8 → List FixedByteExecutionPlan →
    Option (List FixedByteExecutionPlan)
  | _, [], fixed => some fixed
  | offset, value :: rest, fixed => do
    let fixed ← insertFixedByte offset value fixed
    insertFixedBytes (offset + 1) rest fixed

/-- Collects the fixed bytes of one matcher. -/
def collectMatcher (messageIndex : Nat) (message : MessagePlan)
    (fixed : List FixedByteExecutionPlan) (item : MatcherPlan × Nat) :
    BuildResult (List FixedByteExecutionPlan) :=
  let (matcher, matcherIndex) := item
  let diagnostic : PlanBuildDiagnostic :=
    { code := .invalidMatcherPlan, messageIndex := messageIndex, matcherIndex := matcherIndex }
  match matcher.kind with
  | .frameLengthEquals => do
    rejectIf (message.boundedPayload.isSome ∨ ¬fitsSize matcher.lengthBytes ∨
      matcher.lengthBytes ≠ message.frameLengthBytes) diagnostic
    pure fixed
  | .fixedBytes => do
    rejectIf (¬fitsSize matcher.byteOffset ∨
      ¬isRangeWithin matcher.byteOffset matcher.bytes.length
        (layoutLimit message.boundedPayload message.frameLengthBytes)) diagnostic
    match insertFixedBytes matcher.byteOffset matcher.bytes fixed with
    | none => .error diagnostic
    | some fixed => pure fixed

/-- The fixed byte at an offset. -/
def findFixedByte (fixed : List FixedByteExecutionPlan) (offset : Nat) : Option UInt8 :=
  (fixed.find? (·.offset = offset)).map (·.value)

/-- Whether some byte of a range is fixed. -/
def fixesByteOf (fixed : List FixedByteExecutionPlan) (offset width : Nat) : Bool :=
  (List.range width).any fun index => (findFixedByte fixed (offset + index)).isSome

/-- Collects the fixed bytes of all matchers. A bounded message needs one, and none may
lie in the computed length. -/
def collectMatchers (messageIndex : Nat) (message : MessagePlan) :
    BuildResult (List FixedByteExecutionPlan) := do
  let fixed ← message.matchers.zipIdx.foldlM (collectMatcher messageIndex message) []
  rejectIf (message.boundedPayload.isSome ∧ fixed = [])
    { code := .invalidMatcherPlan, messageIndex := messageIndex }
  rejectIf (message.computedLength.any fun computed =>
    fixesByteOf fixed computed.storageOffset computed.storageWidth)
    { code := .invalidMessagePlan, messageIndex := messageIndex }
  pure fixed

/-! ### Coverage -/

/-- The bytes of a checksum that does not move with the payload. -/
def integrityStorage (message : MessagePlan) : Option ByteInterval :=
  match message.integrity with
  | some integrity =>
    if integrity.storageAtPayloadEnd then none
    else some ⟨integrity.storageOffset, integrity.storageOffset + integrityStorageWidth integrity,
      invalidIndex⟩
  | none => none

/-- The checksum shares no byte with a field or a container. -/
def checkIntegrityStorage (messageIndex : Nat) (message : MessagePlan)
    (intervals : List ByteInterval) : BuildResult Unit :=
  rejectIf ((integrityStorage message).any fun storage =>
    intervals.any fun interval => storage.start < interval.stop && interval.start < storage.stop)
    { code := .invalidMessagePlan, messageIndex := messageIndex }

/-- What covers the static layout: fields and containers, fixed bytes, and the checksum. -/
def coverageIntervals (message : MessagePlan) (intervals : List ByteInterval)
    (fixed : List FixedByteExecutionPlan) : List ByteInterval :=
  let all := intervals ++ fixed.map (fun byte => ⟨byte.offset, byte.offset + 1, invalidIndex⟩) ++
    (integrityStorage message).toList
  match message.boundedPayload with
  | some bounded => all.filter fun interval => interval.start < bounded.headerLength
  | none => all

/-- The rules for coverage: no fixed byte lies in the checksum, and nothing is left
undefined. -/
def checkCoverage (messageIndex : Nat) (message : MessagePlan) (intervals : List ByteInterval)
    (fixed : List FixedByteExecutionPlan) : BuildResult Unit := do
  rejectIf ((integrityStorage message).any fun storage =>
    fixesByteOf fixed storage.start (storage.stop - storage.start))
    { code := .invalidMessagePlan, messageIndex := messageIndex }
  rejectIf (coversWholeFrame (coverageIntervals message intervals fixed)
      (layoutLimit message.boundedPayload message.frameLengthBytes) = false)
    { code := .frameNotFullyDefined, messageIndex := messageIndex }

/-! ### Matchers against determined bytes -/

/-- The position of a stored byte in the value of a container. -/
def logicalByte (container : BitContainerPlan) (byteIndex : Nat) : Nat :=
  if container.byteOrder = .big then container.byteWidth - 1 - byteIndex else byteIndex

/-- Whether a fixed byte differs from the determined bits of its container. -/
def containerConflicts (fixed : List FixedByteExecutionPlan) (container : BitContainerPlan)
    (tally : ContainerTally) : Bool :=
  (List.range container.byteWidth).any fun byteIndex =>
    match findFixedByte fixed (container.byteOffset + byteIndex) with
    | none => false
    | some value =>
      let shift := logicalByte container byteIndex * 8
      ((value ^^^ UInt8.ofNat (tally.determinedValue >>> shift)) &&&
        UInt8.ofNat (tally.determinedMask >>> shift)) ≠ 0

/-- The 64-bit pattern of a constant field, absent for every other field. -/
def constantPattern (field : FieldPlan) : Option Nat :=
  match field.encodeSource, field.valueType with
  | .constant, .int64 => field.signedConstantValue.map fun value => (value % 2 ^ 64).toNat
  | .constant, .uint64 => field.constantValue
  | _, _ => none

/-- Whether a fixed byte differs from a constant field. -/
def constantConflicts (fixed : List FixedByteExecutionPlan) (field : FieldPlan) : Bool :=
  !field.isBitfield && (constantPattern field).any fun encoded =>
    (List.range field.byteWidth).any fun byteIndex =>
      (findFixedByte fixed (field.byteOffset + byteIndex)).any fun value =>
        value ≠ encodeUnsignedByte encoded field.byteWidth field.byteOrder byteIndex

/-- The matchers agree with the containers and with the constants. -/
def checkDetermined (messageIndex : Nat) (message : MessagePlan) (tallies : List ContainerTally)
    (fixed : List FixedByteExecutionPlan) : BuildResult Unit := do
  rejectIf ((message.bitContainers.zip tallies).any fun (container, tally) =>
    containerConflicts fixed container tally)
    { code := .invalidMatcherPlan, messageIndex := messageIndex }
  rejectIf (message.fields.any (constantConflicts fixed))
    { code := .invalidMatcherPlan, messageIndex := messageIndex }

/-! ### Messages -/

/-- The execution descriptor of a binary message. -/
def binaryExecution (message : MessagePlan) (state : FieldLoopState)
    (fixed : List FixedByteExecutionPlan) : PreparedMessageExecutionPlan :=
  { frameSize := message.frameLengthBytes
    requiredInputCount := state.inputOrdinal
    integrity := message.integrity
    boundedPayload := message.boundedPayload
    computedLength := message.computedLength
    fixedBytes := fixed
    bitContainers := message.bitContainers.map bitContainerExecution
    fields := state.fields
    enumRawValues := state.enumRawValues
    enumLookupEntries := state.enumLookupEntries }

/-- Prepares a binary message. The result carries the variables of the field loop for the
conversions they have counted. -/
def prepareBinaryMessage (limits : ResourceProfileLimits) (context : FieldContext)
    (conversionReferenceCounts : List Nat) :
    BuildResult (PreparedMessageExecutionPlan × FieldLoopState) := do
  let message := context.message
  let messageIndex := context.messageIndex
  checkBoundedPayload context.schemaVersion limits messageIndex message
  checkIntegrity context.schemaVersion messageIndex message
  checkComputedLength context.schemaVersion messageIndex message
  checkBitContainers messageIndex message
  let state ← prepareFields context conversionReferenceCounts
  let intervals := sortIntervals state.fieldIntervals
  checkOverlap messageIndex intervals
  checkIntegrityStorage messageIndex message intervals
  let fixed ← collectMatchers messageIndex message
  checkCoverage messageIndex message intervals fixed
  checkDetermined messageIndex message state.tallies fixed
  pure (binaryExecution message state fixed, state)

/-- The variables of the loop over the messages of a draft. -/
structure MessageLoopState where
  messageIds : List String := []
  layout : ExecutionResourceLayout := {}
  conversionReferenceCounts : List Nat := []
  executions : List PreparedMessageExecutionPlan := []

/-- The variables of the loop after a message that passed its checks. -/
def MessageLoopState.extend (state : MessageLoopState) (message : MessagePlan)
    (execution : PreparedMessageExecutionPlan) (conversionSlots : Nat)
    (conversionReferenceCounts : List Nat) : MessageLoopState :=
  { messageIds := message.id :: state.messageIds
    layout := { state.layout with
      maxFieldsPerMessage := max state.layout.maxFieldsPerMessage message.fields.length
      maxInputFieldsPerMessage :=
        max state.layout.maxInputFieldsPerMessage execution.requiredInputCount
      conversionValueCount := max state.layout.conversionValueCount conversionSlots }
    conversionReferenceCounts := conversionReferenceCounts
    executions := state.executions ++ [execution] }

/-- One round of the loop. The index of the message is the number of messages prepared so
far. -/
def prepareMessage (limits : ResourceProfileLimits) (draft : PlanDraftData)
    (state : MessageLoopState) (message : MessagePlan) : BuildResult MessageLoopState := do
  let messageIndex := state.executions.length
  rejectIf (¬isStableId message.id ∨ ¬isStableId message.directionId ∨
    message.id ∈ state.messageIds ∨ ¬fitsSize message.frameLengthBytes ∨
    message.frameLengthBytes = 0 ∨
    (message.asciiText.isNone ∧ (message.matchers = [] ∨ message.fields = [])))
    { code := .invalidMessagePlan, messageIndex := messageIndex }
  match message.asciiText with
  | some text => do
    let execution ← prepareTextMessage draft.schemaVersion messageIndex message text
    pure (state.extend message execution 0 state.conversionReferenceCounts)
  | none => do
    let context : FieldContext := ⟨draft.schemaVersion, draft.conversions, messageIndex, message⟩
    let (execution, fields) ← prepareBinaryMessage limits context state.conversionReferenceCounts
    pure (state.extend message execution fields.conversionSlot fields.conversionReferenceCounts)

/-- Prepares all messages of a draft. Every conversion belongs to exactly one field. -/
def prepareMessages (limits : ResourceProfileLimits) (draft : PlanDraftData) :
    BuildResult MessageLoopState := do
  let start : MessageLoopState :=
    { conversionReferenceCounts := List.replicate draft.conversions.length 0 }
  let state ← draft.messages.foldlM (prepareMessage limits draft) start
  rejectIf (state.conversionReferenceCounts.any (· ≠ 1)) { code := .invalidFieldPlan }
  pure state

end ProtocolAdapter
