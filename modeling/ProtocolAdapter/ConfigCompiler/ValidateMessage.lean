/-
This file defines the domain validation of a message as a whole: the overlap of its
fields, its integrity rule, the bytes its matcher fixes against the bytes it encodes,
and the coverage of its frame.
-/

import ProtocolAdapter.ConfigCompiler.ValidateFields
import ProtocolAdapter.ConfigCompiler.ValidateText

namespace ProtocolAdapter.ConfigCompiler

open Foundation

/-! ### Overlaps -/

/-- The order of spans by their start and then by their stop. -/
abbrev SpanLe (first second : FieldSpan) : Prop :=
  first.start < second.start ∨ (first.start = second.start ∧ first.stop ≤ second.stop)

/-- Checks that sorted spans do not overlap. -/
def validateSpans (message : MessageIr) : List FieldSpan → Compiled Unit
  | first :: second :: rest => do
    rejectIf (second.start < first.stop)
      (domain .fieldOverlap
        (match second.field with
          | some origin => origin.jsonPointer
          | none => message.origin.jsonPointer)
        "ordinary fields and bit container byte ranges must not overlap")
    validateSpans message (second :: rest)
  | _ => .ok ()

/-! ### Integrity -/

/-- Whether a value has bits outside a mask of 32 bits. -/
def exceedsMask (value mask : Nat) : Bool := value &&& (0xFFFFFFFF ^^^ mask) ≠ 0

/-- Whether the parameters of a CRC are outside the supported ones. -/
def crcInvalid (integrity : IntegrityIr) : Bool :=
  let mask := if integrity.crcWidth = 16 then 0xFFFF else 0xFFFFFFFF
  (integrity.crcWidth ≠ 16 && integrity.crcWidth ≠ 32) || integrity.crcPolynomial = 0 ||
    integrity.crcPolynomial &&& 1 = 0 || exceedsMask integrity.crcPolynomial mask ||
    exceedsMask integrity.crcInitialValue mask || exceedsMask integrity.crcXorOutput mask ||
    (integrity.storageByteOrder ≠ .big && integrity.storageByteOrder ≠ .little)

/-- Checks where the rule of a bounded message covers and stores bytes. -/
def validateBoundedIntegrity (layout : BoundedPayloadIr) (integrity : IntegrityIr) :
    Compiled Unit := do
  rejectIf (!integrity.storageAtPayloadEnd)
    (domain .integrityStorageOutOfBounds integrity.storageOrigin.jsonPointer
      "bounded payload integrity storage must anchor at payload_end")
  if integrity.rangeEndsAtPayload then
    rejectIf (integrity.rangeOffset > layout.headerLength)
      (domain .integrityRangeOutOfBounds
        (childPointer integrity.rangeOrigin.jsonPointer "byte_offset")
        "dynamic integrity range must start at or before the payload")
  else
    rejectIf (integrity.rangeLength = 0 ∨
        integrity.rangeOffset > layout.minFrameLength - layout.trailerLength ∨
        integrity.rangeLength >
          layout.minFrameLength - layout.trailerLength - integrity.rangeOffset)
      (domain .integrityRangeOutOfBounds integrity.rangeOrigin.jsonPointer
        "fixed integrity range must fit before every possible payload_end")

/-- Checks where the rule of a message of fixed length covers and stores bytes. -/
def validateFixedIntegrity (message : MessageIr) (spans : List FieldSpan)
    (integrity : IntegrityIr) : Compiled Unit := do
  let width := integrityStorageWidth integrity
  rejectIf (integrity.rangeLength = 0)
    (domain .integrityRangeOutOfBounds
      (childPointer integrity.rangeOrigin.jsonPointer "byte_length")
      "integrity range must contain at least one byte")
  rejectIf (integrity.rangeOffset > message.frameLengthBytes ∨
      integrity.rangeLength > message.frameLengthBytes - integrity.rangeOffset)
    (domain .integrityRangeOutOfBounds integrity.rangeOrigin.jsonPointer
      "integrity range exceeds message frame_length_bytes")
  rejectIf (integrity.storageOffset > message.frameLengthBytes ∨
      width > message.frameLengthBytes - integrity.storageOffset)
    (domain .integrityStorageOutOfBounds
      (childPointer integrity.storageOrigin.jsonPointer "byte_offset")
      "integrity storage exceeds message frame_length_bytes")
  rejectIf (integrity.storageOffset < integrity.rangeOffset + integrity.rangeLength ∧
      integrity.rangeOffset < integrity.storageOffset + width)
    (domain .integritySelfIncluded
      (childPointer integrity.storageOrigin.jsonPointer "byte_offset")
      "integrity storage must be outside its covered range")
  rejectIf (∃ span ∈ spans, integrity.storageOffset < span.stop ∧
      span.start < integrity.storageOffset + width)
    (domain .integrityStorageConflict
      (childPointer integrity.storageOrigin.jsonPointer "byte_offset")
      "integrity storage overlaps a field or bit container")

/-- Checks the integrity rule of a message, when it has one. -/
def validateIntegrity (message : MessageIr) (spans : List FieldSpan) : Compiled Unit :=
  match message.integrity with
  | none => .ok ()
  | some integrity => do
    rejectIf (integrity.algorithm = .crc ∧ crcInvalid integrity)
      (domain .invalidEnumValue integrity.origin.jsonPointer
        "CRC parameters are outside the frozen CRC-16/CRC-32 domain")
    match message.boundedPayload with
    | some layout => validateBoundedIntegrity layout integrity
    | none => validateFixedIntegrity message spans integrity

/-! ### Matchers -/

/-- The bytes the matcher of a message fixes, each with its offset in the frame. -/
abbrev FixedBytes := List (Nat × UInt8)

/-- Adds the bytes of a clause that start at an offset; a byte that is already fixed to
another value fails. -/
def addFixedBytes (error : CompileDiagnostic) :
    List UInt8 → Nat → FixedBytes → Compiled FixedBytes
  | [], _, fixed => .ok fixed
  | byte :: rest, offset, fixed =>
    match fixed.lookup offset with
    | none => addFixedBytes error rest (offset + 1) ((offset, byte) :: fixed)
    | some other => do
      rejectIf (other ≠ byte) error
      addFixedBytes error rest (offset + 1) fixed

/-- The bytes of a frame that a matcher may fix: the header of a bounded message, or the
whole frame. -/
def matcherLimit (message : MessageIr) : Nat :=
  match message.boundedPayload with
  | some layout => layout.headerLength
  | none => message.frameLengthBytes

/-- Checks one clause against the frame and the clauses before it. -/
def validateMatcher (message : MessageIr) (fixed : FixedBytes) (matcher : MatcherClauseIr) :
    Compiled FixedBytes :=
  match matcher.kind with
  | .frameLengthEquals => do
    rejectIf message.boundedPayload.isSome
      (domain .matcherConflict matcher.origin.jsonPointer
        "bounded payload Message must not declare frame_length_equals")
    rejectIf (matcher.lengthBytes ≠ message.frameLengthBytes)
      (domain .matcherConflict (childPointer matcher.origin.jsonPointer "length_bytes")
        "frame length matcher conflicts with frame_length_bytes")
    pure fixed
  | .fixedBytes => do
    rejectIf (endOverflows matcher.byteOffset matcher.bytes.length ∨
        matcher.byteOffset + matcher.bytes.length > matcherLimit message)
      (domain .matcherOutOfBounds matcher.origin.jsonPointer
        "fixed byte matcher exceeds message frame_length_bytes")
    addFixedBytes (domain .matcherConflict matcher.origin.jsonPointer
      "fixed byte matcher clauses contradict each other") matcher.bytes matcher.byteOffset fixed

/-- Whether some byte of a range is fixed. -/
def anyFixed (fixed : FixedBytes) (offset width : Nat) : Bool :=
  (List.range width).any fun index => (fixed.lookup (offset + index)).isSome

/-- Checks the clauses of a message and the bytes it computes against each other. -/
def validateMatchers (message : MessageIr) : Compiled FixedBytes := do
  let fixed ← message.matcherClauses.foldlM (validateMatcher message) []
  rejectIf (message.boundedPayload.isSome ∧ fixed = [])
    (domain .matcherConflict message.origin.jsonPointer
      "bounded payload Message requires at least one fixed_bytes matcher")
  match message.fields.find? fun field => field.computedLength.isSome &&
      anyFixed fixed field.wire.byteOffset field.wire.byteWidth with
  | some field => .error (domain .matcherConflict field.wire.origin.jsonPointer
      "computed length storage overlaps a fixed_bytes matcher")
  | none => do
    rejectIf (∃ integrity ∈ message.integrity, message.boundedPayload = none ∧
        anyFixed fixed integrity.storageOffset (integrityStorageWidth integrity))
      (domain .integrityStorageConflict
        (childPointer ((message.integrity.getD {}).storageOrigin.jsonPointer) "byte_offset")
        "integrity storage overlaps a fixed_bytes matcher")
    pure fixed

/-! ### Constants -/

/-- The unsigned value an integer constant is encoded from. -/
def encodedConstant (field : FieldIr) : Option Nat :=
  if field.wire.codec = .bitfield then none
  else match field.valueType with
    | .uint64 => field.encode.constantValue
    | .int64 => field.encode.signedConstantValue.map fun value => (value % 2 ^ 64).toNat
    | _ => none

/-- Whether a matcher fixes a byte of a constant field to another value. -/
def constantConflicts (fixed : FixedBytes) (field : FieldIr) : Bool :=
  match encodedConstant field with
  | none => false
  | some encoded => (List.range field.wire.byteWidth).any fun index =>
      match fixed.lookup (field.wire.byteOffset + index) with
      | none => false
      | some byte =>
        byte ≠ encodeUnsignedByte encoded field.wire.byteWidth field.wire.byteOrder index

/-- Checks the constant fields of a message against its matcher. -/
def validateConstantBytes (message : MessageIr) (fixed : FixedBytes) : Compiled Unit :=
  match message.fields.find? (constantConflicts fixed) with
  | some field => .error (domain .matcherConflict
      (childPointer field.encode.origin.jsonPointer "value")
      "fixed byte matcher conflicts with the encoded integer constant field bytes")
  | none => .ok ()

/-! ### Determined bits -/

/-- The bits of a container that encoding determines, their values, and those of them that
a constant member owns. -/
structure DeterminedBits where
  mask : Nat
  value : Nat
  constant : Nat := 0

/-- One member's part in the determined bits of its container. -/
def determineMember (container : BitContainerIr) (bits : DeterminedBits) (field : FieldIr) :
    DeterminedBits :=
  let mask := memberMask field.wire container
  if field.encode.source = .input then { bits with mask := clearBits bits.mask mask }
  else
    let constant := field.encode.constantValue.getD 0 <<< memberShift field.wire container
    { bits with
      value := clearBits bits.value mask ||| (constant &&& mask)
      constant := bits.constant ||| mask }

/-- The members of a container. -/
def membersOf (message : MessageIr) (index : Nat) : List FieldIr :=
  message.fields.filter fun field =>
    field.wire.codec = .bitfield && field.wire.bitContainerIndex = index

/-- The determined bits of a container. -/
def determinedBits (message : MessageIr) (container : BitContainerIr) (index : Nat) :
    DeterminedBits :=
  (membersOf message index).foldl (determineMember container)
    { mask := widthMask container.byteWidth, value := container.baseValue }

/-- The determined bits of one byte of a container that a matcher contradicts, at their
place in the container. -/
def mismatchedBits (fixed : FixedBytes) (container : BitContainerIr) (bits : DeterminedBits)
    (index : Nat) : Nat :=
  match fixed.lookup (container.byteOffset + index) with
  | none => 0
  | some byte =>
    let shift := (if container.byteOrder = .big then container.byteWidth - 1 - index else index) * 8
    ((byte.toNat ^^^ (bits.value >>> shift % 256)) &&& (bits.mask >>> shift % 256)) <<< shift

/-- Where a contradiction is reported: at the first constant member that owns one of its
bits, or at the base value. -/
def mismatchPointer (message : MessageIr) (container : BitContainerIr) (index : Nat)
    (bits : DeterminedBits) (mismatch : Nat) : String :=
  let owner := if bits.constant &&& mismatch = 0 then none
    else (membersOf message index).find? fun field => field.encode.constantValue.isSome &&
      memberMask field.wire container &&& mismatch ≠ 0
  match owner with
  | some field => childPointer field.encode.origin.jsonPointer "value"
  | none => childPointer container.origin.jsonPointer "base_value"

/-- Checks the determined bits of a container against the matcher. -/
def validateDeterminedBits (message : MessageIr) (fixed : FixedBytes)
    (item : BitContainerIr × Nat) : Compiled Unit :=
  let (container, index) := item
  let bits := determinedBits message container index
  match ((List.range container.byteWidth).map (mismatchedBits fixed container bits)).find?
      (· ≠ 0) with
  | some mismatch => .error (domain .matcherConflict
      (mismatchPointer message container index bits mismatch)
      "fixed byte matcher conflicts with bit container determined bits")
  | none => .ok ()

/-! ### Coverage -/

/-- The byte ranges that define the bytes of the frame. -/
def coverageSpans (message : MessageIr) (spans : List FieldSpan) (fixed : FixedBytes) :
    List FieldSpan :=
  (spans.filter fun span => span.start < matcherLimit message) ++
    fixed.map (fun item => { start := item.1, stop := item.1 + 1 }) ++
    match message.integrity with
    | some integrity => if message.boundedPayload.isSome then []
        else [{ start := integrity.storageOffset
                stop := integrity.storageOffset + integrityStorageWidth integrity }]
    | none => []

/-- Walks sorted spans; fails at the first byte before them that nothing defines. -/
def coveredEnd (error : CompileDiagnostic) : List FieldSpan → Nat → Compiled Nat
  | [], covered => .ok covered
  | span :: rest, covered => do
    rejectIf (span.start > covered) error
    coveredEnd error rest (max covered span.stop)

/-- Checks that the fields, the matcher and the integrity value define every byte of the
frame, or of the header of a bounded message. -/
def validateCoverage (message : MessageIr) (spans : List FieldSpan) (fixed : FixedBytes) :
    Compiled Unit := do
  let covered ← coveredEnd (domain .frameNotFullyDefined message.origin.jsonPointer
    "field and fixed matcher ranges do not define every frame byte")
    ((coverageSpans message spans fixed).insertionSort SpanLe) 0
  rejectIf (covered ≠ matcherLimit message)
    (domain .frameNotFullyDefined message.origin.jsonPointer
      (if message.boundedPayload.isSome
        then "field and fixed matcher ranges do not define every header byte"
        else "field and fixed matcher ranges do not define every frame byte"))

/-! ### Messages -/

/-- Checks that every container has a member. -/
def validateMembers (message : MessageIr) (memberCounts : List Nat) : Compiled Unit :=
  match (message.bitContainers.zip memberCounts).find? fun item => item.2 = 0 with
  | some (container, _) => .error (domain .emptyArray container.origin.jsonPointer
      "bit container must have at least one member field")
  | none => .ok ()

/-- Checks what the fields of a message occupy against each other and its matcher. -/
def validateOccupation (message : MessageIr) (tally : FieldTally) : Compiled Unit := do
  rejectIf (message.boundedPayload.isSome ∧ tally.computedLengthCount ≠ 1)
    (domain .unsupportedFeature ((message.boundedPayload.getD {}).origin.jsonPointer)
      "bounded payload Message requires exactly one computed length field")
  validateMembers message tally.memberCounts
  let spans := tally.spans.insertionSort SpanLe
  validateSpans message spans
  validateIntegrity message spans
  let fixed ← validateMatchers message
  validateConstantBytes message fixed
  message.bitContainers.zipIdx.forM (validateDeterminedBits message fixed)
  validateCoverage message spans fixed

/-- Validates a binary message and accounts for it. -/
def validateBinaryMessage (message : MessageIr) (requirements : ResourceRequirements) :
    Compiled (MessageIr × ResourceRequirements) := do
  let message ← match message.boundedPayload with
    | some layout => validateBoundedPayload message layout
    | none => pure message
  match countMessage message requirements with
  | none => .error (domain .internalContractViolation message.origin.jsonPointer
      "resource count overflow")
  | some requirements => do
    let spans ← validateContainers message message.bitContainers []
    let (fields, tally) ← validateFields message message.fields 0
      { spans := spans
        memberMasks := message.bitContainers.map fun _ => 0
        memberCounts := message.bitContainers.map fun _ => 0
        requirements := requirements }
    let message := { message with fields := fields }
    validateOccupation message tally
    pure (message, tally.requirements)

/-- Validates a message, text or binary, and accounts for it. -/
def validateMessageDomain (message : MessageIr) (requirements : ResourceRequirements) :
    Compiled (MessageIr × ResourceRequirements) :=
  match message.asciiText with
  | some layout => validateAsciiMessage message layout requirements
  | none => validateBinaryMessage message requirements

end ProtocolAdapter.ConfigCompiler
