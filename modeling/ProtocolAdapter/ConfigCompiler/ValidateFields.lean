/-
This file defines the domain validation of the layout of a binary message: the bounded
payload, the bit containers, and the fields with their bytes or bits, their computed
length, their constants, their conversion and their enumeration entries.
-/

import ProtocolAdapter.Builder.Fields
import ProtocolAdapter.Plan.Conversion
import ProtocolAdapter.ConfigCompiler.Diagnostics
import ProtocolAdapter.ConfigCompiler.SchemaIr

namespace ProtocolAdapter.ConfigCompiler

open Foundation

/-! ### Values and widths -/

/-- Whether an unsigned value fits a width in bytes. -/
def fitsUnsignedWidth (value byteWidth : Nat) : Bool :=
  byteWidth ≥ 8 || value < 1 <<< (byteWidth * 8)

/-- Whether an unsigned value fits a width in bits. -/
def fitsUnsignedBits (value bitWidth : Nat) : Bool :=
  bitWidth = 64 || (bitWidth ≠ 0 && bitWidth < 64 && value < 1 <<< bitWidth)

/-- Whether a signed value fits a width in bytes. -/
def fitsSignedWidth (value : Int) (byteWidth : Nat) : Bool :=
  if byteWidth = 0 ∨ byteWidth > 8 then false
  else if byteWidth = 8 then true
  else -(1 <<< (byteWidth * 8 - 1) : Nat) ≤ value && value ≤ (1 <<< (byteWidth * 8 - 1) - 1 : Nat)

/-- Whether a raw value fits the wire of a field. -/
def fitsWire (wire : WireIr) (value : Nat) : Bool :=
  if wire.codec = .bitfield then fitsUnsignedBits value wire.bitWidth
  else fitsUnsignedWidth value wire.byteWidth

/-- Whether `std::uint64_t` cannot hold the end of a byte range. -/
def endOverflows (offset width : Nat) : Bool := width > maxUint64 - offset

/-! ### The bounded payload -/

/-- The bytes an integrity rule stores. -/
def integrityStorageWidth (integrity : IntegrityIr) : Nat :=
  if integrity.algorithm = .crc then integrity.crcWidth / 8 else 1

/-- The bytes after the payload, which hold the integrity value. -/
def trailerLength (integrity : Option IntegrityIr) : Nat :=
  match integrity with
  | none => 0
  | some integrity => integrityStorageWidth integrity

/-- Gives the payload field the longest payload as its width, and collects the indices of
the fields the layout names. -/
def resolvePayloadField (layout : BoundedPayloadIr) :
    List FieldIr → Nat → Compiled (List FieldIr × List Nat)
  | [], _ => .ok ([], [])
  | field :: rest, index =>
    if field.id ≠ layout.payloadFieldId then do
      let (fields, found) ← resolvePayloadField layout rest (index + 1)
      pure (field :: fields, found)
    else do
      rejectIf (field.valueType ≠ .bytes ∨ field.wire.codec ≠ .bytes ∨
          field.wire.byteOffset ≠ layout.headerLength ∨ field.wire.byteWidth ≠ 0 ∨
          field.encode.source ≠ .input ∨ field.conversion.isSome)
        (domain .unsupportedFeature field.wire.origin.jsonPointer
          "bounded payload field must be input BYTES at header_length_bytes and omit byte_length")
      let (fields, found) ← resolvePayloadField layout rest (index + 1)
      let wire := { field.wire with byteWidth := layout.maxPayloadLength }
      pure ({ field with wire := wire } :: fields, index :: found)

/-- Derives the lengths of a bounded message and resolves its payload field. -/
def validateBoundedPayload (message : MessageIr) (layout : BoundedPayloadIr) :
    Compiled MessageIr := do
  rejectIf (layout.minPayloadLength > layout.maxPayloadLength)
    (domain .valueNotRepresentable (childPointer layout.origin.jsonPointer "min_payload_bytes")
      "min_payload_bytes must not exceed max_payload_bytes")
  let trailer := trailerLength message.integrity
  rejectIf (layout.minPayloadLength > maxUint64 - layout.headerLength ∨
      layout.maxPayloadLength > maxUint64 - layout.headerLength ∨
      trailer > maxUint64 - layout.headerLength - layout.minPayloadLength ∨
      trailer > maxUint64 - layout.headerLength - layout.maxPayloadLength)
    (domain .fieldOutOfBounds layout.origin.jsonPointer
      "bounded payload frame length arithmetic overflows")
  let layout := { layout with
    trailerLength := trailer
    minFrameLength := layout.headerLength + layout.minPayloadLength + trailer
    maxFrameLength := layout.headerLength + layout.maxPayloadLength + trailer }
  let (fields, found) ← resolvePayloadField layout message.fields 0
  match found with
  | [index] => pure { message with
      frameLengthBytes := layout.maxFrameLength
      boundedPayload := some { layout with payloadFieldIndex := index }
      fields := fields }
  | _ => .error (domain .unknownReference
      (childPointer layout.origin.jsonPointer "payload_field_id")
      "payload_field_id must resolve exactly once in its Message")

/-! ### Resources and containers -/

/-- Adds the counts of a message to the requirements. -/
def countMessage (message : MessageIr) (requirements : ResourceRequirements) :
    Option ResourceRequirements := do
  let fields ← addSizeChecked message.fields.length requirements.totalFieldCount
  let matchers ← addSizeChecked message.matcherClauses.length requirements.totalMatcherCount
  let containers ← addSizeChecked message.bitContainers.length requirements.totalBitContainerCount
  let integrity ← addSizeChecked (if message.integrity.isSome then 1 else 0)
    requirements.totalIntegrityRuleCount
  let computed ← addSizeChecked
    (if message.fields.any fun field => field.computedLength.isSome then 1 else 0)
    requirements.totalComputedLengthCount
  some { requirements with
    totalFieldCount := fields
    totalMatcherCount := matchers
    totalBitContainerCount := containers
    totalIntegrityRuleCount := integrity
    totalComputedLengthCount := computed
    maxFrameBytes := max requirements.maxFrameBytes message.frameLengthBytes }

/-- The bytes an ordinary field or a bit container owns; only a field has an origin. -/
structure FieldSpan where
  start : Nat
  stop : Nat
  field : Option ConfigOrigin := none

/-- Checks the bit containers of a message in order; `taken` are the identifiers before. -/
def validateContainers (message : MessageIr) :
    List BitContainerIr → List String → Compiled (List FieldSpan)
  | [], _ => .ok []
  | container :: rest, taken => do
    rejectIf (container.id ∈ taken)
      (domain .duplicateId (childPointer container.origin.jsonPointer "id")
        "bit container ID is duplicated within the message")
    rejectIf (endOverflows container.byteOffset container.byteWidth ∨
        container.byteOffset + container.byteWidth > message.frameLengthBytes)
      (domain .fieldOutOfBounds container.origin.jsonPointer
        "bit container byte range exceeds message frame_length_bytes")
    rejectIf (∃ layout ∈ message.boundedPayload, container.byteOffset > layout.headerLength ∨
        container.byteWidth > layout.headerLength - container.byteOffset)
      (domain .fieldOutOfBounds container.origin.jsonPointer
        "bit container must be fully inside the bounded payload header")
    rejectIf (!fitsUnsignedWidth container.baseValue container.byteWidth)
      (domain .valueNotRepresentable (childPointer container.origin.jsonPointer "base_value")
        "bit container base_value does not fit its width")
    let spans ← validateContainers message rest (container.id :: taken)
    pure ({ start := container.byteOffset
            stop := container.byteOffset + container.byteWidth } :: spans)

/-! ### Fields -/

/-- How far the bits of a member are above the lowest bit of its container. -/
def memberShift (wire : WireIr) (container : BitContainerIr) : Nat :=
  if container.bitNumbering = .lsb0 then wire.bitOffset
  else container.byteWidth * 8 - wire.bitOffset - wire.bitWidth

/-- The bits of a member in its container. -/
def memberMask (wire : WireIr) (container : BitContainerIr) : Nat :=
  (2 ^ wire.bitWidth - 1) <<< memberShift wire container

/-- What the walk over the fields of a message has collected. -/
structure FieldTally where
  taken : List String := []
  spans : List FieldSpan
  memberMasks : List Nat
  memberCounts : List Nat
  computedLengthCount : Nat := 0
  requirements : ResourceRequirements

/-- Resolves the container of a bit member and claims its bits. -/
def placeMember (message : MessageIr) (field : FieldIr) (tally : FieldTally) :
    Compiled (FieldIr × FieldTally) :=
  match message.bitContainers.zipIdx.find? fun item => item.1.id = field.wire.containerId with
  | none => .error (domain .unknownReference
      (childPointer field.wire.origin.jsonPointer "container_id")
      "bitfield references an unknown bit container")
  | some (container, index) => do
    rejectIf (field.wire.bitWidth > container.byteWidth * 8 ∨
        field.wire.bitOffset > container.byteWidth * 8 - field.wire.bitWidth)
      (domain .fieldOutOfBounds field.wire.origin.jsonPointer
        "bitfield range exceeds its bit container")
    rejectIf (field.valueType = .bool ∧ field.wire.bitWidth ≠ 1)
      (domain .valueNotRepresentable (childPointer field.wire.origin.jsonPointer "bit_width")
        "BOOL bitfield must have bit_width 1")
    let mask := memberMask field.wire container
    rejectIf (tally.memberMasks.getD index 0 &&& mask ≠ 0)
      (domain .fieldOverlap field.origin.jsonPointer
        "bitfield members overlap within their container")
    pure ({ field with wire := { field.wire with bitContainerIndex := index } },
      { tally with
        memberMasks := tally.memberMasks.modify index (· ||| mask)
        memberCounts := tally.memberCounts.modify index (· + 1) })

/-- Places a field: the bits of a member, or the bytes of an ordinary field. -/
def placeField (message : MessageIr) (field : FieldIr) (tally : FieldTally) :
    Compiled (FieldIr × FieldTally) :=
  if field.wire.codec = .bitfield then placeMember message field tally
  else do
    rejectIf (endOverflows field.wire.byteOffset field.wire.byteWidth ∨
        field.wire.byteOffset + field.wire.byteWidth > message.frameLengthBytes)
      (domain .fieldOutOfBounds field.wire.origin.jsonPointer
        "field byte range exceeds message frame_length_bytes")
    pure (field, { tally with spans := tally.spans ++
      [{ start := field.wire.byteOffset
         stop := field.wire.byteOffset + field.wire.byteWidth
         field := some field.origin }] })

/-- Checks a field of a bounded message that is not its payload. -/
def validateHeaderField (layout : BoundedPayloadIr) (field : FieldIr) : Compiled Unit := do
  rejectIf (field.wire.codec = .bytes ∧ field.wire.byteWidth = 0)
    (domain .unsupportedFeature field.wire.origin.jsonPointer
      "only the bounded payload field may omit byte_length")
  rejectIf (field.wire.codec ≠ .bitfield ∧
      field.wire.byteOffset + field.wire.byteWidth > layout.headerLength)
    (domain .fieldOutOfBounds field.wire.origin.jsonPointer
      "non-payload field must be fully inside the bounded payload header")

/-- Whether a field cannot hold a computed length. -/
def computedFieldInvalid (field : FieldIr) : Bool :=
  field.valueType ≠ .uint64 || field.wire.codec ≠ .unsignedInteger ||
    field.encode.source ≠ .computed || field.encode.constantValue.isSome ||
    field.encode.signedConstantValue.isSome || field.conversion.isSome ||
    field.enumEntries ≠ [] ||
    (field.wire.byteWidth ≠ 1 && field.wire.byteWidth ≠ 2 && field.wire.byteWidth ≠ 4) ||
    (field.wire.byteWidth = 1 && field.wire.byteOrder ≠ .notApplicable) ||
    (field.wire.byteWidth ≠ 1 && field.wire.byteOrder ≠ .big && field.wire.byteOrder ≠ .little)

/-- Checks the range of a computed length that counts a region of the frame. -/
def validateRegion (message : MessageIr) (computed : ComputedLengthIr) : Compiled Unit := do
  rejectIf message.boundedPayload.isSome
    (domain .unsupportedFeature computed.origin.jsonPointer
      "bounded payload length supports only frame or payload scope")
  rejectIf (computed.rangeLength = 0)
    (domain .fieldOutOfBounds (childPointer computed.rangeOrigin.jsonPointer "byte_length")
      "computed length range must contain at least one byte")
  rejectIf (computed.rangeOffset > message.frameLengthBytes ∨
      computed.rangeLength > message.frameLengthBytes - computed.rangeOffset)
    (domain .fieldOutOfBounds computed.rangeOrigin.jsonPointer
      "computed length range exceeds message frame_length_bytes")

/-- Checks the scope of a computed length and returns the largest value it takes. -/
def validateScope (message : MessageIr) (computed : ComputedLengthIr) : Compiled Nat :=
  match computed.scope with
  | .frame => .ok message.frameLengthBytes
  | .region => do
    validateRegion message computed
    pure computed.rangeLength
  | .payload =>
    match message.boundedPayload with
    | none => .error (domain .unsupportedFeature computed.origin.jsonPointer
        "payload length scope requires a bounded payload Message")
    | some layout => .ok layout.maxPayloadLength

/-- Checks the computed length of a field; `count` counts those of the message up to it. -/
def validateComputedLength (message : MessageIr) (field : FieldIr) (computed : ComputedLengthIr)
    (count : Nat) : Compiled Unit := do
  rejectIf (count > 1)
    (domain .unsupportedFeature computed.origin.jsonPointer
      "a message may contain at most one computed length field")
  rejectIf (computedFieldInvalid field)
    (domain .unsupportedFeature computed.origin.jsonPointer
      "computed length requires a byte-aligned UINT64 field of width 1, 2, or 4")
  let expected ← validateScope message computed
  rejectIf (∃ layout ∈ message.boundedPayload,
      field.wire.byteOffset + field.wire.byteWidth > layout.headerLength)
    (domain .fieldOutOfBounds field.wire.origin.jsonPointer
      "computed length storage must be fully inside the bounded payload header")
  rejectIf (!fitsUnsignedWidth expected field.wire.byteWidth)
    (domain .valueNotRepresentable computed.origin.jsonPointer
      "computed length does not fit the configured wire width")

/-- Checks the computed length of a field, or that its source needs none. -/
def validateComputed (message : MessageIr) (field : FieldIr) (tally : FieldTally) :
    Compiled FieldTally :=
  match field.computedLength with
  | some computed => do
    validateComputedLength message field computed (tally.computedLengthCount + 1)
    pure { tally with computedLengthCount := tally.computedLengthCount + 1 }
  | none => do
    rejectIf (field.encode.source = .computed)
      (domain .internalContractViolation field.encode.origin.jsonPointer
        "computed encode source is missing its length descriptor")
    pure tally

/-- Checks that the constant of a field fits its wire. -/
def validateConstants (field : FieldIr) : Compiled Unit := do
  rejectIf (∃ value ∈ field.encode.constantValue, fitsWire field.wire value = false)
    (domain .valueNotRepresentable (childPointer field.encode.origin.jsonPointer "value")
      "constant value does not fit the configured wire width")
  rejectIf (∃ value ∈ field.encode.signedConstantValue,
      fitsSignedWidth value field.wire.byteWidth = false)
    (domain .valueNotRepresentable (childPointer field.encode.origin.jsonPointer "value")
      "signed constant value does not fit the configured wire width")

/-- The diagnostic of a conversion that cannot be derived. -/
def conversionDiagnostic (conversion : LinearConversionIr) (error : DecimalDescriptorError) :
    CompileDiagnostic :=
  domain (if error = .arithmeticOverflow then .internalContractViolation
      else .valueNotRepresentable)
    (match error with
      | .zeroScale => childPointer conversion.scale.origin.jsonPointer "numerator"
      | .nonTerminatingScale => childPointer conversion.scale.origin.jsonPointer "denominator"
      | .nonTerminatingBias => childPointer conversion.bias.origin.jsonPointer "denominator"
      | .denominatorOutOfRange | .arithmeticOverflow => conversion.origin.jsonPointer)
    (if error = .zeroScale then "conversion scale numerator must not be zero"
      else "conversion rational must be an exact decimal with at most 18 places")

/-- Derives the executable descriptor of a conversion. -/
def deriveConversion (field : FieldIr) (conversion : LinearConversionIr) :
    Compiled LinearConversionIr := do
  rejectIf ((field.valueType ≠ .uint64 ∧ field.valueType ≠ .int64) ∨
      field.wire.codec ≠ .unsignedInteger ∨ field.encode.source ≠ .input)
    (domain .unsupportedFeature
      (if field.encode.source ≠ .input then childPointer field.encode.origin.jsonPointer "source"
        else conversion.origin.jsonPointer)
      "linear conversion requires an input byte-aligned UINT64 or INT64 field")
  match deriveLinearConversion field.valueType (Int64.ofInt conversion.scale.numerator)
      (UInt64.ofNat conversion.scale.denominator) (Int64.ofInt conversion.bias.numerator)
      (UInt64.ofNat conversion.bias.denominator) with
  | .ok derived => pure { conversion with derived := derived }
  | .error error => .error (conversionDiagnostic conversion error)

/-- Derives the conversion of a field, when it has one, and accounts for it. -/
def validateConversion (field : FieldIr) (tally : FieldTally) : Compiled (FieldIr × FieldTally) :=
  match field.conversion with
  | none => .ok (field, tally)
  | some conversion =>
    match addSizeChecked 1 tally.requirements.totalConversionCount with
    | none => .error (domain .internalContractViolation conversion.origin.jsonPointer
        "conversion count overflow")
    | some count => do
      let conversion ← deriveConversion field conversion
      pure ({ field with conversion := some conversion },
        { tally with requirements := { tally.requirements with totalConversionCount := count } })

/-- Checks enumeration entries in order; identifiers and raw values must be new. -/
def validateEntries (field : FieldIr) :
    List EnumEntryIr → List String → List Nat → Compiled Unit
  | [], _, _ => .ok ()
  | entry :: rest, ids, values => do
    rejectIf (entry.id ∈ ids ∨ entry.rawValue ∈ values)
      (domain .duplicateId entry.origin.jsonPointer
        "enum entry ID and raw value must both be unique")
    rejectIf (!fitsWire field.wire entry.rawValue)
      (domain .valueNotRepresentable (childPointer entry.origin.jsonPointer "raw_value")
        "enum raw value does not fit the configured wire width")
    validateEntries field rest (entry.id :: ids) (entry.rawValue :: values)

/-- Checks the entries of an enumeration field and accounts for them. -/
def validateEnumeration (field : FieldIr) (tally : FieldTally) : Compiled FieldTally :=
  if field.valueType = .enum then
    match addSizeChecked field.enumEntries.length tally.requirements.totalEnumEntryCount with
    | none => .error (domain .internalContractViolation field.origin.jsonPointer
        "enum entry count overflow")
    | some count => do
      validateEntries field field.enumEntries [] []
      pure { tally with requirements := { tally.requirements with totalEnumEntryCount := count } }
  else .ok tally

/-- Validates one field of a binary message. -/
def validateField (message : MessageIr) (index : Nat) (field : FieldIr) (tally : FieldTally) :
    Compiled (FieldIr × FieldTally) := do
  rejectIf (field.id ∈ tally.taken)
    (domain .duplicateId (childPointer field.origin.jsonPointer "id")
      "field ID is duplicated within the message")
  let (field, tally) ← placeField message field { tally with taken := field.id :: tally.taken }
  match message.boundedPayload with
  | some layout => if index ≠ layout.payloadFieldIndex then validateHeaderField layout field
  | none => pure ()
  let tally ← validateComputed message field tally
  validateConstants field
  let (field, tally) ← validateConversion field tally
  let tally ← validateEnumeration field tally
  pure (field, tally)

/-- Validates the fields of a binary message in order. -/
def validateFields (message : MessageIr) :
    List FieldIr → Nat → FieldTally → Compiled (List FieldIr × FieldTally)
  | [], _, tally => .ok ([], tally)
  | field :: rest, index, tally => do
    let (field, tally) ← validateField message index field tally
    let (fields, tally) ← validateFields message rest (index + 1) tally
    pure (field :: fields, tally)

end ProtocolAdapter.ConfigCompiler
