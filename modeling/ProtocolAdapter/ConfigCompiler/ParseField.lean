/-
This file defines the structural readers of the fields of a binary message: the three
wire layouts, the source of an encoded value, the computed length, the enumeration
entries and the linear conversion.
-/

import ProtocolAdapter.ConfigCompiler.Readers

namespace ProtocolAdapter.ConfigCompiler

open Foundation

/-! ### Wire layouts -/

def parseUnsignedWire (value : JsonValue) (pointer : String) : Compiled WireIr := do
  rejectIf (!value.isObj) (structural .typeMismatch pointer "wire must be an object")
  validateObjectProperties value pointer ["codec", "byte_offset", "byte_width", "byte_order"]
  let _ ← readRequiredEnumToken value "codec" pointer ["unsigned_integer"]
  let byteOffset ← readRequiredUint64 value "byte_offset" pointer
  let byteWidth ← readRequiredUint64 value "byte_width" pointer
  rejectIf (byteOffset ≥ 1024 * 1024 ∨ byteWidth = 0 ∨ byteWidth > 8)
    (structural .integerOutOfRange
      (childPointer pointer (if byteWidth = 0 ∨ byteWidth > 8 then "byte_width" else "byte_offset"))
      "unsigned integer wire offset or width is outside the draft Schema range")
  let byteOrder ← ifProperty value "byte_order"
    (if byteWidth > 1 then .error (structural .missingProperty (childPointer pointer "byte_order")
        "multi-byte integer requires an explicit byte order")
      else .ok .notApplicable)
    fun found => readByteOrder found (childPointer pointer "byte_order")
  pure
    { codec := .unsignedInteger
      byteOffset := byteOffset
      byteWidth := byteWidth
      byteOrder := byteOrder
      origin := { jsonPointer := pointer } }

/-- Reads the wire layout of raw bytes. The payload of a bounded message may omit its
length. -/
def parseBytesWire (value : JsonValue) (pointer : String) (allowOmittedLength : Bool) :
    Compiled WireIr := do
  rejectIf (!value.isObj) (structural .typeMismatch pointer "wire must be an object")
  validateObjectProperties value pointer ["codec", "byte_offset", "byte_length"]
  let _ ← readRequiredEnumToken value "codec" pointer ["bytes"]
  let byteOffset ← readRequiredUint64 value "byte_offset" pointer
  let byteWidth ← ifProperty value "byte_length"
    (if allowOmittedLength then .ok 0
      else .error (structural .missingProperty (childPointer pointer "byte_length")
        "fixed BYTES wire requires byte_length"))
    fun found => readExactUint64 found (childPointer pointer "byte_length")
  rejectIf (byteOffset ≥ 1024 * 1024 ∨ (allowOmittedLength = false ∧ byteWidth = 0) ∨
      byteWidth > 1024 * 1024)
    (structural .integerOutOfRange
      (childPointer pointer
        (if byteWidth = 0 ∨ byteWidth > 1024 * 1024 then "byte_length" else "byte_offset"))
      "byte wire offset or length is outside the draft Schema range")
  pure
    { codec := .bytes
      byteOffset := byteOffset
      byteWidth := byteWidth
      origin := { jsonPointer := pointer } }

def parseBitfieldWire (value : JsonValue) (pointer : String) : Compiled WireIr := do
  rejectIf (!value.isObj) (structural .typeMismatch pointer "wire must be an object")
  validateObjectProperties value pointer ["codec", "container_id", "bit_offset", "bit_width"]
  let _ ← readRequiredEnumToken value "codec" pointer ["bitfield"]
  let containerId ← readRequiredId value "container_id" pointer
  let bitOffset ← readRequiredUint64 value "bit_offset" pointer
  let bitWidth ← readRequiredUint64 value "bit_width" pointer
  rejectIf (bitOffset ≥ 64 ∨ bitWidth = 0 ∨ bitWidth > 64)
    (structural .integerOutOfRange
      (childPointer pointer (if bitWidth = 0 ∨ bitWidth > 64 then "bit_width" else "bit_offset"))
      "bitfield offset and width must be within a 64-bit container")
  pure
    { codec := .bitfield
      containerId := containerId
      bitOffset := bitOffset
      bitWidth := bitWidth
      origin := { jsonPointer := pointer } }

/-- Whether a wire names the bit field codec. The name is read up to its first null
character. -/
def isBitfieldWire (wire : JsonValue) : Bool :=
  match wire.get? "codec" with
  | some codec => codec.isStr &&
      codec.getStr.toList.takeWhile (· ≠ Char.ofNat 0) == "bitfield".toList
  | none => false

/-! ### Encoded values -/

/-- Reads the constant a numeric field is encoded with. -/
def parseConstant (value : JsonValue) (pointer : String) (valueType : ValueType) :
    Compiled EncodeIr := do
  validateObjectProperties value pointer ["source", "value"]
  let constant ← requiredProperty value "value" pointer
  if valueType = .int64 then do
    let parsed ← readExactInt64 constant (childPointer pointer "value")
    pure
      { source := .constant
        signedConstantValue := some parsed
        origin := { jsonPointer := pointer } }
  else do
    let parsed ← readExactUint64 constant (childPointer pointer "value")
    pure
      { source := .constant
        constantValue := some parsed
        origin := { jsonPointer := pointer } }

def parseEncode (value : JsonValue) (pointer : String) (valueType : ValueType)
    (supportsComputedLength : Bool) : Compiled EncodeIr := do
  rejectIf (!value.isObj) (structural .typeMismatch pointer "encode must be an object")
  let source ← readRequiredString value "source" pointer 1 32
  if source = "computed" then do
    rejectIf (!supportsComputedLength ∨ valueType ≠ .uint64)
      (structural .unsupportedFeature (childPointer pointer "source")
        "computed length requires a Schema 0.7 UINT64 field")
    validateObjectProperties value pointer ["source"]
    pure { source := .computed, origin := { jsonPointer := pointer } }
  else if source = "input" then do
    validateObjectProperties value pointer ["source"]
    pure { source := .input, origin := { jsonPointer := pointer } }
  else do
    rejectIf (source ≠ "constant")
      (structural .invalidEnumValue (childPointer pointer "source")
        "encode source must be input or constant in this draft slice")
    rejectIf (valueType ≠ .uint64 ∧ valueType ≠ .int64)
      (structural .unsupportedFeature (childPointer pointer "source")
        "constant encode source is supported only for UINT64 and INT64")
    parseConstant value pointer valueType

/-! ### Computed lengths -/

/-- Reads the byte range a computed length counts. -/
def parseLengthRange (value : JsonValue) (pointer : String) (output : ComputedLengthIr) :
    Compiled ComputedLengthIr := do
  rejectIf (!value.isObj)
    (structural .typeMismatch pointer "computed length range must be an object")
  validateObjectProperties value pointer ["byte_offset", "byte_length"]
  let rangeOffset ← readRequiredUint64 value "byte_offset" pointer
  let rangeLength ← readRequiredUint64 value "byte_length" pointer
  pure { output with
    scope := .region
    rangeOffset := rangeOffset
    rangeLength := rangeLength
    rangeOrigin := { jsonPointer := pointer } }

/-- Reads a computed length. Of two missing members the later one is reported, since
its diagnostic replaces the earlier one. -/
def parseComputedLength (value : JsonValue) (pointer : String) (supportsPayloadScope : Bool) :
    Compiled ComputedLengthIr := do
  rejectIf (!value.isObj) (structural .typeMismatch pointer "computed length must be an object")
  let scope ← requiredProperty value "scope" pointer
  let _ ← readRequiredEnumToken value "kind" pointer ["length"]
  let scope ← readEnumToken scope (childPointer pointer "scope")
    (if supportsPayloadScope then ["frame", "region", "payload"] else ["frame", "region"])
  let output : ComputedLengthIr := { origin := { jsonPointer := pointer } }
  if scope = "frame" then do
    validateObjectProperties value pointer ["kind", "scope"]
    pure { output with scope := .frame }
  else if scope = "payload" then do
    validateObjectProperties value pointer ["kind", "scope"]
    pure { output with scope := .payload }
  else do
    validateObjectProperties value pointer ["kind", "scope", "range"]
    let range ← requiredProperty value "range" pointer
    parseLengthRange range (childPointer pointer "range") output

/-! ### Enumeration entries and conversions -/

def parseEnumEntry (value : JsonValue) (pointer : String) : Compiled EnumEntryIr := do
  rejectIf (!value.isObj) (structural .typeMismatch pointer "enum entry must be an object")
  validateObjectProperties value pointer ["id", "display_name", "raw_value"]
  let id ← readRequiredId value "id" pointer
  let displayName ← readRequiredString value "display_name" pointer 1 256
  let rawValue ← readRequiredUint64 value "raw_value" pointer
  pure { id, displayName, rawValue, origin := { jsonPointer := pointer } }

def parseEnumEntries (value : JsonValue) (pointer : String) : Compiled (List EnumEntryIr) :=
  readNonemptyArray parseEnumEntry value pointer "enum_entries must be an array"
    "enum_entries must not be empty"

def parseRational (value : JsonValue) (pointer : String) : Compiled RationalIr := do
  rejectIf (!value.isObj)
    (structural .typeMismatch pointer "rational parameter must be an object")
  validateObjectProperties value pointer ["numerator", "denominator"]
  let denominator ← requiredProperty value "denominator" pointer
  let numerator ← requiredProperty value "numerator" pointer
  let numerator ← readExactInt64 numerator (childPointer pointer "numerator")
  let denominator ← readExactUint64 denominator (childPointer pointer "denominator")
  rejectIf (denominator = 0 ∨ denominator > 1000000000000000000)
    (structural .integerOutOfRange (childPointer pointer "denominator")
      "denominator must be in the author range 1..1000000000000000000")
  pure { numerator, denominator, origin := { jsonPointer := pointer } }

def parseConversion (value : JsonValue) (pointer : String) : Compiled LinearConversionIr := do
  rejectIf (!value.isObj) (structural .typeMismatch pointer "conversion must be an object")
  validateObjectProperties value pointer ["kind", "output_type", "scale", "bias"]
  let outputType ← requiredProperty value "output_type" pointer
  let _ ← readRequiredEnumToken value "kind" pointer ["linear"]
  let _ ← readEnumToken outputType (childPointer pointer "output_type") ["DECIMAL64"]
  let bias ← requiredProperty value "bias" pointer
  let scale ← requiredProperty value "scale" pointer
  let scale ← parseRational scale (childPointer pointer "scale")
  let bias ← parseRational bias (childPointer pointer "bias")
  pure { scale, bias, origin := { jsonPointer := pointer } }

/-! ### Fields -/

/-- What the schema version of a package allows its messages to declare. -/
structure Features where
  bitfields : Bool := false
  integrity : Bool := false
  crc : Bool := false
  int64 : Bool := false
  conversion : Bool := false
  computedLength : Bool := false
  variableLayout : Bool := false

/-- The names of the value types a field may have. -/
def valueTypeNames (features : Features) : List String :=
  if features.int64 then ["UINT64", "INT64", "BYTES", "ENUM", "BOOL"]
  else if features.bitfields then ["UINT64", "BYTES", "ENUM", "BOOL"]
  else ["UINT64", "BYTES", "ENUM"]

/-- The value type of a name. -/
def valueTypeOf (name : String) : ValueType :=
  if name = "UINT64" then .uint64
  else if name = "INT64" then .int64
  else if name = "BYTES" then .bytes
  else if name = "ENUM" then .enum
  else .bool

/-- The members of a field of a value type. -/
def fieldProperties (features : Features) (valueType : ValueType) : List String :=
  ["id", "display_name", "description", "source_ref", "value_type", "wire", "encode"] ++
    match valueType with
    | .uint64 => if features.computedLength then ["computed", "conversion"]
        else if features.conversion then ["conversion"] else []
    | .int64 => if features.conversion then ["conversion"] else []
    | .enum => ["unknown_enum_policy", "enum_entries"]
    | .bytes | .bool => []

/-- Reads the wire layout that fits the value type of a field. -/
def parseWire (features : Features) (variableLayout : Bool) (valueType : ValueType)
    (wire : JsonValue) (pointer : String) : Compiled WireIr :=
  if isBitfieldWire wire then do
    rejectIf (!features.bitfields ∨ valueType = .bytes ∨ valueType = .int64)
      (structural .unsupportedFeature pointer
        "bitfield wire is available only for Schema 0.2 BOOL, UINT64, and ENUM fields")
    parseBitfieldWire wire pointer
  else if valueType = .bool then
    .error (structural .unsupportedFeature pointer "BOOL requires bitfield wire")
  else if valueType = .bytes then parseBytesWire wire pointer variableLayout
  else parseUnsignedWire wire pointer

/-- Reads the computed rule that a computed source needs and no other source allows. -/
def parseComputed (value : JsonValue) (pointer : String) (source : EncodeSource)
    (variableLayout : Bool) : Compiled (Option ComputedLengthIr) :=
  if source = .computed then
    ifProperty value "computed"
      (.error (structural .missingProperty (childPointer pointer "computed")
        "computed encode source requires a computed rule"))
      fun computed => do
        let parsed ← parseComputedLength computed (childPointer pointer "computed") variableLayout
        pure (some parsed)
  else
    ifProperty value "computed" (.ok none) fun _ =>
      .error (structural .unknownProperty (childPointer pointer "computed")
        "computed rule requires encode.source computed")

/-- Reads the conversion a numeric field may have. -/
def parseFieldConversion (features : Features) (value : JsonValue) (pointer : String) :
    Compiled (Option LinearConversionIr) :=
  ifProperty value "conversion" (.ok none) fun conversion => do
    rejectIf (!features.conversion)
      (structural .unknownProperty (childPointer pointer "conversion")
        "conversion is available only in Schema 0.5")
    let parsed ← parseConversion conversion (childPointer pointer "conversion")
    pure (some parsed)

/-- Reads the policy and the entries of an enumeration field. -/
def parseEnumeration (value : JsonValue) (pointer : String) (output : FieldIr) :
    Compiled FieldIr := do
  let policy ← readRequiredEnumToken value "unknown_enum_policy" pointer ["reject", "preserve"]
  let entries ← requiredProperty value "enum_entries" pointer
  let entries ← parseEnumEntries entries (childPointer pointer "enum_entries")
  pure { output with
    unknownEnumPolicy := if policy = "reject" then .reject else .preserve
    enumEntries := entries }

def parseField (features : Features) (variableLayout : Bool) (value : JsonValue)
    (pointer : String) : Compiled FieldIr := do
  rejectIf (!value.isObj) (structural .typeMismatch pointer "field must be an object")
  let name ← readRequiredEnumToken value "value_type" pointer (valueTypeNames features)
  let valueType := valueTypeOf name
  validateObjectProperties value pointer (fieldProperties features valueType)
  let labels ← readLabels value pointer
  let wire ← requiredProperty value "wire" pointer
  let wire ← parseWire features variableLayout valueType wire (childPointer pointer "wire")
  let encode ← requiredProperty value "encode" pointer
  let encode ← parseEncode encode (childPointer pointer "encode") valueType features.computedLength
  let computedLength ← parseComputed value pointer encode.source variableLayout
  let conversion ← parseFieldConversion features value pointer
  let output : FieldIr :=
    { id := labels.id
      displayName := labels.displayName
      description := labels.description
      sourceRef := labels.sourceRef
      valueType := valueType
      wire := wire
      encode := encode
      computedLength := computedLength
      conversion := conversion
      origin := { jsonPointer := pointer } }
  if valueType = .enum then parseEnumeration value pointer output else pure output

def parseFields (features : Features) (variableLayout : Bool) (value : JsonValue)
    (pointer : String) : Compiled (List FieldIr) :=
  readNonemptyArray (parseField features variableLayout) value pointer "fields must be an array"
    "fields must contain at least one field"

/-! ### Reading a normal form -/

@[simp] theorem parseUnsignedWire_normal (value : JsonValue) (pointer : String) :
    parseUnsignedWire value.normal pointer = parseUnsignedWire value pointer := by
  simp [parseUnsignedWire]

@[simp] theorem parseBytesWire_normal (value : JsonValue) (pointer : String)
    (allowOmittedLength : Bool) : parseBytesWire value.normal pointer allowOmittedLength =
      parseBytesWire value pointer allowOmittedLength := by
  simp [parseBytesWire]

@[simp] theorem parseBitfieldWire_normal (value : JsonValue) (pointer : String) :
    parseBitfieldWire value.normal pointer = parseBitfieldWire value pointer := by
  simp [parseBitfieldWire]

@[simp] theorem isBitfieldWire_normal (wire : JsonValue) :
    isBitfieldWire wire.normal = isBitfieldWire wire := by
  unfold isBitfieldWire
  rw [JsonValue.get?_normal]
  cases wire.get? "codec" <;> simp

@[simp] theorem parseWire_normal (features : Features) (variableLayout : Bool)
    (valueType : ValueType) (wire : JsonValue) (pointer : String) :
    parseWire features variableLayout valueType wire.normal pointer =
      parseWire features variableLayout valueType wire pointer := by
  simp [parseWire]

@[simp] theorem parseEncode_normal (value : JsonValue) (pointer : String) (valueType : ValueType)
    (supportsComputedLength : Bool) :
    parseEncode value.normal pointer valueType supportsComputedLength =
      parseEncode value pointer valueType supportsComputedLength := by
  simp [parseEncode, parseConstant]

@[simp] theorem parseComputedLength_normal (value : JsonValue) (pointer : String)
    (supportsPayloadScope : Bool) : parseComputedLength value.normal pointer supportsPayloadScope =
      parseComputedLength value pointer supportsPayloadScope := by
  simp [parseComputedLength, parseLengthRange]

@[simp] theorem parseComputed_normal (value : JsonValue) (pointer : String)
    (source : EncodeSource) (variableLayout : Bool) :
    parseComputed value.normal pointer source variableLayout =
      parseComputed value pointer source variableLayout := by
  simp [parseComputed]

@[simp] theorem parseEnumEntry_normal (value : JsonValue) (pointer : String) :
    parseEnumEntry value.normal pointer = parseEnumEntry value pointer := by
  simp [parseEnumEntry]

@[simp] theorem parseRational_normal (value : JsonValue) (pointer : String) :
    parseRational value.normal pointer = parseRational value pointer := by
  simp [parseRational]

@[simp] theorem parseConversion_normal (value : JsonValue) (pointer : String) :
    parseConversion value.normal pointer = parseConversion value pointer := by
  simp [parseConversion]

@[simp] theorem parseFieldConversion_normal (features : Features) (value : JsonValue)
    (pointer : String) : parseFieldConversion features value.normal pointer =
      parseFieldConversion features value pointer := by
  simp [parseFieldConversion]

@[simp] theorem parseEnumeration_normal (value : JsonValue) (pointer : String)
    (output : FieldIr) :
    parseEnumeration value.normal pointer output = parseEnumeration value pointer output := by
  simp [parseEnumeration, parseEnumEntries]

@[simp] theorem parseField_normal (features : Features) (variableLayout : Bool)
    (value : JsonValue) (pointer : String) :
    parseField features variableLayout value.normal pointer =
      parseField features variableLayout value pointer := by
  simp [parseField]

@[simp] theorem parseFields_normal (features : Features) (variableLayout : Bool)
    (value : JsonValue) (pointer : String) :
    parseFields features variableLayout value.normal pointer =
      parseFields features variableLayout value pointer := by
  simp [parseFields]

end ProtocolAdapter.ConfigCompiler
