/-
This file defines the structural readers of binary messages, with their bit containers,
integrity rule and bounded payload, and of the package as a whole. The version of the
schema decides which members a message may have and how its text is read.
-/

import ProtocolAdapter.ConfigCompiler.ParseFraming
import ProtocolAdapter.ConfigCompiler.ParseText

namespace ProtocolAdapter.ConfigCompiler

open Foundation

/-! ### Bit containers -/

/-- Reads the byte order of a container: a single byte must omit it, several bytes must
declare it. -/
def parseContainerByteOrder (value : JsonValue) (pointer : String) (byteWidth : Nat) :
    Compiled ByteOrder :=
  ifProperty value "byte_order"
    (if byteWidth > 1 then .error (structural .missingProperty (childPointer pointer "byte_order")
        "multi-byte bit container requires an explicit byte order")
      else .ok .notApplicable)
    fun found => do
      rejectIf (byteWidth = 1)
        (structural .unknownProperty (childPointer pointer "byte_order")
          "single-byte bit container must omit byte_order")
      readByteOrder found (childPointer pointer "byte_order")

def parseBitContainer (value : JsonValue) (pointer : String) : Compiled BitContainerIr := do
  rejectIf (!value.isObj) (structural .typeMismatch pointer "bit container must be an object")
  validateObjectProperties value pointer ["id", "container_offset", "container_width",
    "byte_order", "bit_numbering", "base_value"]
  let id ← readRequiredId value "id" pointer
  let byteOffset ← readRequiredUint64 value "container_offset" pointer
  let byteWidth ← readRequiredUint64 value "container_width" pointer
  let baseValue ← readRequiredUint64 value "base_value" pointer
  rejectIf (byteWidth ≠ 1 ∧ byteWidth ≠ 2 ∧ byteWidth ≠ 4 ∧ byteWidth ≠ 8)
    (structural .invalidEnumValue (childPointer pointer "container_width")
      "bit container width must be 1, 2, 4, or 8 bytes")
  let byteOrder ← parseContainerByteOrder value pointer byteWidth
  let numbering ← readRequiredEnumToken value "bit_numbering" pointer ["lsb0", "msb0"]
  pure
    { id := id
      byteOffset := byteOffset
      byteWidth := byteWidth
      byteOrder := byteOrder
      bitNumbering := if numbering = "lsb0" then .lsb0 else .msb0
      baseValue := baseValue
      origin := { jsonPointer := pointer } }

/-! ### Integrity rules -/

/-- Reads the parameters of a CRC. -/
def parseCrcParameters (value : JsonValue) (pointer : String) (output : IntegrityIr) :
    Compiled IntegrityIr := do
  rejectIf (!value.isObj) (structural .typeMismatch pointer "CRC parameters must be an object")
  validateObjectProperties value pointer ["width", "poly", "init", "refin", "refout", "xorout"]
  let width ← readRequiredUint64 value "width" pointer
  rejectIf (width ≠ 16 ∧ width ≠ 32)
    (structural .invalidEnumValue (childPointer pointer "width") "CRC width must be 16 or 32")
  let polynomial ← readRequiredCrcHex value "poly" pointer (width / 4)
  let initialValue ← readRequiredCrcHex value "init" pointer (width / 4)
  let reflectInput ← readRequiredBool value "refin" pointer
  let reflectOutput ← readRequiredBool value "refout" pointer
  let xorOutput ← readRequiredCrcHex value "xorout" pointer (width / 4)
  rejectIf (polynomial = 0 ∨ polynomial &&& 1 = 0)
    (domain .invalidEnumValue (childPointer pointer "poly")
      "CRC polynomial must be nonzero with its low bit set")
  pure { output with
    algorithm := .crc
    crcWidth := width
    crcPolynomial := polynomial
    crcInitialValue := initialValue
    crcXorOutput := xorOutput
    crcReflectInput := reflectInput
    crcReflectOutput := reflectOutput }

/-- Reads the bytes a rule covers. In a bounded message they may end at the payload. -/
def parseIntegrityRange (variableLayout : Bool) (value : JsonValue) (pointer : String)
    (output : IntegrityIr) : Compiled IntegrityIr := do
  rejectIf (!value.isObj) (structural .typeMismatch pointer "integrity range must be an object")
  if variableLayout ∧ (value.get? "end").isSome then do
    validateObjectProperties value pointer ["byte_offset", "end"]
    let rangeOffset ← readRequiredUint64 value "byte_offset" pointer
    let _ ← readRequiredEnumToken value "end" pointer ["payload_end"]
    pure { output with
      rangeOffset := rangeOffset
      rangeEndsAtPayload := true
      rangeOrigin := { jsonPointer := pointer } }
  else do
    validateObjectProperties value pointer ["byte_offset", "byte_length"]
    let rangeOffset ← readRequiredUint64 value "byte_offset" pointer
    let rangeLength ← readRequiredUint64 value "byte_length" pointer
    pure { output with
      rangeOffset := rangeOffset
      rangeLength := rangeLength
      rangeOrigin := { jsonPointer := pointer } }

/-- Reads the bytes a rule stores its value in. In a bounded message they follow the
payload. -/
def parseIntegrityStorage (variableLayout crcStorage : Bool) (value : JsonValue)
    (pointer : String) (output : IntegrityIr) : Compiled IntegrityIr := do
  rejectIf (!value.isObj) (structural .typeMismatch pointer "integrity storage must be an object")
  let output ← if variableLayout then do
      validateObjectProperties value pointer
        ("anchor" :: if crcStorage then ["byte_order"] else [])
      let _ ← readRequiredEnumToken value "anchor" pointer ["payload_end"]
      pure { output with storageAtPayloadEnd := true }
    else do
      validateObjectProperties value pointer
        ("byte_offset" :: if crcStorage then ["byte_order"] else [])
      let storageOffset ← readRequiredUint64 value "byte_offset" pointer
      pure { output with storageOffset := storageOffset }
  let output := { output with storageOrigin := { jsonPointer := pointer } }
  if crcStorage then do
    let byteOrder ← requiredProperty value "byte_order" pointer
    let byteOrder ← readByteOrder byteOrder (childPointer pointer "byte_order")
    pure { output with storageByteOrder := byteOrder }
  else pure output

def parseIntegrity (supportsCrc variableLayout : Bool) (value : JsonValue) (pointer : String) :
    Compiled IntegrityIr := do
  rejectIf (!value.isObj) (structural .typeMismatch pointer "integrity must be an object")
  validateObjectProperties value pointer
    (if supportsCrc then ["algorithm", "parameters", "range", "storage"]
      else ["algorithm", "range", "storage"])
  let algorithm ← readRequiredEnumToken value "algorithm" pointer
    (if supportsCrc then ["sum8", "crc"] else ["sum8"])
  let output : IntegrityIr := { origin := { jsonPointer := pointer } }
  let output ← if algorithm = "crc" then do
      let parameters ← requiredProperty value "parameters" pointer
      parseCrcParameters parameters (childPointer pointer "parameters") output
    else do
      rejectMembers value ["parameters"] pointer "SUM8 does not accept CRC parameters"
      pure { output with algorithm := .sum8 }
  let range ← requiredProperty value "range" pointer
  let output ← parseIntegrityRange variableLayout range (childPointer pointer "range") output
  let storage ← requiredProperty value "storage" pointer
  parseIntegrityStorage variableLayout (algorithm = "crc") storage (childPointer pointer "storage")
    output

/-! ### Messages -/

def parseBoundedPayloadLayout (value : JsonValue) (pointer : String) :
    Compiled BoundedPayloadIr := do
  rejectIf (!value.isObj) (structural .typeMismatch pointer "layout must be an object")
  validateObjectProperties value pointer ["kind", "header_length_bytes", "payload_field_id",
    "min_payload_bytes", "max_payload_bytes"]
  let _ ← readRequiredEnumToken value "kind" pointer ["bounded_payload"]
  let headerLength ← readRequiredUint64 value "header_length_bytes" pointer
  let payloadFieldId ← readRequiredId value "payload_field_id" pointer
  let minPayloadLength ← readRequiredUint64 value "min_payload_bytes" pointer
  let maxPayloadLength ← readRequiredUint64 value "max_payload_bytes" pointer
  rejectIf (headerLength = 0)
    (structural .integerOutOfRange (childPointer pointer "header_length_bytes")
      "bounded payload header must contain at least one byte")
  pure
    { payloadFieldId := payloadFieldId
      headerLength := headerLength
      minPayloadLength := minPayloadLength
      maxPayloadLength := maxPayloadLength
      origin := { jsonPointer := pointer } }

/-- The members of a binary message. -/
def messageProperties (features : Features) : List String :=
  ["id", "display_name", "description", "source_ref", "direction_id", "frame_length_bytes",
    "matcher", "fields"] ++
    if features.variableLayout then ["layout", "bit_containers", "integrity"]
    else if features.integrity then ["bit_containers", "integrity"]
    else if features.bitfields then ["bit_containers"]
    else []

/-- Reads the length of a message: a bounded payload layout, or a fixed frame length. -/
def parseMessageLength (features : Features) (value : JsonValue) (pointer : String)
    (output : MessageIr) : Compiled MessageIr :=
  if features.variableLayout ∧ (value.get? "layout").isSome then do
    rejectMembers value ["frame_length_bytes"] pointer
      "bounded payload Message must omit frame_length_bytes"
    let layout ← requiredProperty value "layout" pointer
    let parsed ← parseBoundedPayloadLayout layout (childPointer pointer "layout")
    pure { output with boundedPayload := some parsed }
  else do
    let frameLengthBytes ← readRequiredUint64 value "frame_length_bytes" pointer
    rejectIf (frameLengthBytes = 0 ∨ frameLengthBytes > 1024 * 1024)
      (structural .integerOutOfRange (childPointer pointer "frame_length_bytes")
        "frame length must be in the range 1..1048576")
    pure { output with frameLengthBytes := frameLengthBytes }

/-- Reads the bit containers a message may have. -/
def parseBitContainers (features : Features) (value : JsonValue) (pointer : String) :
    Compiled (List BitContainerIr) :=
  if features.bitfields then
    ifProperty value "bit_containers" (.ok []) fun containers =>
      readNonemptyArray parseBitContainer containers (childPointer pointer "bit_containers")
        "bit_containers must be an array" "bit_containers must not be empty when present"
  else .ok []

/-- Reads the integrity rule a message may have. -/
def parseMessageIntegrity (features : Features) (variableLayout : Bool) (value : JsonValue)
    (pointer : String) : Compiled (Option IntegrityIr) :=
  if features.integrity then
    ifProperty value "integrity" (.ok none) fun integrity => do
      let parsed ← parseIntegrity features.crc variableLayout integrity
        (childPointer pointer "integrity")
      pure (some parsed)
  else .ok none

def parseMessage (features : Features) (value : JsonValue) (pointer : String) :
    Compiled MessageIr := do
  rejectIf (!value.isObj) (structural .typeMismatch pointer "message must be an object")
  validateObjectProperties value pointer (messageProperties features)
  let labels ← readLabels value pointer
  let directionId ← readRequiredId value "direction_id" pointer
  let output ← parseMessageLength features value pointer
    { id := labels.id
      displayName := labels.displayName
      description := labels.description
      sourceRef := labels.sourceRef
      directionId := directionId
      origin := { jsonPointer := pointer } }
  let variableLayout := output.boundedPayload.isSome
  -- The diagnostic of a missing member replaces that of one looked up before it.
  let fields ← requiredProperty value "fields" pointer
  let matcher ← requiredProperty value "matcher" pointer
  let matcherClauses ← parseMatcher matcher (childPointer pointer "matcher")
  let fields ← parseFields features variableLayout fields (childPointer pointer "fields")
  let bitContainers ← parseBitContainers features value pointer
  let integrity ← parseMessageIntegrity features variableLayout value pointer
  pure { output with
    matcherClauses := matcherClauses
    fields := fields
    bitContainers := bitContainers
    integrity := integrity }

/-! ### The package -/

/-- The schema versions the compiler supports. -/
def supportedVersions : List String :=
  ["0.1", "0.2", "0.3", "0.4", "0.5", "0.6", "0.7", "0.8", "0.9", "0.10", "0.11"]

/-- What a schema version allows the messages of a package to declare. -/
def featuresOf (schemaVersion : String) : Features where
  bitfields := schemaVersion ≠ "0.1"
  integrity := schemaVersion ∈ ["0.3", "0.4", "0.5", "0.6", "0.7", "0.8", "0.9"]
  crc := schemaVersion ∈ ["0.6", "0.7", "0.8", "0.9"]
  int64 := schemaVersion ∈ ["0.4", "0.5", "0.6", "0.7", "0.8", "0.9"]
  conversion := schemaVersion ∈ ["0.5", "0.6", "0.7", "0.8", "0.9"]
  computedLength := schemaVersion ∈ ["0.7", "0.8", "0.9"]
  variableLayout := schemaVersion ∈ ["0.8", "0.9"]

/-- Reads a message of a package: text in the two text versions, binary otherwise. -/
def parsePackageMessage (schemaVersion : String) (value : JsonValue) (pointer : String) :
    Compiled MessageIr :=
  if schemaVersion = "0.10" ∨ schemaVersion = "0.11" then parseTextMessage value pointer
  else parseMessage (featuresOf schemaVersion) value pointer

/-- Reads an array of records of the package. -/
def parseObjectArray {α : Type} (parseItem : JsonValue → String → Compiled α)
    (value : JsonValue) (pointer : String) : Compiled (List α) :=
  readNonemptyArray parseItem value pointer "expected an array"
    "array must contain at least one item"

/-- Builds the intermediate representation of a document. -/
def buildSchemaIr (root : JsonValue) : Compiled SchemaIr := do
  rejectIf (!root.isObj)
    (structural .rootMustBeObject "" "PAE protocol package root must be an object")
  validateObjectProperties root "" ["schema_version", "protocol_id", "protocol_version",
    "display_name", "description", "source_ref", "resource_profile", "framing_profiles",
    "pipelines", "messages"]
  let schemaVersion ← readRequiredString root "schema_version" "" 1 16
  let protocolId ← readRequiredId root "protocol_id" ""
  let protocolVersion ← readRequiredString root "protocol_version" "" 1 64
  let displayName ← readRequiredString root "display_name" "" 1 256
  let sourceRef ← readRequiredString root "source_ref" "" 1 512
  rejectIf (schemaVersion ∉ supportedVersions)
    (structural .invalidEnumValue "/schema_version"
      "schema_version is not supported by this compiler build")
  let description ← ifProperty root "description" (.ok "") fun description =>
    readString description "/description" 0 1024
  let profile ← readRequiredEnumToken root "resource_profile" "" ["desktop", "constrained"]
  -- The diagnostic of a missing member replaces that of one looked up before it.
  let messages ← requiredProperty root "messages" ""
  let pipelines ← requiredProperty root "pipelines" ""
  let framingProfiles ← requiredProperty root "framing_profiles" ""
  let framingProfiles ← parseObjectArray
    (parseFramingProfile (schemaVersion = "0.9") (schemaVersion = "0.11")) framingProfiles
    "/framing_profiles"
  let pipelines ← parseObjectArray parsePipeline pipelines "/pipelines"
  let messages ← parseObjectArray (parsePackageMessage schemaVersion) messages "/messages"
  pure
    { schemaVersion := schemaVersion
      protocolId := protocolId
      protocolVersion := protocolVersion
      displayName := displayName
      description := description
      sourceRef := sourceRef
      resourceProfile := if profile = "desktop" then .desktop else .constrained
      framingProfiles := framingProfiles
      pipelines := pipelines
      messages := messages }

/-! ### Reading a normal form -/

@[simp] theorem parseBitContainer_normal (value : JsonValue) (pointer : String) :
    parseBitContainer value.normal pointer = parseBitContainer value pointer := by
  simp [parseBitContainer, parseContainerByteOrder]

@[simp] theorem parseCrcParameters_normal (value : JsonValue) (pointer : String)
    (output : IntegrityIr) :
    parseCrcParameters value.normal pointer output = parseCrcParameters value pointer output := by
  simp [parseCrcParameters]

@[simp] theorem parseIntegrityRange_normal (variableLayout : Bool) (value : JsonValue)
    (pointer : String) (output : IntegrityIr) :
    parseIntegrityRange variableLayout value.normal pointer output =
      parseIntegrityRange variableLayout value pointer output := by
  simp [parseIntegrityRange]

@[simp] theorem parseIntegrityStorage_normal (variableLayout crcStorage : Bool)
    (value : JsonValue) (pointer : String) (output : IntegrityIr) :
    parseIntegrityStorage variableLayout crcStorage value.normal pointer output =
      parseIntegrityStorage variableLayout crcStorage value pointer output := by
  simp [parseIntegrityStorage]

@[simp] theorem parseIntegrity_normal (supportsCrc variableLayout : Bool) (value : JsonValue)
    (pointer : String) : parseIntegrity supportsCrc variableLayout value.normal pointer =
      parseIntegrity supportsCrc variableLayout value pointer := by
  simp [parseIntegrity]

@[simp] theorem parseBoundedPayloadLayout_normal (value : JsonValue) (pointer : String) :
    parseBoundedPayloadLayout value.normal pointer = parseBoundedPayloadLayout value pointer := by
  simp [parseBoundedPayloadLayout]

@[simp] theorem parseMessageLength_normal (features : Features) (value : JsonValue)
    (pointer : String) (output : MessageIr) :
    parseMessageLength features value.normal pointer output =
      parseMessageLength features value pointer output := by
  simp [parseMessageLength]

@[simp] theorem parseBitContainers_normal (features : Features) (value : JsonValue)
    (pointer : String) :
    parseBitContainers features value.normal pointer =
      parseBitContainers features value pointer := by
  simp [parseBitContainers]

@[simp] theorem parseMessageIntegrity_normal (features : Features) (variableLayout : Bool)
    (value : JsonValue) (pointer : String) :
    parseMessageIntegrity features variableLayout value.normal pointer =
      parseMessageIntegrity features variableLayout value pointer := by
  simp [parseMessageIntegrity]

@[simp] theorem parseMessage_normal (features : Features) (value : JsonValue)
    (pointer : String) :
    parseMessage features value.normal pointer = parseMessage features value pointer := by
  simp [parseMessage]

@[simp] theorem parsePackageMessage_normal (schemaVersion : String) (value : JsonValue)
    (pointer : String) : parsePackageMessage schemaVersion value.normal pointer =
      parsePackageMessage schemaVersion value pointer := by
  simp [parsePackageMessage]

/-- The representation of a document is that of its normal form: no reader sees the
order of the members. -/
theorem buildSchemaIr_normal (root : JsonValue) :
    buildSchemaIr root.normal = buildSchemaIr root := by
  simp [buildSchemaIr, parseObjectArray]

end ProtocolAdapter.ConfigCompiler
