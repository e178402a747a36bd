/-
This file models the JSON document of a result: how it is written, and how it is read back. The
document is read by the JSON library; its integers are seen through the library's accessors, which
keep 64 bits and a sign. A document is accepted when its members have their types, the result they
give is valid and the declared fingerprint is the one of that result.
-/

import Mathlib.Data.List.Sort
import ProtocolAdapter.Foundation.JsonText
import ProtocolAdapter.ProtocolLab.Fingerprint
import ProtocolAdapter.ProtocolLab.Sha256

namespace ProtocolAdapter.ProtocolLab

open Foundation Foundation.ByteText

def finalizeFingerprint (result : Result) : Except String (List UInt8) := do
  let payload ← encodeFingerprintPayload result
  pure (uppercaseHash payload)

/-! ### Writing -/

def hexUpperDigit (nibble : UInt8) : UInt8 := if nibble < 10 then 0x30 + nibble else 0x37 + nibble

/-- The bytes that stand for a byte of a string. -/
def quoteByte (value : UInt8) : List UInt8 :=
  if value = 0x22 then [0x5c, 0x22]
  else if value = 0x5c then [0x5c, 0x5c]
  else if value = 0x08 then [0x5c, 0x62]
  else if value = 0x0c then [0x5c, 0x66]
  else if value = 0x0a then [0x5c, 0x6e]
  else if value = 0x0d then [0x5c, 0x72]
  else if value = 0x09 then [0x5c, 0x74]
  else if value < 0x20 then
    [0x5c, 0x75, 0x30, 0x30, hexUpperDigit (value >>> 4), hexUpperDigit (value &&& 0x0f)]
  else [value]

def quote (text : List UInt8) : List UInt8 := 0x22 :: (text.flatMap quoteByte ++ [0x22])

def jsonOptionalString : Option (List UInt8) → List UInt8
  | some value => quote value
  | none => utf8 "null"

def jsonOptionalIndex : Option UInt64 → List UInt8
  | some value => decimal value.toNat
  | none => utf8 "null"

def jsonBoolean (value : Bool) : List UInt8 := if value then utf8 "true" else utf8 "false"

/-- A member with the white space in front of it. -/
def jsonMember (indent : List UInt8) (member : String × List UInt8) : List UInt8 :=
  indent ++ utf8 "\"" ++ utf8 member.1 ++ utf8 "\":" ++ member.2

/-- An object on one line. -/
def jsonObject (members : List (String × List UInt8)) : List UInt8 :=
  utf8 "\x7b" ++ ((members.map (jsonMember [])).intersperse (utf8 ",")).flatten ++ utf8 "\x7d"

def serializeField (field : FieldResult) : List UInt8 :=
  if field.kind = utf8 "DECIMAL64" then
    let decimal64 := field.decimal64.getD {}
    jsonObject
      [("id", quote field.id), ("kind", quote field.kind),
        ("decimal64", jsonObject
          [("coefficient", quote (signedDecimal decimal64.coefficient.toInt)),
            ("scale", signedDecimal decimal64.scale.toInt)]),
        ("raw_kind", quote (field.rawKind.getD [])), ("raw_value", quote field.rawValue)]
  else
    jsonObject
      [("id", quote field.id), ("kind", quote field.kind), ("raw_value", quote field.rawValue),
        ("logical_value", quote field.logicalValue), ("enum_known", jsonBoolean field.enumKnown)]

def serializeFields (fields : List FieldResult) : List UInt8 :=
  utf8 "[" ++ ((fields.map serializeField).intersperse (utf8 ",")).flatten ++ utf8 "]"

/-- The members of a document, each with the bytes of its value. -/
def documentMembers (result : Result) (exitCode fingerprint : List UInt8) :
    List (String × List UInt8) :=
  [("format_version", quote result.formatVersion), ("command", quote result.command),
    ("operation_kind", quote result.operationKind),
    ("operation_status", quote result.operationStatus), ("exit_code", exitCode),
    ("config_sha256", jsonOptionalString result.configSha256),
    ("protocol_id", jsonOptionalString result.protocolId),
    ("pipeline_id", jsonOptionalString result.pipelineId),
    ("message_id", jsonOptionalString result.messageId),
    ("direction_id", jsonOptionalString result.directionId),
    ("frame_hex", jsonOptionalString result.frameHex),
    ("tx_frame_hex", jsonOptionalString result.txFrameHex),
    ("rx_frame_hex", jsonOptionalString result.rxFrameHex),
    ("fields", serializeFields result.fields),
    ("diagnostic", jsonObject
      [("id", jsonOptionalString result.diagnosticId), ("detail", quote result.diagnosticDetail)]),
    ("deterministic_fingerprint", quote fingerprint), ("replay_mode", quote result.replayMode),
    ("replay_subject", quote result.replaySubject),
    ("current_execution_status", quote result.currentExecutionStatus),
    ("current_execution_diagnostic_id",
      jsonOptionalString result.currentExecutionDiagnosticId),
    ("conversion_error", jsonOptionalString result.conversionError),
    ("failed_field_id", jsonOptionalString result.failedFieldId),
    ("failed_field_index", jsonOptionalIndex result.failedFieldIndex),
    ("failed_value_index", jsonOptionalIndex result.failedValueIndex)]

/-- A document, one member on each line. -/
def documentBytes (members : List (String × List UInt8)) : List UInt8 :=
  utf8 "\x7b\n" ++ ((members.map (jsonMember (utf8 "  "))).intersperse (utf8 ",\n")).flatten ++
    utf8 "\n\x7d\n"

def serializeResult (result : Result) : Except String (List UInt8) := do
  validateResult result
  let fingerprint ← finalizeFingerprint result
  pure (documentBytes (documentMembers result (signedDecimal result.exitCode.toInt) fingerprint))

/-! ### The numbers of the JSON library -/

/-- A number as the library stores it. -/
inductive Number where
  | uint (value : UInt64)
  | sint (value : Int64)
  | real
  deriving DecidableEq

/-- The magnitude of an integer token, and whether it has a minus sign. -/
def integerToken (token : String) : Option (Bool × Nat) :=
  let digits := JsonText.unsigned token.toList
  if digits.all JsonText.isDigit then
    some (token.toList.head? = some '-', Nat.ofDigitChars 10 digits 0)
  else none

/-- An integer that fits 64 bits is stored exactly, any other number as a real. -/
def numberOf (token : String) : Number :=
  match integerToken token with
  | some (true, magnitude) =>
    if magnitude ≤ 2 ^ 63 then .sint (Int64.ofInt (-(magnitude : Int))) else .real
  | some (false, magnitude) => if magnitude < 2 ^ 64 then .uint (UInt64.ofNat magnitude) else .real
  | none => .real

/-- Whether a value is an integer, signed or unsigned. -/
def isInt : JsonValue → Bool
  | .raw token => numberOf token ≠ .real
  | _ => false

/-- The stored bits as a signed integer. -/
def getSint : JsonValue → Int64
  | .raw token =>
    match numberOf token with
    | .uint value => value.toInt64
    | .sint value => value
    | .real => 0
  | _ => 0

/-- The unsigned integer of a value that is one. -/
def getUint? : JsonValue → Option UInt64
  | .raw token =>
    match numberOf token with
    | .uint value => some value
    | _ => none
  | _ => none

/-! ### Reading -/

/-- Checks that a value is an object with the required keys, no key twice and no other key. The
required keys are looked for in the order of a set. -/
def isObjectWithKeys (value : JsonValue) (allowed required : List String) (pointer : String) :
    Except String Unit := do
  rejectIf (!value.isObj) (pointer ++ " must be an object")
  match (required.insertionSort (· ≤ ·)).find? fun key => (value.get? key).isNone with
  | some key => .error (pointer ++ " is missing property " ++ key)
  | none => checkKeys value.keys []
where
  checkKeys : List String → List String → Except String Unit
    | [], _ => .ok ()
    | name :: rest, seen => do
      rejectIf (name ∈ seen) (pointer ++ " contains duplicate property " ++ name)
      rejectIf (name ∉ allowed) (pointer ++ " contains unknown property " ++ name)
      checkKeys rest (name :: seen)

/-- A member of an object; the callers have checked that it is there. -/
def node (object : JsonValue) (key : String) : JsonValue := (object.get? key).getD .null

def readString (object : JsonValue) (key : String) : Except String (List UInt8) :=
  match node object key with
  | .str text => .ok (utf8 text)
  | _ => .error (key ++ " must be a string")

def readOptionalString (object : JsonValue) (key : String) :
    Except String (Option (List UInt8)) :=
  match node object key with
  | .null => .ok none
  | .str text => .ok (some (utf8 text))
  | _ => .error (key ++ " must be a string or null")

def readOptionalIndex (object : JsonValue) (key : String) : Except String (Option UInt64) :=
  match node object key with
  | .null => .ok none
  | value =>
    match getUint? value with
    | some index => .ok (some index)
    | none => .error (key ++ " must be a non-negative integer or null")

def readExitCode (root : JsonValue) : Except String Int32 := do
  let exitCode := node root "exit_code"
  rejectIf (!isInt exitCode ∨ (getSint exitCode).toInt < -2 ^ 31 ∨
    2 ^ 31 - 1 < (getSint exitCode).toInt) "exit_code must be an integer"
  pure (getSint exitCode).toInt32

def readDecimalField (value : JsonValue) (pointer : String) (id kind rawValue : List UInt8) :
    Except String FieldResult := do
  let exact := ["id", "kind", "raw_value", "decimal64", "raw_kind"]
  isObjectWithKeys value exact exact pointer
  let decimal := node value "decimal64"
  let decimalKeys := ["coefficient", "scale"]
  isObjectWithKeys decimal decimalKeys decimalKeys (pointer ++ ".decimal64")
  let coefficient ← readString decimal "coefficient"
  let scale := node decimal "scale"
  match parseCanonicalInt64Text coefficient with
  | none => .error (pointer ++ ".decimal64 is invalid")
  | some coefficient => do
    rejectIf (!isInt scale ∨ (getSint scale).toInt < 0 ∨ 18 < (getSint scale).toInt)
      (pointer ++ ".decimal64 is invalid")
    let rawKind ← readString value "raw_kind"
    pure
      { id := id
        kind := kind
        rawValue := rawValue
        decimal64 := some ⟨coefficient, (getSint scale).toInt32⟩
        rawKind := some rawKind }

def readLegacyField (value : JsonValue) (pointer : String) (id kind rawValue : List UInt8) :
    Except String FieldResult := do
  let exact := ["id", "kind", "raw_value", "logical_value", "enum_known"]
  isObjectWithKeys value exact exact pointer
  let logicalValue ← readString value "logical_value"
  match node value "enum_known" with
  | .bool enumKnown =>
    pure
      { id := id
        kind := kind
        rawValue := rawValue
        logicalValue := logicalValue
        enumKnown := enumKnown }
  | _ => .error (pointer ++ ".enum_known must be a boolean")

def readField (value : JsonValue) (pointer : String) : Except String FieldResult := do
  isObjectWithKeys value ["id", "kind", "raw_value", "logical_value", "enum_known", "decimal64",
    "raw_kind"] ["id", "kind", "raw_value"] pointer
  let id ← readString value "id"
  let kind ← readString value "kind"
  let rawValue ← readString value "raw_value"
  if kind = utf8 "DECIMAL64" then readDecimalField value pointer id kind rawValue
  else readLegacyField value pointer id kind rawValue

def readFields : List JsonValue → Nat → Except String (List FieldResult)
  | [], _ => .ok []
  | value :: rest, ordinal => do
    let field ← readField value ("fields[" ++ toString ordinal ++ "]")
    let fields ← readFields rest (ordinal + 1)
    pure (field :: fields)

def readDiagnosticId (diagnostic : JsonValue) : Except String (Option (List UInt8)) :=
  match node diagnostic "id" with
  | .null => .ok none
  | .str text => .ok (some (utf8 text))
  | _ => .error "diagnostic.id must be a string or null"

/-- The members of a document. -/
def resultKeys : List String :=
  ["format_version", "command", "operation_kind", "operation_status", "exit_code",
    "config_sha256", "protocol_id", "pipeline_id", "message_id", "direction_id", "frame_hex",
    "tx_frame_hex", "rx_frame_hex", "fields", "diagnostic", "deterministic_fingerprint",
    "replay_mode", "replay_subject", "current_execution_status",
    "current_execution_diagnostic_id", "conversion_error", "failed_field_id",
    "failed_field_index", "failed_value_index"]

/-- Reads a result from the members of a document, with the fingerprint it declares. -/
def readResult (root : JsonValue) : Except String (Result × List UInt8) := do
  isObjectWithKeys root resultKeys resultKeys "result"
  let formatVersion ← readString root "format_version"
  rejectIf (formatVersion ∉ resultFormats) "unsupported Result format_version"
  let command ← readString root "command"
  let operationKind ← readString root "operation_kind"
  let operationStatus ← readString root "operation_status"
  let exitCode ← readExitCode root
  let configSha256 ← readOptionalString root "config_sha256"
  let protocolId ← readOptionalString root "protocol_id"
  let pipelineId ← readOptionalString root "pipeline_id"
  let messageId ← readOptionalString root "message_id"
  let directionId ← readOptionalString root "direction_id"
  let frameHex ← readOptionalString root "frame_hex"
  let txFrameHex ← readOptionalString root "tx_frame_hex"
  let rxFrameHex ← readOptionalString root "rx_frame_hex"
  rejectIf (!(node root "fields").isArr) "fields must be an array"
  let fields ← readFields (node root "fields").elements 0
  let diagnostic := node root "diagnostic"
  isObjectWithKeys diagnostic ["id", "detail"] ["id", "detail"] "diagnostic"
  let diagnosticId ← readDiagnosticId diagnostic
  let diagnosticDetail ← readString diagnostic "detail"
  let declaredFingerprint ← readString root "deterministic_fingerprint"
  let replayMode ← readString root "replay_mode"
  let replaySubject ← readString root "replay_subject"
  let currentExecutionStatus ← readString root "current_execution_status"
  let currentExecutionDiagnosticId ← readOptionalString root "current_execution_diagnostic_id"
  let conversionError ← readOptionalString root "conversion_error"
  let failedFieldId ← readOptionalString root "failed_field_id"
  let failedFieldIndex ← readOptionalIndex root "failed_field_index"
  let failedValueIndex ← readOptionalIndex root "failed_value_index"
  pure (
    { formatVersion := formatVersion
      command := command
      operationKind := operationKind
      operationStatus := operationStatus
      exitCode := exitCode
      configSha256 := configSha256
      protocolId := protocolId
      pipelineId := pipelineId
      messageId := messageId
      directionId := directionId
      frameHex := frameHex
      txFrameHex := txFrameHex
      rxFrameHex := rxFrameHex
      fields := fields
      diagnosticId := diagnosticId
      diagnosticDetail := diagnosticDetail
      replayMode := replayMode
      replaySubject := replaySubject
      currentExecutionStatus := currentExecutionStatus
      currentExecutionDiagnosticId := currentExecutionDiagnosticId
      conversionError := conversionError
      failedFieldId := failedFieldId
      failedFieldIndex := failedFieldIndex
      failedValueIndex := failedValueIndex }, declaredFingerprint)

def parseResult (text : List UInt8) : Except String Result :=
  match JsonText.read text with
  | none => .error "Result 0.6 is not valid strict JSON"
  | some root => do
    let (result, declaredFingerprint) ← readResult root
    validateResult result
    let actualFingerprint ← finalizeFingerprint result
    rejectIf (declaredFingerprint ≠ actualFingerprint)
      "Result 0.6 deterministic_fingerprint does not match canonical content"
    pure result

end ProtocolAdapter.ProtocolLab
