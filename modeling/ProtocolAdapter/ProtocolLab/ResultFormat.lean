/-
This file models the result of a protocol lab operation and its validation. A result names the
operation, the replay it stands for, the identities and frames that are known, the decoded
fields or the failure, and a diagnostic. Texts are bytes; the literals of the source are ASCII.
-/

import ProtocolAdapter.ProtocolLab.ExactText

namespace ProtocolAdapter.ProtocolLab

open Foundation Foundation.ByteText

/-! ### The result -/

def kResultFormat : List UInt8 := utf8 "pae.lab.result/0.6"
def kCrcResultFormat : List UInt8 := utf8 "pae.lab.result/0.7"
def kLengthResultFormat : List UInt8 := utf8 "pae.lab.result/0.8"
def kVariableResultFormat : List UInt8 := utf8 "pae.lab.result/0.9"

/-- The formats a result may declare. -/
def resultFormats : List (List UInt8) :=
  [kResultFormat, kCrcResultFormat, kLengthResultFormat, kVariableResultFormat]

structure Decimal64 where
  coefficient : Int64 := 0
  scale : Int32 := 0
  deriving DecidableEq

/-- A decoded field. A decimal carries its coefficient and scale and the kind of its raw value,
any other kind a logical value. -/
structure FieldResult where
  id : List UInt8
  kind : List UInt8
  rawValue : List UInt8
  logicalValue : List UInt8 := []
  enumKnown : Bool := false
  decimal64 : Option Decimal64 := none
  rawKind : Option (List UInt8) := none
  deriving DecidableEq

/-- What a lab operation leaves behind. -/
structure Result where
  formatVersion : List UInt8 := kResultFormat
  command : List UInt8 := []
  operationKind : List UInt8 := []
  operationStatus : List UInt8 := []
  exitCode : Int32 := 0
  configSha256 : Option (List UInt8) := none
  protocolId : Option (List UInt8) := none
  pipelineId : Option (List UInt8) := none
  messageId : Option (List UInt8) := none
  directionId : Option (List UInt8) := none
  frameHex : Option (List UInt8) := none
  txFrameHex : Option (List UInt8) := none
  rxFrameHex : Option (List UInt8) := none
  fields : List FieldResult := []
  diagnosticId : Option (List UInt8) := none
  diagnosticDetail : List UInt8 := []
  replayMode : List UInt8 := utf8 "NONE"
  replaySubject : List UInt8 := utf8 "NONE"
  currentExecutionStatus : List UInt8 := utf8 "NOT_EVALUATED"
  currentExecutionDiagnosticId : Option (List UInt8) := none
  conversionError : Option (List UInt8) := none
  failedFieldId : Option (List UInt8) := none
  failedFieldIndex : Option UInt64 := none
  failedValueIndex : Option UInt64 := none
  deriving DecidableEq

/-! ### Fields -/

/-- Cancels factors of ten while the scale is positive. -/
def cancelTens : Nat → Decimal64 → Decimal64
  | 0, value => value
  | rounds + 1, value =>
    if 0 < value.scale ∧ value.coefficient % 10 = 0 then
      cancelTens rounds { coefficient := value.coefficient / 10, scale := value.scale - 1 }
    else value

/-- The scale falls by one in each round, so it bounds them. -/
def normalizeDecimal64 (value : Decimal64) : Decimal64 :=
  if value.coefficient = 0 then {} else cancelTens value.scale.toInt.toNat value

def isUpperHexDigit (character : UInt8) : Bool :=
  (0x30 ≤ character && character ≤ 0x39) || (0x41 ≤ character && character ≤ 0x46)

def isUpperHexOrEmpty (value : List UInt8) : Bool :=
  value.all isUpperHexDigit && value.length % 2 == 0

/-- Whether a text can be the identity of an enumeration entry. -/
def isEntryId (value : List UInt8) : Bool :=
  value ≠ [] && value.length ≤ 128 &&
    (value.head?.any fun first => 0x61 ≤ first && first ≤ 0x7a) &&
    value.all fun character => (0x61 ≤ character && character ≤ 0x7a) ||
      (0x30 ≤ character && character ≤ 0x39) || character == 0x5f

/-- Checks a decimal field: it carries a normalized decimal and its raw value, and nothing of
the other kinds. -/
def validateDecimalField (field : FieldResult) : Except String Unit :=
  match field.decimal64, field.rawKind with
  | some decimal, some rawKind => do
    rejectIf (field.logicalValue ≠ [] ∨ field.enumKnown)
      "DECIMAL64 result field has a mixed or incomplete shape"
    rejectIf (decimal.scale < 0 ∨ 18 < decimal.scale ∨ normalizeDecimal64 decimal ≠ decimal)
      "DECIMAL64 result field is not normalized"
    if rawKind = utf8 "INT64" then
      rejectIf ((parseCanonicalInt64Text field.rawValue).isNone)
        "DECIMAL64 raw_value is not canonical INT64"
    else if rawKind = utf8 "UINT64" then
      rejectIf ((parseCanonicalUint64Text field.rawValue).isNone)
        "DECIMAL64 raw_value is not canonical UINT64"
    else .error "DECIMAL64 raw_kind must be INT64 or UINT64"
  | _, _ => .error "DECIMAL64 result field has a mixed or incomplete shape"

/-- Checks the raw and the logical value of a field of another kind. -/
def validateLegacyTuple (field : FieldResult) (allowEmptyBytes : Bool) : Except String Unit :=
  if field.kind = utf8 "UINT64" then
    rejectIf ((parseCanonicalUint64Text field.rawValue).isNone ∨
        field.logicalValue ≠ field.rawValue ∨ field.enumKnown)
      "UINT64 result field has an invalid legacy tuple"
  else if field.kind = utf8 "INT64" then
    rejectIf ((parseCanonicalInt64Text field.rawValue).isNone ∨
        field.logicalValue ≠ field.rawValue ∨ field.enumKnown)
      "INT64 result field has an invalid legacy tuple"
  else if field.kind = utf8 "BYTES" then
    rejectIf ((¬allowEmptyBytes ∧ field.rawValue = []) ∨ ¬isUpperHexOrEmpty field.rawValue ∨
        field.logicalValue ≠ field.rawValue ∨ field.enumKnown)
      "BYTES result field has an invalid legacy tuple"
  else if field.kind = utf8 "BOOL" then
    rejectIf ((field.rawValue ≠ utf8 "0" ∧ field.rawValue ≠ utf8 "1") ∨
        (field.logicalValue ≠ utf8 "false" ∧ field.logicalValue ≠ utf8 "true") ∨
        ¬(field.rawValue = utf8 "1" ↔ field.logicalValue = utf8 "true") ∨ field.enumKnown)
      "BOOL result field has an invalid legacy tuple"
  else
    rejectIf ((parseCanonicalUint64Text field.rawValue).isNone ∨
        (¬field.enumKnown ∧ field.logicalValue ≠ field.rawValue) ∨
        (field.enumKnown ∧ ¬isEntryId field.logicalValue))
      "ENUM result field has an invalid legacy tuple"

def validateField (field : FieldResult) (allowEmptyBytes : Bool) : Except String Unit := do
  rejectIf (field.id = []) "result field id must not be empty"
  if field.kind = utf8 "DECIMAL64" then validateDecimalField field
  else
    rejectIf (field.decimal64.isSome ∨ field.rawKind.isSome)
      "non-DECIMAL64 result field contains Decimal properties"
    rejectIf (field.kind ∉ [utf8 "UINT64", utf8 "INT64", utf8 "BYTES", utf8 "ENUM", utf8 "BOOL"])
      "result field kind is unsupported"
    validateLegacyTuple field allowEmptyBytes

/-! ### The result as a whole -/

/-- Nothing of an execution is present. -/
def Result.Unevaluated (result : Result) : Prop :=
  result.currentExecutionStatus = utf8 "NOT_EVALUATED" ∧
    result.currentExecutionDiagnosticId = none ∧ result.conversionError = none ∧
    result.failedFieldId = none ∧ result.failedFieldIndex = none ∧
    result.failedValueIndex = none ∧ result.fields = []

instance (result : Result) : Decidable result.Unevaluated :=
  inferInstanceAs (Decidable (_ ∧ _))

/-- Checks the replay mode against the subject and the state of execution. -/
def validateReplay (result : Result) : Except String Unit :=
  if result.replayMode = utf8 "NONE" then
    rejectIf (result.replaySubject ≠ utf8 "NONE" ∨ ¬result.Unevaluated)
      "Result 0.6 NONE mode must remain unevaluated and empty"
  else if result.replayMode = utf8 "ENCODE_TX" then
    rejectIf (result.replaySubject ≠ utf8 "TX" ∨
        result.currentExecutionStatus = utf8 "NOT_EVALUATED")
      "Result 0.6 ENCODE_TX mode and execution state are inconsistent"
  else if result.replayMode = utf8 "DECODE_RX" then
    rejectIf (result.replaySubject ≠ utf8 "RX" ∨
        result.currentExecutionStatus = utf8 "NOT_EVALUATED")
      "Result 0.6 DECODE_RX mode and execution state are inconsistent"
  else if result.replayMode = utf8 "NO_CODEC_REEXECUTION" then
    rejectIf ((result.replaySubject ≠ utf8 "RX" ∧ result.replaySubject ≠ utf8 "RX_INCOMPLETE") ∨
        result.operationStatus = utf8 "OK" ∨ ¬result.Unevaluated)
      "Result 0.6 NO_CODEC_REEXECUTION must remain unevaluated and empty"
  else .error "Result 0.6 replay_mode is unsupported"

/-- Checks the reason of a failed conversion against the status. -/
def validateConversionError (result : Result) : Except String Unit :=
  match result.conversionError with
  | none => .ok ()
  | some reason =>
    let scaleError := reason = utf8 "DECIMAL_SCALE_OUT_OF_RANGE"
    let numericError := reason = utf8 "RAW_NOT_INTEGRAL" ∨ reason = utf8 "RAW_OUT_OF_RANGE" ∨
      reason = utf8 "LOGICAL_OUT_OF_RANGE"
    rejectIf ((¬scaleError ∧ ¬numericError) ∨
        (scaleError ∧ result.currentExecutionStatus ≠ utf8 "INVALID_ARGUMENT") ∨
        (numericError ∧ result.currentExecutionStatus ≠ utf8 "VALUE_NOT_REPRESENTABLE"))
      "Result 0.6 status and conversion_error are inconsistent"

/-- Checks the fields in order; each has an id that none before it has. -/
def validateFields (allowEmptyBytes : Bool) :
    List FieldResult → List (List UInt8) → Except String Unit
  | [], _ => .ok ()
  | field :: rest, ids => do
    validateField field allowEmptyBytes
    rejectIf (field.id ∈ ids) "Result 0.6 contains duplicate field ids"
    validateFields allowEmptyBytes rest (field.id :: ids)

def validateResult (result : Result) : Except String Unit := do
  rejectIf (result.formatVersion ∉ resultFormats) "unsupported Result format_version"
  rejectIf (result.operationKind = [] ∨ result.operationStatus = [] ∨ result.replayMode = [] ∨
      result.replaySubject = [] ∨ result.currentExecutionStatus = [])
    "Result 0.6 deterministic execution identity is incomplete"
  rejectIf (some [] ∈ [result.configSha256, result.protocolId, result.pipelineId,
      result.messageId, result.directionId])
    "Result 0.6 known identity must not be empty"
  rejectIf (result.diagnosticId = some [] ∨ result.currentExecutionDiagnosticId = some [])
    "Result 0.6 known diagnostic identity must not be empty"
  rejectIf ((result.currentExecutionStatus = utf8 "LENGTH_MISMATCH" ∨
        result.currentExecutionStatus = utf8 "COMPUTED_FIELD_OVERRIDE") ∧
      result.formatVersion ≠ kLengthResultFormat ∧ result.formatVersion ≠ kVariableResultFormat)
    "computed length Codec status requires Result 0.8"
  validateReplay result
  rejectIf (∃ frame ∈ [result.frameHex, result.txFrameHex, result.rxFrameHex],
      ∃ hex ∈ frame, ¬isUpperHexOrEmpty hex)
    "Result 0.6 frame Hex is not canonical uppercase Hex"
  validateConversionError result
  rejectIf (result.currentExecutionStatus ≠ utf8 "OK" ∧ result.fields ≠ [])
    "failed Result 0.6 must not contain partial fields"
  rejectIf (result.currentExecutionStatus = utf8 "OK" ∧
      (result.conversionError.isSome ∨ result.failedFieldId.isSome ∨
        result.failedFieldIndex.isSome ∨ result.failedValueIndex.isSome))
    "successful Result 0.6 must not contain failure details"
  rejectIf (result.failedFieldId.isSome ≠ result.failedFieldIndex.isSome)
    "Result 0.6 failed field id and index must be present together"
  rejectIf (result.failedFieldId.isSome ∧ (result.failedFieldId = some [] ∨
      result.messageId = none ∨ result.messageId = some []))
    "Result 0.6 failed field identity requires a known non-empty Message and field id"
  rejectIf (result.failedValueIndex.isSome ∧ result.replayMode ≠ utf8 "ENCODE_TX")
    "Result 0.6 failed_value_index is only valid for Encode execution"
  validateFields (result.formatVersion = kVariableResultFormat) result.fields []

end ProtocolAdapter.ProtocolLab
