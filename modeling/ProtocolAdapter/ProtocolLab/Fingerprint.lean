/-
This file models the canonical payload of the execution fingerprint: a sequence of tagged items,
with their lengths in front of the texts. The items can be read back one after the other, so the
payload of a valid result determines everything it covers.
-/

import ProtocolAdapter.Foundation.PrefixCode
import ProtocolAdapter.ProtocolLab.ResultFormat

namespace ProtocolAdapter.ProtocolLab

open Foundation Foundation.ByteText

/-! ### The payload -/

def kFingerprintDomain : List UInt8 := utf8 "pae.lab.fingerprint/0.6"
def kCrcFingerprintDomain : List UInt8 := utf8 "pae.lab.fingerprint/0.7"
def kLengthFingerprintDomain : List UInt8 := utf8 "pae.lab.fingerprint/0.8"
def kVariableFingerprintDomain : List UInt8 := utf8 "pae.lab.fingerprint/0.9"

def encodeNull : List UInt8 := utf8 "N;"

def encodeString (value : List UInt8) : List UInt8 :=
  utf8 "S" ++ decimal value.length ++ utf8 ":" ++ value

def encodeInteger (canonical : List UInt8) : List UInt8 :=
  utf8 "I" ++ decimal canonical.length ++ utf8 ":" ++ canonical

def encodeBoolean (value : Bool) : List UInt8 := if value then utf8 "B1;" else utf8 "B0;"

def encodeOptionalString : Option (List UInt8) → List UInt8
  | some value => encodeString value
  | none => encodeNull

def encodeOptionalIndex : Option UInt64 → List UInt8
  | some value => encodeInteger (decimal value.toNat)
  | none => encodeNull

/-- The items of one field. -/
def encodeFieldCanonical (field : FieldResult) : List UInt8 :=
  if field.kind = utf8 "DECIMAL64" then
    let decimal64 := field.decimal64.getD {}
    utf8 "A6:" ++ encodeString field.id ++ encodeString field.kind ++
      encodeInteger (signedDecimal decimal64.coefficient.toInt) ++
      encodeInteger (signedDecimal decimal64.scale.toInt) ++
      encodeString (field.rawKind.getD []) ++ encodeInteger field.rawValue
  else
    utf8 "A5:" ++ encodeString field.id ++ encodeString field.kind ++
      encodeString field.rawValue ++ encodeString field.logicalValue ++
      encodeBoolean field.enumKnown

/-- Appends the items of the fields, each after its validation. -/
def appendFields (allowEmptyBytes : Bool) :
    List FieldResult → List UInt8 → Except String (List UInt8)
  | [], output => .ok output
  | field :: rest, output => do
    validateField field allowEmptyBytes
    appendFields allowEmptyBytes rest (output ++ encodeFieldCanonical field)

def encodeFieldsCanonical (fields : List FieldResult) (resultFormat : List UInt8) :
    Except String (List UInt8) :=
  appendFields (resultFormat = kVariableResultFormat) fields
    (utf8 "A" ++ decimal fields.length ++ utf8 ":")

/-- The domain and the schema version that a format stands for. -/
def fingerprintDomain (formatVersion : List UInt8) : List UInt8 × List UInt8 :=
  if formatVersion = kVariableResultFormat then (kVariableFingerprintDomain, utf8 "0.8")
  else if formatVersion = kLengthResultFormat then (kLengthFingerprintDomain, utf8 "0.7")
  else if formatVersion = kCrcResultFormat then (kCrcFingerprintDomain, utf8 "0.6")
  else (kFingerprintDomain, utf8 "0.5")

def encodeFingerprintPayload (result : Result) : Except String (List UInt8) := do
  validateResult result
  let fields ← encodeFieldsCanonical result.fields result.formatVersion
  let (domain, schemaVersion) := fingerprintDomain result.formatVersion
  pure (utf8 "A20:" ++ encodeString domain ++ encodeString schemaVersion ++
    encodeString result.operationKind ++ encodeString result.replayMode ++
    encodeString result.replaySubject ++ encodeString result.currentExecutionStatus ++
    encodeOptionalString result.currentExecutionDiagnosticId ++
    encodeOptionalString result.configSha256 ++ encodeOptionalString result.protocolId ++
    encodeOptionalString result.pipelineId ++ encodeOptionalString result.messageId ++
    encodeOptionalString result.directionId ++ encodeOptionalString result.frameHex ++
    encodeOptionalString result.txFrameHex ++ encodeOptionalString result.rxFrameHex ++
    encodeOptionalString result.conversionError ++ encodeOptionalString result.failedFieldId ++
    encodeOptionalIndex result.failedFieldIndex ++ encodeOptionalIndex result.failedValueIndex ++
    fields)

/-! ### Items -/

/-- An item of the payload. -/
inductive Item where
  | null
  | text (value : List UInt8)
  | integer (canonical : List UInt8)
  | boolean (value : Bool)
  | array (count : Nat)
  deriving DecidableEq

namespace Item

/-- The bytes of an item. -/
def encode : Item → List UInt8
  | null => encodeNull
  | text value => encodeString value
  | integer canonical => encodeInteger canonical
  | boolean value => encodeBoolean value
  | array count => utf8 "A" ++ decimal count ++ utf8 ":"

/-- The item of a text that may be absent. -/
def ofText : Option (List UInt8) → Item
  | some value => text value
  | none => null

/-- The item of an index that may be absent. -/
def ofIndex : Option UInt64 → Item
  | some value => integer (decimal value.toNat)
  | none => null

theorem encode_ofText (value : Option (List UInt8)) :
    (ofText value).encode = encodeOptionalString value := by
  cases value <;> rfl

theorem encode_ofIndex (value : Option UInt64) :
    (ofIndex value).encode = encodeOptionalIndex value := by
  cases value <;> rfl

theorem ofText_injective : Function.Injective ofText := by
  intro first second same
  cases first with
  | none => cases second with
    | none => rfl
    | some value => cases same
  | some value => cases second with
    | none => cases same
    | some other => cases same; rfl

theorem ofIndex_injective : Function.Injective ofIndex := by
  intro first second same
  cases first with
  | none => cases second with
    | none => rfl
    | some value => cases same
  | some value => cases second with
    | none => cases same
    | some other =>
      injection same with digits
      rw [UInt64.toNat_inj.mp (decimal_injective digits)]

/-- A colon is no digit. -/
theorem colon_notMem (number : Nat) : (0x3a : UInt8) ∉ decimal number :=
  fun member => absurd (decimal_digits number _ member) (by decide)

/-- A text after its length and a colon can be cut off. -/
theorem lengthPrefixed_inj {first second rest others : List UInt8}
    (same : decimal first.length ++ 0x3a :: (first ++ rest) =
      decimal second.length ++ 0x3a :: (second ++ others)) : first = second ∧ rest = others := by
  obtain ⟨lengths, bodies⟩ := append_delimiter_inj (colon_notMem _) (colon_notMem _) same
  exact List.append_inj bodies (decimal_injective lengths)

/-- The first byte of an item's bytes. -/
def tag : Item → UInt8
  | null => 0x4e
  | text _ => 0x53
  | integer _ => 0x49
  | boolean _ => 0x42
  | array _ => 0x41

theorem encode_tag (item : Item) : ∃ tail, item.encode = item.tag :: tail := by
  cases item with
  | boolean value => cases value <;> exact ⟨_, rfl⟩
  | _ => exact ⟨_, rfl⟩

/-- Items can be read back one after the other. -/
theorem encode_prefixCode : PrefixCode (fun _ => True) encode := by
  intro first second _ _ rest others same
  have tags : first.tag = second.tag := by
    obtain ⟨tail, front⟩ := first.encode_tag
    obtain ⟨other, back⟩ := second.encode_tag
    rw [front, back] at same
    exact (List.cons.inj same).1
  cases first <;> cases second
  case null.null => exact ⟨rfl, List.append_cancel_left same⟩
  case text.text first second =>
    simp only [encode, encodeString, List.append_assoc] at same
    obtain ⟨rfl, rest⟩ := lengthPrefixed_inj (List.append_cancel_left same)
    exact ⟨rfl, rest⟩
  case integer.integer first second =>
    simp only [encode, encodeInteger, List.append_assoc] at same
    obtain ⟨rfl, rest⟩ := lengthPrefixed_inj (List.append_cancel_left same)
    exact ⟨rfl, rest⟩
  case boolean.boolean first second =>
    cases first <;> cases second
    case false.false => exact ⟨rfl, List.append_cancel_left same⟩
    case true.true => exact ⟨rfl, List.append_cancel_left same⟩
    all_goals exact absurd (List.cons.inj (List.cons.inj same).2).1 (by decide)
  case array.array first second =>
    simp only [encode, List.append_assoc] at same
    obtain ⟨digits, rest⟩ := append_delimiter_inj (colon_notMem _) (colon_notMem _)
      (List.append_cancel_left same)
    exact ⟨congrArg array (decimal_injective digits), rest⟩
  all_goals simp [tag] at tags

theorem encode_ne_nil (item : Item) : item.encode ≠ [] := by
  obtain ⟨tail, same⟩ := item.encode_tag
  exact same ▸ List.cons_ne_nil _ _

end Item

/-! ### The items of a payload -/

/-- The items of a field. -/
def fieldItems (field : FieldResult) : List Item :=
  if field.kind = utf8 "DECIMAL64" then
    let decimal64 := field.decimal64.getD {}
    [.array 6, .text field.id, .text field.kind,
      .integer (signedDecimal decimal64.coefficient.toInt),
      .integer (signedDecimal decimal64.scale.toInt), .text (field.rawKind.getD []),
      .integer field.rawValue]
  else
    [.array 5, .text field.id, .text field.kind, .text field.rawValue, .text field.logicalValue,
      .boolean field.enumKnown]

/-- The items of a result. -/
def payloadItems (result : Result) : List Item :=
  [.array 20, .text (fingerprintDomain result.formatVersion).1,
    .text (fingerprintDomain result.formatVersion).2, .text result.operationKind,
    .text result.replayMode, .text result.replaySubject, .text result.currentExecutionStatus,
    .ofText result.currentExecutionDiagnosticId, .ofText result.configSha256,
    .ofText result.protocolId, .ofText result.pipelineId, .ofText result.messageId,
    .ofText result.directionId, .ofText result.frameHex, .ofText result.txFrameHex,
    .ofText result.rxFrameHex, .ofText result.conversionError, .ofText result.failedFieldId,
    .ofIndex result.failedFieldIndex, .ofIndex result.failedValueIndex,
    .array result.fields.length] ++ result.fields.flatMap fieldItems

theorem encodeFieldCanonical_items (field : FieldResult) :
    encodeFieldCanonical field = (fieldItems field).flatMap Item.encode := by
  unfold encodeFieldCanonical fieldItems
  split <;> simp [Item.encode, show utf8 "A6:" = utf8 "A" ++ decimal 6 ++ utf8 ":" from rfl,
    show utf8 "A5:" = utf8 "A" ++ decimal 5 ++ utf8 ":" from rfl]

/-- Valid fields all yield their items. -/
theorem appendFields_items {allowEmptyBytes : Bool} : ∀ {fields : List FieldResult},
    (∀ field ∈ fields, validateField field allowEmptyBytes = .ok ()) → ∀ output,
      appendFields allowEmptyBytes fields output =
        .ok (output ++ (fields.flatMap fieldItems).flatMap Item.encode) := by
  intro fields
  induction fields with
  | nil =>
    intro _ output
    rw [appendFields, List.flatMap_nil, List.flatMap_nil, List.append_nil]
  | cons field rest inductionHypothesis =>
    intro valid output
    rw [appendFields, valid field List.mem_cons_self, ok_bind, inductionHypothesis
      (fun other member => valid other (List.mem_cons_of_mem _ member)),
      encodeFieldCanonical_items, List.flatMap_cons, List.flatMap_append, List.append_assoc]

/-- A valid decimal field carries its decimal and nothing of the other kinds. -/
theorem validateField_decimal {field : FieldResult} {allowEmptyBytes : Bool}
    (valid : validateField field allowEmptyBytes = .ok ()) (kind : field.kind = utf8 "DECIMAL64") :
    ∃ decimal64 rawKind, field =
      { id := field.id
        kind := field.kind
        rawValue := field.rawValue
        decimal64 := some decimal64
        rawKind := some rawKind } := by
  rw [validateField] at valid
  simp only [rejectIf_bind_eq_ok, if_pos kind] at valid
  obtain ⟨_, shape⟩ := valid
  obtain ⟨id, kind, rawValue, logicalValue, enumKnown, decimal64, rawKind⟩ := field
  unfold validateDecimalField at shape
  split at shape
  · rename_i decimal64 rawKind _ _
    rw [rejectIf_bind_eq_ok, not_or, not_not, Bool.not_eq_true] at shape
    obtain ⟨⟨logical, known⟩, _⟩ := shape
    exact ⟨decimal64, rawKind, by simp_all⟩
  · cases shape

/-- A valid field of another kind carries no decimal. -/
theorem validateField_legacy {field : FieldResult} {allowEmptyBytes : Bool}
    (valid : validateField field allowEmptyBytes = .ok ()) (kind : field.kind ≠ utf8 "DECIMAL64") :
    field.decimal64 = none ∧ field.rawKind = none := by
  rw [validateField] at valid
  simp only [rejectIf_bind_eq_ok, if_neg kind, not_or, Option.not_isSome_iff_eq_none] at valid
  exact valid.2.1

/-- The items of valid fields can be read back one field after the other. -/
theorem fieldItems_prefixCode (allowEmptyBytes : Bool) :
    PrefixCode (fun field => validateField field allowEmptyBytes = .ok ()) fieldItems := by
  intro first second valid validSecond rest others same
  unfold fieldItems at same
  by_cases kind : first.kind = utf8 "DECIMAL64" <;>
    by_cases other : second.kind = utf8 "DECIMAL64"
  · obtain ⟨decimal64, rawKind, shape⟩ := validateField_decimal valid kind
    obtain ⟨decimal64', rawKind', shape'⟩ := validateField_decimal validSecond other
    rw [if_pos kind, if_pos other, shape, shape'] at same
    simp only [List.cons_append, List.nil_append, List.cons.injEq, Item.text.injEq,
      Item.integer.injEq, Option.getD_some, true_and] at same
    obtain ⟨id, kinds, coefficient, scale, raw, value, rest⟩ := same
    have coefficients := Int64.toInt_inj.mp (signedDecimal_injective coefficient)
    have scales := Int32.toInt_inj.mp (signedDecimal_injective scale)
    refine ⟨?_, rest⟩
    have decimals : decimal64 = decimal64' := by
      obtain ⟨_, _⟩ := decimal64
      obtain ⟨_, _⟩ := decimal64'
      exact congrArg₂ Decimal64.mk coefficients scales
    rw [shape, shape', id, kinds, value, raw, decimals]
  · rw [if_pos kind, if_neg other] at same
    exact absurd (List.cons.inj same).1 (by decide)
  · rw [if_neg kind, if_pos other] at same
    exact absurd (List.cons.inj same).1 (by decide)
  · rw [if_neg kind, if_neg other] at same
    simp only [List.cons_append, List.nil_append, List.cons.injEq, Item.text.injEq,
      Item.boolean.injEq, true_and] at same
    obtain ⟨id, kinds, raw, logical, known, rest⟩ := same
    obtain ⟨noDecimal, noKind⟩ := validateField_legacy valid kind
    obtain ⟨noDecimal', noKind'⟩ := validateField_legacy validSecond other
    refine ⟨?_, rest⟩
    obtain ⟨_, _, _, _, _, _, _⟩ := first
    obtain ⟨_, _, _, _, _, _, _⟩ := second
    simp_all

/-- A valid result has a format that is known and valid fields. -/
theorem validateResult_fields {result : Result} (valid : validateResult result = .ok ()) :
    result.formatVersion ∈ resultFormats ∧ ∀ field ∈ result.fields,
      validateField field (result.formatVersion = kVariableResultFormat) = .ok () := by
  have each : ∀ (fields : List FieldResult) (ids : List (List UInt8)) (allow : Bool),
      validateFields allow fields ids = .ok () → ∀ field ∈ fields,
        validateField field allow = .ok () := by
    intro fields
    induction fields with
    | nil => exact fun _ _ _ field member => absurd member List.not_mem_nil
    | cons head rest inductionHypothesis =>
      intro ids allow run field member
      rw [validateFields] at run
      simp only [bind_eq_ok, rejectIf_eq_ok] at run
      obtain ⟨⟨⟩, first, _, _, others⟩ := run
      rcases List.mem_cons.mp member with rfl | later
      · exact first
      · exact inductionHypothesis _ allow others field later
  rw [validateResult] at valid
  simp only [bind_eq_ok, rejectIf_eq_ok, exists_const, not_not] at valid
  obtain ⟨format, _, _, _, _, _, _, _, _, _, _, _, _, _, _, fields⟩ := valid
  exact ⟨format, each _ _ _ fields⟩

/-- The payload of a valid result is the sequence of its items. -/
theorem encodeFingerprintPayload_items {result : Result} (valid : validateResult result = .ok ()) :
    encodeFingerprintPayload result = .ok ((payloadItems result).flatMap Item.encode) := by
  have fields := (validateResult_fields valid).2
  rw [encodeFingerprintPayload, valid, ok_bind, encodeFieldsCanonical, appendFields_items fields,
    ok_bind]
  simp only [payloadItems, List.flatMap_append, List.flatMap_cons, List.flatMap_nil,
    Item.encode_ofText, Item.encode_ofIndex]
  simp only [Item.encode, List.append_assoc, List.nil_append,
    show utf8 "A20:" = utf8 "A" ++ decimal 20 ++ utf8 ":" from rfl]
  rfl

/-- The domain of a fingerprint tells the format. -/
theorem fingerprintDomain_injective {first second : List UInt8} (known : first ∈ resultFormats)
    (other : second ∈ resultFormats)
    (same : (fingerprintDomain first).1 = (fingerprintDomain second).1) : first = second := by
  have all : ∀ first ∈ resultFormats, ∀ second ∈ resultFormats,
      (fingerprintDomain first).1 = (fingerprintDomain second).1 → first = second := by decide
  exact all first known second other same

/-! ### What a payload covers -/

/-- Valid results with one payload agree on everything it covers. -/
theorem encodeFingerprintPayload_covers {first second : Result}
    (valid : validateResult first = .ok ()) (other : validateResult second = .ok ())
    (same : encodeFingerprintPayload first = encodeFingerprintPayload second) :
    first.formatVersion = second.formatVersion ∧ first.operationKind = second.operationKind ∧
      first.replayMode = second.replayMode ∧ first.replaySubject = second.replaySubject ∧
      first.currentExecutionStatus = second.currentExecutionStatus ∧
      first.currentExecutionDiagnosticId = second.currentExecutionDiagnosticId ∧
      first.configSha256 = second.configSha256 ∧ first.protocolId = second.protocolId ∧
      first.pipelineId = second.pipelineId ∧ first.messageId = second.messageId ∧
      first.directionId = second.directionId ∧ first.frameHex = second.frameHex ∧
      first.txFrameHex = second.txFrameHex ∧ first.rxFrameHex = second.rxFrameHex ∧
      first.conversionError = second.conversionError ∧
      first.failedFieldId = second.failedFieldId ∧
      first.failedFieldIndex = second.failedFieldIndex ∧
      first.failedValueIndex = second.failedValueIndex ∧ first.fields = second.fields := by
  obtain ⟨format, fields⟩ := validateResult_fields valid
  obtain ⟨otherFormat, otherFields⟩ := validateResult_fields other
  rw [encodeFingerprintPayload_items valid, encodeFingerprintPayload_items other] at same
  have items := Item.encode_prefixCode.flatMap (fun item _ => item.encode_ne_nil) _ _
    (fun _ _ => trivial) (fun _ _ => trivial) (Except.ok.inj same)
  simp only [payloadItems, List.cons_append, List.nil_append, List.cons.injEq, Item.text.injEq,
    Item.array.injEq, true_and, Item.ofText_injective.eq_iff, Item.ofIndex_injective.eq_iff]
    at items
  obtain ⟨domain, _, kind, mode, subject, status, diagnostic, config, protocol, pipeline, message,
    direction, frame, tx, rx, conversion, failedId, failedIndex, failedValue, _, rest⟩ := items
  have formats := fingerprintDomain_injective format otherFormat domain
  rw [← formats] at otherFields
  have nonempty : ∀ field : FieldResult, fieldItems field ≠ [] := by
    intro field
    unfold fieldItems
    split <;> exact List.cons_ne_nil _ _
  exact ⟨formats, kind, mode, subject, status, diagnostic, config, protocol, pipeline, message,
    direction, frame, tx, rx, conversion, failedId, failedIndex, failedValue,
    (fieldItems_prefixCode _).flatMap (fun field _ => nonempty field) _ _ fields otherFields rest⟩

/-- A decoded frame with a temperature and a counter. -/
def decodedSample : Result :=
  { command := utf8 "decode"
    operationKind := utf8 "DECODE"
    operationStatus := utf8 "OK"
    messageId := some (utf8 "status")
    rxFrameHex := some (utf8 "00F1")
    replayMode := utf8 "DECODE_RX"
    replaySubject := utf8 "RX"
    currentExecutionStatus := utf8 "OK"
    fields :=
      [{ id := utf8 "temperature"
         kind := utf8 "DECIMAL64"
         rawValue := utf8 "-15"
         decimal64 := some ⟨-15, 1⟩
         rawKind := some (utf8 "INT64") },
       { id := utf8 "counter"
         kind := utf8 "UINT64"
         rawValue := utf8 "241"
         logicalValue := utf8 "241" }] }

theorem decodedSample_valid : validateResult decodedSample = .ok () := by
  decide +kernel

theorem encodeFingerprintPayload_covers_sample :
    encodeFingerprintPayload decodedSample =
        encodeFingerprintPayload { decodedSample with exitCode := 1 } ∧
      decodedSample.fields = ({ decodedSample with exitCode := 1 } : Result).fields := by
  have same : encodeFingerprintPayload decodedSample =
      encodeFingerprintPayload { decodedSample with exitCode := 1 } := rfl
  obtain ⟨_, _, _, _, _, _, _, _, _, _, _, _, _, _, _, _, _, _, fields⟩ :=
    encodeFingerprintPayload_covers decodedSample_valid decodedSample_valid same
  exact ⟨same, fields⟩

end ProtocolAdapter.ProtocolLab
