/-
This file proves that a document spells the members it is written from: a quoted string spells
its text, decimal digits spell their integer, and the lines of the document are the members of
one JSON object.
-/

import Mathlib.Data.List.ReduceOption
import ProtocolAdapter.Foundation.JsonWriting
import ProtocolAdapter.ProtocolLab.ResultDocument

namespace ProtocolAdapter.ProtocolLab

open Foundation Foundation.ByteText Foundation.JsonText

/-! ### Strings -/

/-- The bytes are a text in UTF-8. -/
def IsText (bytes : List UInt8) : Prop := ∃ characters, bytes = encode characters

/-- The text of bytes that are one. -/
def asText (bytes : List UInt8) : String := String.ofList ((decode bytes).getD [])

theorem utf8_asText {bytes : List UInt8} (text : IsText bytes) : utf8 (asText bytes) = bytes := by
  obtain ⟨characters, rfl⟩ := text
  rw [utf8, asText, decode_eq_some.mpr rfl, Option.getD_some, String.toList_ofList]

theorem isText_of_ascii {bytes : List UInt8} (ascii : ∀ byte ∈ bytes, byte < 0x80) :
    IsText bytes := by
  refine ⟨bytes.map fun byte => Char.ofNat byte.toNat, ?_⟩
  have single : ∀ byte : UInt8, byte < 0x80 →
      String.utf8EncodeChar (Char.ofNat byte.toNat) = [byte] := by
    intro byte small
    rw [encode_ascii byte.toNat (UInt8.lt_iff_toNat_lt.mp small), UInt8.ofNat_toNat]
  induction bytes with
  | nil => rfl
  | cons byte rest inductionHypothesis =>
    obtain ⟨small, others⟩ := List.forall_mem_cons.mp ascii
    rw [List.map_cons, encode_cons, single byte small, ← inductionHypothesis others]
    rfl

/-- The characters that stand for a character of a string. -/
def quoteChar (character : Char) : List Char :=
  if character.toNat < 0x80 then
    (quoteByte (UInt8.ofNat character.toNat)).map fun byte => Char.ofNat byte.toNat
  else [character]

/-- A byte that is not ASCII needs no escape. -/
theorem quoteByte_wide {byte : UInt8} (wide : 0x80 ≤ byte.toNat) : quoteByte byte = [byte] := by
  have apart : ∀ other : UInt8, other.toNat < 0x80 → byte ≠ other := by
    rintro _ low rfl
    omega
  have visible : ¬byte < 0x20 := fun low =>
    absurd (UInt8.lt_iff_toNat_lt.mp low) (by rw [show (0x20 : UInt8).toNat = 0x20 from rfl]; omega)
  rw [quoteByte, if_neg (apart _ (by decide)), if_neg (apart _ (by decide)),
    if_neg (apart _ (by decide)), if_neg (apart _ (by decide)), if_neg (apart _ (by decide)),
    if_neg (apart _ (by decide)), if_neg (apart _ (by decide)), if_neg visible]

/-- Quoting the bytes of a character gives the characters that stand for it. -/
theorem encode_quoteChar (character : Char) :
    (String.utf8EncodeChar character).flatMap quoteByte = encode (quoteChar character) := by
  by_cases ascii : character.toNat < 0x80
  · have all : ∀ number, number < 0x80 →
        quoteByte (UInt8.ofNat number) = encode ((quoteByte (UInt8.ofNat number)).map
          fun byte => Char.ofNat byte.toNat) := by decide
    have single := encode_ascii character.toNat ascii
    rw [Char.ofNat_toNat] at single
    rw [single, quoteChar, if_pos ascii, ← all character.toNat ascii, List.flatMap_singleton]
  · have wide := wide_bytes (Nat.not_lt.mp ascii)
    rw [quoteChar, if_neg ascii, encode_cons, encode_nil, List.append_nil]
    exact flatMap_eq_self fun byte member => quoteByte_wide (wide byte member)

/-- An ASCII character stands for itself, for a short escape or for a unit of two digits. -/
theorem quoteChar_ascii : ∀ number, number < 0x80 →
    (quoteChar (Char.ofNat number) = [Char.ofNat number] ∧ 0x20 ≤ (Char.ofNat number).toNat ∧
      Char.ofNat number ≠ '"' ∧ Char.ofNat number ≠ '\\') ∨
    (∃ letter ∈ ['"', '\\', 'b', 'f', 'n', 'r', 't'],
      quoteChar (Char.ofNat number) = ['\\', letter] ∧
        shortEscape letter = some (Char.ofNat number)) ∨
    ∃ high ∈ ['0', '1'], ∃ low ∈ "0123456789ABCDEF".toList,
      quoteChar (Char.ofNat number) = ['\\', 'u', '0', '0', high, low] ∧
        hexUnit '0' '0' high low = some number := by
  decide +kernel

/-- The characters that stand for a character spell it. -/
theorem spelling_quoteChar (character : Char) : Spelling (quoteChar character) character := by
  by_cases ascii : character.toNat < 0x80
  · have forms := quoteChar_ascii character.toNat ascii
    rw [Char.ofNat_toNat] at forms
    rcases forms with ⟨same, visible, noQuote, noEscape⟩ | ⟨letter, _, same, escape⟩ |
      ⟨high, _, low, _, same, unit⟩
    · exact same ▸ .plain character visible noQuote noEscape
    · exact same ▸ .short escape
    · have spelling : Spelling ['\\', 'u', '0', '0', high, low] (Char.ofNat character.toNat) :=
        .unit unit (fun isHigh => by have := isHigh.1; omega) fun isLow => by
          have := isLow.1
          omega
      rw [Char.ofNat_toNat] at spelling
      exact same ▸ spelling
  · rw [quoteChar, if_neg ascii]
    refine .plain character (by omega) ?_ ?_
    · rintro rfl
      exact ascii (by decide)
    · rintro rfl
      exact ascii (by decide)

theorem quotes_quoteByte : Quotes quoteByte where
  ascii number small := by
    have single := encode_ascii number small
    have quoted := encode_quoteChar (Char.ofNat number)
    rw [single, List.flatMap_singleton] at quoted
    exact ⟨_, quoted, spelling_quoteChar _⟩
  wide _ := quoteByte_wide

/-- A quoted text is a string of its characters. -/
theorem writes_quote {bytes : List UInt8} (text : IsText bytes) :
    Writes (quote bytes) (.str (asText bytes)) := by
  obtain ⟨characters, rfl⟩ := text
  rw [asText, decode_eq_some.mpr rfl, Option.getD_some]
  exact quotes_quoteByte.writes characters

/-! ### Numbers -/

/-- The token of an integer. -/
def integerText : Int → String
  | .ofNat number => String.ofList (Nat.toDigits 10 number)
  | .negSucc number => String.ofList ('-' :: Nat.toDigits 10 (number + 1))

theorem isDigit_toDigits (number : Nat) :
    ∀ character ∈ Nat.toDigits 10 number, JsonText.isDigit character := by
  intro character member
  have digit := Nat.isDigit_of_mem_toDigits (by decide) (by decide) member
  exact digit

theorem toDigits_ne_nil (number : Nat) : Nat.toDigits 10 number ≠ [] := by
  intro empty
  exact decimal_ne_nil number (by rw [decimal, empty, encode_nil])

/-- The digits of a number have no leading zero. -/
theorem toDigits_head (number : Nat) :
    (Nat.toDigits 10 number).length = 1 ∨ (Nat.toDigits 10 number).head? ≠ some '0' := by
  by_cases leading : (Nat.toDigits 10 number).head? = some '0'
  · left
    obtain ⟨rest, digits⟩ := List.head?_eq_some_iff.mp leading
    have zero : number = 0 := by
      refine decimal_head number ?_
      rw [decimal, digits, encode_cons]
      rfl
    rw [zero]
    rfl
  · exact .inr leading

/-- A minus sign is no digit. -/
theorem unsigned_digits {digits : List Char}
    (all : ∀ character ∈ digits, JsonText.isDigit character) :
    unsigned digits = digits := by
  cases digits with
  | nil => rfl
  | cons first rest =>
    unfold unsigned
    split
    · rename_i same
      obtain ⟨rfl, -⟩ := List.cons.inj same
      exact absurd (all '-' List.mem_cons_self) (by decide)
    · rfl

/-- Digits without a leading zero are a number, with a sign or without. -/
theorem isNumber_digits {token digits : List Char} (rest : unsigned token = digits)
    (nonempty : digits ≠ []) (all : ∀ character ∈ digits, JsonText.isDigit character)
    (leading : digits.length = 1 ∨ digits.head? ≠ some '0') : isNumber token := by
  have whole : digits.takeWhile JsonText.isDigit = digits := List.takeWhile_eq_self_iff.mpr all
  have nothing : digits.dropWhile JsonText.isDigit = [] := List.dropWhile_eq_nil_iff.mpr all
  rw [isNumber, rest, whole, nothing]
  rcases leading with single | nonzero
  · simp [nonempty, single, isFraction, isExponent]
  · simp [nonempty, nonzero, isFraction, isExponent]

theorem writes_signedDecimal (value : Int) :
    Writes (signedDecimal value) (.raw (integerText value)) := by
  cases value with
  | ofNat number =>
    refine ⟨Nat.toDigits 10 number, rfl, ?_⟩
    rw [Spells, integerText, String.toList_ofList]
    exact ⟨rfl, isNumber_digits (unsigned_digits (isDigit_toDigits number))
      (toDigits_ne_nil number) (isDigit_toDigits number) (toDigits_head number)⟩
  | negSucc number =>
    refine ⟨'-' :: Nat.toDigits 10 (number + 1), (encode_cons_ascii _ rfl).symm, ?_⟩
    rw [Spells, integerText, String.toList_ofList]
    exact ⟨rfl, isNumber_digits rfl (toDigits_ne_nil _) (isDigit_toDigits _) (toDigits_head _)⟩

/-- The integer of a token, when it is one. -/
def integerOf (token : String) : Option Int :=
  (integerToken token).map fun integer => if integer.1 then -(integer.2 : Int) else integer.2

/-- The token of an integer has its sign and its magnitude. -/
theorem integerToken_integerText (value : Int) :
    integerToken (integerText value) = some (decide (value < 0), value.natAbs) := by
  have all (number : Nat) : (Nat.toDigits 10 number).all JsonText.isDigit :=
    List.all_eq_true.mpr (isDigit_toDigits number)
  cases value with
  | ofNat number =>
    have noSign : (Nat.toDigits 10 number).head? ≠ some '-' := fun sign =>
      absurd (isDigit_toDigits number _ (List.mem_of_mem_head? sign)) (by decide)
    rw [integerToken, integerText, String.toList_ofList, unsigned_digits (isDigit_toDigits number),
      if_pos (all number), Nat.ofDigitChars_ten_toDigits]
    simp [noSign]
  | negSucc number =>
    rw [integerToken, integerText, String.toList_ofList, unsigned, if_pos (all _),
      Nat.ofDigitChars_ten_toDigits]
    simp [Int.negSucc_lt_zero]

theorem integerOf_integerText (value : Int) : integerOf (integerText value) = some value := by
  rw [integerOf, integerToken_integerText, Option.map_some]
  by_cases negative : value < 0
  · rw [if_pos (by simpa using negative), Int.ofNat_natAbs_of_nonpos (le_of_lt negative),
      Int.neg_neg]
  · rw [if_neg (by simpa using negative), Int.natAbs_of_nonneg (Int.not_lt.mp negative)]

theorem hexLowerDigit_ascii {half : UInt8} (small : half < 16) :
    (if 0x61 ≤ hexLowerDigit half ∧ hexLowerDigit half ≤ 0x7a then hexLowerDigit half - 0x20
      else hexLowerDigit half) < 0x80 := by
  unfold hexLowerDigit
  grind

/-- A hash is written in ASCII. -/
theorem isText_uppercaseHash (payload : List UInt8) : IsText (uppercaseHash payload) := by
  refine isText_of_ascii fun byte member => ?_
  obtain ⟨digit, inside, rfl⟩ := List.mem_map.mp member
  obtain ⟨source, -, digits⟩ := List.mem_flatMap.mp inside
  obtain rfl | rfl := List.mem_pair.mp digits
  · exact hexLowerDigit_ascii (high_lt source)
  · exact hexLowerDigit_ascii (low_lt source)

/-! ### Values and members -/

/-- The value of a text. -/
def textValue (text : List UInt8) : JsonValue := .str (asText text)

/-- The value of a text that may be absent. -/
def optionalValue : Option (List UInt8) → JsonValue
  | some text => textValue text
  | none => .null

/-- The value of an index that may be absent. -/
def indexValue : Option UInt64 → JsonValue
  | some index => .raw (integerText index.toNat)
  | none => .null

theorem writes_null : Writes (utf8 "null") .null := ⟨"null".toList, rfl, by rw [Spells]; decide⟩

theorem writes_optional {text : Option (List UInt8)} (unicode : ∀ bytes ∈ text, IsText bytes) :
    Writes (jsonOptionalString text) (optionalValue text) := by
  cases text with
  | none => exact writes_null
  | some bytes => exact writes_quote (unicode bytes rfl)

theorem writes_index (index : Option UInt64) :
    Writes (jsonOptionalIndex index) (indexValue index) := by
  cases index with
  | none => exact writes_null
  | some value => exact writes_signedDecimal (.ofNat value.toNat)

theorem writes_boolean (value : Bool) : Writes (jsonBoolean value) (.bool value) := by
  cases value with
  | false => exact ⟨"false".toList, rfl, by rw [Spells]; decide⟩
  | true => exact ⟨"true".toList, rfl, by rw [Spells]; decide⟩

/-- A key that needs no escape. -/
def Plain (key : String) : Prop :=
  ∀ character ∈ key.toList, 0x20 ≤ character.toNat ∧ character ≠ '"' ∧ character ≠ '\\'

instance (key : String) : Decidable (Plain key) := inferInstanceAs (Decidable (∀ _ ∈ _, _))

theorem quoted_plain {key : String} (plain : Plain key) :
    Quoted ('"' :: (key.toList ++ ['"'])) key.toList := by
  have spelled : ∀ characters : List Char,
      (∀ character ∈ characters, 0x20 ≤ character.toNat ∧ character ≠ '"' ∧ character ≠ '\\') →
        Spelled characters characters := by
    intro characters
    induction characters with
    | nil => exact fun _ => .nil
    | cons first rest inductionHypothesis =>
      intro all
      obtain ⟨⟨visible, noQuote, noEscape⟩, others⟩ := List.forall_mem_cons.mp all
      exact .cons (.plain first visible noQuote noEscape) (inductionHypothesis others)
  exact ⟨key.toList, spelled _ plain, rfl⟩

/-- A member is written with the white space in front of it. -/
theorem writesMember_jsonMember {indent bytes : List UInt8} {key : String} {value : JsonValue}
    (blank : Blank indent) (plain : Plain key) (writes : Writes bytes value) :
    WritesMember (jsonMember indent (key, bytes)) (key, value) := by
  obtain ⟨before, rfl, spaces⟩ := blank
  obtain ⟨word, rfl, spells⟩ := writes
  refine ⟨before, '"' :: (key.toList ++ ['"']), [], [], word, spaces, quoted_plain plain,
    fun _ member => (nomatch member), fun _ member => (nomatch member), spells, ?_⟩
  simp only [jsonMember, utf8, encode_append, encode_cons, List.nil_append, List.append_assoc,
    List.cons_append]
  rfl

/-- The bytes of members and their values, key by key. -/
def Written (members : List (String × List UInt8)) (values : List (String × JsonValue)) : Prop :=
  List.Forall₂ (fun member value =>
    member.1 = value.1 ∧ Plain value.1 ∧ Writes member.2 value.2) members values

/-- Members under plain keys are written when their values are. -/
theorem Written.of_keys {members : List (String × List UInt8)}
    {values : List (String × JsonValue)} (names : List String)
    (plain : ∀ name ∈ names, Plain name) (keys : values.map Prod.fst = names)
    (writes : List.Forall₂ (fun member value => member.1 = value.1 ∧ Writes member.2 value.2)
      members values) : Written members values := by
  subst keys
  induction writes with
  | nil => exact .nil
  | cons first rest inductionHypothesis =>
    obtain ⟨own, others⟩ := List.forall_mem_cons.mp plain
    exact .cons ⟨first.1, own, first.2⟩ (inductionHypothesis others)

theorem Written.members {members : List (String × List UInt8)} {values : List (String × JsonValue)}
    (written : Written members values) {indent : List UInt8} (blank : Blank indent) :
    List.Forall₂ WritesMember (members.map (jsonMember indent)) values := by
  rw [List.forall₂_map_left_iff]
  refine written.imp fun member value holds => ?_
  obtain ⟨name, bytes⟩ := member
  obtain ⟨rfl, plain, writes⟩ := holds
  exact writesMember_jsonMember blank plain writes

/-- An object on one line. -/
theorem writes_jsonObject {members : List (String × List UInt8)}
    {values : List (String × JsonValue)} (written : Written members values)
    (inhabited : members ≠ []) : Writes (jsonObject members) (.obj values) := by
  have object := Writes.obj blank_nil blank_nil (by simpa using inhabited)
    (written.members blank_nil)
  rw [List.nil_append, List.append_nil] at object
  exact object

/-! ### Documents -/

/-- The texts of a field. -/
def FieldResult.texts (field : FieldResult) : List (List UInt8) :=
  [field.id, field.kind, field.rawValue, field.logicalValue] ++ field.rawKind.toList

/-- The texts of a result. -/
def Result.texts (result : Result) : List (List UInt8) :=
  [result.formatVersion, result.command, result.operationKind, result.operationStatus,
    result.diagnosticDetail, result.replayMode, result.replaySubject,
    result.currentExecutionStatus] ++
  [result.configSha256, result.protocolId, result.pipelineId, result.messageId,
    result.directionId, result.frameHex, result.txFrameHex, result.rxFrameHex,
    result.diagnosticId, result.currentExecutionDiagnosticId, result.conversionError,
    result.failedFieldId].reduceOption ++ result.fields.flatMap FieldResult.texts

/-- The value of a field. -/
def fieldValue (field : FieldResult) : JsonValue :=
  if field.kind = utf8 "DECIMAL64" then
    let decimal64 := field.decimal64.getD {}
    .obj
      [("id", textValue field.id), ("kind", textValue field.kind),
        ("decimal64", .obj
          [("coefficient", textValue (signedDecimal decimal64.coefficient.toInt)),
            ("scale", .raw (integerText decimal64.scale.toInt))]),
        ("raw_kind", textValue (field.rawKind.getD [])), ("raw_value", textValue field.rawValue)]
  else
    .obj
      [("id", textValue field.id), ("kind", textValue field.kind),
        ("raw_value", textValue field.rawValue), ("logical_value", textValue field.logicalValue),
        ("enum_known", .bool field.enumKnown)]

/-- The members of the object that a document spells. -/
def documentValues (result : Result) (exitCode : String) (fingerprint : List UInt8) :
    List (String × JsonValue) :=
  [("format_version", textValue result.formatVersion), ("command", textValue result.command),
    ("operation_kind", textValue result.operationKind),
    ("operation_status", textValue result.operationStatus), ("exit_code", .raw exitCode),
    ("config_sha256", optionalValue result.configSha256),
    ("protocol_id", optionalValue result.protocolId),
    ("pipeline_id", optionalValue result.pipelineId),
    ("message_id", optionalValue result.messageId),
    ("direction_id", optionalValue result.directionId),
    ("frame_hex", optionalValue result.frameHex),
    ("tx_frame_hex", optionalValue result.txFrameHex),
    ("rx_frame_hex", optionalValue result.rxFrameHex),
    ("fields", .arr (result.fields.map fieldValue)),
    ("diagnostic", .obj
      [("id", optionalValue result.diagnosticId),
        ("detail", textValue result.diagnosticDetail)]),
    ("deterministic_fingerprint", textValue fingerprint),
    ("replay_mode", textValue result.replayMode),
    ("replay_subject", textValue result.replaySubject),
    ("current_execution_status", textValue result.currentExecutionStatus),
    ("current_execution_diagnostic_id", optionalValue result.currentExecutionDiagnosticId),
    ("conversion_error", optionalValue result.conversionError),
    ("failed_field_id", optionalValue result.failedFieldId),
    ("failed_field_index", indexValue result.failedFieldIndex),
    ("failed_value_index", indexValue result.failedValueIndex)]

/-- The digits of a number are ASCII. -/
theorem isText_signedDecimal (value : Int) : IsText (signedDecimal value) := by
  obtain ⟨word, bytes, -⟩ := writes_signedDecimal value
  exact ⟨word, bytes⟩

/-- A decimal is written as an object of its coefficient and its scale. -/
theorem writes_decimal (decimal64 : Decimal64) :
    Writes
      (jsonObject
        [("coefficient", quote (signedDecimal decimal64.coefficient.toInt)),
          ("scale", signedDecimal decimal64.scale.toInt)])
      (.obj
        [("coefficient", textValue (signedDecimal decimal64.coefficient.toInt)),
          ("scale", .raw (integerText decimal64.scale.toInt))]) := by
  refine writes_jsonObject (.of_keys ["coefficient", "scale"] (by decide) rfl ?_)
    (List.cons_ne_nil _ _)
  exact .cons ⟨rfl, writes_quote (isText_signedDecimal _)⟩
    (.cons ⟨rfl, writes_signedDecimal _⟩ .nil)

/-- The keys of a written decimal field. -/
def decimalKeys : List String := ["id", "kind", "decimal64", "raw_kind", "raw_value"]

/-- The keys of a written field of another kind. -/
def legacyKeys : List String := ["id", "kind", "raw_value", "logical_value", "enum_known"]

theorem plain_fieldKeys : ∀ key ∈ decimalKeys ++ legacyKeys, Plain key := by
  decide

theorem writes_field {field : FieldResult} (unicode : ∀ text ∈ field.texts, IsText text) :
    Writes (serializeField field) (fieldValue field) := by
  simp only [FieldResult.texts, List.forall_mem_append, List.forall_mem_cons, Option.mem_toList]
    at unicode
  obtain ⟨⟨id, kind, rawValue, logicalValue, -⟩, rawKind⟩ := unicode
  obtain ⟨decimalPlain, legacyPlain⟩ := List.forall_mem_append.mp plain_fieldKeys
  unfold serializeField fieldValue
  split
  · have rawKindText : IsText (field.rawKind.getD []) := by
      cases present : field.rawKind with
      | none => exact ⟨[], rfl⟩
      | some text => exact rawKind text present
    refine writes_jsonObject (.of_keys decimalKeys decimalPlain rfl ?_) (List.cons_ne_nil _ _)
    refine .cons ⟨rfl, writes_quote id⟩ (.cons ⟨rfl, writes_quote kind⟩ ?_)
    refine .cons ⟨rfl, writes_decimal _⟩ (.cons ⟨rfl, writes_quote rawKindText⟩ ?_)
    exact .cons ⟨rfl, writes_quote rawValue⟩ .nil
  · refine writes_jsonObject (.of_keys legacyKeys legacyPlain rfl ?_) (List.cons_ne_nil _ _)
    refine .cons ⟨rfl, writes_quote id⟩ (.cons ⟨rfl, writes_quote kind⟩ ?_)
    refine .cons ⟨rfl, writes_quote rawValue⟩ (.cons ⟨rfl, writes_quote logicalValue⟩ ?_)
    exact .cons ⟨rfl, writes_boolean _⟩ .nil

theorem writes_fields {fields : List FieldResult}
    (unicode : ∀ field ∈ fields, ∀ text ∈ field.texts, IsText text) :
    Writes (serializeFields fields) (.arr (fields.map fieldValue)) := by
  refine Writes.arr ?_
  rw [List.forall₂_map_left_iff, List.forall₂_map_right_iff, List.forall₂_same]
  exact fun field member => writes_field (unicode field member)

theorem plain_resultKeys : ∀ key ∈ resultKeys, Plain key := by
  decide

/-- The members of a document are written key by key, for any number as the exit code. -/
theorem written_documentMembers {result : Result}
    (unicode : ∀ text ∈ result.texts, IsText text) {exitBytes : List UInt8} {exitCode : String}
    (exitWrites : Writes exitBytes (.raw exitCode)) {fingerprint : List UInt8}
    (fingerprintText : IsText fingerprint) :
    Written (documentMembers result exitBytes fingerprint)
      (documentValues result exitCode fingerprint) := by
  simp only [Result.texts, List.forall_mem_append, List.forall_mem_cons, List.forall_mem_flatMap,
    List.reduceOption_mem_iff] at unicode
  obtain ⟨⟨⟨format, command, kind, status, detail, mode, subject, execution, -⟩, present⟩,
    fields⟩ := unicode
  have optional : ∀ text ∈ [result.configSha256, result.protocolId, result.pipelineId,
      result.messageId, result.directionId, result.frameHex, result.txFrameHex, result.rxFrameHex,
      result.diagnosticId, result.currentExecutionDiagnosticId, result.conversionError,
      result.failedFieldId], Writes (jsonOptionalString text) (optionalValue text) :=
    fun text member => writes_optional fun bytes inside =>
      present bytes (Option.mem_def.mp inside ▸ member)
  simp only [List.forall_mem_cons] at optional
  obtain ⟨config, protocol, pipeline, message, direction, frame, txFrame, rxFrame, diagnostic,
    current, conversion, failed, -⟩ := optional
  have details : Writes (jsonObject
      [("id", jsonOptionalString result.diagnosticId),
        ("detail", quote result.diagnosticDetail)])
      (.obj
        [("id", optionalValue result.diagnosticId),
          ("detail", textValue result.diagnosticDetail)]) :=
    writes_jsonObject (.of_keys ["id", "detail"] (by decide) rfl
      (.cons ⟨rfl, diagnostic⟩ (.cons ⟨rfl, writes_quote detail⟩ .nil))) (List.cons_ne_nil _ _)
  refine .of_keys resultKeys plain_resultKeys rfl ?_
  refine .cons ⟨rfl, writes_quote format⟩ (.cons ⟨rfl, writes_quote command⟩ ?_)
  refine .cons ⟨rfl, writes_quote kind⟩ (.cons ⟨rfl, writes_quote status⟩ ?_)
  refine .cons ⟨rfl, exitWrites⟩ (.cons ⟨rfl, config⟩ (.cons ⟨rfl, protocol⟩ ?_))
  refine .cons ⟨rfl, pipeline⟩ (.cons ⟨rfl, message⟩ (.cons ⟨rfl, direction⟩ ?_))
  refine .cons ⟨rfl, frame⟩ (.cons ⟨rfl, txFrame⟩ (.cons ⟨rfl, rxFrame⟩ ?_))
  refine .cons ⟨rfl, writes_fields fields⟩ (.cons ⟨rfl, details⟩ ?_)
  refine .cons ⟨rfl, writes_quote fingerprintText⟩ (.cons ⟨rfl, writes_quote mode⟩ ?_)
  refine .cons ⟨rfl, writes_quote subject⟩ (.cons ⟨rfl, writes_quote execution⟩ ?_)
  refine .cons ⟨rfl, current⟩ (.cons ⟨rfl, conversion⟩ (.cons ⟨rfl, failed⟩ ?_))
  exact .cons ⟨rfl, writes_index _⟩ (.cons ⟨rfl, writes_index _⟩ .nil)

/-- Characters that are white space are blank in bytes. -/
theorem blank_utf8 {gap : String} (spaces : ∀ character ∈ gap.toList, isSpace character) :
    Blank (utf8 gap) := ⟨gap.toList, rfl, spaces⟩

/-- A document denotes the object of its values. -/
theorem documentBytes_denotes {members : List (String × List UInt8)}
    {values : List (String × JsonValue)} (written : Written members values)
    (inhabited : members ≠ []) : Denotes (documentBytes members) (.obj values) := by
  have line : Blank (utf8 "\n") := blank_utf8 (by decide)
  have indent : Blank (utf8 "  ") := blank_utf8 (by decide)
  have object := Writes.obj line line (by simpa using inhabited) (written.members indent)
  have shape : documentBytes members =
      0x7b :: (utf8 "\n" ++ (((members.map (jsonMember (utf8 "  "))).intersperse
        (0x2c :: utf8 "\n")).flatten ++ utf8 "\n") ++ [0x7d]) ++ utf8 "\n" := by
    simp only [documentBytes, List.append_assoc, List.cons_append]
    rfl
  rw [shape]
  exact object.denotes line

end ProtocolAdapter.ProtocolLab
