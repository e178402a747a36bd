/-
This file proves what the reading of a result document preserves. A written document is read back
as its result. In the other direction every member of an accepted document says what the result
holds, except for an exit code whose stored bits have another sign than its token.
-/

import Mathlib.Data.List.Nodup
import ProtocolAdapter.ProtocolLab.DocumentSpelling

namespace ProtocolAdapter.ProtocolLab

open Foundation Foundation.ByteText

/-! ### Members of an object -/

/-- A member of an object with unique keys is found under its key. -/
theorem get?_of_mem {members : List (String × JsonValue)} (unique : (members.map Prod.fst).Nodup) :
    ∀ member ∈ members, (JsonValue.obj members).get? member.1 = some member.2 := by
  unfold JsonValue.get? JsonValue.members
  induction members with
  | nil => exact fun member inside => absurd inside List.not_mem_nil
  | cons head rest inductionHypothesis =>
    obtain ⟨name, value⟩ := head
    rw [List.map_cons, List.nodup_cons] at unique
    intro member inside
    rcases List.mem_cons.mp inside with rfl | later
    · exact List.lookup_cons_self
    · have differs : (member.1 == name) = false := by
        rw [beq_eq_false_iff_ne]
        rintro same
        exact unique.1 (same ▸ List.mem_map.mpr ⟨member, later, rfl⟩)
      rw [List.lookup_cons, differs]
      exact inductionHypothesis unique.2 member later

/-- The same for an object whose keys are known. -/
theorem get?_keys {value : JsonValue} {members : List (String × JsonValue)} (names : List String)
    (object : value = .obj members) (keys : members.map Prod.fst = names) (unique : names.Nodup) :
    ∀ member ∈ members, value.get? member.1 = some member.2 := by
  subst object keys
  exact get?_of_mem unique

theorem get?_isSome {object : JsonValue} {key : String} :
    (object.get? key).isSome ↔ key ∈ object.keys := by
  rw [JsonValue.get?, List.lookup_isSome_iff, JsonValue.keys, List.mem_map]
  constructor
  · rintro ⟨member, inside, same⟩
    exact ⟨member, inside, (beq_iff_eq.mp same).symm⟩
  · rintro ⟨member, inside, same⟩
    exact ⟨member, inside, beq_iff_eq.mpr same.symm⟩

/-- The keys are checked one after the other, against those before them. -/
theorem checkKeys_eq_ok {allowed : List String} {pointer : String} :
    ∀ {keys seen : List String}, isObjectWithKeys.checkKeys allowed pointer keys seen = .ok () ↔
      keys.Nodup ∧ ∀ key ∈ keys, key ∉ seen ∧ key ∈ allowed := by
  intro keys
  induction keys with
  | nil => exact fun {seen} => ⟨fun _ => ⟨.nil, fun _ member => (nomatch member)⟩, fun _ => rfl⟩
  | cons key rest inductionHypothesis =>
    intro seen
    rw [isObjectWithKeys.checkKeys, rejectIf_bind_eq_ok, rejectIf_bind_eq_ok, inductionHypothesis,
      not_not, List.nodup_cons, List.forall_mem_cons]
    constructor
    · rintro ⟨fresh, known, unique, others⟩
      refine ⟨⟨fun again => (others key again).1 List.mem_cons_self, unique⟩, ⟨fresh, known⟩, ?_⟩
      exact fun name member =>
        ⟨fun before => (others name member).1 (List.mem_cons_of_mem _ before),
          (others name member).2⟩
    · rintro ⟨⟨once, unique⟩, ⟨fresh, known⟩, others⟩
      refine ⟨fresh, known, unique, fun name member => ⟨?_, (others name member).2⟩⟩
      intro before
      rcases List.mem_cons.mp before with rfl | earlier
      · exact once member
      · exact (others name member).1 earlier

/-- The check passes exactly for objects with the required keys, unique keys and no other key. -/
theorem isObjectWithKeys_eq_ok {value : JsonValue} {allowed required : List String}
    {pointer : String} :
    isObjectWithKeys value allowed required pointer = .ok () ↔
      value.isObj ∧ (∀ key ∈ required, key ∈ value.keys) ∧ value.keys.Nodup ∧
        ∀ key ∈ value.keys, key ∈ allowed := by
  have missing :
      ((required.insertionSort (· ≤ ·)).find? fun key => (value.get? key).isNone) = none ↔
      ∀ key ∈ required, key ∈ value.keys := by
    rw [List.find?_eq_none]
    refine forall_congr' fun key => ?_
    rw [List.mem_insertionSort, Option.isNone_iff_eq_none, ← get?_isSome, Option.isSome_iff_ne_none]
  rw [isObjectWithKeys, rejectIf_bind_eq_ok, ← missing, Bool.not_eq_true', Bool.not_eq_false]
  refine and_congr_right fun _ => ?_
  split
  · rename_i key found
    simp only [found, reduceCtorEq, false_and]
  · rename_i found
    rw [checkKeys_eq_ok]
    simp only [found, true_and, List.not_mem_nil, not_false_eq_true]

/-- A required member is there. -/
theorem get?_node {object : JsonValue} {allowed required : List String} {pointer key : String}
    (checked : isObjectWithKeys object allowed required pointer = .ok ())
    (member : key ∈ required) : object.get? key = some (node object key) := by
  have present := get?_isSome.mpr ((isObjectWithKeys_eq_ok.mp checked).2.1 key member)
  obtain ⟨value, found⟩ := Option.isSome_iff_exists.mp present
  rw [node, found, Option.getD_some]

/-! ### The integers of tokens -/

/-- A number that is stored without a sign is the integer of its token. -/
theorem integerOf_uint {token : String} {value : UInt64} (stored : numberOf token = .uint value) :
    integerOf token = some (value.toNat : Int) := by
  unfold numberOf at stored
  split at stored
  · split at stored <;> cases stored
  · rename_i magnitude found
    split at stored
    · rename_i fits
      obtain rfl := Number.uint.inj stored
      rw [integerOf, found, UInt64.toNat_ofNat', Nat.mod_eq_of_lt fits]
      rfl
    · cases stored
  · cases stored

/-- A number that is stored with a sign is the integer of its token and not positive. -/
theorem integerOf_sint {token : String} {value : Int64} (stored : numberOf token = .sint value) :
    integerOf token = some value.toInt ∧ value.toInt ≤ 0 := by
  unfold numberOf at stored
  split at stored
  · rename_i magnitude found
    split at stored
    · rename_i fits
      obtain rfl := Number.sint.inj stored
      rw [integerOf, found, Int64.toInt_ofInt_of_le (by omega) (by omega)]
      exact ⟨rfl, by omega⟩
    · cases stored
  · split at stored <;> cases stored
  · cases stored

/-- The stored bits of an integer token are its value, unless they change the sign. -/
theorem getSint_integer {token : String} (integer : isInt (.raw token)) :
    ∃ value, integerOf token = some value ∧ value < 2 ^ 64 ∧
      (getSint (.raw token)).toInt = if value < 2 ^ 63 then value else value - 2 ^ 64 := by
  simp only [isInt, decide_eq_true_eq] at integer
  unfold getSint
  cases stored : numberOf token with
  | uint value =>
    refine ⟨_, integerOf_uint stored, by exact_mod_cast value.toNat_lt, ?_⟩
    have bits : value.toInt64.toInt = value.toBitVec.toInt := rfl
    have size : value.toBitVec.toNat = value.toNat := rfl
    simp only [stored, bits, BitVec.toInt_eq_toNat_cond, size]
    split
    · rw [if_pos (by omega)]
    · rw [if_neg (by omega)]
      rfl
  | sint value =>
    obtain ⟨same, low⟩ := integerOf_sint stored
    refine ⟨_, same, by omega, ?_⟩
    rw [if_pos (by omega)]
    simp only [stored]
  | real => exact absurd stored integer

/-- An unsigned integer is the value of its token. -/
theorem getUint?_integer {token : String} {index : UInt64}
    (read : getUint? (.raw token) = some index) : integerOf token = some (index.toNat : Int) := by
  unfold getUint? at read
  cases stored : numberOf token with
  | uint value =>
    simp only [stored, Option.some_inj] at read
    exact read ▸ integerOf_uint stored
  | sint value => simp only [stored, reduceCtorEq] at read
  | real => simp only [stored, reduceCtorEq] at read

/-- The token of an index is stored as the index. -/
theorem getUint?_integerText (index : UInt64) :
    getUint? (.raw (integerText index.toNat)) = some index := by
  have natural : ¬((index.toNat : Int) < 0) := by omega
  simp only [getUint?, numberOf, integerToken_integerText, decide_eq_false natural,
    Int.natAbs_natCast, if_pos index.toNat_lt, UInt64.ofNat_toNat]

/-- The token of a signed number is stored as an integer with its value. -/
theorem getSint_integerText {value : Int} (low : -2 ^ 63 ≤ value) (high : value < 2 ^ 63) :
    isInt (.raw (integerText value)) ∧ (getSint (.raw (integerText value))).toInt = value := by
  have integer : isInt (.raw (integerText value)) := by
    simp only [isInt, numberOf, integerToken_integerText]
    by_cases negative : value < 0
    · rw [decide_eq_true negative]
      simp only [if_pos (show value.natAbs ≤ 2 ^ 63 by omega)]
      rfl
    · rw [decide_eq_false negative]
      simp only [if_pos (show value.natAbs < 2 ^ 64 by omega)]
      rfl
  obtain ⟨same, found, -, bits⟩ := getSint_integer integer
  rw [integerOf_integerText] at found
  obtain rfl := Option.some.inj found
  exact ⟨integer, by rw [bits, if_pos high]⟩

/-! ### What a document says -/

/-- The member is a string with the given text. -/
def SaysText (object : JsonValue) (key : String) (text : List UInt8) : Prop :=
  ∃ characters, object.get? key = some (.str characters) ∧ text = utf8 characters

/-- The member is null or a string, and the text is absent or the one of the string. -/
def SaysOptional (object : JsonValue) (key : String) (text : Option (List UInt8)) : Prop :=
  (object.get? key = some .null ∧ text = none) ∨
    ∃ characters, object.get? key = some (.str characters) ∧ text = some (utf8 characters)

/-- The member is a number without fraction and exponent, with the given value. -/
def SaysInteger (object : JsonValue) (key : String) (value : Int) : Prop :=
  ∃ token, object.get? key = some (.raw token) ∧ integerOf token = some value

/-- The member is null or an integer, and the index is absent or the integer. -/
def SaysIndex (object : JsonValue) (key : String) (index : Option UInt64) : Prop :=
  (object.get? key = some .null ∧ index = none) ∨
    ∃ value, SaysInteger object key (value.toNat : Int) ∧ index = some value

/-- The member is a boolean. -/
def SaysBoolean (object : JsonValue) (key : String) (value : Bool) : Prop :=
  object.get? key = some (.bool value)

/-- An element says what a field holds. A decimal's coefficient is a string of its digits. -/
structure LiteralField (element : JsonValue) (field : FieldResult) : Prop where
  id : SaysText element "id" field.id
  kind : SaysText element "kind" field.kind
  rawValue : SaysText element "raw_value" field.rawValue
  shape :
    (field.kind = utf8 "DECIMAL64" ∧
      ∃ decimal decimal64 rawKind, element.get? "decimal64" = some decimal ∧
        field.decimal64 = some decimal64 ∧ field.rawKind = some rawKind ∧
        SaysText decimal "coefficient" (signedDecimal decimal64.coefficient.toInt) ∧
        SaysInteger decimal "scale" decimal64.scale.toInt ∧
        SaysText element "raw_kind" rawKind ∧ field.logicalValue = [] ∧ field.enumKnown = false) ∨
    (field.kind ≠ utf8 "DECIMAL64" ∧ SaysText element "logical_value" field.logicalValue ∧
      SaysBoolean element "enum_known" field.enumKnown ∧ field.decimal64 = none ∧
      field.rawKind = none)

/-- A document says what a result holds, but for its exit code. -/
structure LiteralRest (root : JsonValue) (result : Result) : Prop where
  formatVersion : SaysText root "format_version" result.formatVersion
  command : SaysText root "command" result.command
  operationKind : SaysText root "operation_kind" result.operationKind
  operationStatus : SaysText root "operation_status" result.operationStatus
  configSha256 : SaysOptional root "config_sha256" result.configSha256
  protocolId : SaysOptional root "protocol_id" result.protocolId
  pipelineId : SaysOptional root "pipeline_id" result.pipelineId
  messageId : SaysOptional root "message_id" result.messageId
  directionId : SaysOptional root "direction_id" result.directionId
  frameHex : SaysOptional root "frame_hex" result.frameHex
  txFrameHex : SaysOptional root "tx_frame_hex" result.txFrameHex
  rxFrameHex : SaysOptional root "rx_frame_hex" result.rxFrameHex
  fields : ∃ elements, root.get? "fields" = some (.arr elements) ∧
    List.Forall₂ LiteralField elements result.fields
  diagnostic : ∃ diagnostic, root.get? "diagnostic" = some diagnostic ∧
    SaysOptional diagnostic "id" result.diagnosticId ∧
    SaysText diagnostic "detail" result.diagnosticDetail
  replayMode : SaysText root "replay_mode" result.replayMode
  replaySubject : SaysText root "replay_subject" result.replaySubject
  currentExecutionStatus : SaysText root "current_execution_status" result.currentExecutionStatus
  currentExecutionDiagnosticId :
    SaysOptional root "current_execution_diagnostic_id" result.currentExecutionDiagnosticId
  conversionError : SaysOptional root "conversion_error" result.conversionError
  failedFieldId : SaysOptional root "failed_field_id" result.failedFieldId
  failedFieldIndex : SaysIndex root "failed_field_index" result.failedFieldIndex
  failedValueIndex : SaysIndex root "failed_value_index" result.failedValueIndex

/-- A document says what a result holds. -/
structure Literal (root : JsonValue) (result : Result) : Prop extends LiteralRest root result where
  exitCode : SaysInteger root "exit_code" result.exitCode.toInt

/-- The exit code of a document is an unsigned integer whose stored bits are a negative number of
32 bits. -/
def Wraps (root : JsonValue) : Prop :=
  ∃ value, SaysInteger root "exit_code" value ∧ 2 ^ 64 - 2 ^ 31 ≤ value ∧ value < 2 ^ 64

/-! ### Reading a member -/

theorem readString_eq_ok {object : JsonValue} {key : String} {text : List UInt8} :
    readString object key = .ok text ↔ SaysText object key text := by
  unfold readString SaysText node
  cases found : object.get? key with
  | none => simp
  | some value => cases value <;> simp [eq_comm]

theorem readOptionalString_eq_ok {object : JsonValue} {key : String}
    (present : object.get? key = some (node object key)) {text : Option (List UInt8)} :
    readOptionalString object key = .ok text ↔ SaysOptional object key text := by
  unfold readOptionalString SaysOptional
  rw [present]
  cases node object key <;> simp [eq_comm]

theorem readDiagnosticId_eq_ok {diagnostic : JsonValue}
    (present : diagnostic.get? "id" = some (node diagnostic "id")) {text : Option (List UInt8)} :
    readDiagnosticId diagnostic = .ok text ↔ SaysOptional diagnostic "id" text := by
  unfold readDiagnosticId SaysOptional
  rw [present]
  cases node diagnostic "id" <;> simp [eq_comm]

theorem readOptionalIndex_literal {object : JsonValue} {key : String}
    (present : object.get? key = some (node object key)) {index : Option UInt64}
    (read : readOptionalIndex object key = .ok index) : SaysIndex object key index := by
  unfold readOptionalIndex at read
  unfold SaysIndex SaysInteger
  rw [present]
  cases found : node object key with
  | null =>
    rw [found] at read
    exact .inl ⟨rfl, (Except.ok.inj read).symm⟩
  | raw token =>
    rw [found] at read
    cases stored : getUint? (.raw token) with
    | none => simp only [stored, reduceCtorEq] at read
    | some value =>
      simp only [stored, Except.ok.injEq] at read
      exact .inr ⟨value, ⟨token, rfl, getUint?_integer stored⟩, read.symm⟩
  | _ =>
    rw [found] at read
    simp [getUint?] at read

/-- The value of an index is read as the index. -/
theorem readOptionalIndex_value {object : JsonValue} {key : String} {index : Option UInt64}
    (found : object.get? key = some (indexValue index)) :
    readOptionalIndex object key = .ok index := by
  rw [readOptionalIndex, node, found, Option.getD_some]
  cases index with
  | none => rfl
  | some value => simp only [indexValue, getUint?_integerText]

theorem saysText_value {object : JsonValue} {key : String} {text : List UInt8}
    (found : object.get? key = some (textValue text)) (unicode : IsText text) :
    SaysText object key text := ⟨asText text, found, (utf8_asText unicode).symm⟩

theorem saysOptional_value {object : JsonValue} {key : String} {text : Option (List UInt8)}
    (found : object.get? key = some (optionalValue text))
    (unicode : ∀ bytes ∈ text, IsText bytes) : SaysOptional object key text := by
  cases text with
  | none => exact .inl ⟨found, rfl⟩
  | some bytes => exact .inr ⟨asText bytes, found, by rw [utf8_asText (unicode bytes rfl)]⟩

/-- An integer member has a value, and its stored bits are that value unless they change the
sign. -/
theorem saysInteger_getSint {object : JsonValue} {key : String}
    (present : object.get? key = some (node object key)) (integer : isInt (node object key)) :
    ∃ value, SaysInteger object key value ∧ value < 2 ^ 64 ∧
      (getSint (node object key)).toInt = if value < 2 ^ 63 then value else value - 2 ^ 64 := by
  unfold SaysInteger
  rw [present]
  cases found : node object key with
  | raw token =>
    rw [found] at integer
    obtain ⟨value, same, bound, bits⟩ := getSint_integer integer
    exact ⟨value, ⟨token, rfl, same⟩, bound, bits⟩
  | _ =>
    rw [found] at integer
    exact absurd integer Bool.false_ne_true

/-- A number of 32 bits keeps its value. -/
theorem toInt32_value {value : Int64} (low : -2 ^ 31 ≤ value.toInt) (high : value.toInt < 2 ^ 31) :
    value.toInt32.toInt = value.toInt := by
  rw [Int64.toInt_toInt32, Int.bmod_eq_of_le (by omega) (by omega)]

/-! ### Fields -/

theorem readField_literal {element : JsonValue} {pointer : String} {field : FieldResult}
    (read : readField element pointer = .ok field) : LiteralField element field := by
  rw [readField] at read
  simp only [bind_eq_ok, readString_eq_ok] at read
  obtain ⟨_, _, id, saysId, kind, saysKind, rawValue, saysRaw, shape⟩ := read
  split at shape
  · rename_i isDecimal
    rw [readDecimalField] at shape
    simp only [bind_eq_ok, readString_eq_ok] at shape
    obtain ⟨_, checked, _, inner, coefficient, saysCoefficient, shape⟩ := shape
    split at shape
    · cases shape
    · rename_i value parsed
      simp only [bind_eq_ok, rejectIf_eq_ok, readString_eq_ok, pure_eq_ok, not_or,
        Bool.not_eq_true', Bool.not_eq_false, Int.not_lt] at shape
      obtain ⟨_, ⟨integer, low, high⟩, rawKind, saysKindOfRaw, rfl⟩ := shape
      refine ⟨saysId, saysKind, saysRaw, .inl ⟨isDecimal, node element "decimal64", _, rawKind,
        get?_node checked (by simp), rfl, rfl, ?_, ?_, saysKindOfRaw, rfl, rfl⟩⟩
      · rw [← parseCanonicalInt64Text_eq_some.mp parsed]
        exact saysCoefficient
      · have present := @get?_node _ _ _ _ "scale" inner (by simp)
        obtain ⟨value, scale, bound, bits⟩ := saysInteger_getSint present integer
        have same : (getSint (node (node element "decimal64") "scale")).toInt = value := by
          split at bits <;> omega
        rw [toInt32_value (by omega) (by omega), same]
        exact scale
  · rename_i isLegacy
    rw [readLegacyField] at shape
    simp only [bind_eq_ok, readString_eq_ok] at shape
    obtain ⟨_, checked, logicalValue, saysLogical, shape⟩ := shape
    split at shape
    · rename_i enumKnown found
      rw [pure_eq_ok] at shape
      subst shape
      refine ⟨saysId, saysKind, saysRaw, .inr ⟨isLegacy, saysLogical, ?_, rfl, rfl⟩⟩
      rw [SaysBoolean, get?_node checked (by simp), found]
    · cases shape

/-- An object passes the check when its keys do. -/
theorem isObjectWithKeys_keys {value : JsonValue} {members : List (String × JsonValue)}
    (names : List String) {allowed required : List String} {pointer : String}
    (object : value = .obj members)
    (keys : members.map Prod.fst = names)
    (check : (∀ key ∈ required, key ∈ names) ∧ names.Nodup ∧ ∀ key ∈ names, key ∈ allowed) :
    isObjectWithKeys value allowed required pointer = .ok () := by
  subst object keys
  exact isObjectWithKeys_eq_ok.mpr ⟨rfl, check⟩

/-- A valid decimal has a scale of at most 18. -/
theorem validateField_scale {field : FieldResult} {allowEmptyBytes : Bool} {decimal64 : Decimal64}
    (valid : validateField field allowEmptyBytes = .ok ()) (kind : field.kind = utf8 "DECIMAL64")
    (present : field.decimal64 = some decimal64) :
    0 ≤ decimal64.scale.toInt ∧ decimal64.scale.toInt ≤ 18 := by
  rw [validateField] at valid
  simp only [rejectIf_bind_eq_ok, if_pos kind] at valid
  obtain ⟨_, shape⟩ := valid
  unfold validateDecimalField at shape
  split at shape
  · rename_i decimal rawKind same _
    obtain rfl := Option.some.inj (present.symm.trans same)
    simp only [rejectIf_bind_eq_ok, not_or, Int32.not_lt, Int32.le_iff_toInt_le] at shape
    exact ⟨shape.2.1.1, shape.2.1.2.1⟩
  · cases shape

/-- A valid field of another kind is read back from its value. -/
theorem readField_legacyValue {field : FieldResult} {allowEmptyBytes : Bool}
    (valid : validateField field allowEmptyBytes = .ok ())
    (unicode : ∀ text ∈ field.texts, IsText text) (isLegacy : field.kind ≠ utf8 "DECIMAL64")
    (pointer : String) : readField (fieldValue field) pointer = .ok field := by
  simp only [FieldResult.texts, List.forall_mem_append, List.forall_mem_cons] at unicode
  obtain ⟨⟨id, kind, rawValue, logicalValue, -⟩, -⟩ := unicode
  obtain ⟨noDecimal, noKind⟩ := validateField_legacy valid isLegacy
  have object := if_neg isLegacy ▸ fieldValue.eq_1 field
  have found := get?_keys legacyKeys object rfl (by simp [legacyKeys])
  simp only [List.forall_mem_cons] at found
  obtain ⟨idFound, kindFound, rawFound, logicalFound, knownFound, -⟩ := found
  rw [readField, isObjectWithKeys_keys legacyKeys object rfl (by simp [legacyKeys]), ok_bind,
    readString_eq_ok.mpr (saysText_value idFound id), ok_bind,
    readString_eq_ok.mpr (saysText_value kindFound kind), ok_bind,
    readString_eq_ok.mpr (saysText_value rawFound rawValue), ok_bind, if_neg isLegacy,
    readLegacyField, isObjectWithKeys_keys legacyKeys object rfl (by simp [legacyKeys]), ok_bind,
    readString_eq_ok.mpr (saysText_value logicalFound logicalValue), ok_bind, node, knownFound]
  obtain ⟨_, _, _, _, _, _, _⟩ := field
  obtain rfl := noDecimal
  obtain rfl := noKind
  rfl

/-- A valid decimal field is read back from its value. -/
theorem readField_decimalValue {field : FieldResult} {allowEmptyBytes : Bool}
    (valid : validateField field allowEmptyBytes = .ok ())
    (unicode : ∀ text ∈ field.texts, IsText text) (isDecimal : field.kind = utf8 "DECIMAL64")
    (pointer : String) : readField (fieldValue field) pointer = .ok field := by
  simp only [FieldResult.texts, List.forall_mem_append, List.forall_mem_cons, Option.mem_toList]
    at unicode
  obtain ⟨⟨id, kind, rawValue, -, -⟩, rawKind⟩ := unicode
  obtain ⟨decimal64, kindOfRaw, shape⟩ := validateField_decimal valid isDecimal
  have present : field.decimal64 = some decimal64 := by rw [shape]
  have rawPresent : field.rawKind = some kindOfRaw := by rw [shape]
  obtain ⟨low, high⟩ := validateField_scale valid isDecimal present
  obtain ⟨integer, bits⟩ := @getSint_integerText decimal64.scale.toInt (by omega) (by omega)
  have object := if_pos isDecimal ▸ fieldValue.eq_1 field
  rw [present, rawPresent] at object
  have found := get?_keys decimalKeys object rfl (by simp [decimalKeys])
  simp only [List.forall_mem_cons, Option.getD_some] at found
  obtain ⟨idFound, kindFound, decimalFound, rawKindFound, rawFound, -⟩ := found
  have decimal : node (fieldValue field) "decimal64" = .obj
      [("coefficient", textValue (signedDecimal decimal64.coefficient.toInt)),
        ("scale", .raw (integerText decimal64.scale.toInt))] := by
    rw [node, decimalFound]
    rfl
  have inner := get?_keys ["coefficient", "scale"] decimal rfl (by simp)
  simp only [List.forall_mem_cons] at inner
  obtain ⟨coefficientFound, scaleFound, -⟩ := inner
  have scale : node (node (fieldValue field) "decimal64") "scale" =
      .raw (integerText decimal64.scale.toInt) := by
    rw [node, scaleFound]
    rfl
  rw [readField, isObjectWithKeys_keys decimalKeys object rfl (by simp [decimalKeys]), ok_bind,
    readString_eq_ok.mpr (saysText_value idFound id), ok_bind,
    readString_eq_ok.mpr (saysText_value kindFound kind), ok_bind,
    readString_eq_ok.mpr (saysText_value rawFound rawValue), ok_bind, if_pos isDecimal,
    readDecimalField, isObjectWithKeys_keys decimalKeys object rfl (by simp [decimalKeys]), ok_bind]
  dsimp only
  rw [isObjectWithKeys_keys ["coefficient", "scale"] decimal rfl (by simp), ok_bind,
    readString_eq_ok.mpr (saysText_value coefficientFound (isText_signedDecimal _)), ok_bind,
    parseCanonicalInt64Text_eq_some.mpr rfl, scale]
  have accepted : ¬((!isInt (.raw (integerText decimal64.scale.toInt))) = true ∨
      (getSint (.raw (integerText decimal64.scale.toInt))).toInt < 0 ∨
        18 < (getSint (.raw (integerText decimal64.scale.toInt))).toInt) := by
    simp only [integer, bits, Bool.not_true, Bool.false_eq_true, false_or, not_or, Int.not_lt]
    exact ⟨low, high⟩
  have kept : (getSint (.raw (integerText decimal64.scale.toInt))).toInt32 = decimal64.scale := by
    rw [← Int32.toInt_inj, toInt32_value (by omega) (by omega), bits]
  dsimp only
  rw [rejectIf, if_neg accepted, ok_bind,
    readString_eq_ok.mpr (saysText_value rawKindFound (rawKind _ rawPresent)), ok_bind, kept]
  rw [shape]
  rfl

/-- Valid fields are read back in order. -/
theorem readFields_values {allowEmptyBytes : Bool} : ∀ {fields : List FieldResult},
    (∀ field ∈ fields, validateField field allowEmptyBytes = .ok ()) →
    (∀ field ∈ fields, ∀ text ∈ field.texts, IsText text) → ∀ ordinal,
      readFields (fields.map fieldValue) ordinal = .ok fields := by
  intro fields
  induction fields with
  | nil => exact fun _ _ _ => rfl
  | cons field rest inductionHypothesis =>
    intro valid unicode ordinal
    obtain ⟨first, others⟩ := List.forall_mem_cons.mp valid
    obtain ⟨firstUnicode, othersUnicode⟩ := List.forall_mem_cons.mp unicode
    have read (pointer : String) : readField (fieldValue field) pointer = .ok field := by
      by_cases isDecimal : field.kind = utf8 "DECIMAL64"
      · exact readField_decimalValue first firstUnicode isDecimal pointer
      · exact readField_legacyValue first firstUnicode isDecimal pointer
    rw [List.map_cons, readFields, read, ok_bind, inductionHypothesis others othersUnicode, ok_bind]
    rfl

/-- Every element says what its field holds. -/
theorem readFields_literal : ∀ {elements : List JsonValue} {ordinal : Nat}
    {fields : List FieldResult}, readFields elements ordinal = .ok fields →
      List.Forall₂ LiteralField elements fields := by
  intro elements
  induction elements with
  | nil =>
    intro _ fields read
    obtain rfl := Except.ok.inj read
    exact .nil
  | cons element rest inductionHypothesis =>
    intro _ fields read
    rw [readFields] at read
    simp only [bind_eq_ok, pure_eq_ok] at read
    obtain ⟨field, first, others, later, rfl⟩ := read
    exact .cons (readField_literal first) (inductionHypothesis later)

end ProtocolAdapter.ProtocolLab
