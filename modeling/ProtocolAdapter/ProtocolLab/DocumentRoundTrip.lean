/-
This file puts the reading of documents together: what a valid result writes is read back as the
result, and an accepted document says what its result holds unless its exit code wraps.
-/

import ProtocolAdapter.ProtocolLab.DocumentReading

namespace ProtocolAdapter.ProtocolLab

open Foundation Foundation.ByteText Foundation.JsonText

/-! ### The exit code -/

/-- An accepted exit code is the one of the document, unless it wraps. -/
theorem readExitCode_literal {root : JsonValue} {exitCode : Int32}
    (present : root.get? "exit_code" = some (node root "exit_code"))
    (read : readExitCode root = .ok exitCode) :
    SaysInteger root "exit_code" exitCode.toInt ↔ ¬Wraps root := by
  rw [readExitCode, rejectIf_bind_eq_ok, pure_eq_ok] at read
  obtain ⟨accepted, rfl⟩ := read
  simp only [not_or, Bool.not_eq_true', Bool.not_eq_false, Int.not_lt] at accepted
  obtain ⟨integer, low, high⟩ := accepted
  obtain ⟨value, holds, bound, bits⟩ := saysInteger_getSint present integer
  rw [toInt32_value low (by omega)]
  have unique : ∀ other, SaysInteger root "exit_code" other → other = value := by
    rintro other ⟨token, found, same⟩
    obtain ⟨token', found', same'⟩ := holds
    obtain rfl := JsonValue.raw.inj (Option.some.inj (found.symm.trans found'))
    exact Option.some.inj (same.symm.trans same')
  constructor
  · rintro literal ⟨other, wrapped, least, most⟩
    obtain rfl := unique other wrapped
    have same := unique _ literal
    split at bits <;> omega
  · intro kept
    by_cases small : value < 2 ^ 63
    · rw [bits, if_pos small]
      exact holds
    · rw [if_neg small] at bits
      exact absurd ⟨value, holds, by omega, bound⟩ kept

/-- The digits of an exit code are read back. -/
theorem readExitCode_value {root : JsonValue} {exitCode : Int32}
    (found : root.get? "exit_code" = some (.raw (integerText exitCode.toInt))) :
    readExitCode root = .ok exitCode := by
  have low := exitCode.le_toInt
  have high := exitCode.toInt_lt
  obtain ⟨integer, bits⟩ := @getSint_integerText exitCode.toInt (by omega) (by omega)
  have value : node root "exit_code" = .raw (integerText exitCode.toInt) := by
    rw [node, found]
    rfl
  have accepted : ¬((!isInt (.raw (integerText exitCode.toInt))) = true ∨
      (getSint (.raw (integerText exitCode.toInt))).toInt < -2 ^ 31 ∨
        2 ^ 31 - 1 < (getSint (.raw (integerText exitCode.toInt))).toInt) := by
    simp only [integer, bits, Bool.not_true, Bool.false_eq_true, false_or, not_or, Int.not_lt]
    exact ⟨low, by omega⟩
  have kept : (getSint (.raw (integerText exitCode.toInt))).toInt32 = exitCode := by
    rw [← Int32.toInt_inj, toInt32_value (by omega) (by omega), bits]
  rw [readExitCode, value, rejectIf, if_neg accepted, ok_bind, kept]
  rfl

/-! ### Results -/

/-- A document that is read says what the result holds, but for its exit code. -/
theorem readResult_literal {root : JsonValue} {result : Result} {fingerprint : List UInt8}
    (read : readResult root = .ok (result, fingerprint)) : LiteralRest root result ∧
      (SaysInteger root "exit_code" result.exitCode.toInt ↔ ¬Wraps root) := by
  rw [readResult] at read
  dsimp only at read
  simp only [bind_eq_ok, rejectIf_eq_ok, readString_eq_ok, pure_eq_ok, exists_const,
    Prod.mk.injEq, Bool.not_eq_true', Bool.not_eq_false] at read
  obtain ⟨_, checked, format, saysFormat, -, command, saysCommand, kind, saysKind, status,
    saysStatus, exitCode, readExit, config, readConfig, protocol, readProtocol, pipeline,
    readPipeline, message, readMessage, direction, readDirection, frame, readFrame, tx, readTx,
    rx, readRx, isArray, fields, readFields, _, inner, diagnosticId, readId, detail, saysDetail,
    declared, saysDeclared, mode, saysMode, subject, saysSubject, execution, saysExecution,
    current, readCurrent, conversion, readConversion, failed, readFailed, fieldIndex,
    readFieldIndex, valueIndex, readValueIndex, rfl, rfl⟩ := read
  have optional {key : String} {text : Option (List UInt8)} (member : key ∈ resultKeys)
      (run : readOptionalString root key = .ok text) : SaysOptional root key text :=
    (readOptionalString_eq_ok (get?_node checked member)).mp run
  have index {key : String} {value : Option UInt64} (member : key ∈ resultKeys)
      (run : readOptionalIndex root key = .ok value) : SaysIndex root key value :=
    readOptionalIndex_literal (get?_node checked member) run
  have elements : root.get? "fields" = some (.arr (node root "fields").elements) := by
    rw [get?_node checked (by simp [resultKeys])]
    cases found : node root "fields" with
    | arr elements => rfl
    | _ =>
      rw [found] at isArray
      exact absurd isArray Bool.false_ne_true
  have presentId := @get?_node _ _ _ _ "id" inner (by simp)
  refine ⟨?_, readExitCode_literal (get?_node checked (by simp [resultKeys])) readExit⟩
  exact
    { formatVersion := saysFormat
      command := saysCommand
      operationKind := saysKind
      operationStatus := saysStatus
      configSha256 := optional (by simp [resultKeys]) readConfig
      protocolId := optional (by simp [resultKeys]) readProtocol
      pipelineId := optional (by simp [resultKeys]) readPipeline
      messageId := optional (by simp [resultKeys]) readMessage
      directionId := optional (by simp [resultKeys]) readDirection
      frameHex := optional (by simp [resultKeys]) readFrame
      txFrameHex := optional (by simp [resultKeys]) readTx
      rxFrameHex := optional (by simp [resultKeys]) readRx
      fields := ⟨_, elements, readFields_literal readFields⟩
      diagnostic := ⟨_, get?_node checked (by simp [resultKeys]),
        (readDiagnosticId_eq_ok presentId).mp readId, saysDetail⟩
      replayMode := saysMode
      replaySubject := saysSubject
      currentExecutionStatus := saysExecution
      currentExecutionDiagnosticId := optional (by simp [resultKeys]) readCurrent
      conversionError := optional (by simp [resultKeys]) readConversion
      failedFieldId := optional (by simp [resultKeys]) readFailed
      failedFieldIndex := index (by simp [resultKeys]) readFieldIndex
      failedValueIndex := index (by simp [resultKeys]) readValueIndex }

/-- The values of a valid result are read back as the result and its fingerprint, for every token
that is read as the exit code. -/
theorem readResult_values {result : Result} (valid : validateResult result = .ok ())
    (unicode : ∀ text ∈ result.texts, IsText text) {fingerprint : List UInt8}
    (fingerprintText : IsText fingerprint) {exitCode : String}
    (exitRead : ∀ root : JsonValue, root.get? "exit_code" = some (.raw exitCode) →
      readExitCode root = .ok result.exitCode) :
    readResult (.obj (documentValues result exitCode fingerprint)) = .ok (result, fingerprint) := by
  obtain ⟨known, validFields⟩ := validateResult_fields valid
  simp only [Result.texts, List.forall_mem_append, List.forall_mem_cons, List.forall_mem_flatMap,
    List.reduceOption_mem_iff] at unicode
  obtain ⟨⟨⟨format, command, kind, status, detail, mode, subject, execution, -⟩, present⟩,
    fields⟩ := unicode
  generalize object : JsonValue.obj (documentValues result exitCode fingerprint) = root
  have found := get?_keys resultKeys object.symm rfl (by decide)
  have checked : isObjectWithKeys root resultKeys resultKeys "result" = .ok () :=
    isObjectWithKeys_keys resultKeys object.symm rfl (by decide)
  simp only [documentValues, List.forall_mem_cons] at found
  obtain ⟨formatFound, commandFound, kindFound, statusFound, exitFound, configFound, protocolFound,
    pipelineFound, messageFound, directionFound, frameFound, txFound, rxFound, fieldsFound,
    diagnosticFound, fingerprintFound, modeFound, subjectFound, executionFound, currentFound,
    conversionFound, failedFound, fieldIndexFound, valueIndexFound, -⟩ := found
  have text {key : String} {bytes : List UInt8} (found : root.get? key = some (textValue bytes))
      (isText : IsText bytes) : readString root key = .ok bytes :=
    readString_eq_ok.mpr (saysText_value found isText)
  have optional {key : String} {bytes : Option (List UInt8)}
      (found : root.get? key = some (optionalValue bytes))
      (isText : ∀ inner ∈ bytes, IsText inner) : readOptionalString root key = .ok bytes :=
    (readOptionalString_eq_ok (by rw [node, found, Option.getD_some])).mpr
      (saysOptional_value found isText)
  have inside : ∀ bytes ∈ [result.configSha256, result.protocolId, result.pipelineId,
      result.messageId, result.directionId, result.frameHex, result.txFrameHex, result.rxFrameHex,
      result.diagnosticId, result.currentExecutionDiagnosticId, result.conversionError,
      result.failedFieldId], ∀ inner ∈ bytes, IsText inner :=
    fun bytes member inner isInner => present inner (Option.mem_def.mp isInner ▸ member)
  simp only [List.forall_mem_cons] at inside
  obtain ⟨config, protocol, pipeline, message, direction, frame, tx, rx, diagnosticId, current,
    conversion, failed, -⟩ := inside
  have array : node root "fields" = .arr (result.fields.map fieldValue) := by
    rw [node, fieldsFound, Option.getD_some]
  have isArray : (node root "fields").isArr := by
    rw [array]
    rfl
  have diagnostic : node root "diagnostic" = .obj
      [("id", optionalValue result.diagnosticId),
        ("detail", textValue result.diagnosticDetail)] := by
    rw [node, diagnosticFound, Option.getD_some]
  have inner := get?_keys ["id", "detail"] diagnostic rfl (by simp)
  simp only [List.forall_mem_cons] at inner
  obtain ⟨idFound, detailFound, -⟩ := inner
  have readId : readDiagnosticId (node root "diagnostic") = .ok result.diagnosticId :=
    (readDiagnosticId_eq_ok (by rw [idFound, node, idFound, Option.getD_some])).mpr
      (saysOptional_value idFound diagnosticId)
  rw [readResult, checked, ok_bind, text formatFound format, ok_bind, rejectIf,
    if_neg (not_not_intro known), ok_bind, text commandFound command, ok_bind,
    text kindFound kind, ok_bind, text statusFound status, ok_bind,
    exitRead root exitFound, ok_bind, optional configFound config, ok_bind,
    optional protocolFound protocol, ok_bind, optional pipelineFound pipeline, ok_bind,
    optional messageFound message, ok_bind, optional directionFound direction, ok_bind,
    optional frameFound frame, ok_bind, optional txFound tx, ok_bind, optional rxFound rx,
    ok_bind, rejectIf, if_neg (by simp [isArray]), ok_bind, array, JsonValue.elements,
    readFields_values validFields fields 0, ok_bind]
  dsimp only
  rw [isObjectWithKeys_keys ["id", "detail"] diagnostic rfl (by simp), ok_bind, readId,
    ok_bind, readString_eq_ok.mpr (saysText_value detailFound detail), ok_bind,
    text fingerprintFound fingerprintText, ok_bind, text modeFound mode, ok_bind,
    text subjectFound subject, ok_bind, text executionFound execution, ok_bind,
    optional currentFound current, ok_bind, optional conversionFound conversion, ok_bind,
    optional failedFound failed, ok_bind, readOptionalIndex_value fieldIndexFound, ok_bind,
    readOptionalIndex_value valueIndexFound, ok_bind]
  rfl

/-! ### Documents -/

/-- A valid result has a fingerprint in ASCII. -/
theorem finalizeFingerprint_ok {result : Result} (valid : validateResult result = .ok ()) :
    ∃ fingerprint, finalizeFingerprint result = .ok fingerprint ∧ IsText fingerprint := by
  rw [finalizeFingerprint, encodeFingerprintPayload_items valid, ok_bind]
  exact ⟨_, rfl, isText_uppercaseHash _⟩

/-- A document of a valid result whose texts are UTF-8 is read back as the result, for every token
that is read as the exit code. -/
theorem parseResult_document {result : Result} (valid : validateResult result = .ok ())
    (unicode : ∀ text ∈ result.texts, IsText text) {exitBytes fingerprint : List UInt8}
    {exitCode : String} (exitWrites : Writes exitBytes (.raw exitCode))
    (exitRead : ∀ root : JsonValue, root.get? "exit_code" = some (.raw exitCode) →
      readExitCode root = .ok result.exitCode)
    (computed : finalizeFingerprint result = .ok fingerprint) (isText : IsText fingerprint) :
    Denotes (documentBytes (documentMembers result exitBytes fingerprint))
        (.obj (documentValues result exitCode fingerprint)) ∧
      parseResult (documentBytes (documentMembers result exitBytes fingerprint)) = .ok result := by
  have written := written_documentMembers unicode exitWrites isText
  have denotes := documentBytes_denotes written (List.cons_ne_nil _ _)
  refine ⟨denotes, ?_⟩
  rw [parseResult, read_eq_some.mpr denotes]
  dsimp only
  rw [readResult_values valid unicode isText exitRead, ok_bind]
  dsimp only
  rw [valid, ok_bind, computed, ok_bind, rejectIf, if_neg (not_not_intro rfl), ok_bind]
  rfl

/-- A valid result whose texts are UTF-8 is written as a document that is read back as it. -/
theorem parseResult_serializeResult {result : Result} (valid : validateResult result = .ok ())
    (unicode : ∀ text ∈ result.texts, IsText text) :
    ∃ bytes, serializeResult result = .ok bytes ∧ parseResult bytes = .ok result := by
  obtain ⟨fingerprint, computed, isText⟩ := finalizeFingerprint_ok valid
  refine ⟨_, by rw [serializeResult, valid, ok_bind, computed, ok_bind]; rfl, ?_⟩
  exact (parseResult_document valid unicode (writes_signedDecimal _)
    (fun _ found => readExitCode_value found) computed isText).2

/-- An accepted document is read literally, unless its exit code wraps. -/
theorem parseResult_literal {text : List UInt8} {root : JsonValue} {result : Result}
    (read : JsonText.read text = some root) (parsed : parseResult text = .ok result) :
    Literal root result ↔ ¬Wraps root := by
  rw [parseResult, read] at parsed
  simp only [bind_eq_ok] at parsed
  obtain ⟨⟨other, declared⟩, reads, rest⟩ := parsed
  simp only [rejectIf_eq_ok, pure_eq_ok] at rest
  obtain ⟨_, _, _, _, _, _, rfl⟩ := rest
  obtain ⟨others, exitCode⟩ := readResult_literal reads
  rw [← exitCode]
  exact ⟨fun literal => literal.exitCode, fun exact => ⟨others, exact⟩⟩

/-- Result documents round trip, and a document is read literally exactly when its exit code does
not wrap. -/
theorem resultDocument_exact (result : Result) (document : List UInt8) :
    (validateResult result = .ok () → (∀ text ∈ result.texts, IsText text) →
      ∃ bytes, serializeResult result = .ok bytes ∧ parseResult bytes = .ok result) ∧
    ∀ reading, parseResult document = .ok reading →
      ∃ root, (∀ value, Denotes document value ↔ value = root) ∧
        (Literal root reading ↔ ¬Wraps root) := by
  refine ⟨fun valid unicode => parseResult_serializeResult valid unicode, ?_⟩
  intro reading parsed
  cases found : JsonText.read document with
  | none =>
    rw [parseResult, found] at parsed
    cases parsed
  | some root =>
    refine ⟨root, fun value => ?_, parseResult_literal found parsed⟩
    rw [← read_eq_some, found, Option.some_inj, eq_comm]

/-- A sample with UTF-8 texts is written and read back, and read literally unless its exit code
wraps. -/
theorem resultDocument_exact_sample :
    ∃ bytes root, serializeResult decodedSample = .ok bytes ∧
      parseResult bytes = .ok decodedSample ∧ Denotes bytes root ∧
      (Literal root decodedSample ↔ ¬Wraps root) := by
  have ascii : ∀ text ∈ decodedSample.texts, ∀ byte ∈ text, byte < 0x80 := by decide
  obtain ⟨bytes, written, parsed⟩ := (resultDocument_exact decodedSample []).1 decodedSample_valid
    fun text member => isText_of_ascii (ascii text member)
  obtain ⟨root, denotes, literal⟩ :=
    (resultDocument_exact decodedSample bytes).2 decodedSample parsed
  exact ⟨bytes, root, written, parsed, (denotes root).mpr rfl, literal⟩

/-- The sample with a negative exit code. -/
def wrappedSample : Result := { decodedSample with exitCode := -1 }

/-- The fingerprint of the sample, which does not cover the exit code. -/
def wrappedFingerprint : List UInt8 :=
  utf8 "EDEDC9D9AB314FEBA99F4D49A4DC742723EAEE838B67979BEA681C140E6B0874"

/-- A document of the sample, with an exit code of 64 bits. -/
def wrappedDocument : List UInt8 :=
  documentBytes (documentMembers wrappedSample (utf8 "18446744073709551615") wrappedFingerprint)

/-- The document is accepted with the exit code -1, which is not the one it declares. -/
theorem wrappedDocument_parses :
    ∃ root, Denotes wrappedDocument root ∧ SaysInteger root "exit_code" (2 ^ 64 - 1) ∧
      parseResult wrappedDocument = .ok wrappedSample ∧ ¬Literal root wrappedSample := by
  have valid : validateResult wrappedSample = .ok () := decodedSample_valid
  have ascii : ∀ text ∈ wrappedSample.texts, ∀ byte ∈ text, byte < 0x80 := by decide +kernel
  have computed : finalizeFingerprint wrappedSample = .ok wrappedFingerprint := by decide +kernel
  have exitRead : ∀ root : JsonValue,
      root.get? "exit_code" = some (.raw "18446744073709551615") →
        readExitCode root = .ok wrappedSample.exitCode := by
    intro root found
    have value : node root "exit_code" = .raw "18446744073709551615" := by
      rw [node, found]
      rfl
    rw [readExitCode, value]
    decide +kernel
  have exitWrites : Writes (utf8 "18446744073709551615") (.raw "18446744073709551615") :=
    ⟨_, rfl, by rw [Spells]; decide +kernel⟩
  obtain ⟨denotes, parses⟩ := parseResult_document valid
    (fun text member => isText_of_ascii (ascii text member)) exitWrites exitRead computed
    ⟨_, rfl⟩
  have found := @get?_of_mem
    (documentValues wrappedSample "18446744073709551615" wrappedFingerprint) (by decide +kernel)
    ("exit_code", .raw "18446744073709551615") (@List.mem_of_getElem? _ _ 4 _ rfl)
  have exitCode : SaysInteger (.obj (documentValues wrappedSample "18446744073709551615"
      wrappedFingerprint)) "exit_code" (2 ^ 64 - 1) :=
    ⟨_, found, by decide +kernel⟩
  refine ⟨_, denotes, exitCode, parses, fun literal => ?_⟩
  exact (parseResult_literal (read_eq_some.mpr denotes) parses).mp literal
    ⟨_, exitCode, by decide, by decide⟩

end ProtocolAdapter.ProtocolLab
