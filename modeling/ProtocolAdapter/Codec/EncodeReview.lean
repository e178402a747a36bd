/-
This file shows that the final review never fails for the fields of a record: each is read
back as it was supplied. The search for the message of the record is the only part that can
fail, and it does exactly when the record lacks the shape of its message.
-/

import ProtocolAdapter.Codec.EncodeBinary
import ProtocolAdapter.Codec.Exclusive

namespace ProtocolAdapter.Codec

open Foundation Foundation.Operation Foundation.Bytes

section

variable {plan : PlanBundle} {messageIndex : Nat} {message : MessageExecutionPlan}
  {values : List EncodeFieldValue}

/-! ### Fields -/

/-- The raw value of a field is loaded from a buffer that starts with the record. -/
theorem loadWritten_eq (valid : BinaryValid plan.schemaVersion plan.conversions message)
    {size : Nat} (fits : lengthMatches message size = true) {data record : List UInt8}
    (start : data.take size = record) (room : size ≤ data.length) {index : Nat}
    {field : FieldExecutionPlan} (found : message.fields[index]? = some field)
    (type : field.valueType ≠ .bytes) :
    loadWritten message data field = some (some (rawValue message field record)) := by
  subst start
  unfold loadWritten rawValue
  cases valid.fields field (List.mem_of_getElem? found) with
  | member container real there memberValid =>
    have facts := valid.containers container (List.mem_of_getElem? there)
    have inside := facts.inside.trans (valid.storageLimit_le fits)
    rw [if_pos real, isMember, decide_eq_true real, if_pos rfl, there,
      List.getD_eq_getElem?_getD, there, Option.getD_some]
    simp only [loadUnsigned_eq facts.positive facts.bounded facts.order (inside.trans room),
      Option.bind_eq_bind, Option.bind_some, containerValue, slice_take inside]
    rfl
  | integer plain integerValid =>
    have notMember : isMember field = false := decide_eq_false (not_not.mpr plain)
    have inside := valid.integer_inside fits found notMember type
    rw [if_neg (not_not.mpr plain), notMember, if_neg (by simp), slice_take inside,
      loadUnsigned_eq integerValid.positive integerValid.bounded integerValid.order
        (inside.trans room)]
  | bytes _ bytesValid => exact absurd bytesValid.type type

/-- The raw value of a field stands for the value supplied. -/
theorem verifyRaw_eq (valid : BinaryValid plan.schemaVersion plan.conversions message)
    (version : isTextSchema plan.schemaVersion = false)
    (accepted : inputsFailure plan messageIndex message values = none)
    {workspace : ExecutionWorkspace} (supplied : Supplied plan message values workspace)
    {index : Nat} {field : FieldExecutionPlan} (found : message.fields[index]? = some field)
    (type : field.valueType ≠ .bytes) (stored : field.encodeSource ≠ .computed) :
    verifyRaw plan values workspace field (suppliedRaw plan message values index)
      (suppliedRaw plan message values index) = some .match := by
  unfold verifyRaw
  cases has : hasConversion field with
  | true =>
    have facts := convertedField valid found has
    obtain ⟨raw, run, -⟩ := supplied.raw index field found has
    have same : suppliedRaw plan message values index = raw := by
      unfold suppliedRaw
      simp only [suppliedRaw_eq found, has, if_true, run]
    obtain ⟨-, decoded, decodes, equal⟩ := decodeDecimal_of_encodeDecimal facts.valid
      facts.integer.positive facts.integer.bounded facts.rawType run
    obtain ⟨left, right, value⟩ := decimalEqual_iff.mp equal
    have symmetric : decimalEqual decoded (valueFor values index).decimal64Value = true :=
      decimalEqual_iff.mpr ⟨right, left, value.symm⟩
    simp only [if_true, facts.found, same, decodes, Option.bind_eq_bind, Option.bind_some,
      supplied.value_eq version found facts.source, symmetric, verificationOf]
  | false =>
    simp only [Bool.false_eq_true, if_false]
    by_cases signed : field.valueType = .int64
    swap
    · rw [if_neg signed, beq_self_eq_true]
      rfl
    rw [if_pos signed]
    have raw : suppliedRaw plan message values index =
        signedBits (if field.encodeSource = .constant then field.signedConstantValue
          else (valueFor values index).int64Value.toInt) field.width := by
      unfold suppliedRaw
      simp only [suppliedRaw_eq found, has, Bool.false_eq_true, if_false, constantRaw, signed,
        if_true]
      split <;> rfl
    by_cases constant : field.encodeSource = .constant
    · rw [if_pos constant] at raw
      have fits : fitsSignedWidth field.signedConstantValue field.width = true := by
        cases valid.fields field (List.mem_of_getElem? found) with
        | member _ _ _ memberValid =>
          rcases memberValid.type with other | other | other <;> rw [signed] at other <;>
            cases other
        | integer _ integerValid =>
          rcases integerValid.constant constant with ⟨other, -⟩ | ⟨-, fits⟩
          · rw [signed] at other
            cases other
          · exact fits
        | bytes _ bytesValid => exact absurd bytesValid.type type
      simp only [raw, constant, if_true, interpretSigned_signedBits fits, beq_self_eq_true,
        Option.bind_eq_bind, Option.bind_some, verificationOf]
    · rw [if_neg constant] at raw
      have source := input_of_not stored constant
      obtain ⟨-, passes⟩ := (valueAccepted valid version accepted found source).plain has
      rw [valueFailure, signed] at passes
      simp only [ite_eq_right_iff, reduceCtorEq, imp_false, Bool.not_eq_false] at passes
      simp only [raw, constant, if_false, supplied.value_eq version found source,
        interpretSigned_signedBits passes, beq_self_eq_true, Option.bind_eq_bind, Option.bind_some,
        verificationOf, if_true]

/-- The computed field of a record matches. -/
theorem verifyComputed_eq (valid : BinaryValid plan.schemaVersion plan.conversions message)
    {size : Nat} (fits : lengthMatches message size = true) {data : List UInt8}
    (room : size ≤ data.length) (states : statesLength message data size = true) {index : Nat}
    {field : FieldExecutionPlan} (found : message.fields[index]? = some field)
    (computes : field.encodeSource = .computed) :
    verifyComputed message data size index field = some true := by
  obtain ⟨computed, has, same⟩ := valid.computedField index field found computes
  obtain ⟨other, listed, -, -, offset, width, order, -⟩ := valid.lengthField has
  rw [same] at listed
  obtain rfl := Option.some.inj (found.symm.trans listed)
  have facts := valid.length_valid has
  have inside := facts.inside.trans (valid.storageLimit_le fits)
  rw [statesLength, has] at states
  simp only [beq_iff_eq] at states
  unfold verifyComputed
  simp only [has, same, ne_eq, not_true_eq_false, if_false, offset, width, order,
    loadUnsigned_eq facts.positive facts.bounded facts.order (inside.trans room), states,
    lengthBytes, loadValue_storedBytes _ (valid.actualLength_lt fits has), Option.bind_eq_bind,
    Option.bind_some]
  cases payload : message.boundedPayload with
  | none => simp [actualLength, payload]
  | some bounded => simp [valid.resolvePayloadLength_eq fits]

/-- Every field of the record matches. -/
theorem verifyField_eq (valid : BinaryValid plan.schemaVersion plan.conversions message)
    (version : isTextSchema plan.schemaVersion = false)
    (accepted : inputsFailure plan messageIndex message values = none)
    {workspace : ExecutionWorkspace} (supplied : Supplied plan message values workspace)
    {data : List UInt8} (room : recordSize message values ≤ data.length)
    (record : data.take (recordSize message values) =
      recordOf message (suppliedContents plan message values) (recordSize message values))
    {index : Nat} {field : FieldExecutionPlan} (found : message.fields[index]? = some field) :
    verifyField plan message values workspace data (recordSize message values) index field =
      some .match := by
  have fits := recordSize_fits valid version accepted
  have fit := suppliedContents_fit valid version accepted
  unfold verifyField
  by_cases computed : field.encodeSource = .computed
  · have states : statesLength message data (recordSize message values) = true := by
      rw [← valid.statesLength_take fits, record]
      exact valid.recordOf_statesLength fits fit
    rw [if_pos computed, verifyComputed_eq valid fits room states found computed]
    rfl
  rw [if_neg computed]
  by_cases type : field.valueType = .bytes
  · obtain ⟨plain, source⟩ : isMember field = false ∧ field.encodeSource = .input := by
      cases valid.fields field (List.mem_of_getElem? found) with
      | member _ _ _ memberValid =>
        rcases memberValid.type with other | other | other <;> rw [type] at other <;> cases other
      | integer _ integerValid =>
        rcases integerValid.type with other | other | ⟨other, -⟩ <;> rw [type] at other <;>
          cases other
      | bytes plain bytesValid => exact ⟨decide_eq_false (not_not.mpr plain), bytesValid.source⟩
    have length : (valueFor values index).bytesValue.size =
        byteLength message index field (recordSize message values) :=
      fit.bytes index field found type
    have inside := valid.bytes_inside fits found plain
    have bytes := valid.recordOf_bytes fits fit found type
    rw [← record, slice_take inside] at bytes
    simp only [if_pos type, supplied.value_eq version found source, length,
      readBytes_eq (inside.trans room), bytes, Option.bind_eq_bind, Option.bind_some,
      suppliedContents, beq_self_eq_true, verificationOf, if_true]
  · have raw := valid.recordOf_raw fits fit found type computed
    simp only [if_neg type,
      getEncodeRawValue_eq valid version accepted supplied found type computed,
      loadWritten_eq valid fits record room found type, raw, Option.bind_eq_bind, Option.bind_some]
    exact verifyRaw_eq valid version accepted supplied found type computed

/-! ### The search -/

/-- In a package without text messages, a record of a message is found exactly when it has
the shape of the message. -/
theorem search_iff (valid : PlanValid plan) (version : isTextSchema plan.schemaVersion = false)
    {pipelineIndex : Nat} {pipeline : PipelineExecutionPlan}
    (compiled : plan.pipelineExecutionPlans[pipelineIndex]? = some pipeline)
    (listed : plan.messageExecutionPlans[messageIndex]? = some message)
    (allowed : messageIsAllowed pipeline messageIndex = some true) (record : List UInt8) :
    ∃ outcome, findPipelineMatch pipeline plan.messageExecutionPlans record = some outcome ∧
      ((outcome.matchCount ≠ 1 ∨ outcome.messageIndex ≠ messageIndex) ↔
        ¬hasShape message record = true) := by
  obtain ⟨indices, indexed⟩ := valid.pipelines pipelineIndex pipeline compiled
  obtain ⟨found, run, perm⟩ := findPipelineMatch_eq valid indexed record
  have binary : ∀ (index : Nat) other, plan.messageExecutionPlans[index]? = some other →
      other.textDecode = none ∧ other.textEncode = none := by
    intro index other there
    cases valid.messages other (List.mem_of_getElem? there) with
    | binary binaryValid => exact ⟨binaryValid.noDecode, binaryValid.noEncode⟩
    | text textValid =>
      rw [textValid.schema] at version
      cases version
  have member : ∀ index, index ∈ found ↔ index ∈ indices ∧ ∃ other,
      plan.messageExecutionPlans[index]? = some other ∧ hasShape other record = true := by
    intro index
    rw [perm.mem_iff, matchingMessages, mem_having]
    refine and_congr_right fun _ => exists_congr fun other => and_congr_right fun there => ?_
    obtain ⟨noDecode, noEncode⟩ := binary index other there
    simp [isDecodable, matchesRecord, noDecode, noEncode]
  have mine : messageIndex ∈ indices := by
    have inside := (List.getElem?_eq_some_iff.mp listed).1
    rw [indexed.allowed messageIndex inside] at allowed
    simpa using allowed
  refine ⟨outcomeOf found, run, ?_⟩
  rw [← not_and_or, not_iff_not]
  constructor
  · rintro ⟨one, same⟩
    obtain ⟨only, rfl⟩ := List.length_eq_one_iff.mp one
    obtain rfl : only = messageIndex := same
    obtain ⟨-, other, there, shape⟩ := (member only).mp List.mem_cons_self
    exact Option.some.inj (listed.symm.trans there) ▸ shape
  · intro shape
    have here := (member messageIndex).mpr ⟨mine, message, listed, shape⟩
    have single : found.length ≤ 1 := by
      refine length_le_one (perm.nodup_iff.mpr (indexed.distinct.filter _)) ?_
      intro left leftMember right rightMember
      obtain ⟨leftIn, leftMessage, leftFound, leftShape⟩ := (member left).mp leftMember
      obtain ⟨rightIn, rightMessage, rightFound, rightShape⟩ := (member right).mp rightMember
      exact indexed.unique leftIn rightIn leftFound rightFound (binary _ _ leftFound).1
        (binary _ _ rightFound).1 leftShape rightShape
    have positive := List.length_pos_of_mem here
    obtain ⟨only, rfl⟩ := List.length_eq_one_iff.mp (show found.length = 1 by omega)
    exact ⟨rfl, (List.mem_singleton.mp here).symm⟩

/-! ### The outcome -/

/-- What a call leaves with its caller: the result, and the buffer. -/
structure EncodeReply where
  result : EncodeResult
  output : List UInt8

/-- The reply for accepted values and memory: the record is laid over the buffer, and its
length is published when the record has the shape of its message. -/
def recordReply (plan : PlanBundle) (message : MessageExecutionPlan)
    (values : List EncodeFieldValue) (output : List UInt8) : EncodeReply :=
  let size := recordSize message values
  let record := recordOf message (suppliedContents plan message values) size
  { result :=
      if hasShape message record then
        { status := .ok, bytesWritten := size, requiredSize := size }
      else { status := .finalReviewFailed, requiredSize := size }
    output := record ++ output.drop size }

/-- A state of the encoder that gives a reply. -/
structure Answers (plan : PlanBundle) (reply : EncodeReply) (state : EncodeState) : Prop where
  result : state.result = reply.result
  output : state.output = reply.output
  shaped : state.workspace.EncodesFor plan

/-- The review passes exactly when the record has the shape of its message. -/
theorem finalReview_ends (valid : PlanValid plan)
    (version : isTextSchema plan.schemaVersion = false) {pipelineIndex : Nat}
    {pipeline : PipelineExecutionPlan}
    (compiled : plan.pipelineExecutionPlans[pipelineIndex]? = some pipeline)
    (listed : plan.messageExecutionPlans[messageIndex]? = some message)
    (allowed : messageIsAllowed pipeline messageIndex = some true)
    (binary : BinaryValid plan.schemaVersion plan.conversions message)
    (accepted : inputsFailure plan messageIndex message values = none) {start state : EncodeState}
    (room : recordSize message values ≤ start.output.length)
    (fresh : start.result = { requiredSize := recordSize message values })
    (laid : Laid plan message values start state) :
    Ends (fun _ => Answers plan (recordReply plan message values start.output))
      (Answers plan (recordReply plan message values start.output))
      ((do
        finalReview plan pipeline messageIndex message values (recordSize message values)
        publishRecord (recordSize message values) : Encoding Unit) state) := by
  have fits := recordSize_fits binary version accepted
  have fit := suppliedContents_fit binary version accepted
  have record := laid.take binary version accepted room
  have reach : recordSize message values ≤ state.output.length := by
    rw [laid.output, layRecord_length]
    exact room
  have written : state.output =
      recordOf message (suppliedContents plan message values) (recordSize message values) ++
        start.output.drop (recordSize message values) := by
    rw [laid.output, binary.layRecord_eq fits fit room]
  have states : statesLength message state.output (recordSize message values) = true := by
    rw [← binary.statesLength_take fits, record]
    exact binary.recordOf_statesLength fits fit
  obtain ⟨outcome, run, finds⟩ := search_iff valid version compiled listed allowed
    (recordOf message (suppliedContents plan message values) (recordSize message values))
  have review : Ends (fun _ after => hasShape message (recordOf message
        (suppliedContents plan message values) (recordSize message values)) = true ∧ after = state)
      (Answers plan (recordReply plan message values start.output))
      (finalReview plan pipeline messageIndex message values
        (recordSize message values) state) := by
    unfold finalReview
    rw [current_bind, access_bind (binary.computedLengthMatches_eq fits reach), states,
      leaveIf_bind_neg (by simp), record, access_bind run]
    refine .leaveIf (fun wrong => ?_) fun right => ?_
    · refine ⟨?_, written, laid.supplied.shaped⟩
      rw [recordReply, EncodeState.fail]
      simp only
      rw [if_neg (finds.mp wrong), laid.result, fresh]
    · have shape := not_not.mp fun lacks => right (finds.mpr lacks)
      refine @Ends.forM_zipIdx _ _ _ _ _ (fun _ after => hasShape message (recordOf message
        (suppliedContents plan message values) (recordSize message values)) = true ∧
          after = state) _ ⟨shape, rfl⟩ ?_
      rintro index field state found ⟨shape, rfl⟩
      unfold reviewField
      simp only
      rw [current_bind, access_bind (verifyField_eq binary version accepted laid.supplied reach
        record found), leaveIf_bind_neg (by simp), leaveIf_neg (by simp)]
      exact .done ⟨shape, rfl⟩
  refine .bind review ?_
  rintro _ state ⟨shape, rfl⟩
  rw [publishRecord, update_apply]
  refine .done ⟨?_, written, laid.supplied.shaped⟩
  rw [recordReply]
  simp only
  rw [if_pos shape, laid.result, fresh]

/-! ### Binary messages -/

/-- The length of the record follows the payload supplied. -/
theorem actualFrameSize_ends {returned : EncodeState → Prop}
    (valid : BinaryValid plan.schemaVersion plan.conversions message)
    (version : isTextSchema plan.schemaVersion = false)
    (covers : LayoutCovers plan.executionResourceLayout message) {start state : EncodeState}
    (reached : Accepted plan messageIndex message values start state) :
    Ends (fun size after => size = recordSize message values ∧
        after.result = { requiredSize := recordSize message values } ∧
          after.output = state.output ∧ after.workspace = state.workspace) returned
      (actualFrameSize message values state) := by
  have fits := recordSize_fits valid version reached.accepted
  unfold actualFrameSize recordSize
  unfold lengthMatches recordSize at fits
  cases has : message.boundedPayload with
  | none => exact .done ⟨rfl, reached.result, rfl, rfl⟩
  | some bounded =>
    obtain ⟨field, found, plain, type, -⟩ := (valid.payload bounded has).field
    have source : field.encodeSource = .input := by
      cases valid.fields field (List.mem_of_getElem? found) with
      | member _ real _ _ => exact absurd plain real
      | integer _ integerValid =>
        rcases integerValid.type with other | other | ⟨other, -⟩ <;> rw [type] at other <;>
          cases other
      | bytes _ bytesValid => exact bytesValid.source
    have takes : takesInput plan field = true := by
      rw [takesInput_binary version]
      exact beq_iff_eq.mpr source
    have slot : field.inputOrdinal < state.workspace.encodeValueIndices.length := by
      have ordinal := (Encodable.binary version valid).inputs.ordinal_lt found takes
      have indices : state.workspace.encodeValueIndices.length = _ :=
        reached.supplied.shaped.encodeValueIndices
      have room := covers.inputs
      omega
    simp only [has, Bool.not_eq_true', Bool.or_eq_false_iff, decide_eq_false_iff_not,
      not_lt] at fits
    simp only [found]
    rw [current_bind, leaveIf_bind_neg (by omega),
      access_bind (reached.supplied.value_eq version found source), leaveIf_bind_neg (by omega)]
    refine .done ⟨rfl, ?_, rfl, rfl⟩
    simp only [reached.result]

/-- The reply for accepted values. -/
def binaryReply (plan : PlanBundle) (message : MessageExecutionPlan) (values : EncodeValues)
    (output : MutableByteBuffer) : EncodeReply :=
  match binaryMemoryFailure values output (recordSize message values.values) with
  | some failure => ⟨failure, output.contents⟩
  | none => recordReply plan message values.values output.contents

/-- The encoder gives this reply for a binary message. -/
theorem encodeBinary_ends (valid : PlanValid plan)
    (version : isTextSchema plan.schemaVersion = false) {pipelineIndex : Nat}
    {pipeline : PipelineExecutionPlan}
    (compiled : plan.pipelineExecutionPlans[pipelineIndex]? = some pipeline)
    (listed : plan.messageExecutionPlans[messageIndex]? = some message)
    (allowed : messageIsAllowed pipeline messageIndex = some true)
    (binary : BinaryValid plan.schemaVersion plan.conversions message) {values : EncodeValues}
    {output : MutableByteBuffer} {start state : EncodeState}
    (contents : start.output = output.contents)
    (reached : Accepted plan messageIndex message values.values start state) :
    Ends (fun _ => Answers plan (binaryReply plan message values output))
      (Answers plan (binaryReply plan message values output))
      (encodeBinary plan pipeline messageIndex message values output state) := by
  have covers := valid.covers message (List.mem_of_getElem? listed)
  unfold encodeBinary
  refine .bind (actualFrameSize_ends binary version covers reached) ?_
  rintro _ sized ⟨rfl, fresh, kept, workspace⟩
  have supplied : Supplied plan message values.values sized.workspace :=
    workspace.symm ▸ reached.supplied
  have same : sized.output = output.contents := (kept.trans reached.output).trans contents
  have refuses : ∀ last, Reported (binaryMemoryFailure values output
      (recordSize message values.values)) sized last →
        Answers plan (binaryReply plan message values output) last := by
    rintro last ⟨result, written, kept⟩
    unfold binaryReply
    rw [result]
    exact ⟨rfl, written.trans same, kept.symm ▸ supplied.shaped⟩
  refine .bind ((checkBuffer_ends fresh).mono (fun _ _ holds => holds) refuses) ?_
  rintro _ sized ⟨⟨present, capacity⟩, rfl⟩
  refine .bind ((checkAliases_ends (fun _ _ => rfl) fresh present capacity).mono
    (fun _ _ holds => holds) refuses) ?_
  rintro _ sized ⟨memory, rfl⟩
  have room : recordSize message values.values ≤ sized.output.length := by
    rw [same]
    exact memoryFailure_room memory
  have reply : binaryReply plan message values output =
      recordReply plan message values.values sized.output := by
    unfold binaryReply binaryMemoryFailure
    rw [memory, same]
  rw [leaveIf_bind_neg (by simp [binary.lengthValid]), reply]
  refine .bind (writeFixedBytes_ends binary supplied ((binary.storageLimit_le
    (recordSize_fits binary version reached.accepted)).trans room)) fun _ _ writing => ?_
  refine .bind (writeFields_ends binary version covers reached.accepted room writing)
    fun _ _ writing => ?_
  refine .bind (writeComputedLength_ends binary version reached.accepted room writing) ?_
  rintro _ filled ⟨output, result, supplied⟩
  refine .bind (writeIntegrity_ends binary version reached.accepted room output result supplied)
    fun _ _ laid => ?_
  exact finalReview_ends valid version compiled listed allowed binary reached.accepted room fresh
    laid

end

end ProtocolAdapter.Codec
