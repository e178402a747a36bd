/-
This file proves that what a compiled protocol tells about the messages of a pipeline is what
its codec does: which of them a decode can name, which of them can be encoded, and how long
their records are.
-/

import ProtocolAdapter.Codec.TextRecord
import ProtocolAdapter.ConfigCompiler.TextMessages
import ProtocolAdapter.PublicApi.Execution

namespace ProtocolAdapter.PublicApi

open Foundation Description ConfigCompiler

open Codec hiding CodecStatus ConversionError EncodeResult DecodeResult

/-! ### Candidates -/

theorem groupOf_of_mem {group : CandidateGroupExecutionPlan} :
    ∀ {groups : List CandidateGroupExecutionPlan}, GroupsSorted groups → group ∈ groups →
      groupOf groups group.frameSize = group.messageIndices
  | head :: rest, sorted, member => by
    obtain ⟨first, later⟩ := List.pairwise_cons.mp sorted
    rw [groupOf_cons]
    rcases List.mem_cons.mp member with rfl | among
    · exact if_pos rfl
    · rw [if_neg (first group among).ne]
      exact groupOf_of_mem later among

theorem mem_of_groupOf {groups : List CandidateGroupExecutionPlan} {frameSize messageIndex : Nat}
    (listed : messageIndex ∈ groupOf groups frameSize) :
    ∃ group ∈ groups, messageIndex ∈ group.messageIndices := by
  unfold groupOf at listed
  cases found : groups.find? (·.frameSize = frameSize) with
  | none =>
    rw [found] at listed
    cases listed
  | some group =>
    rw [found] at listed
    exact ⟨group, List.mem_of_find?_eq_some found, listed⟩

section

variable {messages : List MessageExecutionPlan} {indices : List Nat}
  {pipeline : PipelineExecutionPlan} {messageIndex : Nat}

/-- The candidates of a pipeline are those of its messages that can be decoded. -/
theorem isDecodeCandidate_iff (indexed : Indexed messages indices pipeline) :
    isDecodeCandidate pipeline messageIndex = true ↔
      messageIndex ∈ indices ∧
        ∃ message, messages[messageIndex]? = some message ∧ isDecodable message = true := by
  have grouped : (pipeline.candidateGroups.any
      fun group => group.messageIndices.contains messageIndex) = true ↔
        ∃ frameSize, messageIndex ∈ groupOf pipeline.candidateGroups frameSize := by
    simp only [List.any_eq_true, List.contains_iff_mem]
    constructor
    · rintro ⟨group, member, listed⟩
      exact ⟨group.frameSize, (groupOf_of_mem indexed.sorted member).symm ▸ listed⟩
    · rintro ⟨frameSize, listed⟩
      exact mem_of_groupOf listed
  unfold isDecodeCandidate
  simp only [Bool.or_eq_true, grouped, indexed.groups, indexed.bounded, indexed.text,
    List.contains_iff_mem, mem_having]
  constructor
  · rintro ((⟨frameSize, listed, message, found, fixed⟩ | ⟨listed, message, found, bounded⟩) |
      ⟨listed, message, found, text⟩)
    · simp only [isFixedCandidate, Bool.and_eq_true] at fixed
      exact ⟨listed, message, found, by simp [isDecodable, fixed.1.1.2]⟩
    · simp only [isVariableCandidate, Bool.and_eq_true] at bounded
      exact ⟨listed, message, found, by simp [isDecodable, bounded.1.2]⟩
    · exact ⟨listed, message, found, Bool.or_eq_true_iff.mpr (.inl text)⟩
  · rintro ⟨listed, message, found, decodable⟩
    cases decode : message.textDecode with
    | some action => exact .inr ⟨listed, message, found, by simp [isTextCandidate, decode]⟩
    | none =>
      simp only [isDecodable, decode, Option.isSome_none, Bool.false_or] at decodable
      cases payload : message.boundedPayload with
      | some bounded =>
        exact .inl (.inr ⟨listed, message, found, by
          simp [isVariableCandidate, decode, decodable, payload]⟩)
      | none =>
        exact .inl (.inl ⟨message.frameSize, listed, message, found, by
          simp [isFixedCandidate, decode, decodable, payload]⟩)

theorem isAllowedMessage_iff (indexed : Indexed messages indices pipeline)
    (inside : messageIndex < messages.length) :
    isAllowedMessage pipeline messageIndex = true ↔ messageIndex ∈ indices := by
  have allowed := indexed.allowed messageIndex inside
  have within : messageIndex / bitsPerAllowedMessageWord < pipeline.allowedMessageWords.length := by
    rw [indexed.words]
    exact word_within inside
  rw [messageIsAllowed_eq within, List.getD_eq_getElem _ _ within, Option.some.injEq] at allowed
  have word : pipeline.allowedMessageWords[messageIndex / 64]? = _ :=
    List.getElem?_eq_getElem within
  simp only [isAllowedMessage, word]
  exact ⟨fun set => of_decide_eq_true (allowed.symm.trans set),
    fun listed => allowed.trans (decide_eq_true listed)⟩

end

section

variable {plan : PlanBundle} {pipelineIndex messageIndex : Nat} {message : MessageExecutionPlan}
  {values : Codec.EncodeValues} {output : MutableByteBuffer}

@[simp] theorem messageReply_messageIndex {input : ByteView} {fieldSlots : FieldSlots} :
    (messageReply plan messageIndex message input fieldSlots).result.messageIndex =
      messageIndex := by
  unfold messageReply
  dsimp only
  split
  · rfl
  split <;> rfl

/-- A decode names a candidate of its pipeline or no message. -/
theorem decodeReply_candidate (valid : PlanValid plan) {input : ByteView} {fieldSlots : FieldSlots}
    (named : (decodeReply plan pipelineIndex input fieldSlots).result.messageIndex ≠ invalidIndex) :
    ∃ pipeline, plan.pipelineExecutionPlans[pipelineIndex]? = some pipeline ∧
      isDecodeCandidate pipeline
        (decodeReply plan pipelineIndex input fieldSlots).result.messageIndex = true := by
  unfold decodeReply at named ⊢
  split at named
  · exact absurd rfl named
  rename_i present
  simp only [if_neg present]
  split at named
  · exact absurd rfl named
  rename_i pipeline compiled
  refine ⟨pipeline, compiled, ?_⟩
  split at named
  · exact absurd rfl named
  rename_i supported
  simp only [if_neg supported]
  obtain ⟨indices, indexed⟩ := valid.pipelines pipelineIndex pipeline compiled
  obtain ⟨found, run, perm⟩ := findPipelineMatch_eq valid indexed input.bytes
  unfold pipelineReply matchReply at named ⊢
  simp only [run] at named ⊢
  split at named
  · exact absurd rfl named
  rename_i nonempty
  rw [if_neg nonempty]
  split at named
  · exact absurd rfl named
  rename_i single
  rw [if_neg single]
  obtain ⟨index, rfl⟩ := List.length_eq_one_iff.mp (not_not.mp single)
  obtain ⟨listed, message, placed, holds⟩ := mem_having.mp (perm.mem_iff.mp List.mem_cons_self)
  rw [Bool.and_eq_true] at holds
  simp only [outcomeOf, List.headD_cons, placed, messageReply_messageIndex]
  exact (isDecodeCandidate_iff indexed).mpr ⟨listed, message, placed, holds.1⟩

/-- The status of a call that reaches its message. -/
theorem encodeMessageReply_supported
    (supported : ¬(isTextSchema plan.schemaVersion = true ∧ message.textEncode = none)) :
    (encodeMessageReply plan messageIndex message values output).result.status ∉
      [.messageNotAllowed, .operationNotSupported] := by
  have apart : ∀ {status}, status ∈ valueStatuses →
      status ∉ [Codec.CodecStatus.messageNotAllowed, .operationNotSupported] := by
    intro status member
    simp only [valueStatuses, List.mem_cons, List.not_mem_nil, or_false] at member
    rcases member with rfl | rfl | rfl | rfl | rfl | rfl | rfl | rfl | rfl | rfl | rfl | rfl |
      rfl | rfl <;> decide
  have memory : ∀ {size relevant name failure}, NamesOnly name →
      memoryFailure values output size relevant name = some failure →
        failure.status ∉ [Codec.CodecStatus.messageNotAllowed, .operationNotSupported] := by
    intro size relevant name failure names refused
    obtain ⟨-, -, ⟨status, -⟩ | status | status⟩ := memoryFailure_reports names refused <;>
      simp [status]
  unfold encodeMessageReply
  rw [if_neg supported]
  split
  · rename_i failure refused
    exact apart (inputsFailure_status refused).1
  split
  · rename_i action has
    unfold textReply
    split
    · rename_i failure sized
      exact apart (textSize_status sized).1
    split
    · simp
    split
    · rename_i failure refused
      exact memory nameValue_namesOnly refused
    · dsimp only
      split <;> simp
  · unfold binaryReply
    split
    · rename_i failure refused
      exact memory nameValueField_namesOnly refused
    · unfold recordReply
      dsimp only
      split <;> simp

end

/-! ### Sizes -/

/-- A record of a size is within what is told about the records of its message. -/
structure OutputAdmits (message : MessageExecutionPlan) (size : Nat) : Prop where
  available : (encodeOutput message).1 = true
  most : size ≤ (encodeOutput message).2.1
  exact : (encodeOutput message).2.2 = .exact → size = (encodeOutput message).2.1

theorem outputAdmits_text {message : MessageExecutionPlan} {action : TextActionExecutionPlan}
    (has : message.textEncode = some action) {size : Nat} (least : action.minRecordLength ≤ size)
    (most : size ≤ action.maxRecordLength) : OutputAdmits message size := by
  have told : encodeOutput message = (true, action.maxRecordLength,
      if action.minRecordLength = action.maxRecordLength then .exact else .upperBound) := by
    simp [encodeOutput, has]
  constructor <;> rw [told]
  · exact most
  · intro single
    split at single
    · rename_i same
      exact le_antisymm most (same ▸ least)
    · cases single

theorem outputAdmits_binary {schemaVersion : String}
    {conversions : List LinearConversionDescriptor} {message : MessageExecutionPlan}
    (binary : BinaryValid schemaVersion conversions message) {size : Nat}
    (fits : lengthMatches message size = true) : OutputAdmits message size := by
  cases payload : message.boundedPayload with
  | none =>
    have told : encodeOutput message = (true, message.frameSize, .exact) := by
      simp [encodeOutput, binary.noDecode, binary.noEncode, payload]
    have same := size_fixed fits payload
    constructor <;> rw [told]
    · exact same.le
    · exact fun _ => same
  | some bounded =>
    have told : encodeOutput message = (true, bounded.maxFrameLength,
        if bounded.minFrameLength = bounded.maxFrameLength then .exact else .upperBound) := by
      simp [encodeOutput, binary.noDecode, binary.noEncode, payload]
    obtain ⟨-, -, -, least, most⟩ := binary.size_bounded fits payload
    constructor <;> rw [told]
    · exact most
    · intro single
      split at single
      · rename_i same
        exact le_antisymm most (same ▸ least)
      · cases single

section

variable {plan : PlanBundle} {messageIndex : Nat} {message : MessageExecutionPlan}

/-- Every call refuses its values, or writes a record of an admitted size when the memory
allows it. -/
theorem encodeReply_sized (valid : PlanValid plan) (counted : PlanCounted plan)
    (found : plan.messageExecutionPlans[messageIndex]? = some message) (pipelineIndex : Nat)
    (values : Codec.EncodeValues) :
    (∃ failure, RefusesValues (encodeReply plan pipelineIndex messageIndex values) failure) ∨
      ∃ record passes relevant name, NamesOnly name ∧ OutputAdmits message record.length ∧
        WritesRecord values (encodeReply plan pipelineIndex messageIndex values) record passes
          relevant name := by
  have member := List.mem_of_getElem? found
  rcases @encodeReply_reaches plan pipelineIndex messageIndex values with
    refused | ⟨other, listed, accepted, supported, same⟩
  · exact .inl refused
  obtain rfl := Option.some.inj (found.symm.trans listed)
  cases encodable_of_valid (valid.messages message member) supported with
  | text action has text =>
    rcases @encodeReply_text plan pipelineIndex messageIndex message values valid counted found
      action has with refused | ⟨taken, terminated, writes⟩
    · exact .inl refused
    · have actionValid := (text.encode action has).1
      obtain ⟨least, most, -⟩ := textReply_terminated actionValid taken terminated
        (counted message member action (.inr has)) text.frameBound rfl {}
      exact .inr ⟨_, _, _, _, nameValue_namesOnly, outputAdmits_text has least most, writes⟩
  | binary version binary =>
    simp only [binary.noEncode] at same
    have size := @recordOf_length message (suppliedContents plan message values.values)
      (recordSize message values.values)
    refine .inr ⟨recordOf message (suppliedContents plan message values.values)
      (recordSize message values.values), hasShape message (recordOf message
        (suppliedContents plan message values.values) (recordSize message values.values)),
      (·.valueKind == .bytes), nameValueField, nameValueField_namesOnly, ?_, fun output => ?_⟩
    · rw [size]
      exact outputAdmits_binary binary (recordSize_fits binary version accepted)
    · rw [same, size]
      rfl

/-- A record that was written has an admitted size, and a buffer that is too small is smaller
than an admitted size. -/
theorem encodeReply_admitted_size (valid : PlanValid plan) (counted : PlanCounted plan)
    (found : plan.messageExecutionPlans[messageIndex]? = some message) (pipelineIndex : Nat)
    (values : Codec.EncodeValues) (output : Codec.MutableByteBuffer) :
    let reply := encodeReply plan pipelineIndex messageIndex values output
    (reply.result.status = .ok → OutputAdmits message reply.result.bytesWritten) ∧
      (reply.result.status = .bufferTooSmall → ∃ size, OutputAdmits message size ∧
        output.capacity < size) := by
  dsimp only
  rcases encodeReply_sized valid counted found pipelineIndex values with
    ⟨failure, refused⟩ | ⟨record, passes, relevant, name, names, admits, writes⟩
  · have listed := refused.status
    rw [refused.same]
    refine ⟨fun ok => ?_, fun small => ?_⟩
    · simp only at ok
      rw [ok] at listed
      simp [callStatuses, valueStatuses] at listed
    · simp only at small
      rw [small] at listed
      simp [callStatuses, valueStatuses] at listed
  rw [writes]
  cases memory : memoryFailure values output record.length relevant name with
  | some failure =>
    obtain ⟨-, -, ⟨status, short⟩ | status | status⟩ := memoryFailure_reports names memory
    · exact ⟨by simp [status], fun _ => ⟨_, admits, short⟩⟩
    · exact ⟨by simp [status], by simp [status]⟩
    · exact ⟨by simp [status], by simp [status]⟩
  | none =>
    refine ⟨?_, ?_⟩
    · cases passes <;> simp [reviewedResult, admits]
    · cases passes <;> simp [reviewedResult]

end

/-! ### The query -/

/-- What is told about a message of a pipeline. -/
def describeExecution (pipelineIndex messageIndex : Nat) (execution : PipelineExecutionPlan)
    (message : MessageExecutionPlan) : MessageExecutionDescription where
  pipelineIndex := pipelineIndex
  messageIndex := messageIndex
  decodeAvailable := isDecodeCandidate execution messageIndex
  encodeAvailable := (encodeOutput message).1
  encodeOutputSize := (encodeOutput message).2.1
  encodeOutputSizeKind := (encodeOutput message).2.2

/-- A message of a pipeline, in the tables the codec uses. -/
structure Associated (state : CompiledProtocolArtifacts) (pipelineIndex messageIndex : Nat)
    (execution : PipelineExecutionPlan) (message : MessageExecutionPlan) : Prop where
  compiled : state.plan.pipelineExecutionPlans[pipelineIndex]? = some execution
  found : state.plan.messageExecutionPlans[messageIndex]? = some message
  allowed : messageIsAllowed execution messageIndex = some true
  described : pipelineMessageExecution state pipelineIndex messageIndex =
    some (describeExecution pipelineIndex messageIndex execution message)

section

variable {target : TargetLayout} {draft : PlanDraftData} {state : CompiledProtocolArtifacts}
  {pipelineIndex messageIndex : Nat} {pipeline : FrozenPipelinePlan}

/-- The query describes the messages of a pipeline. -/
theorem associated_of_mem (frozen : FrozenFrom target draft state.plan)
    (found : state.plan.pipelines[pipelineIndex]? = some pipeline)
    (listed : messageIndex ∈ pipeline.messageIndices) :
    ∃ execution message, Associated state pipelineIndex messageIndex execution message := by
  obtain ⟨execution, -, compiled, -⟩ := frozen.pipelinePrepared found
  obtain ⟨other, same, indexed⟩ := indexed_of_frozen frozen compiled
  obtain rfl := Option.some.inj (found.symm.trans same)
  have inside := indexed.real messageIndex listed
  have message := List.getElem?_eq_getElem inside
  refine ⟨execution, _, compiled, message, ?_, ?_⟩
  · rw [indexed.allowed messageIndex inside, decide_eq_true listed]
  · simp only [pipelineMessageExecution, found, compiled, message, Option.bind_eq_bind,
      Option.bind_some]
    rw [if_neg]
    · rfl
    · rw [not_or, Bool.not_eq_false, Bool.not_eq_false, List.contains_iff_mem]
      exact ⟨listed, (isAllowedMessage_iff indexed inside).mpr listed⟩

/-- The query has no answer about other messages, and the codec does not allow them. -/
theorem not_associated (frozen : FrozenFrom target draft state.plan)
    (found : state.plan.pipelines[pipelineIndex]? = some pipeline)
    (foreign : messageIndex ∉ pipeline.messageIndices) :
    pipelineMessageExecution state pipelineIndex messageIndex = none ∧
      ∃ execution, state.plan.pipelineExecutionPlans[pipelineIndex]? = some execution ∧
        ∀ message, state.plan.messageExecutionPlans[messageIndex]? = some message →
          messageIsAllowed execution messageIndex = some false := by
  obtain ⟨execution, -, compiled, -⟩ := frozen.pipelinePrepared found
  obtain ⟨other, same, indexed⟩ := indexed_of_frozen frozen compiled
  obtain rfl := Option.some.inj (found.symm.trans same)
  constructor
  · have apart : pipeline.messageIndices.contains messageIndex = false := by
      rw [← Bool.not_eq_true, List.contains_iff_mem]
      exact foreign
    simp only [pipelineMessageExecution, found, compiled, Option.bind_eq_bind, Option.bind_some]
    cases state.plan.messageExecutionPlans[messageIndex]? with
    | none => rfl
    | some message => exact if_pos (.inl apart)
  · refine ⟨execution, compiled, fun message listed => ?_⟩
    rw [indexed.allowed messageIndex (List.getElem?_eq_some_iff.mp listed).1,
      decide_eq_false foreign]

end

/-! ### Calls without values -/

section

variable {environment : Environment} {document : JsonValue} {parsed : SchemaIr}
  {budgeted : BudgetedParts} {state : CompiledProtocolArtifacts}

/-- A message of a compiled protocol can be encoded unless it is a text message without an
encode action. -/
theorem encodeOutput_available (compiled : CompiledFrom environment document parsed budgeted state)
    {messageIndex : Nat} {message : MessageExecutionPlan}
    (found : state.plan.messageExecutionPlans[messageIndex]? = some message) :
    (encodeOutput message).1 = true ↔
      ¬(isTextSchema state.plan.schemaVersion = true ∧ message.textEncode = none) := by
  have valid := (planValid_of_freeze compiled.frozen).messages message
    (List.mem_of_getElem? found)
  cases encode : message.textEncode with
  | some action => simp [encodeOutput, encode]
  | none =>
    cases decode : message.textDecode with
    | some action =>
      have text := valid.text_of_action (.inl decode)
      simp [encodeOutput, encode, decode, text.schema]
    | none =>
      have binary : isTextSchema state.plan.schemaVersion ≠ true := by
        intro version
        rcases (textMessage_of_compiled compiled version found).declared with has | has
        · exact has decode
        · exact has encode
      refine iff_of_true ?_ fun unsupported => binary unsupported.1
      cases payload : message.boundedPayload <;> simp [encodeOutput, decode, encode, payload]

/-- A call without values tells which messages a pipeline has, and which can be encoded. -/
theorem encodeReply_without_values
    (compiled : CompiledFrom environment document parsed budgeted state) {pipelineIndex : Nat}
    (inside : pipelineIndex < state.plan.pipelines.length) (messageIndex : Nat)
    (data : Option Nat) (output : Codec.MutableByteBuffer) :
    let reply := encodeReply state.plan pipelineIndex messageIndex ⟨data, []⟩ output
    ((pipelineMessageExecution state pipelineIndex messageIndex).isSome = true ↔
        reply.result.status ≠ .messageNotAllowed) ∧
      ∀ described, pipelineMessageExecution state pipelineIndex messageIndex = some described →
        (described.encodeAvailable = true ↔ reply.result.status ≠ .operationNotSupported) := by
  have frozen := compiled.frozenFrom
  have placed := List.getElem?_eq_getElem inside
  have present : ¬(data = none ∧ ([] : List EncodeFieldValue).length ≠ 0) := by simp
  have admitted : ¬(getArrayAddressRange data ([] : List EncodeFieldValue).length
        sizeofEncodeFieldValue = none ∨
      ([] : List EncodeFieldValue).length >
        state.plan.executionResourceLayout.maxFieldsPerMessage) := by
    simp [getArrayAddressRange, getAddressRange]
  dsimp only
  unfold encodeReply
  simp only [if_neg present, if_neg admitted]
  by_cases listed : messageIndex ∈ state.plan.pipelines[pipelineIndex].messageIndices
  · obtain ⟨execution, message, associated⟩ := associated_of_mem frozen placed listed
    simp only [associated.compiled, associated.found, if_pos associated.allowed,
      associated.described, Option.isSome_some, true_iff, Option.some.injEq, forall_eq']
    have available := encodeOutput_available compiled associated.found
    by_cases supported : isTextSchema state.plan.schemaVersion = true ∧ message.textEncode = none
    · rw [encodeMessageReply, if_pos supported]
      simp [describeExecution, available, supported]
    · have status := @encodeMessageReply_supported state.plan messageIndex message ⟨data, []⟩
        output supported
      simp only [List.mem_cons, List.not_mem_nil, or_false, not_or] at status
      refine ⟨status.1, ?_⟩
      show (encodeOutput message).1 = true ↔ _
      exact iff_of_true (available.mpr supported) status.2
  · obtain ⟨absent, execution, placed, foreign⟩ := not_associated frozen placed listed
    rw [absent]
    simp only [placed, Option.isSome_none, Bool.false_eq_true, false_iff, not_not, reduceCtorEq,
      false_implies, implies_true, and_true]
    cases found : state.plan.messageExecutionPlans[messageIndex]? with
    | none => rfl
    | some message =>
      simp only [foreign message found]
      rfl

end

end ProtocolAdapter.PublicApi
