/-
This file says how the reply of an encode depends on the buffer. Values that are refused are
refused whatever the buffer; accepted values ask for one record, and the buffer only decides
whether it has room for that record away from the values.
-/

import ProtocolAdapter.Codec.TextRoundTrip

namespace ProtocolAdapter.Codec

open Foundation Foundation.Operation Foundation.Bytes

/-! ### Forms of a reply -/

/-- What a call reports that refuses its values, whatever the buffer. -/
def callStatuses : List CodecStatus := .messageNotAllowed :: .operationNotSupported :: valueStatuses

/-- A call that refuses its values. -/
structure RefusesValues (reply : MutableByteBuffer → EncodeReply) (failure : EncodeResult) :
    Prop where
  status : failure.status ∈ callStatuses
  nothing : failure.bytesWritten = 0
  same : ∀ output, reply output = ⟨failure, output.contents⟩

/-- The result for a record that is in the buffer. -/
def reviewedResult (passes : Bool) (size : Nat) : EncodeResult :=
  if passes then { status := .ok, bytesWritten := size, requiredSize := size }
  else { status := .finalReviewFailed, requiredSize := size }

/-- A call that writes a record when the memory allows it. -/
def WritesRecord (values : EncodeValues) (reply : MutableByteBuffer → EncodeReply)
    (record : List UInt8) (passes : Bool) (relevant : EncodeFieldValue → Bool)
    (name : EncodeFieldValue × Nat → EncodeResult → EncodeResult) : Prop :=
  ∀ output : MutableByteBuffer, reply output =
    match memoryFailure values output record.length relevant name with
    | some failure => ⟨failure, output.contents⟩
    | none =>
      ⟨reviewedResult passes record.length, record ++ output.contents.drop record.length⟩

/-- Every name a call gives to a value keeps the rest of the result. -/
def NamesOnly (name : EncodeFieldValue × Nat → EncodeResult → EncodeResult) : Prop :=
  ∀ item result, (name item result).status = result.status ∧
    (name item result).bytesWritten = result.bytesWritten ∧
    (name item result).requiredSize = result.requiredSize

theorem nameValueField_namesOnly : NamesOnly nameValueField := fun _ _ => ⟨rfl, rfl, rfl⟩

theorem nameValue_namesOnly : NamesOnly nameValue := fun _ _ => ⟨rfl, rfl, rfl⟩

/-- How memory is refused: the buffer is too small, or lies where it must not lie. -/
theorem memoryFailure_reports {values : EncodeValues} {output : MutableByteBuffer} {size : Nat}
    {relevant : EncodeFieldValue → Bool}
    {name : EncodeFieldValue × Nat → EncodeResult → EncodeResult} (names : NamesOnly name)
    {failure : EncodeResult}
    (refused : memoryFailure values output size relevant name = some failure) :
    failure.bytesWritten = 0 ∧ failure.requiredSize = size ∧
      (failure.status = .bufferTooSmall ∧ output.capacity < size ∨
        failure.status = .invalidArgument ∨ failure.status = .inputOutputOverlap) := by
  unfold memoryFailure at refused
  split at refused
  · cases refused
    exact ⟨rfl, rfl, .inr (.inl rfl)⟩
  split at refused
  · rename_i small
    cases refused
    exact ⟨rfl, rfl, .inl ⟨rfl, small⟩⟩
  split at refused
  · split at refused
    · cases refused
      exact ⟨rfl, rfl, .inr (.inr rfl)⟩
    obtain ⟨item, -, aliased⟩ := List.exists_of_findSome?_eq_some refused
    unfold aliasFailure at aliased
    simp only at aliased
    split at aliased
    swap
    · cases aliased
    split at aliased
    · cases aliased
      obtain ⟨status, nothing, required⟩ := names item
        { status := .invalidArgument, requiredSize := size }
      exact ⟨nothing, required, .inr (.inl status)⟩
    · split at aliased
      · cases aliased
        obtain ⟨status, nothing, required⟩ := names item
          { status := .inputOutputOverlap, requiredSize := size }
        exact ⟨nothing, required, .inr (.inr status)⟩
      · cases aliased
  · cases refused
    exact ⟨rfl, rfl, .inr (.inl rfl)⟩

/-- Memory that is not refused has room for the record. -/
theorem memoryFailure_none_room {values : EncodeValues} {output : MutableByteBuffer} {size : Nat}
    {relevant : EncodeFieldValue → Bool}
    {name : EncodeFieldValue × Nat → EncodeResult → EncodeResult}
    (accepted : memoryFailure values output size relevant name = none) :
    size ≤ output.capacity := by
  unfold memoryFailure at accepted
  split at accepted
  · cases accepted
  split at accepted
  · cases accepted
  · omega

/-- The bounds of the actions of a plan are those of their segments. -/
def PlanCounted (plan : PlanBundle) : Prop :=
  ∀ message ∈ plan.messageExecutionPlans, ∀ action, HasTextAction message action →
    TextLengths message action

section

variable {plan : PlanBundle} {pipelineIndex messageIndex : Nat} {message : MessageExecutionPlan}
  {values : EncodeValues}

/-- A call refuses its values, or reaches the rules of the message with accepted values. -/
theorem encodeReply_reaches :
    (∃ failure, RefusesValues (encodeReply plan pipelineIndex messageIndex values) failure) ∨
      ∃ message, plan.messageExecutionPlans[messageIndex]? = some message ∧
        inputsFailure plan messageIndex message values.values = none ∧
        ¬(isTextSchema plan.schemaVersion = true ∧ message.textEncode = none) ∧
        ∀ output, encodeReply plan pipelineIndex messageIndex values output =
          match message.textEncode with
          | some action => textReply message action values output
          | none => binaryReply plan message values output := by
  have listed : ∀ {status}, status ∈ valueStatuses → status ∈ callStatuses :=
    fun member => List.mem_cons_of_mem _ (List.mem_cons_of_mem _ member)
  unfold encodeReply
  by_cases null : values.data = none ∧ values.values.length ≠ 0
  · simp only [if_pos null]
    exact .inl ⟨_, listed (by simp [valueStatuses]), rfl, fun _ => rfl⟩
  by_cases refused : getArrayAddressRange values.data values.values.length sizeofEncodeFieldValue =
      none ∨ values.values.length > plan.executionResourceLayout.maxFieldsPerMessage
  · simp only [if_neg null, if_pos refused]
    exact .inl ⟨_, listed (by simp [valueStatuses]), rfl, fun _ => rfl⟩
  simp only [if_neg null, if_neg refused]
  cases plan.pipelineExecutionPlans[pipelineIndex]? with
  | none => exact .inl ⟨_, listed (by simp [valueStatuses]), rfl, fun _ => rfl⟩
  | some pipeline =>
    cases found : plan.messageExecutionPlans[messageIndex]? with
    | none => exact .inl ⟨_, List.mem_cons_self, rfl, fun _ => rfl⟩
    | some message =>
      by_cases allowed : messageIsAllowed pipeline messageIndex = some true
      swap
      · simp only [if_neg allowed]
        exact .inl ⟨_, List.mem_cons_self, rfl, fun _ => rfl⟩
      simp only [if_pos allowed]
      unfold encodeMessageReply
      by_cases unsupported : isTextSchema plan.schemaVersion = true ∧ message.textEncode = none
      · simp only [if_pos unsupported]
        exact .inl ⟨_, List.mem_cons_of_mem _ List.mem_cons_self, rfl, fun _ => rfl⟩
      simp only [if_neg unsupported]
      cases accepted : inputsFailure plan messageIndex message values.values with
      | some failure =>
        obtain ⟨status, nothing⟩ := inputsFailure_status accepted
        exact .inl ⟨failure, listed status, nothing, fun _ => rfl⟩
      | none => exact .inr ⟨message, rfl, accepted, unsupported, fun _ => rfl⟩

/-- A call for a text message refuses its values, or accepts values that end at their literals
and writes their record. -/
theorem encodeReply_text (valid : PlanValid plan) (counted : PlanCounted plan)
    (listed : plan.messageExecutionPlans[messageIndex]? = some message)
    {action : TextActionExecutionPlan} (has : message.textEncode = some action) :
    (∃ failure, RefusesValues (encodeReply plan pipelineIndex messageIndex values) failure) ∨
      ValuesTaken message values.values action.segments ∧
        ValuesTerminated message values.values action.segments ∧
        WritesRecord values (encodeReply plan pipelineIndex messageIndex values)
          (textRecord values.values action.segments) true (fun _ => true) nameValue := by
  rcases @encodeReply_reaches plan pipelineIndex messageIndex values with
    refused | ⟨other, found, accepted, -, same⟩
  · exact .inl refused
  obtain rfl := Option.some.inj (listed.symm.trans found)
  have member := List.mem_of_getElem? listed
  have text := (valid.messages message member).text_of_action (.inr has)
  have acting := (text.encode action has).1
  have taken := valuesTaken_of_accepted text has accepted
  simp only [has] at same
  cases sized : textSize message values.values action.segments 0 with
  | error failure =>
    obtain ⟨status, nothing⟩ := textSize_status sized
    refine .inl ⟨failure, List.mem_cons_of_mem _ (List.mem_cons_of_mem _ status), nothing,
      fun output => ?_⟩
    rw [same, textReply, sized]
  | ok size =>
    have terminated := terminated_of_textSize acting.walkable.segments sized
    refine .inr ⟨taken, terminated, fun output => ?_⟩
    rw [same, (textReply_terminated acting taken terminated
      (counted message member action (.inr has)) text.frameBound rfl output).2.2]
    rfl

/-- Every call refuses its values or writes one record when the memory allows it. -/
theorem encodeReply_form (valid : PlanValid plan) (counted : PlanCounted plan)
    (pipelineIndex messageIndex : Nat) (values : EncodeValues) :
    (∃ failure, RefusesValues (encodeReply plan pipelineIndex messageIndex values) failure) ∨
      ∃ record passes relevant name, NamesOnly name ∧
        WritesRecord values (encodeReply plan pipelineIndex messageIndex values) record passes
          relevant name := by
  rcases @encodeReply_reaches plan pipelineIndex messageIndex values with
    refused | ⟨message, listed, accepted, -, same⟩
  · exact .inl refused
  cases has : message.textEncode with
  | some action =>
    rcases @encodeReply_text plan pipelineIndex messageIndex message values valid counted listed
      action has with refused | ⟨-, -, writes⟩
    · exact .inl refused
    · exact .inr ⟨_, _, _, _, nameValue_namesOnly, writes⟩
  | none =>
    simp only [has] at same
    have size := @recordOf_length message (suppliedContents plan message values.values)
      (recordSize message values.values)
    refine .inr ⟨recordOf message (suppliedContents plan message values.values)
      (recordSize message values.values), hasShape message (recordOf message
        (suppliedContents plan message values.values) (recordSize message values.values)),
      (·.valueKind == .bytes), nameValueField, nameValueField_namesOnly, fun output => ?_⟩
    rw [same, size]
    rfl

/-- A call leaves the buffer as long as it was. -/
theorem encodeReply_output_length (valid : PlanValid plan) (counted : PlanCounted plan)
    (pipelineIndex messageIndex : Nat) (values : EncodeValues) (output : MutableByteBuffer) :
    (encodeReply plan pipelineIndex messageIndex values output).output.length =
      output.capacity := by
  rcases encodeReply_form valid counted pipelineIndex messageIndex values with
    ⟨failure, refused⟩ | ⟨record, passes, relevant, name, -, writes⟩
  · rw [refused.same]
  rw [writes]
  cases memory : memoryFailure values output record.length relevant name with
  | some failure => rfl
  | none =>
    have room : record.length ≤ output.capacity := memoryFailure_none_room memory
    rw [List.length_append, List.length_drop]
    exact Nat.add_sub_cancel' room

end

/-! ### Text messages -/

theorem planCounted_of_frozen {target : TargetLayout} {draft : PlanDraftData} {plan : PlanBundle}
    (frozen : FrozenFrom target draft plan) : PlanCounted plan :=
  fun _ member _ has => textLengths_of_frozen frozen member has

/-- An encode of accepted text values, into a buffer that is apart and large enough, succeeds
exactly when every value ends at the literal behind it. The record is then the segments behind
each other, within the bounds of the action, and the walk over it finds every field at the
bytes supplied for it; the final review of a text record never fails. -/
theorem encodeText_roundTrip {target : TargetLayout} {budgeted : BudgetedPlanDraft}
    {storage : Option Nat} {plan : PlanBundle} {workspace : ExecutionWorkspace}
    (frozen : freeze target budgeted storage = .ok plan) (idle : workspace.IdleFor plan)
    (pipelineIndex : Nat) {messageIndex : Nat} {message : MessageExecutionPlan}
    {action : TextActionExecutionPlan}
    (listed : plan.messageExecutionPlans[messageIndex]? = some message)
    (has : message.textEncode = some action) (values : EncodeValues) (output : MutableByteBuffer) :
    ∃ call, encodeCompleteRecord plan workspace pipelineIndex messageIndex values output =
        some call ∧
      call.result.status ≠ .finalReviewFailed ∧
      (∀ pipeline, plan.pipelineExecutionPlans[pipelineIndex]? = some pipeline →
        messageIsAllowed pipeline messageIndex = some true →
        (∃ after, prepareEncodeInputs plan messageIndex message values.values
          (encodeBegun workspace message output) = .done () after) →
        BufferApart values output →
        (textRecord values.values action.segments).length ≤ output.capacity →
          (call.result.status = .ok ↔ ValuesTerminated message values.values action.segments)) ∧
      (call.result.status = .ok →
        call.result.bytesWritten = (textRecord values.values action.segments).length ∧
        call.output.take call.result.bytesWritten = textRecord values.values action.segments ∧
        action.minRecordLength ≤ call.result.bytesWritten ∧
        call.result.bytesWritten ≤ action.maxRecordLength ∧
        ∃ places, walkTextAction action message (textRecord values.values action.segments) true
            collectPlace [] = some (.match, places) ∧
          places.map (·.fieldIndex) = referencedFields action.segments ∧
          ∀ place ∈ places,
            slice (textRecord values.values action.segments) place.offset place.length =
              suppliedBytes values.values place.fieldIndex) := by
  have valid := planValid_of_freeze frozen
  have counted := planCounted_of_frozen (frozenFrom_of_freezeImpl frozen)
  have member := List.mem_of_getElem? listed
  have text := (valid.messages message member).text_of_action (.inr has)
  have actionValid := (text.encode action has).1
  have lengths := counted message member action (.inr has)
  obtain ⟨call, run, result, written, -⟩ :=
    encodeCompleteRecord_replies valid idle pipelineIndex messageIndex values output
  refine ⟨call, run, ?_, ?_, ?_⟩
  · rw [result]
    rcases @encodeReply_text plan pipelineIndex messageIndex message values valid counted listed
      action has with ⟨failure, refused⟩ | ⟨-, -, writes⟩
    · rw [refused.same]
      intro wrong
      have status := refused.status
      rw [wrong] at status
      simp [callStatuses, valueStatuses] at status
    · rw [writes]
      cases memory : memoryFailure values output
          (textRecord values.values action.segments).length (fun _ => true) nameValue with
      | some failure =>
        obtain ⟨-, -, ⟨status, -⟩ | status | status⟩ :=
          memoryFailure_reports nameValue_namesOnly memory <;> simp [status]
      | none => simp [reviewedResult]
  · intro pipeline compiled allowed prepared apart room
    have accepted := accepted_of_prepared valid (by simp [has]) listed idle prepared
    have reply := encodeReply_admitted valid compiled listed allowed accepted apart
    have taken := valuesTaken_of_accepted text has accepted
    unfold encodeMessageReply at reply
    rw [if_neg (by simp [has]), accepted] at reply
    simp only [has] at reply
    rw [result, reply]
    constructor
    · intro ok
      unfold textReply at ok
      split at ok
      · rename_i failure sized
        exact absurd ok (textSize_refuses sized).status
      · rename_i size sized
        exact terminated_of_textSize actionValid.walkable.segments sized
    · intro terminated
      have terminates := textReply_terminated actionValid taken terminated lengths
        text.frameBound rfl output
      rw [terminates.2.2]
      unfold textMemoryFailure
      rw [apart.memoryFailure_eq fun value supplied _ => text_kinds text accepted value supplied,
        if_neg (Nat.not_lt.mpr room)]
  · rw [result, written]
    rcases @encodeReply_text plan pipelineIndex messageIndex message values valid counted listed
      action has with ⟨failure, refused⟩ | ⟨taken, terminated, writes⟩
    · rw [refused.same]
      intro ok
      have status := refused.status
      rw [ok] at status
      simp [callStatuses, valueStatuses] at status
    rw [writes]
    cases memory : memoryFailure values output
        (textRecord values.values action.segments).length (fun _ => true) nameValue with
    | some failure =>
      intro ok
      exact absurd ok (textMemoryFailure_refuses memory).status
    | none =>
      intro _
      have parse := @textRecord_parses message values.values action.segments 0
        actionValid.walkable.segments taken terminated
      obtain ⟨least, most, -⟩ := textReply_terminated actionValid taken terminated lengths
        text.frameBound rfl output
      obtain ⟨indices, places⟩ := @suppliedPlaces_spec values.values
        (textRecord values.values action.segments) action.segments 0 rfl
      exact ⟨rfl, List.take_left' rfl, least, most, _,
        (walkTextAction_parses actionValid lengths).mpr parse, indices,
        fun place there => (places place there).2⟩

/-- A value for the reading. -/
def echoValues : EncodeValues :=
  { data := some 2048
    values := [
      { field := ⟨some 8192, 0, 0⟩, valueKind := .bytes
        bytesValue := { data := some 70, bytes := [0x31] } }] }

theorem encodeText_roundTrip_reading : ∃ call,
    encodeCompleteRecord echoPlan (.fresh echoPlan) 0 0 echoValues (sampleBuffer 0) = some call ∧
      call.result.status = .ok ∧
      call.output.take call.result.bytesWritten = [0x56, 0x3D, 0x31, 0x0D, 0x0A] ∧
      ∃ places, walkTextAction readingAction echoExecution [0x56, 0x3D, 0x31, 0x0D, 0x0A] true
        collectPlace [] = some (.match, places) ∧ places.map (·.fieldIndex) = [0] := by
  obtain ⟨call, run, -, succeeds, written⟩ := @encodeText_roundTrip _ _ _ _ _ echoBudgeted_freezes
    (ExecutionWorkspace.fresh_idleFor echoPlan) 0 0 echoExecution readingAction rfl rfl echoValues
    (sampleBuffer 0)
  have seen : (encodeCompleteRecord echoPlan (.fresh echoPlan) 0 0 echoValues (sampleBuffer 0)).map
      (·.result.status) = some .ok := by
    rfl
  rw [run] at seen
  have done := Option.some.inj seen
  obtain ⟨-, record, -, -, places, walked, indices, -⟩ := written done
  exact ⟨call, run, done, record, places, walked, indices⟩

/-! ### Every call -/

/-- A workspace is one of a plan when it names the plan. -/
def ExecutionWorkspace.Belongs (workspace : ExecutionWorkspace) (plan : PlanBundle) : Prop :=
  workspace.planScope = plan.address → workspace.ShapedFor plan

section

variable {plan : PlanBundle} {pipelineIndex messageIndex : Nat} {values : EncodeValues}
  {output : MutableByteBuffer}

/-- A workspace is idle, or every call on it is refused. -/
theorem ExecutionWorkspace.Belongs.idle_or {workspace : ExecutionWorkspace}
    (belongs : workspace.Belongs plan) : workspace.IdleFor plan ∨
      ∃ status, (status = .workspaceBusy ∨ status = .workspacePlanMismatch) ∧
        ∀ pipelineIndex messageIndex values output, ∃ call,
          encodeCompleteRecord plan workspace pipelineIndex messageIndex values output =
              some call ∧
            call.result = { status := status } ∧ call.output = output.contents := by
  by_cases busy : workspace.inUse = true
  · refine .inr ⟨_, .inl rfl, fun pipelineIndex messageIndex values output =>
      ⟨⟨{ status := .workspaceBusy }, workspace, output.contents⟩, ?_, rfl, rfl⟩⟩
    rw [encodeCompleteRecord, if_pos busy]
  by_cases own : workspace.planScope = plan.address
  · have shaped := belongs own
    exact .inl { shaped with notInUse := by simpa using busy }
  · refine .inr ⟨_, .inr rfl, fun pipelineIndex messageIndex values output =>
      ⟨⟨{ status := .workspacePlanMismatch }, { workspace with
        rawIntegerCount := 0, rawIntegerMessageIndex := invalidIndex, inUse := false },
        output.contents⟩, ?_, rfl, rfl⟩⟩
    have refused : ∀ state : EncodeState, state.workspace.planScope = workspace.planScope →
        checkEncodeCall plan pipelineIndex messageIndex values state =
          .returned (state.fail .workspacePlanMismatch) := by
      intro state same
      unfold checkEncodeCall
      rw [current_bind, leaveIf_bind_pos (same ▸ own)]
    unfold encodeCompleteRecord encodeLeased
    rw [if_neg busy]
    simp only
    rw [update_bind, bind_of_returned (refused _ rfl)]
    rfl

/-- A call on any workspace is refused for the workspace, or gives its reply. -/
theorem encodeCompleteRecord_ends (valid : PlanValid plan) {workspace : ExecutionWorkspace}
    (belongs : workspace.Belongs plan) :
    ∃ call, encodeCompleteRecord plan workspace pipelineIndex messageIndex values output =
        some call ∧
      ((∃ status, (status = .workspaceBusy ∨ status = .workspacePlanMismatch) ∧
          call.result = { status := status } ∧ call.output = output.contents) ∨
        call.result = (encodeReply plan pipelineIndex messageIndex values output).result ∧
          call.output = (encodeReply plan pipelineIndex messageIndex values output).output) := by
  rcases belongs.idle_or with idle | ⟨status, statuses, refused⟩
  · obtain ⟨call, run, result, written, -⟩ :=
      encodeCompleteRecord_replies valid idle pipelineIndex messageIndex values output
    exact ⟨call, run, .inr ⟨result, written⟩⟩
  · obtain ⟨call, run, result, written⟩ := refused pipelineIndex messageIndex values output
    exact ⟨call, run, .inl ⟨status, statuses, result, written⟩⟩

end

/-- A failed encode publishes nothing and, before the final review, has written nothing; no
encode writes behind the required size or the buffer; and a buffer of the required size is not
too small. -/
theorem encodeCompleteRecord_contained {target : TargetLayout} {budgeted : BudgetedPlanDraft}
    {storage : Option Nat} {plan : PlanBundle} {workspace : ExecutionWorkspace}
    (frozen : freeze target budgeted storage = .ok plan) (belongs : workspace.Belongs plan)
    (pipelineIndex messageIndex : Nat) (values : EncodeValues) (output : MutableByteBuffer) :
    ∃ call, encodeCompleteRecord plan workspace pipelineIndex messageIndex values output =
        some call ∧
      (call.result.status ≠ .ok → call.result.bytesWritten = 0) ∧
      (call.result.status ∉ [.ok, .finalReviewFailed, .internalError] →
        call.output = output.contents) ∧
      call.output.length = output.capacity ∧
      call.output.drop call.result.requiredSize =
        output.contents.drop call.result.requiredSize ∧
      (call.result.status = .bufferTooSmall →
        ∀ (other : ExecutionWorkspace) (larger : MutableByteBuffer), other.Belongs plan →
          call.result.requiredSize ≤ larger.capacity →
          ∃ retry, encodeCompleteRecord plan other pipelineIndex messageIndex values larger =
              some retry ∧
            retry.result.status ≠ .bufferTooSmall ∧
            (retry.result.status = .ok →
              retry.result.bytesWritten = call.result.requiredSize)) := by
  have valid := planValid_of_freeze frozen
  have counted := planCounted_of_frozen (frozenFrom_of_freezeImpl frozen)
  obtain ⟨call, run, outcome⟩ := @encodeCompleteRecord_ends plan pipelineIndex messageIndex values
    output valid workspace belongs
  refine ⟨call, run, ?_⟩
  rcases outcome with ⟨status, statuses, result, written⟩ | ⟨result, written⟩
  · rw [result, written]
    refine ⟨fun _ => rfl, fun _ => rfl, rfl, rfl, fun small => ?_⟩
    rcases statuses with rfl | rfl <;> cases small
  rw [result, written]
  rcases encodeReply_form valid counted pipelineIndex messageIndex values with
    ⟨failure, refused⟩ | ⟨record, passes, relevant, name, names, writes⟩
  · rw [refused.same]
    refine ⟨fun _ => refused.nothing, fun _ => rfl, rfl, rfl, fun small => ?_⟩
    have listed := refused.status
    simp only at small
    rw [small] at listed
    simp [callStatuses, valueStatuses] at listed
  rw [writes]
  cases memory : memoryFailure values output record.length relevant name with
  | some failure =>
    obtain ⟨nothing, required, reports⟩ := memoryFailure_reports names memory
    refine ⟨fun _ => nothing, fun _ => rfl, rfl, rfl, fun small other larger belongs room => ?_⟩
    simp only at small room
    rw [required] at room
    obtain ⟨retry, again, outcome⟩ := @encodeCompleteRecord_ends plan pipelineIndex messageIndex
      values larger valid other belongs
    refine ⟨retry, again, ?_⟩
    rcases outcome with ⟨status, statuses, result, -⟩ | ⟨result, -⟩
    · rw [result]
      rcases statuses with rfl | rfl <;> simp
    rw [result, writes]
    cases retried : memoryFailure values larger record.length relevant name with
    | some later =>
      obtain ⟨-, -, ⟨-, short⟩ | status | status⟩ := memoryFailure_reports names retried
      · exact absurd short (Nat.not_lt.mpr room)
      · simp [status]
      · simp [status]
    | none => cases passes <;> simp [reviewedResult, required]
  | none =>
    have room : record.length ≤ output.capacity := memoryFailure_none_room memory
    refine ⟨?_, ?_, ?_, ?_, ?_⟩
    · cases passes <;> simp [reviewedResult]
    · cases passes <;> simp [reviewedResult]
    · rw [List.length_append, List.length_drop]
      exact Nat.add_sub_cancel' room
    · cases passes <;> simp [reviewedResult]
    · cases passes <;> simp [reviewedResult]

/-- A buffer that is too small stays as it is, and one of the required size is filled. -/
theorem encodeCompleteRecord_contained_sample : ∃ small retry,
    encodeCompleteRecord samplePlan (.fresh samplePlan) 0 0 sampleValues
        { data := some 8192, contents := [5, 5] } = some small ∧
      small.result.status = .bufferTooSmall ∧ small.output = [5, 5] ∧
      small.result.requiredSize = 9 ∧
      encodeCompleteRecord samplePlan (.fresh samplePlan) 0 0 sampleValues (sampleBuffer 5) =
        some retry ∧
      retry.result.status = .ok ∧ retry.result.bytesWritten = 9 ∧ retry.output.length = 16 ∧
      retry.output.drop 9 = List.replicate 7 5 := by
  have belongs : (ExecutionWorkspace.fresh samplePlan).Belongs samplePlan :=
    fun _ => { ExecutionWorkspace.fresh_idleFor samplePlan with notInUse := rfl }
  have contained := fun output => @encodeCompleteRecord_contained _ _ _ _ (.fresh samplePlan)
    sampleBudgeted_freezes belongs 0 0 sampleValues output
  obtain ⟨small, run, -, untouched, -, -, retries⟩ :=
    contained { data := some 8192, contents := [5, 5] }
  obtain ⟨again, runs, -, -, length, beyond, -⟩ := contained (sampleBuffer 5)
  have seen : (encodeCompleteRecord samplePlan (.fresh samplePlan) 0 0 sampleValues
      { data := some 8192, contents := [5, 5] }).map
        (fun call => (call.result.status, call.result.requiredSize)) =
          some (.bufferTooSmall, 9) := rfl
  have filled : (encodeCompleteRecord samplePlan (.fresh samplePlan) 0 0 sampleValues
      (sampleBuffer 5)).map (fun call => (call.result.status, call.result.requiredSize)) =
        some (.ok, 9) := rfl
  rw [run, Option.map_some, Option.some.injEq, Prod.mk.injEq] at seen
  rw [runs, Option.map_some, Option.some.injEq, Prod.mk.injEq] at filled
  obtain ⟨retry, another, -, written⟩ := retries seen.1 (.fresh samplePlan) (sampleBuffer 5) belongs
    (by rw [seen.2]; decide)
  obtain rfl := Option.some.inj (runs.symm.trans another)
  rw [filled.2] at beyond
  exact ⟨small, again, run, seen.1, untouched (by rw [seen.1]; decide), seen.2, runs, filled.1,
    (written filled.1).trans seen.2, length, beyond⟩

end ProtocolAdapter.Codec
