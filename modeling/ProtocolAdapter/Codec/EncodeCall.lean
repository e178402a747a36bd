/-
This file states what a call of the encoder replies, as a function of the plan, the values
and the memory of the caller. The encoder gives this reply on every idle workspace of the
plan and leaves the workspace idle, with no raw integers in it.
-/

import ProtocolAdapter.Codec.EncodeText

namespace ProtocolAdapter.Codec

open Foundation Foundation.Operation

/-! ### The reply -/

/-- The reply for a message of a pipeline. -/
def encodeMessageReply (plan : PlanBundle) (messageIndex : Nat) (message : MessageExecutionPlan)
    (values : EncodeValues) (output : MutableByteBuffer) : EncodeReply :=
  if isTextSchema plan.schemaVersion = true ∧ message.textEncode = none then
    ⟨{ status := .operationNotSupported }, output.contents⟩
  else
    match inputsFailure plan messageIndex message values.values with
    | some failure => ⟨failure, output.contents⟩
    | none =>
      match message.textEncode with
      | some action => textReply message action values output
      | none => binaryReply plan message values output

/-- What a call replies. -/
def encodeReply (plan : PlanBundle) (pipelineIndex messageIndex : Nat) (values : EncodeValues)
    (output : MutableByteBuffer) : EncodeReply :=
  if values.data = none ∧ values.values.length ≠ 0 then ⟨{}, output.contents⟩
  else if getArrayAddressRange values.data values.values.length sizeofEncodeFieldValue = none ∨
      values.values.length > plan.executionResourceLayout.maxFieldsPerMessage then
    ⟨{ status := .invalidArgument }, output.contents⟩
  else
    match plan.pipelineExecutionPlans[pipelineIndex]? with
    | none => ⟨{}, output.contents⟩
    | some pipeline =>
      match plan.messageExecutionPlans[messageIndex]? with
      | none => ⟨{ status := .messageNotAllowed }, output.contents⟩
      | some message =>
        if messageIsAllowed pipeline messageIndex = some true then
          encodeMessageReply plan messageIndex message values output
        else ⟨{ status := .messageNotAllowed }, output.contents⟩

section

variable {plan : PlanBundle} {messageIndex : Nat} {message : MessageExecutionPlan}
  {values : EncodeValues} {output : MutableByteBuffer}

/-! ### The call -/

/-- A call that has begun: the raw integers of an earlier decode are gone. -/
structure Begun (plan : PlanBundle) (output : MutableByteBuffer) (state : EncodeState) : Prop where
  result : state.result = {}
  contents : state.output = output.contents
  shaped : state.workspace.EncodesFor plan

theorem Begun.fails {state : EncodeState} (begun : Begun plan output state) (status : CodecStatus) :
    Answers plan ⟨{ status := status }, output.contents⟩ (state.fail status) :=
  ⟨by rw [EncodeState.fail, begun.result], begun.contents, begun.shaped⟩

theorem Begun.leaves {state : EncodeState} (begun : Begun plan output state) :
    Answers plan ⟨{}, output.contents⟩ state :=
  ⟨begun.result, begun.contents, begun.shaped⟩

/-- What the checks of a call have established. -/
structure Admitted (plan : PlanBundle) (pipelineIndex messageIndex : Nat)
    (message : MessageExecutionPlan) (values : EncodeValues) (output : MutableByteBuffer)
    (pipeline : PipelineExecutionPlan) (state : EncodeState) : Prop where
  result : state.result = { requiredSize := message.frameSize }
  contents : state.output = output.contents
  shaped : state.workspace.EncodesFor plan
  compiled : plan.pipelineExecutionPlans[pipelineIndex]? = some pipeline
  listed : plan.messageExecutionPlans[messageIndex]? = some message
  allowed : messageIsAllowed pipeline messageIndex = some true
  supported : ¬(isTextSchema plan.schemaVersion = true ∧ message.textEncode = none)
  reply : encodeReply plan pipelineIndex messageIndex values output =
    encodeMessageReply plan messageIndex message values output

theorem checkEncodeCall_ends (valid : PlanValid plan) {pipelineIndex : Nat} {start : EncodeState}
    (begun : Begun plan output start) :
    Ends (fun chosen => Admitted plan pipelineIndex messageIndex chosen.2 values output chosen.1)
      (Answers plan (encodeReply plan pipelineIndex messageIndex values output))
      (checkEncodeCall plan pipelineIndex messageIndex values start) := by
  have scope : start.workspace.planScope = plan.address := begun.shaped.planScope
  have most : start.workspace.maxValuesPerCall = plan.executionResourceLayout.maxFieldsPerMessage :=
    begun.shaped.maxValuesPerCall
  unfold checkEncodeCall
  rw [current_bind, leaveIf_bind_neg (not_not.mpr scope),
    leaveIf_bind_neg (by simp [valid.supported])]
  unfold encodeReply
  refine .leaveIf (fun null => ?_) fun present => ?_
  · rw [if_pos null]
    exact begun.leaves
  rw [if_neg present, most]
  refine .leaveIf (fun refused => ?_) fun accepted => ?_
  · rw [if_pos refused]
    exact begun.fails _
  rw [if_neg accepted]
  cases compiled : plan.pipelineExecutionPlans[pipelineIndex]? with
  | none => exact .returned begun.leaves
  | some pipeline =>
    cases listed : plan.messageExecutionPlans[messageIndex]? with
    | none => exact .returned (begun.fails _)
    | some message =>
      obtain ⟨indices, indexed⟩ := valid.pipelines pipelineIndex pipeline compiled
      have inside := (List.getElem?_eq_some_iff.mp listed).1
      have decided := indexed.allowed messageIndex inside
      simp only [decided, Option.some.injEq]
      rw [access_bind rfl]
      refine .leaveIf (fun foreign => ?_) fun mine => ?_
      · rw [if_neg (by simpa using foreign)]
        exact begun.fails _
      have allowed : decide (messageIndex ∈ indices) = true := Bool.eq_true_of_not_eq_false mine
      rw [if_pos allowed, update_bind]
      refine .leaveIf (fun unsupported => ?_) fun supported => ?_
      · rw [encodeMessageReply, if_pos unsupported]
        exact ⟨by rw [EncodeState.refuse, begun.result], begun.contents, begun.shaped⟩
      · refine .done ⟨?_, begun.contents, begun.shaped, compiled, listed, decided.trans
          (congrArg some allowed), supported, ?_⟩
        · simp only [begun.result]
        · rw [encodeReply, if_neg present, if_neg accepted, compiled, listed]
          simp only
          rw [if_pos (decided.trans (congrArg some allowed))]

/-- The encoder gives its reply. -/
theorem encodeLeased_ends (valid : PlanValid plan) {pipelineIndex : Nat} {start : EncodeState}
    (result : start.result = {}) (contents : start.output = output.contents)
    (shaped : start.workspace.ShapedFor plan) :
    Ends (fun _ => Answers plan (encodeReply plan pipelineIndex messageIndex values output))
      (Answers plan (encodeReply plan pipelineIndex messageIndex values output))
      (encodeLeased plan pipelineIndex messageIndex values output start) := by
  unfold encodeLeased
  rw [update_bind]
  have cleared : Begun plan output { start with workspace := { start.workspace with
      rawIntegerCount := 0, rawIntegerMessageIndex := invalidIndex } } :=
    ⟨result, contents, { shaped with noRawIntegers := rfl }⟩
  refine .bind (checkEncodeCall_ends valid cleared) ?_
  rintro ⟨pipeline, message⟩ state admitted
  have inPlan := List.mem_of_getElem? admitted.listed
  have encodable := encodable_of_valid (valid.messages message inPlan) admitted.supported
  have covers := valid.covers message inPlan
  rw [admitted.reply]
  unfold encodeMessageReply
  rw [if_neg admitted.supported]
  refine .bind ((prepareEncodeInputs_ends encodable covers (valid.fieldCount message inPlan)
    admitted.result admitted.shaped).mono (fun _ _ holds => holds) ?_) ?_
  · rintro last ⟨failure, written, shaped⟩
    rw [failure]
    exact ⟨rfl, written.trans admitted.contents, shaped⟩
  intro _ prepared reached
  rw [reached.accepted]
  cases encodable with
  | binary version binary =>
    rw [binary.noEncode]
    exact encodeBinary_ends valid version admitted.compiled admitted.listed admitted.allowed binary
      admitted.contents reached
  | text action has text =>
    rw [has]
    exact encodeText_ends text covers has admitted.contents reached

/-- On an idle workspace a call of the encoder gives its reply, and leaves the workspace idle
and without raw integers. -/
theorem encodeCompleteRecord_replies (valid : PlanValid plan) {workspace : ExecutionWorkspace}
    (idle : workspace.IdleFor plan) (pipelineIndex messageIndex : Nat) (values : EncodeValues)
    (output : MutableByteBuffer) :
    ∃ call, encodeCompleteRecord plan workspace pipelineIndex messageIndex values output =
        some call ∧
      call.result = (encodeReply plan pipelineIndex messageIndex values output).result ∧
      call.output = (encodeReply plan pipelineIndex messageIndex values output).output ∧
      call.workspace.IdleFor plan ∧ call.workspace.Reports plan [] := by
  unfold encodeCompleteRecord
  rw [if_neg (by simp [idle.notInUse])]
  have run := @encodeLeased_ends plan messageIndex values output valid pipelineIndex
    ⟨{ workspace with inUse := true }, output.contents, {}⟩ rfl rfl { idle with notInUse := rfl }
  have finish : ∀ state, Answers plan
      (encodeReply plan pipelineIndex messageIndex values output) state →
        ∃ call, some (⟨state.result, { state.workspace with inUse := false }, state.output⟩ :
            EncodeCall) = some call ∧
          call.result = (encodeReply plan pipelineIndex messageIndex values output).result ∧
          call.output = (encodeReply plan pipelineIndex messageIndex values output).output ∧
          call.workspace.IdleFor plan ∧ call.workspace.Reports plan [] :=
    fun state answers => ⟨_, rfl, answers.result, answers.output, answers.shaped.toIdleFor,
      ExecutionWorkspace.reports_nil plan answers.shaped.noRawIntegers⟩
  simp only
  cases outcome : encodeLeased plan pipelineIndex messageIndex values output
      ⟨{ workspace with inUse := true }, output.contents, {}⟩ with
  | outOfRange => rw [outcome] at run; cases run
  | returned state =>
    rw [outcome] at run
    cases run with
    | returned answers => exact finish state answers
  | done value state =>
    rw [outcome] at run
    cases run with
    | done answers => exact finish state answers

end

end ProtocolAdapter.Codec
