/-
This file follows a workspace through a history of calls. Every call gives the reply that
the plan, its arguments and the memory of the caller determine, so nothing of the earlier
calls shows in it; and the raw integers a workspace reports are those of the last call.
-/

import ProtocolAdapter.Codec.EncodeOutcome

namespace ProtocolAdapter.Codec

open Foundation Foundation.Operation

/-! ### Calls -/

/-- A call on a workspace, with the plan it is made for. -/
inductive CodecCall where
  | decode (plan : PlanBundle) (pipelineIndex : Nat) (input : ByteView) (fieldSlots : FieldSlots)
  | encode (plan : PlanBundle) (pipelineIndex messageIndex : Nat) (values : EncodeValues)
      (output : MutableByteBuffer)

/-- The plan of a call. -/
def CodecCall.plan : CodecCall → PlanBundle
  | .decode plan .. => plan
  | .encode plan .. => plan

/-- What a caller sees of a call. -/
inductive CallOutcome where
  | decoded (result : DecodeResult) (slots : List DecodedFieldSlot)
  | encoded (result : EncodeResult) (output : List UInt8)

/-- Makes a call on a workspace. Without a value, an access was out of range. -/
def runCall (workspace : ExecutionWorkspace) : CodecCall → Option (CallOutcome × ExecutionWorkspace)
  | .decode plan pipelineIndex input fieldSlots =>
    (decodeCompleteRecord plan workspace pipelineIndex input fieldSlots).map fun call =>
      (.decoded call.result call.slots, call.workspace)
  | .encode plan pipelineIndex messageIndex values output =>
    (encodeCompleteRecord plan workspace pipelineIndex messageIndex values output).map fun call =>
      (.encoded call.result call.output, call.workspace)

/-- Makes the calls of a history one after the other, and keeps the workspace. -/
def runCalls (workspace : ExecutionWorkspace) (history : List CodecCall) :
    Option ExecutionWorkspace :=
  history.foldlM (fun workspace call => (runCall workspace call).map (·.2)) workspace

/-- The raw integers a call leaves behind: those of the record, when it decoded one. -/
def CodecCall.leaves (call : CodecCall) (outcome : CallOutcome) : List RawIntegerValue :=
  match call, outcome with
  | .decode plan _ input _, .decoded result _ =>
    if result.status = .ok then keptIntegers plan result.messageIndex input.bytes else []
  | _, _ => []

/-- A call concerns a workspace of a plan when it is made for that plan, or for a plan at
another address. -/
def CodecCall.Concerns (call : CodecCall) (plan : PlanBundle) : Prop :=
  call.plan = plan ∨ call.plan.address ≠ plan.address

/-! ### The raw integers of a reply -/

section

variable {plan : PlanBundle} {messageIndex : Nat} {message : MessageExecutionPlan}
  {input : ByteView} {fieldSlots : FieldSlots}

/-- A reply keeps the raw integers of a record exactly when it accepts one. -/
def DecodeReply.KeepsAccepted (reply : DecodeReply) : Prop :=
  reply.rawMessage = if reply.result.status = .ok then some reply.result.messageIndex else none

theorem messageReply_keeps :
    (messageReply plan messageIndex message input fieldSlots).KeepsAccepted := by
  unfold messageReply DecodeReply.KeepsAccepted
  cases output : outputRefusal (decodedCount message) input fieldSlots with
  | some status =>
    simp only [output]
    exact (if_neg (outputRefusal_ne_ok output)).symm
  | none =>
    cases refused : messageRefusal plan message input.bytes with
    | some refusal =>
      simp only [output]
      exact (if_neg (messageRefusal_ne_ok refused)).symm
    | none =>
      simp only [output]
      rfl

theorem decodeReply_keeps (pipelineIndex : Nat) :
    (decodeReply plan pipelineIndex input fieldSlots).KeepsAccepted := by
  unfold decodeReply pipelineReply matchReply
  split
  · rfl
  split
  · rfl
  split
  · rfl
  split
  · rfl
  split
  · rfl
  split
  · rfl
  split
  · rfl
  · exact messageReply_keeps

theorem decodeReply_rawIntegers (pipelineIndex : Nat) :
    (decodeReply plan pipelineIndex input fieldSlots).rawIntegers plan input.bytes =
      (CodecCall.decode plan pipelineIndex input fieldSlots).leaves
        (.decoded (decodeReply plan pipelineIndex input fieldSlots).result
          (decodeReply plan pipelineIndex input fieldSlots).slots) := by
  have keeps := @decodeReply_keeps plan input fieldSlots pipelineIndex
  unfold DecodeReply.KeepsAccepted at keeps
  unfold DecodeReply.rawIntegers CodecCall.leaves
  rw [keeps]
  simp only
  by_cases accepted : (decodeReply plan pipelineIndex input fieldSlots).result.status = .ok
  · rw [if_pos accepted, if_pos accepted]
  · rw [if_neg accepted, if_neg accepted]

/-! ### One call -/

/-- What a caller sees of a call, as a function of the call. -/
def CodecCall.outcome (call : CodecCall) (workspacePlan : PlanBundle) : CallOutcome :=
  match call with
  | .decode plan pipelineIndex input fieldSlots =>
    if plan.address = workspacePlan.address then
      let reply := decodeReply plan pipelineIndex input fieldSlots
      .decoded reply.result reply.slots
    else .decoded { status := .workspacePlanMismatch } fieldSlots.slots
  | .encode plan pipelineIndex messageIndex values output =>
    if plan.address = workspacePlan.address then
      let reply := encodeReply plan pipelineIndex messageIndex values output
      .encoded reply.result reply.output
    else .encoded { status := .workspacePlanMismatch } output.contents

/-- A decode for another plan is refused. -/
theorem decodeCompleteRecord_foreign {other : PlanBundle} {workspace : ExecutionWorkspace}
    (idle : workspace.IdleFor plan) (foreign : other.address ≠ plan.address)
    (pipelineIndex : Nat) :
    decodeCompleteRecord other workspace pipelineIndex input fieldSlots =
      some ⟨{ status := .workspacePlanMismatch }, { workspace with
        rawIntegerCount := 0, rawIntegerMessageIndex := invalidIndex, inUse := false },
        fieldSlots.slots⟩ := by
  have scope : workspace.planScope ≠ other.address := fun same =>
    foreign (same.symm.trans idle.planScope)
  unfold decodeCompleteRecord
  rw [if_neg (by simp [idle.notInUse])]
  simp only
  unfold decodeLeased
  rw [update_bind]
  have refused : ∀ state : DecodeState, state.workspace.planScope = workspace.planScope →
      checkDecodeCall other pipelineIndex input fieldSlots state =
        .returned (state.fail .workspacePlanMismatch) := by
    intro state same
    unfold checkDecodeCall
    rw [current_bind, same, leaveIf_bind_pos scope]
  rw [bind_of_returned (refused _ rfl)]
  rfl

/-- An encode for another plan is refused. -/
theorem encodeCompleteRecord_foreign {other : PlanBundle} {workspace : ExecutionWorkspace}
    (idle : workspace.IdleFor plan) (foreign : other.address ≠ plan.address)
    (pipelineIndex messageIndex : Nat) (values : EncodeValues) (output : MutableByteBuffer) :
    encodeCompleteRecord other workspace pipelineIndex messageIndex values output =
      some ⟨{ status := .workspacePlanMismatch }, { workspace with
        rawIntegerCount := 0, rawIntegerMessageIndex := invalidIndex, inUse := false },
        output.contents⟩ := by
  have scope : workspace.planScope ≠ other.address := fun same =>
    foreign (same.symm.trans idle.planScope)
  unfold encodeCompleteRecord
  rw [if_neg (by simp [idle.notInUse])]
  simp only
  unfold encodeLeased
  rw [update_bind]
  have refused : ∀ state : EncodeState, state.workspace.planScope = workspace.planScope →
      checkEncodeCall other pipelineIndex messageIndex values state =
        .returned (state.fail .workspacePlanMismatch) := by
    intro state same
    unfold checkEncodeCall
    rw [current_bind, same, leaveIf_bind_pos scope]
  rw [bind_of_returned (refused _ rfl)]
  rfl

/-- Whatever an idle workspace holds, a call on it has its outcome, leaves the workspace
idle, and leaves the raw integers of its own record. -/
theorem runCall_eq (valid : PlanValid plan) {workspace : ExecutionWorkspace}
    (idle : workspace.IdleFor plan) {call : CodecCall} (concerns : call.Concerns plan) :
    ∃ after, runCall workspace call = some (call.outcome plan, after) ∧ after.IdleFor plan ∧
      after.Reports plan (call.leaves (call.outcome plan)) := by
  have emptied : ({ workspace with
      rawIntegerCount := 0, rawIntegerMessageIndex := invalidIndex, inUse := false } :
        ExecutionWorkspace).IdleFor plan := { idle with notInUse := rfl }
  cases call with
  | decode other pipelineIndex input fieldSlots =>
    replace concerns : other = plan ∨ other.address ≠ plan.address := concerns
    unfold CodecCall.outcome
    simp only
    rcases concerns with rfl | foreign
    · obtain ⟨call, run, result, slots, after, reports⟩ :=
        decodeCompleteRecord_replies valid idle pipelineIndex input fieldSlots
      rw [decodeReply_rawIntegers] at reports
      rw [if_pos rfl]
      refine ⟨call.workspace, ?_, after, reports⟩
      rw [runCall, run, Option.map_some, result, slots]
    · rw [if_neg foreign]
      refine ⟨_, ?_, emptied, ExecutionWorkspace.reports_nil plan rfl⟩
      rw [runCall, decodeCompleteRecord_foreign idle foreign]
      rfl
  | encode other pipelineIndex messageIndex values output =>
    replace concerns : other = plan ∨ other.address ≠ plan.address := concerns
    unfold CodecCall.outcome
    simp only
    rcases concerns with rfl | foreign
    · obtain ⟨call, run, result, contents, after, reports⟩ :=
        encodeCompleteRecord_replies valid idle pipelineIndex messageIndex values output
      rw [if_pos rfl]
      refine ⟨call.workspace, ?_, after, reports⟩
      rw [runCall, run, Option.map_some, result, contents]
    · rw [if_neg foreign]
      refine ⟨_, ?_, emptied, ExecutionWorkspace.reports_nil plan rfl⟩
      rw [runCall, encodeCompleteRecord_foreign idle foreign]
      rfl

/-! ### Histories -/

/-- A history runs to its end and leaves the workspace idle. -/
theorem runCalls_idle (valid : PlanValid plan) (history : List CodecCall)
    (concern : ∀ call ∈ history, call.Concerns plan) {workspace : ExecutionWorkspace}
    (idle : workspace.IdleFor plan) :
    ∃ after, runCalls workspace history = some after ∧ after.IdleFor plan := by
  induction history generalizing workspace with
  | nil => exact ⟨workspace, rfl, idle⟩
  | cons call rest ih =>
    obtain ⟨concerns, others⟩ := List.forall_mem_cons.mp concern
    obtain ⟨next, run, idle, -⟩ := runCall_eq valid idle concerns
    obtain ⟨after, runs, idle⟩ := ih others idle
    refine ⟨after, ?_, idle⟩
    unfold runCalls at runs ⊢
    rw [List.foldlM_cons, run]
    exact runs

end

/-- After any history of calls on a workspace of a frozen plan, the next call shows its
caller what it shows on a fresh workspace, and the workspace then reports the raw integers of
that call: those of the record it decoded, or none. -/
theorem runCall_forgets {target : TargetLayout} {budgeted : BudgetedPlanDraft}
    {storage : Option Nat} {plan : PlanBundle}
    (frozen : freeze target budgeted storage = .ok plan) (history : List CodecCall)
    (concern : ∀ call ∈ history, call.Concerns plan) :
    ∃ workspace, runCalls (.fresh plan) history = some workspace ∧
      ∀ next : CodecCall, next.Concerns plan → ∃ outcome after afterFresh,
        runCall workspace next = some (outcome, after) ∧
          runCall (.fresh plan) next = some (outcome, afterFresh) ∧
            after.Reports plan (next.leaves outcome) := by
  have valid := planValid_of_freeze frozen
  have fresh := ExecutionWorkspace.fresh_idleFor plan
  obtain ⟨workspace, run, idle⟩ := runCalls_idle valid history concern fresh
  refine ⟨workspace, run, fun next concerns => ?_⟩
  obtain ⟨after, runs, -, reports⟩ := runCall_eq valid idle concerns
  obtain ⟨afterFresh, runsFresh, -⟩ := runCall_eq valid fresh concerns
  exact ⟨_, after, afterFresh, runs, runsFresh, reports⟩

/-- A decode of a record of the second message of the pair, with a converted reading. -/
def pairDecode (level : UInt8) : CodecCall :=
  .decode pairPlan 0 { data := some 64, bytes := [2, 0, 0, level] } sampleSlots

/-- An encode of the first message of the pair. -/
def pairEncode : CodecCall := .encode pairPlan 0 0 (pairValues 1) (sampleBuffer 0)

theorem runCall_forgets_sample : ∃ workspace outcome after afterFresh,
    runCalls (.fresh pairPlan) [pairDecode 9, pairEncode] = some workspace ∧
      runCall workspace (pairDecode 7) = some (outcome, after) ∧
      runCall (.fresh pairPlan) (pairDecode 7) = some (outcome, afterFresh) ∧
      ((pairDecode 7).leaves outcome).map (·.int64Value) = [7] ∧
      after.Reports pairPlan ((pairDecode 7).leaves outcome) := by
  obtain ⟨workspace, run, forgets⟩ := runCall_forgets pairBudgeted_freezes
    [pairDecode 9, pairEncode] (by
      intro call member
      rcases List.mem_pair.mp member with rfl | rfl <;> exact .inl rfl)
  obtain ⟨outcome, after, afterFresh, runs, fresh, reports⟩ := forgets (pairDecode 7) (.inl rfl)
  have kept : (runCall (.fresh pairPlan) (pairDecode 7)).map
      (fun ended => ((pairDecode 7).leaves ended.1).map (·.int64Value)) = some [7] := by
    set_option maxRecDepth 4000 in rfl
  rw [fresh] at kept
  exact ⟨workspace, outcome, after, afterFresh, run, runs, fresh, Option.some.inj kept, reports⟩

end ProtocolAdapter.Codec
