/-
This file relates the parts of a prepared draft by their indices: the descriptor at the
index of a message was prepared from that message, and the index of a pipeline from that
pipeline, after the checks on each of its messages passed.
-/

import ProtocolAdapter.Builder.Frozen

namespace ProtocolAdapter

open Foundation

/-! ### Messages -/

/-- The descriptor of a message comes from the rules for its kind. -/
inductive PreparedAs (limits : ResourceProfileLimits) (draft : PlanDraftData) (index : Nat)
    (message : MessagePlan) (execution : MessageExecutionPlan) : Prop
  | text (text : AsciiTextPlan) (kind : message.asciiText = some text)
      (run : prepareTextMessage draft.schemaVersion index message text = .ok execution)
  | binary (counts : List Nat) (fields : FieldLoopState) (kind : message.asciiText = none)
      (run : prepareBinaryMessage limits ⟨draft.schemaVersion, draft.conversions, index, message⟩
        counts = .ok (execution, fields))

/-- A round of the loop appends the descriptor of its message. -/
theorem prepareMessage_ok {limits : ResourceProfileLimits} {draft : PlanDraftData}
    {state next : MessageLoopState} {message : MessagePlan}
    (run : prepareMessage limits draft state message = .ok next) :
    ∃ execution, next.executions = state.executions ++ [execution] ∧
      PreparedAs limits draft state.executions.length message execution := by
  unfold prepareMessage at run
  simp only [rejectIf_bind_eq_ok] at run
  obtain ⟨-, run⟩ := run
  split at run
  · rename_i text kind
    simp only [bind_eq_ok, pure_eq_ok] at run
    obtain ⟨execution, prepared, rfl⟩ := run
    exact ⟨execution, rfl, .text text kind prepared⟩
  · rename_i kind
    simp only [bind_eq_ok, pure_eq_ok] at run
    obtain ⟨⟨execution, fields⟩, prepared, rfl⟩ := run
    exact ⟨execution, rfl, .binary _ fields kind prepared⟩

/-- The loop appends the descriptors of its messages in order. -/
theorem prepareMessages_loop {limits : ResourceProfileLimits} {draft : PlanDraftData} :
    ∀ {messages : List MessagePlan} {state result : MessageLoopState},
      messages.foldlM (prepareMessage limits draft) state = .ok result →
      ∃ more, result.executions = state.executions ++ more ∧ more.length = messages.length ∧
        ∀ index message, messages[index]? = some message → ∃ execution,
          more[index]? = some execution ∧
          PreparedAs limits draft (state.executions.length + index) message execution := by
  intro messages
  induction messages with
  | nil =>
    intro state result run
    simp only [List.foldlM_nil, pure_eq_ok] at run
    subst run
    exact ⟨[], by simp, rfl, by simp⟩
  | cons head rest inductionHypothesis =>
    intro state result run
    simp only [List.foldlM_cons, bind_eq_ok] at run
    obtain ⟨next, stepped, run⟩ := run
    obtain ⟨first, appended, prepared⟩ := prepareMessage_ok stepped
    obtain ⟨more, whole, length, each⟩ := inductionHypothesis run
    refine ⟨first :: more, ?_, by rw [List.length_cons, List.length_cons, length], ?_⟩
    · rw [whole, appended, List.append_assoc, List.singleton_append]
    · intro index message found
      cases index with
      | zero =>
        obtain rfl : head = message := by simpa using found
        exact ⟨first, rfl, prepared⟩
      | succ index =>
        obtain ⟨execution, listed, kind⟩ := each index message (by simpa using found)
        rw [appended, List.length_append, List.length_singleton, Nat.add_assoc,
          Nat.add_comm 1] at kind
        exact ⟨execution, by simpa using listed, kind⟩

section

variable {target : TargetLayout} {draft : PlanDraftData} {plan : PlanBundle}

/-- The descriptors of a frozen plan are those of the messages of its draft. -/
theorem FrozenFrom.executions (frozen : FrozenFrom target draft plan) :
    plan.messageExecutionPlans.length = draft.messages.length ∧
      ∀ index message, draft.messages[index]? = some message → ∃ execution,
        plan.messageExecutionPlans[index]? = some execution ∧
        PreparedAs (getResourceProfileLimits draft.resourceProfile) draft index message
          execution := by
  obtain ⟨state, prepared, -, same⟩ := frozen.prepared
  simp only [prepareMessages, bind_eq_ok, rejectIf_eq_ok, pure_eq_ok] at prepared
  obtain ⟨looped, run, -, -, rfl⟩ := prepared
  obtain ⟨more, whole, length, each⟩ := prepareMessages_loop run
  rw [List.nil_append] at whole
  rw [← same, whole]
  refine ⟨length, fun index message found => ?_⟩
  obtain ⟨execution, listed, kind⟩ := each index message found
  exact ⟨execution, listed, by simpa using kind⟩

theorem FrozenFrom.preparedAs (frozen : FrozenFrom target draft plan) {index : Nat}
    {execution : MessageExecutionPlan}
    (found : plan.messageExecutionPlans[index]? = some execution) :
    ∃ message, draft.messages[index]? = some message ∧
      PreparedAs (getResourceProfileLimits draft.resourceProfile) draft index message
        execution := by
  obtain ⟨length, each⟩ := frozen.executions
  have inside := (List.getElem?_eq_some_iff.mp found).1
  rw [length] at inside
  obtain ⟨other, listed, prepared⟩ := each index _ (List.getElem?_eq_getElem inside)
  obtain rfl := Option.some.inj (found.symm.trans listed)
  exact ⟨_, List.getElem?_eq_getElem inside, prepared⟩

/-- The messages of a frozen plan are within the limits of its profile. -/
theorem FrozenFrom.bounds (frozen : FrozenFrom target draft plan) {index : Nat}
    {message : MessagePlan} (found : draft.messages[index]? = some message) :
    let limits := getResourceProfileLimits draft.resourceProfile
    message.frameLengthBytes ≤ limits.maxFrameBytes ∧
      message.fields.length ≤ limits.maxFieldsPerMessage ∧
      message.bitContainers.length ≤ limits.maxFieldsPerMessage := by
  obtain ⟨-, start, counted, result, counting, -⟩ := frozen.requirements_parts
  have listed : draft.messages.zipIdx[index]? = some (message, index) := by
    simp [List.getElem?_zipIdx, found]
  obtain ⟨before, after, -, step, -⟩ := foldlM_ok_take counting index _ listed
  exact bounds_of_countMessage step

/-! ### Pipelines -/

/-- What the builder has checked for a message of a pipeline. -/
structure PipelineMessageChecked (draft : PlanDraftData)
    (executions : List PreparedMessageExecutionPlan) (pipeline : PipelinePlan)
    (framing : FramingPlan) (messageIndex : Nat) (message : MessagePlan)
    (prepared : PreparedMessageExecutionPlan) : Prop where
  foundMessage : draft.messages[messageIndex]? = some message
  foundPrepared : executions[messageIndex]? = some prepared
  direction : message.directionId = pipeline.directionId
  stream : framing.inputKind = .streamChunk → streamMessageInvalid framing message prepared = false

/-- A round of the loop over the messages of a pipeline checks its message. -/
theorem preparePipelineMessage_ok {executions : List PreparedMessageExecutionPlan}
    {pipelineIndex messageIndex : Nat} {pipeline : PipelinePlan} {framing : FramingPlan}
    {state next : PipelineLoopState}
    (run : preparePipelineMessage draft executions pipelineIndex pipeline framing state
      messageIndex = .ok next) :
    ∃ message prepared, PipelineMessageChecked draft executions pipeline framing messageIndex
        message prepared ∧
      messageIndex ∉ state.seen ∧
      (∀ earlier ∈ state.seen, ambiguousWith executions prepared earlier = false) ∧
      next = { seen := messageIndex :: state.seen
               execution := state.execution.enter messageIndex prepared } := by
  unfold preparePipelineMessage at run
  simp only at run
  split at run
  · rename_i message prepared foundMessage foundPrepared
    simp only [rejectIf_bind_eq_ok, pure_eq_ok, not_or, not_not, not_and,
      Bool.not_eq_true, List.any_eq_false] at run
    obtain ⟨⟨fresh, direction⟩, stream, distinct, rfl⟩ := run
    exact ⟨message, prepared, ⟨foundMessage, foundPrepared, direction, stream⟩, fresh,
      fun earlier member => distinct earlier member, rfl⟩
  · cases run

/-- The index of a pipeline was prepared from that pipeline. -/
theorem preparePipelines_ok {executions : List PreparedMessageExecutionPlan} :
    ∀ {pipelines : List PipelinePlan} {start : Nat} {ids : List String}
      {result : List PreparedPipelineExecutionPlan},
      preparePipelines draft executions pipelines start ids = .ok result →
      result.length = pipelines.length ∧
        ∀ index pipeline, pipelines[index]? = some pipeline → ∃ earlier execution,
          result[index]? = some execution ∧
          preparePipeline draft executions earlier (start + index) pipeline = .ok execution := by
  intro pipelines
  induction pipelines with
  | nil =>
    intro start ids result run
    cases run
    exact ⟨rfl, by simp⟩
  | cons head rest inductionHypothesis =>
    intro start ids result run
    simp only [preparePipelines, bind_eq_ok, pure_eq_ok] at run
    obtain ⟨first, prepared, later, run, rfl⟩ := run
    obtain ⟨length, each⟩ := inductionHypothesis run
    refine ⟨by rw [List.length_cons, List.length_cons, length], ?_⟩
    intro index pipeline found
    cases index with
    | zero =>
      obtain rfl : head = pipeline := by simpa using found
      exact ⟨ids, first, rfl, prepared⟩
    | succ index =>
      obtain ⟨earlier, execution, listed, kind⟩ := each index pipeline (by simpa using found)
      rw [Nat.add_assoc, Nat.add_comm 1] at kind
      exact ⟨earlier, execution, by simpa using listed, kind⟩

/-- A prepared pipeline: its profile and the loop over its messages. -/
structure PipelinePrepared (draft : PlanDraftData)
    (executions : List PreparedMessageExecutionPlan) (pipelineIndex : Nat)
    (pipeline : PipelinePlan) (execution : PipelineExecutionPlan) (framing : FramingPlan) :
    Prop where
  profile : draft.framingProfiles[pipeline.framingProfileIndex]? = some framing
  nonempty : pipeline.messageIndices ≠ []
  loop : ∃ state, pipeline.messageIndices.foldlM
      (preparePipelineMessage draft executions pipelineIndex pipeline framing)
      { execution :=
          { framingProfileIndex := pipeline.framingProfileIndex
            allowedMessageWords := List.replicate (wordCount draft.messages.length) 0 } } =
        .ok state ∧ execution = state.execution

theorem preparePipeline_ok {executions : List PreparedMessageExecutionPlan} {ids : List String}
    {pipelineIndex : Nat} {pipeline : PipelinePlan} {execution : PreparedPipelineExecutionPlan}
    (run : preparePipeline draft executions ids pipelineIndex pipeline = .ok execution) :
    ∃ framing, PipelinePrepared draft executions pipelineIndex pipeline execution framing := by
  unfold preparePipeline at run
  simp only [rejectIf_bind_eq_ok, not_or] at run
  obtain ⟨⟨-, -, -, nonempty⟩, run⟩ := run
  split at run
  · cases run
  · rename_i framing found
    simp only [bind_eq_ok, rejectIf_eq_ok, pure_eq_ok] at run
    obtain ⟨state, looped, -, -, rfl⟩ := run
    exact ⟨framing, found, nonempty, state, looped, rfl⟩

/-- Every message of a prepared pipeline was checked. -/
theorem PipelinePrepared.checked {executions : List PreparedMessageExecutionPlan}
    {pipelineIndex messageIndex : Nat} {pipeline : PipelinePlan}
    {execution : PipelineExecutionPlan} {framing : FramingPlan}
    (prepared : PipelinePrepared draft executions pipelineIndex pipeline execution framing)
    (member : messageIndex ∈ pipeline.messageIndices) :
    ∃ message descriptor, PipelineMessageChecked draft executions pipeline framing messageIndex
      message descriptor := by
  obtain ⟨state, looped, -⟩ := prepared.loop
  obtain ⟨position, found⟩ := List.mem_iff_getElem?.mp member
  obtain ⟨before, after, -, run, -⟩ := foldlM_ok_take looped position messageIndex found
  obtain ⟨message, descriptor, checked, -⟩ := preparePipelineMessage_ok run
  exact ⟨message, descriptor, checked⟩

/-- The index of a pipeline of a frozen plan was prepared from that pipeline. -/
theorem FrozenFrom.pipelinePrepared (frozen : FrozenFrom target draft plan) {index : Nat}
    {pipeline : FrozenPipelinePlan} (found : plan.pipelines[index]? = some pipeline) :
    ∃ execution framing, plan.pipelineExecutionPlans[index]? = some execution ∧
      PipelinePrepared draft plan.messageExecutionPlans index pipeline execution framing := by
  rw [frozen.pipelines] at found
  obtain ⟨-, each⟩ := preparePipelines_ok frozen.indexed
  obtain ⟨earlier, execution, listed, run⟩ := each index pipeline found
  rw [Nat.zero_add] at run
  obtain ⟨framing, prepared⟩ := preparePipeline_ok run
  exact ⟨execution, framing, listed, prepared⟩

end

end ProtocolAdapter
