/-
This file states what the codec relies on in a plan: every message is a valid binary or a
valid text message, the layout of the workspace covers every message, and every pipeline
has an index of its messages. It shows that a frozen plan has these properties, and no
later proof about the codec looks at the builder again.
-/

import ProtocolAdapter.Codec.Determined
import ProtocolAdapter.Codec.PipelineIndex

namespace ProtocolAdapter.Codec

open Foundation

/-! ### Text messages -/

/-- A text field: a byte string the caller supplies, without a place of its own. -/
structure TextFieldValid (field : FieldExecutionPlan) : Prop where
  type : field.valueType = .bytes
  source : field.encodeSource = .input
  plain : field.bitContainerIndex = invalidIndex
  unconverted : hasConversion field = false
  offset : field.offset = 0
  width : field.width = 0

/-- An action over the fields of a message, none of whose records outgrows the frame. -/
structure TextActionValid (message : MessageExecutionPlan) (action : TextActionExecutionPlan) :
    Prop where
  walkable : action.Valid (message.fields.map (·.textBounds))
  longest : action.maxRecordLength ≤ message.frameSize

/-- What the descriptor of a text message guarantees. -/
structure TextValid (schemaVersion : String) (message : MessageExecutionPlan) : Prop where
  schema : isTextSchema schemaVersion = true
  noIntegrity : message.integrity = none
  noPayload : message.boundedPayload = none
  noLength : message.computedLength = none
  noContainers : message.bitContainers = []
  noFixedBytes : message.fixedBytes = []
  frameBound : message.frameSize ≤ 65536
  fields : ∀ field ∈ message.fields, TextFieldValid field
  ordinals : ∀ index field, message.fields[index]? = some field → field.textEncodeInput = true →
    field.inputOrdinal = (message.fields.take index).countP (·.textEncodeInput)
  requiredInputs : message.requiredInputCount = message.fields.countP (·.textEncodeInput)
  decode : ∀ action, message.textDecode = some action → TextActionValid message action ∧
    message.textDecodeFieldCount = (referencedFields action.segments).length
  encode : ∀ action, message.textEncode = some action → TextActionValid message action ∧
    ∀ fieldIndex ∈ referencedFields action.segments,
      ∃ field, message.fields[fieldIndex]? = some field ∧ field.textEncodeInput = true

/-! ### Plans -/

/-- The two kinds of messages. -/
inductive MessageValid (schemaVersion : String) (conversions : List LinearConversionDescriptor)
    (message : MessageExecutionPlan) : Prop where
  | binary (valid : BinaryValid schemaVersion conversions message)
  | text (valid : TextValid schemaVersion message)

/-- A workspace with this layout has the slots a message needs. -/
structure LayoutCovers (layout : ExecutionResourceLayout) (message : MessageExecutionPlan) :
    Prop where
  fields : message.fields.length ≤ layout.maxFieldsPerMessage
  inputs : message.requiredInputCount ≤ layout.encodeValueIndexCount
  words : presenceWordCount message.requiredInputCount ≤ layout.encodePresenceWordCount
  containers : message.bitContainers.length ≤ layout.bitContainerValueCount
  conversions : message.fields.countP hasConversion ≤ layout.conversionValueCount

/-- What the codec relies on in a plan. -/
structure PlanValid (plan : PlanBundle) : Prop where
  supported : supportsCompleteRecordSchema plan.schemaVersion = true
  messages : ∀ message ∈ plan.messageExecutionPlans,
    MessageValid plan.schemaVersion plan.conversions message
  covers : ∀ message ∈ plan.messageExecutionPlans,
    LayoutCovers plan.executionResourceLayout message
  fieldCount : ∀ message ∈ plan.messageExecutionPlans, message.fields.length ≤ 65536
  pipelines : ∀ (pipelineIndex : Nat) pipeline,
    plan.pipelineExecutionPlans[pipelineIndex]? = some pipeline → ∃ indices,
      Indexed plan.messageExecutionPlans indices pipeline

/-! ### Prepared text messages -/

/-- The descriptions of the fields of a text message. -/
theorem prepareTextFields_spec {messageIndex : Nat} {decodeFields encodeFields : List Nat} :
    ∀ {fields : List FieldPlan} {fieldIndex : Nat} {ids : List String} {ordinal : Nat}
      {executions : List FieldExecutionPlan} {count : Nat},
      prepareTextFields messageIndex decodeFields encodeFields fields fieldIndex ids ordinal =
        .ok (executions, count) →
      (∀ field ∈ executions, TextFieldValid field) ∧
        executions.map (·.textBounds) = fieldBounds fields ∧
        count = ordinal + executions.countP (·.textEncodeInput) ∧
        ∀ index field, executions[index]? = some field →
          field.textEncodeInput = decide (fieldIndex + index ∈ encodeFields) ∧
            (field.textEncodeInput = true → field.inputOrdinal =
              ordinal + (executions.take index).countP (·.textEncodeInput)) := by
  intro fields
  induction fields with
  | nil =>
    intro fieldIndex ids ordinal executions count run
    cases run
    simp [fieldBounds]
  | cons field rest inductionHypothesis =>
    intro fieldIndex ids ordinal executions count run
    simp only [prepareTextFields, bind_eq_ok, pure_eq_ok, Prod.mk.injEq] at run
    obtain ⟨_, -, _, -, ⟨later, inputs⟩, run, rfl, rfl⟩ := run
    obtain ⟨valid, bounds, counted, each⟩ := inductionHypothesis run
    refine ⟨?_, ?_, ?_, ?_⟩
    · intro execution member
      rcases List.mem_cons.mp member with rfl | member
      · exact ⟨rfl, rfl, rfl, rfl, rfl, rfl⟩
      · exact valid execution member
    · rw [List.map_cons, bounds]
      rfl
    · rw [counted, List.countP_cons]
      by_cases input : fieldIndex ∈ encodeFields
      · simp only [input, decide_true, if_true, textFieldExecution]
        omega
      · simp only [input, decide_false, Bool.false_eq_true, if_false, textFieldExecution]
        omega
    · intro index execution found
      cases index with
      | zero =>
        obtain rfl := Option.some.inj found
        refine ⟨rfl, fun input => ?_⟩
        have chosen : decide (fieldIndex ∈ encodeFields) = true := input
        simp [textFieldExecution, of_decide_eq_true chosen]
      | succ index =>
        obtain ⟨input, ordinals⟩ := each index execution (by simpa using found)
        rw [Nat.add_right_comm] at input
        refine ⟨input, fun chosen => ?_⟩
        rw [ordinals chosen, List.take_succ_cons, List.countP_cons]
        by_cases first : fieldIndex ∈ encodeFields
        · simp only [first, decide_true, if_true, textFieldExecution]
          omega
        · simp only [first, decide_false, Bool.false_eq_true, if_false, textFieldExecution]
          omega

theorem prepareTextMessage_counts {schemaVersion : String} {messageIndex : Nat}
    {message : MessagePlan} {text : AsciiTextPlan} {execution : MessageExecutionPlan}
    (run : prepareTextMessage schemaVersion messageIndex message text = .ok execution) :
    execution.fields.length = message.fields.length ∧
      execution.fields.countP hasConversion = 0 := by
  simp only [prepareTextMessage, rejectIf_bind_eq_ok] at run
  obtain ⟨-, run⟩ := run
  split at run
  swap
  · cases run
  simp only [bind_eq_ok, pure_eq_ok] at run
  obtain ⟨⟨fields, inputCount⟩, prepared, rfl⟩ := run
  obtain ⟨valid, bounds, -⟩ := prepareTextFields_spec prepared
  constructor
  · have lengths := congrArg List.length bounds
    rwa [fieldBounds, List.length_map, List.length_map] at lengths
  · refine List.countP_eq_zero.mpr fun field member => ?_
    simp [(valid field member).unconverted]

/-- The fields of a valid sequence of segments exist. -/
theorem segments_referenced {bounds : List (Nat × Nat)} {fieldIndex : Nat} :
    ∀ {segments : List TextSegmentPlan}, SegmentsValid bounds segments →
      fieldIndex ∈ referencedFields segments → ∃ bound, bounds[fieldIndex]? = some bound := by
  intro segments
  induction segments with
  | nil => simp [referencedFields]
  | cons segment rest inductionHypothesis =>
    rintro ⟨first, later⟩ member
    rw [referencedFields, List.filter_cons] at member
    cases kind : segment.kind with
    | literal => exact inductionHypothesis later (by simpa [kind, referencedFields] using member)
    | field =>
      simp only [kind, beq_self_eq_true, if_true, List.map_cons, List.mem_cons] at member
      rcases member with rfl | member
      · simp only [SegmentValid, kind] at first
        obtain ⟨bound, found, -⟩ := first
        exact ⟨bound, found⟩
      · exact inductionHypothesis later member

theorem textActionValid_of_checkTextAction {fields : List FieldPlan}
    {action : TextActionPlan} {references : List Nat} {message : MessageExecutionPlan}
    (checked : checkTextAction fields message.frameSize (some action) = some references)
    (bounds : message.fields.map (·.textBounds) = fieldBounds fields) :
    TextActionValid message action := by
  refine ⟨bounds ▸ (valid_of_checkTextAction checked).1, ?_⟩
  simp only [checkTextAction, Option.bind_eq_bind, Option.bind_eq_some_iff,
    failIf_eq_some] at checked
  obtain ⟨-, -, tally, -, -, within, -⟩ := checked
  omega

/-- A prepared text message is valid. -/
theorem textValid_of_prepareTextMessage {schemaVersion : String} {messageIndex : Nat}
    {message : MessagePlan} {text : AsciiTextPlan} {execution : MessageExecutionPlan}
    (run : prepareTextMessage schemaVersion messageIndex message text = .ok execution)
    (frameBound : message.frameLengthBytes ≤ 65536) : TextValid schemaVersion execution := by
  simp only [prepareTextMessage, rejectIf_bind_eq_ok, not_or] at run
  obtain ⟨⟨schema, -⟩, run⟩ := run
  split at run
  swap
  · cases run
  rename_i decodeFields encodeFields decodeRun encodeRun
  simp only [bind_eq_ok, pure_eq_ok] at run
  obtain ⟨⟨fields, inputCount⟩, prepared, rfl⟩ := run
  obtain ⟨valid, bounds, counted, each⟩ := prepareTextFields_spec prepared
  refine ⟨?_, rfl, rfl, rfl, rfl, rfl, frameBound, valid, fun index field found input => ?_,
    by simpa using counted, fun action has => ?_, fun action has => ?_⟩
  · simpa [isTextSchema] using not_not.mp schema
  · have ordinal := (each index field found).2 input
    rwa [Nat.zero_add] at ordinal
  · have decode : text.decode = some action := has
    rw [decode] at decodeRun
    refine ⟨textActionValid_of_checkTextAction decodeRun bounds, ?_⟩
    rw [(valid_of_checkTextAction decodeRun).2, List.length_reverse]
  · have encode : text.encode = some action := has
    rw [encode] at encodeRun
    refine ⟨textActionValid_of_checkTextAction encodeRun bounds, fun fieldIndex member => ?_⟩
    obtain ⟨bound, listed⟩ :=
      segments_referenced (valid_of_checkTextAction encodeRun).1.segments member
    have inside : fieldIndex < fields.length := by
      have within := (List.getElem?_eq_some_iff.mp (bounds ▸ listed)).1
      rwa [List.length_map] at within
    refine ⟨fields[fieldIndex], List.getElem?_eq_getElem inside, ?_⟩
    have input := (each fieldIndex _ (List.getElem?_eq_getElem inside)).1
    rw [input, Nat.zero_add, decide_eq_true_eq, (valid_of_checkTextAction encodeRun).2,
      List.mem_reverse]
    exact member

/-! ### The layout of the workspace -/

theorem fieldLoop_conversions {message : MessagePlan} {counts : List Nat}
    {fields : List FieldPlan} (placed : AllPlaced message fields) :
    (fieldLoop message counts fields).fields.countP hasConversion =
      (fieldLoop message counts fields).conversionSlot := by
  induction fields using List.reverseRecOn with
  | nil => rfl
  | append_singleton fields field inductionHypothesis =>
    obtain ⟨earlier, placement, found⟩ := placed.append
    rw [fieldLoop_append_singleton found, FieldLoopState.extend, List.countP_append,
      inductionHypothesis earlier, List.countP_singleton]
    have same : hasConversion (fieldExecution (fieldLoop message counts fields) field placement) =
        field.hasConversion := rfl
    rw [same]
    cases field.hasConversion <;> rfl

/-- The loop over the fields describes each of them and counts their conversions. -/
theorem prepareBinaryMessage_counts {limits : ResourceProfileLimits} {context : FieldContext}
    {counts : List Nat} {execution : MessageExecutionPlan} {fields : FieldLoopState}
    (run : prepareBinaryMessage limits context counts = .ok (execution, fields)) :
    execution.fields.length = context.message.fields.length ∧
      execution.fields.countP hasConversion = fields.conversionSlot ∧
      execution.bitContainers.length = context.message.bitContainers.length := by
  simp only [prepareBinaryMessage, bind_eq_ok, pure_eq_ok, Prod.mk.injEq] at run
  obtain ⟨_, -, _, -, _, -, _, -, looped, loop, _, -, _, -, fixed, -, _, -, _, -, rfl, rfl⟩ := run
  obtain ⟨computed, each, -⟩ := prepareFields_ok loop
  have placed : AllPlaced context.message context.message.fields := by
    intro field member
    obtain ⟨index, found⟩ := List.mem_iff_getElem?.mp member
    obtain ⟨placement, passed⟩ := each index field found
    exact ⟨placement, passed.placed⟩
  refine ⟨?_, ?_, List.length_map _⟩
  · show looped.fields.length = _
    rw [computed, fieldLoop_length placed]
  · show looped.fields.countP hasConversion = looped.conversionSlot
    rw [computed, fieldLoop_conversions placed]

/-- The layout has grown from one round of the loop to a later one. -/
structure LayoutGrows (before after : ExecutionResourceLayout) : Prop where
  fields : before.maxFieldsPerMessage ≤ after.maxFieldsPerMessage
  inputs : before.maxInputFieldsPerMessage ≤ after.maxInputFieldsPerMessage
  conversions : before.conversionValueCount ≤ after.conversionValueCount

/-- The maxima of the loop take a message into account. -/
structure LoopCovers (layout : ExecutionResourceLayout) (execution : MessageExecutionPlan) :
    Prop where
  fields : execution.fields.length ≤ layout.maxFieldsPerMessage
  inputs : execution.requiredInputCount ≤ layout.maxInputFieldsPerMessage
  conversions : execution.fields.countP hasConversion ≤ layout.conversionValueCount

theorem LoopCovers.grow {before after : ExecutionResourceLayout}
    {execution : MessageExecutionPlan} (covers : LoopCovers before execution)
    (grows : LayoutGrows before after) : LoopCovers after execution :=
  ⟨covers.fields.trans grows.fields, covers.inputs.trans grows.inputs,
    covers.conversions.trans grows.conversions⟩

theorem extend_covers {state : MessageLoopState} {message : MessagePlan}
    {execution : PreparedMessageExecutionPlan} {slots : Nat} {counts : List Nat}
    (length : execution.fields.length = message.fields.length)
    (converted : execution.fields.countP hasConversion = slots) :
    LayoutGrows state.layout (state.extend message execution slots counts).layout ∧
      LoopCovers (state.extend message execution slots counts).layout execution := by
  refine ⟨⟨le_max_left _ _, le_max_left _ _, le_max_left _ _⟩, ?_, le_max_right _ _, ?_⟩
  · rw [length]
    exact le_max_right _ _
  · rw [converted]
    exact le_max_right _ _

/-- A round of the loop takes its message into account. -/
theorem prepareMessage_covers {limits : ResourceProfileLimits} {draft : PlanDraftData}
    {state next : MessageLoopState} {message : MessagePlan}
    (run : prepareMessage limits draft state message = .ok next) :
    LayoutGrows state.layout next.layout ∧ ∃ execution,
      next.executions = state.executions ++ [execution] ∧ LoopCovers next.layout execution := by
  unfold prepareMessage at run
  simp only [rejectIf_bind_eq_ok] at run
  obtain ⟨-, run⟩ := run
  split at run
  · rename_i text kind
    simp only [bind_eq_ok, pure_eq_ok] at run
    obtain ⟨execution, prepared, rfl⟩ := run
    obtain ⟨length, unconverted⟩ := prepareTextMessage_counts prepared
    obtain ⟨grows, covers⟩ := extend_covers length unconverted
    exact ⟨grows, execution, rfl, covers⟩
  · simp only [bind_eq_ok, pure_eq_ok] at run
    obtain ⟨⟨execution, fields⟩, prepared, rfl⟩ := run
    obtain ⟨length, converted, -⟩ := prepareBinaryMessage_counts prepared
    obtain ⟨grows, covers⟩ := extend_covers length converted
    exact ⟨grows, execution, rfl, covers⟩

/-- The loop takes all its messages into account. -/
theorem prepareMessages_covers {limits : ResourceProfileLimits} {draft : PlanDraftData} :
    ∀ {messages : List MessagePlan} {state result : MessageLoopState},
      messages.foldlM (prepareMessage limits draft) state = .ok result →
      LayoutGrows state.layout result.layout ∧
        ∀ execution ∈ result.executions, execution ∈ state.executions ∨
          LoopCovers result.layout execution := by
  intro messages
  induction messages with
  | nil =>
    intro state result run
    simp only [List.foldlM_nil, pure_eq_ok] at run
    subst run
    exact ⟨⟨le_rfl, le_rfl, le_rfl⟩, fun _ member => Or.inl member⟩
  | cons head rest inductionHypothesis =>
    intro state result run
    simp only [List.foldlM_cons, bind_eq_ok] at run
    obtain ⟨next, stepped, run⟩ := run
    obtain ⟨first, execution, appended, covers⟩ := prepareMessage_covers stepped
    obtain ⟨later, each⟩ := inductionHypothesis run
    refine ⟨⟨first.fields.trans later.fields, first.inputs.trans later.inputs,
      first.conversions.trans later.conversions⟩, fun other member => ?_⟩
    rcases each other member with earlier | covered
    · rw [appended, List.mem_append, List.mem_singleton] at earlier
      rcases earlier with earlier | rfl
      · exact Or.inl earlier
      · exact Or.inr (covers.grow later)
    · exact Or.inr covered

/-! ### Frozen plans -/

section

variable {target : TargetLayout} {draft : PlanDraftData} {plan : PlanBundle}

/-- Only bit members of a resolved draft refer to a container. -/
theorem fieldsResolved (resolved : draft.Resolved) {message : MessagePlan}
    (member : message ∈ draft.messages) : FieldsResolved message.fields := by
  intro field listed plain
  refine resolved message member field listed ?_
  simpa [FieldPlan.isBitfield] using plain

theorem maxFrameBytes_le (profile : ResourceProfile) :
    (getResourceProfileLimits profile).maxFrameBytes ≤ 65536 ∧
      (getResourceProfileLimits profile).maxFieldsPerMessage ≤ 65536 := by
  cases profile <;> decide

theorem wordCount_mono {small large : Nat} (le : small ≤ large) :
    wordCount small ≤ wordCount large := by
  unfold wordCount bitsPerAllowedMessageWord
  split <;> split <;> omega

/-- The maximum a loop has counted is at least the start and every item. -/
theorem le_foldl_max {α : Type} (size : α → Nat) {items : List α} {start : Nat} :
    start ≤ items.foldl (fun count item => max count (size item)) start ∧
      ∀ item ∈ items, size item ≤ items.foldl (fun count item => max count (size item)) start := by
  induction items generalizing start with
  | nil => exact ⟨le_rfl, by simp⟩
  | cons head rest inductionHypothesis =>
    obtain ⟨least, each⟩ := @inductionHypothesis (max start (size head))
    refine ⟨(le_max_left _ _).trans least, fun item member => ?_⟩
    rcases List.mem_cons.mp member with rfl | member
    · exact (le_max_right _ _).trans least
    · exact each item member

/-- The slots a completed layout has. -/
theorem finishLayout_ok {limits : ResourceProfileLimits} {messages : List MessagePlan}
    {layout result : ExecutionResourceLayout}
    (finished : finishLayout target limits messages layout = .ok result) :
    result.encodeValueIndexCount = layout.maxInputFieldsPerMessage ∧
      result.encodePresenceWordCount = wordCount layout.maxInputFieldsPerMessage ∧
      (∀ message ∈ messages, message.bitContainers.length ≤ result.bitContainerValueCount) ∧
      result.maxFieldsPerMessage = layout.maxFieldsPerMessage ∧
      result.conversionValueCount = layout.conversionValueCount := by
  unfold finishLayout at finished
  simp only at finished
  split at finished
  · cases finished
  · simp only [rejectIf_bind_eq_ok, pure_eq_ok] at finished
    obtain ⟨-, rfl⟩ := finished
    exact ⟨rfl, rfl,
      (le_foldl_max fun message : MessagePlan => message.bitContainers.length).2, rfl, rfl⟩

/-- Every message of a frozen plan is valid. -/
theorem messageValid_of_frozen (frozen : FrozenFrom target draft plan)
    (resolved : draft.Resolved) {execution : MessageExecutionPlan}
    (member : execution ∈ plan.messageExecutionPlans) :
    MessageValid plan.schemaVersion plan.conversions execution := by
  obtain ⟨index, found⟩ := List.mem_iff_getElem?.mp member
  obtain ⟨message, listed, kind⟩ := frozen.preparedAs found
  obtain ⟨frame, -, containers⟩ := frozen.bounds listed
  obtain ⟨frameLimit, fieldLimit⟩ := maxFrameBytes_le draft.resourceProfile
  rw [frozen.schemaVersion, frozen.conversions]
  cases kind with
  | text text kind run =>
    exact .text (textValid_of_prepareTextMessage run (frame.trans frameLimit))
  | binary counts fields kind run =>
    obtain ⟨fixed, checks⟩ := binaryPrepared_of_prepareBinaryMessage run
      (fieldsResolved resolved (List.mem_of_getElem? listed))
      (valid_of_checkConversions frozen.requirements_parts.1) (frame.trans frameLimit)
      (containers.trans fieldLimit)
    exact .binary checks.valid

/-- The layout of a frozen plan covers every message. -/
theorem layoutCovers_of_frozen (frozen : FrozenFrom target draft plan)
    {execution : MessageExecutionPlan} (member : execution ∈ plan.messageExecutionPlans) :
    LayoutCovers plan.executionResourceLayout execution := by
  obtain ⟨state, prepared, finished, same⟩ := frozen.prepared
  simp only [prepareMessages, bind_eq_ok, rejectIf_eq_ok, pure_eq_ok] at prepared
  obtain ⟨looped, run, -, -, rfl⟩ := prepared
  obtain ⟨inputs, words, containers, fields, conversions⟩ := finishLayout_ok finished
  obtain ⟨-, each⟩ := prepareMessages_covers run
  rcases each execution (same ▸ member) with impossible | covers
  · cases impossible
  refine ⟨fields ▸ covers.fields, inputs ▸ covers.inputs, ?_, ?_, conversions ▸ covers.conversions⟩
  · rw [words]
    exact wordCount_mono covers.inputs
  · obtain ⟨index, found⟩ := List.mem_iff_getElem?.mp member
    obtain ⟨message, listed, kind⟩ := frozen.preparedAs found
    have counted := containers message (List.mem_of_getElem? listed)
    cases kind with
    | text text kind run =>
      have frame := (frozen.bounds listed).1.trans (maxFrameBytes_le draft.resourceProfile).1
      rw [(textValid_of_prepareTextMessage run frame).noContainers]
      exact Nat.zero_le _
    | binary counts fields kind run =>
      rw [(prepareBinaryMessage_counts run).2.2]
      exact counted

theorem fieldCount_of_frozen (frozen : FrozenFrom target draft plan)
    {execution : MessageExecutionPlan} (member : execution ∈ plan.messageExecutionPlans) :
    execution.fields.length ≤ 65536 := by
  obtain ⟨index, found⟩ := List.mem_iff_getElem?.mp member
  obtain ⟨message, listed, kind⟩ := frozen.preparedAs found
  have fields := (frozen.bounds listed).2.1.trans (maxFrameBytes_le draft.resourceProfile).2
  cases kind with
  | text text kind run => rwa [(prepareTextMessage_counts run).1]
  | binary counts loop kind run => rwa [(prepareBinaryMessage_counts run).1]

/-- What the codec relies on holds in every plan that has been frozen. -/
theorem planValid_of_freeze {budgeted : BudgetedPlanDraft} {storage : Option Nat}
    (frozen : freeze target budgeted storage = .ok plan) : PlanValid plan where
  supported := by
    have supported := (frozenFrom_of_freezeImpl frozen).supported
    simpa [supportsCompleteRecordSchema, supportedSchemaVersions] using supported
  messages _ := messageValid_of_frozen (frozenFrom_of_freezeImpl frozen) budgeted.resolved
  covers _ := layoutCovers_of_frozen (frozenFrom_of_freezeImpl frozen)
  fieldCount _ := fieldCount_of_frozen (frozenFrom_of_freezeImpl frozen)
  pipelines _ _ found := by
    obtain ⟨_, -, indexed⟩ := indexed_of_frozen (frozenFrom_of_freezeImpl frozen) found
    exact ⟨_, indexed⟩

end

end ProtocolAdapter.Codec
