/-
This file shows that an encode does not depend on the order of its values. Accepted values
are for different fields, so the value found for a field is the same in every order, and the
record is made of the values found for the fields.
-/

import ProtocolAdapter.Codec.EncodeForm

namespace ProtocolAdapter.Codec

open Foundation Foundation.Operation

/-! ### The value of a field -/

section

variable {plan : PlanBundle} {messageIndex : Nat} {message : MessageExecutionPlan}
  {values others : List EncodeFieldValue}

theorem isFor_iff {index : Nat} {value : EncodeFieldValue} :
    isFor index value = true ↔ value.field.fieldIndex = index := decide_eq_true_iff

/-- A value for a field is the one found for it, when no two values are for one field. -/
theorem find_isFor_iff (distinct : (values.map (·.field.fieldIndex)).Nodup) {index : Nat}
    {value : EncodeFieldValue} :
    values.find? (isFor index) = some value ↔ value ∈ values ∧ isFor index value = true := by
  constructor
  · exact fun found => ⟨List.mem_of_find?_eq_some found, List.find?_some found⟩
  · rintro ⟨member, own⟩
    obtain ⟨other, found⟩ := Option.isSome_iff_exists.mp
      (List.find?_isSome.mpr ⟨value, member, own⟩)
    have same : other.field.fieldIndex = value.field.fieldIndex :=
      (isFor_iff.mp (List.find?_some found)).trans (isFor_iff.mp own).symm
    rw [found, List.inj_on_of_nodup_map distinct (List.mem_of_find?_eq_some found) member same]

/-- The values found for the fields do not depend on the order. -/
theorem valueFor_perm (distinct : (values.map (·.field.fieldIndex)).Nodup)
    (reordered : values.Perm others) : valueFor values = valueFor others := by
  have also : (others.map (·.field.fieldIndex)).Nodup := (reordered.map _).nodup_iff.mp distinct
  funext index
  have same : values.find? (isFor index) = others.find? (isFor index) := by
    refine Option.ext fun value => ?_
    rw [find_isFor_iff distinct, find_isFor_iff also, reordered.mem_iff]
  rw [valueFor, valueFor, same]

/-! ### Accepted values -/

/-- A value is accepted behind others when it is accepted alone and they are for other
fields. -/
theorem placementStatus_eq_none {earlier : List EncodeFieldValue} {value : EncodeFieldValue} :
    placementStatus plan messageIndex message earlier value = none ↔
      placementStatus plan messageIndex message [] value = none ∧
        earlier.any (isFor value.field.fieldIndex) = false := by
  unfold placementStatus
  simp only [List.any_nil, Bool.false_eq_true, if_false]
  split
  · simp
  split
  · simp
  split
  · simp
  split
  · simp
  cases earlier.any (isFor value.field.fieldIndex) with
  | true => simp
  | false => simp

theorem placed_iff : (∀ (position : Nat) value, values[position]? = some value →
      placementStatus plan messageIndex message (values.take position) value = none) ↔
    (∀ value ∈ values, placementStatus plan messageIndex message [] value = none) ∧
      (values.map (·.field.fieldIndex)).Nodup := by
  constructor
  · intro placed
    refine ⟨fun value member => ?_, ?_⟩
    · obtain ⟨position, listed⟩ := List.mem_iff_getElem?.mp member
      exact (placementStatus_eq_none.mp (placed position value listed)).1
    · refine List.nodup_iff_getElem?_ne_getElem?.mpr fun left right before within same => ?_
      rw [List.length_map] at within
      rw [List.getElem?_map, List.getElem?_map, List.getElem?_eq_getElem within,
        List.getElem?_eq_getElem (before.trans within)] at same
      have once := (placementStatus_eq_none.mp
        (placed right values[right] (List.getElem?_eq_getElem within))).2
      rw [List.any_eq_false] at once
      exact once values[left] (List.mem_take_iff_getElem.mpr ⟨left, by omega, rfl⟩)
        (isFor_iff.mpr (Option.some.inj same))
  · rintro ⟨alone, distinct⟩ position value listed
    refine placementStatus_eq_none.mpr ⟨alone value (List.mem_of_getElem? listed), ?_⟩
    rw [List.any_eq_false]
    intro other member own
    obtain ⟨earlier, within, rfl⟩ := List.mem_take_iff_getElem.mp member
    have inside := (List.getElem?_eq_some_iff.mp listed).1
    have same : (values.map (·.field.fieldIndex))[earlier]? =
        (values.map (·.field.fieldIndex))[position]? := by
      rw [List.getElem?_map, List.getElem?_map, listed, List.getElem?_eq_getElem (by omega),
        Option.map_some, Option.map_some, isFor_iff.mp own]
    exact List.nodup_iff_getElem?_ne_getElem?.mp distinct earlier position (by omega)
      (by rwa [List.length_map]) same

theorem conversionFailure_none_iff (same : valueFor values = valueFor others)
    (item : FieldExecutionPlan × Nat) :
    conversionFailure plan messageIndex message values item = none ↔
      conversionFailure plan messageIndex message others item = none := by
  unfold conversionFailure
  rw [same]
  simp only
  split
  · rfl
  split
  · split
    · simp
    · split <;> simp
  split
  · simp
  · rw [Option.map_eq_none_iff, Option.map_eq_none_iff]

/-- Values are accepted in every order or in none. -/
theorem inputsFailure_perm (reordered : values.Perm others)
    (accepted : inputsFailure plan messageIndex message values = none) :
    inputsFailure plan messageIndex message others = none := by
  obtain ⟨placed, supplied, converted⟩ := inputsFailure_eq_none.mp accepted
  obtain ⟨alone, distinct⟩ := placed_iff.mp placed
  refine inputsFailure_eq_none.mpr ⟨placed_iff.mpr ⟨?_, ?_⟩, ?_, ?_⟩
  · exact fun value member => alone value (reordered.mem_iff.mpr member)
  · exact (reordered.map _).nodup_iff.mp distinct
  · intro index field found takes
    rw [← reordered.any_eq]
    exact supplied index field found takes
  · intro version index field found
    exact (conversionFailure_none_iff (valueFor_perm distinct reordered) _).mp
      (converted version index field found)

end

/-! ### The record -/

section

variable {plan : PlanBundle} {message : MessageExecutionPlan} {action : TextActionExecutionPlan}
  {values others : List EncodeFieldValue} (same : valueFor values = valueFor others)

include same

theorem suppliedSegment_congr : suppliedSegment values = suppliedSegment others := by
  funext segment
  unfold suppliedSegment
  rw [same]

theorem textSize_congr : ∀ {segments : List TextSegmentExecutionPlan} {size : Nat},
    textSize message values segments size = textSize message others segments size
  | [], _ => rfl
  | segment :: rest, size => by
    unfold textSize
    rw [suppliedSegment_congr same]
    simp only
    rw [textSize_congr]

theorem textRecord_congr (segments : List TextSegmentExecutionPlan) :
    textRecord values segments = textRecord others segments := by
  unfold textRecord
  rw [suppliedSegment_congr same]

theorem textReview_congr : textReview message action values = textReview message action others := by
  have visitors : reviewSupplied values = reviewSupplied others := by
    funext record state fieldIndex offset length
    unfold reviewSupplied
    rw [same]
  unfold textReview
  rw [textRecord_congr same, visitors]

theorem recordSize_congr : recordSize message values = recordSize message others := by
  unfold recordSize
  rw [same]

theorem suppliedContents_congr :
    suppliedContents plan message values = suppliedContents plan message others := by
  have raw : suppliedRaw plan message values = suppliedRaw plan message others := by
    funext index
    unfold suppliedRaw
    rw [same]
  unfold suppliedContents
  rw [raw, same]

end

/-! ### The reply -/

/-- The same values in another order, in the same place or both apart from the buffer. -/
structure Reordered (output : MutableByteBuffer) (values others : EncodeValues) : Prop where
  order : values.values.Perm others.values
  place : others.data = values.data ∨ BufferApart values output ∧ BufferApart others output

theorem Reordered.symm {output : MutableByteBuffer} {values others : EncodeValues}
    (reordered : Reordered output values others) : Reordered output others values :=
  ⟨reordered.order.symm, reordered.place.imp Eq.symm And.symm⟩

section

variable {plan : PlanBundle} {pipelineIndex messageIndex : Nat} {message : MessageExecutionPlan}
  {values others : EncodeValues} {output : MutableByteBuffer}
  (reordered : Reordered output values others)

include reordered

/-- Memory is accepted for the values in every order or in none. -/
theorem memoryFailure_reordered {size : Nat} {relevant : EncodeFieldValue → Bool}
    {name : EncodeFieldValue × Nat → EncodeResult → EncodeResult}
    (views : ∀ value ∈ values.values, relevant value = true → value.valueKind = .bytes)
    (accepted : memoryFailure values output size relevant name = none) :
    memoryFailure others output size relevant name = none := by
  rcases reordered.place with place | ⟨apart, otherApart⟩
  · have aliases : ∀ {range : AddressRange} {supplied : List EncodeFieldValue},
        supplied.zipIdx.findSome? (aliasFailure size range relevant name) = none ↔
          ∀ value ∈ supplied, ∀ index,
            aliasFailure size range relevant name (value, index) = none := by
      intro range supplied
      have alone : ∀ value index other,
          aliasFailure size range relevant name (value, index) = none →
          aliasFailure size range relevant name (value, other) = none := by
        intro value index other passes
        unfold aliasFailure at passes ⊢
        simp only at passes ⊢
        split at passes
        swap
        · rename_i irrelevant
          rw [if_neg irrelevant]
        rename_i matters
        rw [if_pos matters]
        split at passes
        · cases passes
        split at passes
        · cases passes
        rename_i apart
        rw [if_neg apart]
      rw [List.findSome?_eq_none_iff]
      constructor
      · intro all value member index
        obtain ⟨position, listed⟩ := List.mem_iff_getElem?.mp member
        exact alone value position index
          (all (value, position) (List.mem_zipIdx_iff_getElem?.mpr listed))
      · rintro all ⟨value, index⟩ member
        exact all value (List.mem_of_getElem? (List.mem_zipIdx_iff_getElem?.mp member)) index
    unfold memoryFailure at accepted ⊢
    rw [place, ← reordered.order.length_eq]
    split at accepted
    · cases accepted
    rename_i present
    rw [if_neg present]
    split at accepted
    · cases accepted
    rename_i room
    rw [if_neg room]
    split at accepted
    · split at accepted
      · cases accepted
      rename_i away
      rw [if_neg away]
      rw [aliases] at accepted ⊢
      exact fun value member => accepted value (reordered.order.mem_iff.mpr member)
    · cases accepted
  · rw [apart.memoryFailure_eq views] at accepted
    rw [otherApart.memoryFailure_eq fun value member =>
      views value (reordered.order.mem_iff.mpr member)]
    exact accepted

/-- A successful call gives the same reply for every order of its values. -/
theorem encodeReply_reordered (valid : PlanValid plan)
    (ok : (encodeReply plan pipelineIndex messageIndex values output).result.status = .ok) :
    encodeReply plan pipelineIndex messageIndex others output =
      encodeReply plan pipelineIndex messageIndex values output := by
  have length := reordered.order.length_eq
  unfold encodeReply at ok ⊢
  split at ok
  · cases ok
  rename_i present
  split at ok
  · cases ok
  rename_i placed
  rw [not_or, not_lt] at placed
  have otherPresent : ¬(others.data = none ∧ others.values.length ≠ 0) := by
    rcases reordered.place with place | ⟨-, apart⟩
    · rwa [place, ← length]
    · exact apart.values_present
  have otherPlaced : ¬(getArrayAddressRange others.data others.values.length
      sizeofEncodeFieldValue = none ∨
        others.values.length > plan.executionResourceLayout.maxFieldsPerMessage) := by
    rw [not_or, not_lt, ← length]
    refine ⟨?_, placed.2⟩
    rcases reordered.place with place | ⟨-, apart⟩
    · rw [place]
      exact placed.1
    · obtain ⟨range, addressed, -⟩ := apart.descriptors
      rw [length, addressed]
      simp
  rw [if_neg otherPresent, if_neg otherPlaced, if_neg present, if_neg (by
    rw [not_or, not_lt]
    exact placed)]
  cases compiled : plan.pipelineExecutionPlans[pipelineIndex]? with
  | none => rfl
  | some pipeline =>
    cases listed : plan.messageExecutionPlans[messageIndex]? with
    | none => rfl
    | some message =>
      simp only [compiled, listed] at ok ⊢
      split at ok
      swap
      · cases ok
      rename_i allowed
      rw [if_pos allowed, if_pos allowed]
      unfold encodeMessageReply at ok ⊢
      split at ok
      · cases ok
      rename_i supported
      rw [if_neg supported, if_neg supported]
      cases accepted : inputsFailure plan messageIndex message values.values with
      | some failure =>
        rw [accepted] at ok
        exact absurd ok (inputsFailure_refuses accepted).status
      | none =>
        have same := valueFor_perm (values_distinct accepted) reordered.order
        rw [accepted] at ok
        rw [inputsFailure_perm reordered.order accepted]
        simp only at ok ⊢
        cases has : message.textEncode with
        | some action =>
          simp only [has] at ok ⊢
          have text := (valid.messages message (List.mem_of_getElem? listed)).text_of_action
            (.inr has)
          unfold textReply at ok ⊢
          rw [← textSize_congr same, ← textReview_congr same, ← textRecord_congr same]
          cases sized : textSize message values.values action.segments 0 with
          | error failure => rfl
          | ok size =>
            simp only [sized] at ok ⊢
            split at ok
            · cases ok
            rename_i bounds
            rw [if_neg bounds, if_neg bounds]
            cases memory : textMemoryFailure values output size with
            | some failure =>
              rw [memory] at ok
              exact absurd ok (textMemoryFailure_refuses memory).status
            | none =>
              have also : textMemoryFailure others output size = none :=
                memoryFailure_reordered reordered
                  (fun value member _ => text_kinds text accepted value member) memory
              rw [also]
        | none =>
          simp only [has] at ok ⊢
          unfold binaryReply recordReply at ok ⊢
          rw [← recordSize_congr same, ← suppliedContents_congr same]
          cases memory : binaryMemoryFailure values output (recordSize message values.values) with
          | some failure =>
            rw [memory] at ok
            exact absurd ok (binaryMemoryFailure_refuses memory).status
          | none =>
            have also : binaryMemoryFailure others output (recordSize message values.values) =
                none :=
              memoryFailure_reordered reordered (fun value _ bytes => beq_iff_eq.mp bytes) memory
            rw [also]

end

/-! ### The inputs -/

/-- A field the caller supplies: one of the encode action of a text message, or an input
field of a binary message. -/
def IsEncodeInput (message : MessageExecutionPlan) (index : Nat) : Prop :=
  match message.textEncode with
  | some action => index ∈ referencedFields action.segments
  | none => ∃ field, message.fields[index]? = some field ∧ field.encodeSource = .input

/-- Values for the input fields of a message, one for each. -/
structure OneForEach (plan : PlanBundle) (messageIndex : Nat) (message : MessageExecutionPlan)
    (values : List EncodeFieldValue) : Prop where
  own : ∀ value ∈ values, value.field.planScope = some plan.address ∧
    value.field.messageIndex = messageIndex
  once : (values.map (·.field.fieldIndex)).Nodup
  inputs : ∀ index, index ∈ values.map (·.field.fieldIndex) ↔ IsEncodeInput message index

section

variable {plan : PlanBundle} {messageIndex : Nat} {message : MessageExecutionPlan}

/-- The fields that take an input in a frozen text message are those of its encode action. -/
theorem textInput_iff {target : TargetLayout} {draft : PlanDraftData}
    {action : TextActionExecutionPlan} (frozen : FrozenFrom target draft plan)
    (member : message ∈ plan.messageExecutionPlans) (has : message.textEncode = some action)
    {index : Nat} {field : FieldExecutionPlan} (found : message.fields[index]? = some field) :
    field.textEncodeInput = true ↔ index ∈ referencedFields action.segments := by
  obtain ⟨position, listed⟩ := List.mem_iff_getElem?.mp member
  obtain ⟨source, -, kind⟩ := frozen.preparedAs listed
  cases kind with
  | text text kind run =>
    simp only [prepareTextMessage, rejectIf_bind_eq_ok] at run
    obtain ⟨-, run⟩ := run
    split at run
    swap
    · cases run
    rename_i decodeFields encodeFields decodeRun encodeRun
    simp only [bind_eq_ok, pure_eq_ok] at run
    obtain ⟨⟨fields, inputCount⟩, prepared, rfl⟩ := run
    have encode : text.encode = some action := has
    have input := ((prepareTextFields_spec prepared).2.2.2 index field found).1
    rw [encode] at encodeRun
    rw [input, Nat.zero_add, (valid_of_checkTextAction encodeRun).2, decide_eq_true_iff,
      List.mem_reverse]
  | binary counts fields kind run =>
    simp only [prepareBinaryMessage, bind_eq_ok, pure_eq_ok, Prod.mk.injEq] at run
    obtain ⟨_, -, _, -, _, -, _, -, _, -, _, -, _, -, _, -, _, -, _, -, rfl, -⟩ := run
    cases has

/-- The fields that take an input are those the caller supplies. -/
theorem takesInput_iff {target : TargetLayout} {draft : PlanDraftData}
    (frozen : FrozenFrom target draft plan) (valid : PlanValid plan)
    (member : message ∈ plan.messageExecutionPlans)
    (supported : ¬(isTextSchema plan.schemaVersion = true ∧ message.textEncode = none))
    {index : Nat} :
    (∃ field, message.fields[index]? = some field ∧ takesInput plan field = true) ↔
      IsEncodeInput message index := by
  unfold IsEncodeInput
  cases has : message.textEncode with
  | some action =>
    have text := (valid.messages message member).text_of_action (.inr has)
    rw [takesInput_text text.schema]
    simp only
    constructor
    · rintro ⟨field, found, takes⟩
      exact (textInput_iff frozen member has found).mp takes
    · intro referenced
      obtain ⟨field, found, -⟩ := (text.encode action has).2 index referenced
      exact ⟨field, found, (textInput_iff frozen member has found).mpr referenced⟩
  | none =>
    have version : isTextSchema plan.schemaVersion = false :=
      Bool.eq_false_iff.mpr fun version => supported ⟨version, has⟩
    rw [takesInput_binary version]
    simp only [isInput, beq_iff_eq]

/-- Accepted values are one for each input field. -/
theorem oneForEach_of_accepted {target : TargetLayout} {draft : PlanDraftData}
    (frozen : FrozenFrom target draft plan) (valid : PlanValid plan)
    (member : message ∈ plan.messageExecutionPlans)
    (supported : ¬(isTextSchema plan.schemaVersion = true ∧ message.textEncode = none))
    {values : List EncodeFieldValue}
    (accepted : inputsFailure plan messageIndex message values = none) :
    OneForEach plan messageIndex message values := by
  obtain ⟨placed, supplied, -⟩ := inputsFailure_eq_none.mp accepted
  obtain ⟨alone, distinct⟩ := placed_iff.mp placed
  have refers : ∀ value ∈ values, value.field.planScope = some plan.address ∧
      value.field.messageIndex = messageIndex ∧
      ∃ field, message.fields[value.field.fieldIndex]? = some field ∧
        takesInput plan field = true := by
    intro value listed
    have passes := alone value listed
    unfold placementStatus at passes
    split at passes
    · cases passes
    rename_i field there
    unfold referencedField at there
    split at there
    · cases there
    rename_i native
    rw [not_or, not_not, not_not] at native
    split at passes
    · cases passes
    rename_i spoken
    split at passes
    · cases passes
    split at passes
    · cases passes
    rename_i source
    refine ⟨native.1, native.2, field, there, ?_⟩
    unfold takesInput
    cases version : isTextSchema plan.schemaVersion with
    | true =>
      rw [version, not_and, Bool.not_eq_false] at spoken
      exact spoken rfl
    | false => exact beq_iff_eq.mpr (not_not.mp source)
  refine ⟨fun value listed => ⟨(refers value listed).1, (refers value listed).2.1⟩, distinct,
    fun index => ?_⟩
  rw [← takesInput_iff frozen valid member supported, List.mem_map]
  constructor
  · rintro ⟨value, listed, rfl⟩
    exact (refers value listed).2.2
  · rintro ⟨field, found, takes⟩
    obtain ⟨position, there, own⟩ := valueFor_mem (supplied index field found takes)
    exact ⟨_, List.mem_of_getElem? there, isFor_iff.mp own⟩

end

/-! ### Every order -/

/-- An encode succeeds for every order of its values or for none, with the same record; and it
succeeds only with one value for each input field of the message. -/
theorem encodeCompleteRecord_reordered {target : TargetLayout} {budgeted : BudgetedPlanDraft}
    {storage : Option Nat} {plan : PlanBundle} {workspace : ExecutionWorkspace}
    (frozen : freeze target budgeted storage = .ok plan) (belongs : workspace.Belongs plan)
    (pipelineIndex messageIndex : Nat) {values others : EncodeValues} {output : MutableByteBuffer}
    (reordered : Reordered output values others) :
    ∃ first second,
      encodeCompleteRecord plan workspace pipelineIndex messageIndex values output = some first ∧
      encodeCompleteRecord plan workspace pipelineIndex messageIndex others output = some second ∧
      (first.result.status = .ok ↔ second.result.status = .ok) ∧
      (first.result.status = .ok → second.result = first.result ∧ second.output = first.output ∧
        ∃ message, plan.messageExecutionPlans[messageIndex]? = some message ∧
          OneForEach plan messageIndex message values.values) := by
  have valid := planValid_of_freeze frozen
  have source := frozenFrom_of_freezeImpl frozen
  rcases belongs.idle_or with idle | ⟨status, statuses, refused⟩
  swap
  · obtain ⟨first, run, result, -⟩ := refused pipelineIndex messageIndex values output
    obtain ⟨second, again, other, -⟩ := refused pipelineIndex messageIndex others output
    have failed : first.result.status ≠ .ok := by
      rw [result]
      rcases statuses with rfl | rfl <;> simp
    refine ⟨first, second, run, again, ?_, fun ok => absurd ok failed⟩
    rw [result, other]
  obtain ⟨first, run, result, written, -⟩ :=
    encodeCompleteRecord_replies valid idle pipelineIndex messageIndex values output
  obtain ⟨second, again, other, otherWritten, -⟩ :=
    encodeCompleteRecord_replies valid idle pipelineIndex messageIndex others output
  refine ⟨first, second, run, again, ⟨fun ok => ?_, fun ok => ?_⟩, fun ok => ⟨?_, ?_, ?_⟩⟩
  · rw [result] at ok
    rw [other, encodeReply_reordered reordered valid ok, ok]
  · rw [other] at ok
    rw [result, encodeReply_reordered reordered.symm valid ok, ok]
  · rw [result] at ok
    rw [other, encodeReply_reordered reordered valid ok, result]
  · rw [result] at ok
    rw [otherWritten, encodeReply_reordered reordered valid ok, written]
  · rw [result] at ok
    rcases @encodeReply_reaches plan pipelineIndex messageIndex values with
      ⟨failure, refused⟩ | ⟨message, listed, accepted, supported, -⟩
    · rw [refused.same] at ok
      have status := refused.status
      simp only at ok
      rw [ok] at status
      simp [callStatuses, valueStatuses] at status
    · exact ⟨message, listed, oneForEach_of_accepted source valid (List.mem_of_getElem? listed)
        supported accepted⟩

/-- The values of the sample in the reverse order. -/
def reversedValues : EncodeValues := { sampleValues with values := sampleValues.values.reverse }

theorem encodeCompleteRecord_reordered_sample : ∃ first second,
    encodeCompleteRecord samplePlan (.fresh samplePlan) 0 0 sampleValues (sampleBuffer 0) =
        some first ∧
      encodeCompleteRecord samplePlan (.fresh samplePlan) 0 0 reversedValues (sampleBuffer 0) =
        some second ∧
      (first.result.status = .ok ↔ second.result.status = .ok) := by
  obtain ⟨first, second, run, again, same, -⟩ := @encodeCompleteRecord_reordered _ _ _ _
    (.fresh samplePlan) sampleBudgeted_freezes
    (fun _ => { ExecutionWorkspace.fresh_idleFor samplePlan with notInUse := rfl }) 0 0
    sampleValues reversedValues (sampleBuffer 0) ⟨(List.reverse_perm _).symm, .inl rfl⟩
  exact ⟨first, second, run, again, same⟩

end ProtocolAdapter.Codec
