/-
This file proves what a compiled text protocol tells about its templates: the queries answer
for every segment and every field, and a record is the segments they tell of behind each
other, with the bytes decoded or supplied for the fields.
-/

import ProtocolAdapter.Codec.TextRecord
import ProtocolAdapter.ConfigCompiler.TextMessages
import ProtocolAdapter.PublicApi.AsciiQueries
import ProtocolAdapter.PublicApi.Numbering

namespace ProtocolAdapter.PublicApi

open Foundation ConfigCompiler Description

open Codec (isTextSchema HasTextAction TextActionValid TextLengths TextValid PlanValid PlanCounted
  ExecutionWorkspace EncodeValues EncodeFieldValue FieldSlots FieldRef MutableByteBuffer
  DecodedFieldSlot Composed segmentContent partBytes referParts slotParts valueParts
  planValid_of_freeze planCounted_of_frozen decodeCompleteRecord encodeCompleteRecord
  decodeCompleteRecord_replies encodeCompleteRecord_replies decoded_composed encoded_composed
  partBytes_of_mem)

/-! ### Templates -/

section

variable {message : MessageExecutionPlan} {action : TextActionExecutionPlan}

theorem referencesAsciiField_iff {found : Option TextActionExecutionPlan} {fieldIndex : Nat} :
    referencesAsciiField found fieldIndex = true ↔ UsedBy found fieldIndex := by
  cases found with
  | none => exact ⟨nofun, fun ⟨_, wrong, _⟩ => nomatch wrong⟩
  | some action =>
    unfold referencesAsciiField UsedBy referencedFields
    simp only [List.any_eq_true, Bool.and_eq_true, beq_iff_eq, List.mem_map, List.mem_filter,
      Option.some.injEq, exists_eq_left', and_assoc]

/-- Segments of a valid template pass the check. -/
theorem validAsciiSegments_of_valid (bytes : ∀ field ∈ message.fields, field.valueType = .bytes) :
    ∀ {segments : List TextSegmentExecutionPlan} {referenced : List Nat},
      SegmentsValid (message.fields.map (·.textBounds)) segments →
      (∀ segment ∈ segments, SegmentExclusive segment) → (referencedFields segments).Nodup →
      (∀ fieldIndex ∈ referencedFields segments, fieldIndex ∉ referenced) →
        validAsciiSegments message segments referenced = true := by
  intro segments
  induction segments with
  | nil => exact fun _ _ _ _ => rfl
  | cons segment rest inductionHypothesis =>
    intro referenced valid exclusive distinct fresh
    have own := exclusive segment List.mem_cons_self
    have others := fun segment member => exclusive segment (List.mem_cons_of_mem _ member)
    have first := valid.1
    unfold validAsciiSegments
    cases kind : segment.kind with
    | literal =>
      simp only [SegmentValid, kind] at first
      have same : referencedFields (segment :: rest) = referencedFields rest := by
        simp [referencedFields, kind]
      rw [same] at distinct fresh
      simp only
      rw [if_neg (by simp [first.1, own.literal kind])]
      exact inductionHypothesis valid.2 others distinct fresh
    | field =>
      simp only [SegmentValid, kind] at first
      obtain ⟨bound, listed, ordered, -⟩ := first
      rw [List.getElem?_map, Option.map_eq_some_iff] at listed
      obtain ⟨field, found, rfl⟩ := listed
      have same : referencedFields (segment :: rest) =
          segment.fieldIndex :: referencedFields rest := by
        simp [referencedFields, kind]
      rw [same, List.nodup_cons] at distinct
      rw [same] at fresh
      have type := bytes field (List.mem_of_getElem? found)
      simp only [found]
      rw [if_neg, if_neg (fresh _ List.mem_cons_self)]
      · refine inductionHypothesis valid.2 others distinct.2 fun fieldIndex member seen => ?_
        rcases List.mem_cons.mp seen with rfl | seen
        · exact distinct.1 member
        · exact fresh fieldIndex (List.mem_cons_of_mem _ member) seen
      · rintro (wrong | wrong | wrong)
        · exact wrong type
        · exact absurd ordered (Nat.not_le.mpr wrong)
        · exact wrong (own.field kind)

/-- A field of a valid template has ordered bounds. -/
theorem ordered_of_segment {segment : TextSegmentExecutionPlan} {field : FieldExecutionPlan} :
    ∀ {segments : List TextSegmentExecutionPlan},
      SegmentsValid (message.fields.map (·.textBounds)) segments → segment ∈ segments →
      segment.kind = .field → message.fields[segment.fieldIndex]? = some field →
        field.textMinLength ≤ field.textMaxLength := by
  intro segments
  induction segments with
  | nil => exact fun _ member => absurd member List.not_mem_nil
  | cons head rest inductionHypothesis =>
    rintro ⟨first, later⟩ member kind found
    rcases List.mem_cons.mp member with rfl | member
    · simp only [SegmentValid, kind] at first
      obtain ⟨bound, listed, ordered, -⟩ := first
      rw [List.getElem?_map, found, Option.map_some, Option.some.injEq] at listed
      subst listed
      exact ordered
    · exact inductionHypothesis later member kind found

/-- The shortest record of a valid template is not longer than the longest. -/
theorem recordMinimum_le_recordMaximum {bounds : List (Nat × Nat)} :
    ∀ {segments : List TextSegmentPlan}, SegmentsValid bounds segments →
      recordMinimum bounds segments ≤ recordMaximum bounds segments := by
  intro segments
  induction segments with
  | nil => exact fun _ => le_rfl
  | cons segment rest inductionHypothesis =>
    rintro ⟨first, later⟩
    have own : (segmentBounds bounds segment).1 ≤ (segmentBounds bounds segment).2 := by
      unfold segmentBounds
      cases kind : segment.kind with
      | literal => exact le_rfl
      | field =>
        simp only [SegmentValid, kind] at first
        obtain ⟨bound, listed, ordered, -⟩ := first
        simp only [List.getD_eq_getElem?_getD, listed, Option.getD_some]
        exact ordered
    exact Nat.add_le_add own (inductionHypothesis later)

/-- A template of a text message passes the check. -/
theorem validAsciiAction_of_text {schemaVersion : String} (text : TextValid schemaVersion message)
    (described : TextMessage message) (has : HasTextAction message action)
    (lengths : TextLengths message action) : validAsciiAction action message = true := by
  have valid := (text.actionValid has).walkable
  unfold validAsciiAction
  rw [if_neg]
  · exact validAsciiSegments_of_valid (fun field member => (text.fields field member).type)
      valid.segments (described.exclusive action has) valid.distinct fun _ _ => List.not_mem_nil
  · rintro (empty | reversed | many)
    · exact valid.nonempty empty
    · rw [lengths.minimum, lengths.maximum] at reversed
      exact absurd (recordMinimum_le_recordMaximum valid.segments) (Nat.not_le.mpr reversed)
    · exact absurd described.count (Nat.not_le.mpr many)

theorem hasTextAction_of_select {direction : AsciiAction}
    (selected : selectAsciiAction message direction = some action) :
    HasTextAction message action := by
  cases direction with
  | decode => exact .inl selected
  | encode => exact .inr selected

end

/-! ### Queries of a text protocol -/

/-- A compiled text protocol. -/
structure CompiledText (environment : Environment) (document : JsonValue) (parsed : SchemaIr)
    (budgeted : BudgetedParts) (state : CompiledProtocolArtifacts) : Prop where
  compiled : CompiledFrom environment document parsed budgeted state
  version : isTextSchema state.plan.schemaVersion = true

section

variable {environment : Environment} {document : JsonValue} {parsed : SchemaIr}
  {budgeted : BudgetedParts} {state : CompiledProtocolArtifacts}

theorem CompiledText.valid (text : CompiledText environment document parsed budgeted state) :
    PlanValid state.plan := planValid_of_freeze text.compiled.frozen

theorem CompiledText.counted (text : CompiledText environment document parsed budgeted state) :
    PlanCounted state.plan := planCounted_of_frozen text.compiled.frozenFrom

theorem CompiledText.described (text : CompiledText environment document parsed budgeted state)
    {index : Nat} {execution : MessageExecutionPlan}
    (found : state.plan.messageExecutionPlans[index]? = some execution) : TextMessage execution :=
  textMessage_of_compiled text.compiled text.version found

theorem CompiledText.textValid (text : CompiledText environment document parsed budgeted state)
    {index : Nat} {execution : MessageExecutionPlan}
    (found : state.plan.messageExecutionPlans[index]? = some execution) :
    TextValid state.plan.schemaVersion execution := by
  have member := List.mem_of_getElem? found
  rcases (text.described found).declared with decode | encode
  · obtain ⟨action, has⟩ := Option.ne_none_iff_exists'.mp decode
    exact (text.valid.messages execution member).text_of_action (.inl has)
  · obtain ⟨action, has⟩ := Option.ne_none_iff_exists'.mp encode
    exact (text.valid.messages execution member).text_of_action (.inr has)

theorem CompiledText.actionValid (text : CompiledText environment document parsed budgeted state)
    {index : Nat} {execution : MessageExecutionPlan}
    (found : state.plan.messageExecutionPlans[index]? = some execution)
    {action : TextActionExecutionPlan} (has : HasTextAction execution action) :
    validAsciiAction action execution = true :=
  validAsciiAction_of_text (text.textValid found) (text.described found) has
    (text.counted execution (List.mem_of_getElem? found) action has)

theorem CompiledText.isAscii (text : CompiledText environment document parsed budgeted state)
    {index : Nat} {execution : MessageExecutionPlan}
    (found : state.plan.messageExecutionPlans[index]? = some execution) :
    isAsciiMessage execution = true := by
  have declared := (text.described found).declared
  unfold isAsciiMessage
  rw [Bool.or_eq_true, Option.isSome_iff_ne_none, Option.isSome_iff_ne_none]
  exact declared

theorem CompiledText.messageAt (text : CompiledText environment document parsed budgeted state)
    {index : Nat} {execution : MessageExecutionPlan}
    (found : state.plan.messageExecutionPlans[index]? = some execution) :
    ∃ source frozen,
      MessageAt budgeted.validated.schema state.plan index source frozen execution := by
  have inside := (List.getElem?_eq_some_iff.mp found).1
  rw [text.compiled.executions.1] at inside
  obtain ⟨source, frozen, other, placed⟩ := text.compiled.messageAt inside
  obtain rfl := Option.some.inj (found.symm.trans placed.described)
  exact ⟨source, frozen, placed⟩

namespace CompiledProtocol

/-- What the query of a template answers. -/
theorem asciiAction_eq (text : CompiledText environment document parsed budgeted state)
    (messageIndex : Nat) (direction : AsciiAction) :
    asciiAction (some state) messageIndex direction =
      match state.plan.messageExecutionPlans[messageIndex]? with
      | none => { status := .indexOutOfRange }
      | some execution =>
        match selectAsciiAction execution direction with
        | none => { status := .actionNotAvailable }
        | some selected =>
          { status := .ok
            value := some
              { messageIndex := messageIndex
                action := direction
                recordLength := ⟨selected.minRecordLength, selected.maxRecordLength⟩
                segmentCount := selected.segments.length } } := by
  unfold asciiAction
  simp only [heldState_compiled text.compiled]
  cases found : state.plan.messageExecutionPlans[messageIndex]? with
  | none => rfl
  | some execution =>
    obtain ⟨source, frozen, placed⟩ := text.messageAt found
    obtain ⟨item, -, described⟩ := message_eq text.compiled placed
    simp only [described]
    rw [if_neg (by simp), if_neg (by simp [text.isAscii found])]
    cases selected : selectAsciiAction execution direction with
    | none => rfl
    | some action =>
      have valid := text.actionValid found (hasTextAction_of_select selected)
      simp only
      rw [if_neg (by simp [valid])]

/-- What the query of a segment answers. -/
def describeSegment (counts : List Nat) (messageIndex : Nat) (direction : AsciiAction)
    (segment : TextSegmentExecutionPlan) (ordinal : Nat) : AsciiSegmentDescription :=
  match segment.kind with
  | .literal =>
    { messageIndex := messageIndex
      action := direction
      ordinal := ordinal
      kind := .literal
      literal := some segment.literal }
  | .field =>
    { messageIndex := messageIndex
      action := direction
      ordinal := ordinal
      kind := .field
      fieldIndex := some segment.fieldIndex
      flatFieldIndex := some (placeNumber counts (messageIndex, segment.fieldIndex)) }

/-- Every number of a field of a compiled protocol can be represented. -/
theorem fieldCount_le (compiled : CompiledFrom environment document parsed budgeted state) :
    (fieldCounts budgeted.validated.schema).sum ≤ maxUint64 := by
  have represented := represented_of_accepted compiled.accepted
  have total : (fieldCounts budgeted.validated.schema).sum =
    schemaFieldCount budgeted.validated.schema := rfl
  simp only [tableBytes, schemaInput] at represented
  omega

theorem asciiSegment_eq (text : CompiledText environment document parsed budgeted state)
    {messageIndex ordinal : Nat} {direction : AsciiAction} {execution : MessageExecutionPlan}
    {selected : TextActionExecutionPlan} {segment : TextSegmentExecutionPlan}
    (found : state.plan.messageExecutionPlans[messageIndex]? = some execution)
    (has : selectAsciiAction execution direction = some selected)
    (listed : selected.segments[ordinal]? = some segment) :
    asciiSegment (some state) messageIndex direction ordinal = some
      { status := .ok
        value := some (describeSegment (fieldCounts budgeted.validated.schema) messageIndex
          direction segment ordinal) } := by
  have inside := (List.getElem?_eq_some_iff.mp listed).1
  unfold asciiSegment
  rw [asciiAction_eq text, found]
  simp only [has]
  rw [if_neg (by simp), if_neg (Nat.not_le.mpr inside)]
  have read : selectAsciiSegment (some state) messageIndex direction ordinal = some segment := by
    unfold selectAsciiSegment
    simp only [Option.bind_eq_bind, Option.bind_some, found, has, listed]
  simp only [read, Option.bind_eq_bind, Option.bind_some]
  unfold describeSegment
  cases kind : segment.kind with
  | literal => rfl
  | field =>
    obtain ⟨source, frozen, placed⟩ := text.messageAt found
    obtain ⟨item, -, described⟩ := message_eq text.compiled placed
    obtain ⟨bound, there⟩ := Codec.segments_referenced
      ((text.textValid found).actionValid (hasTextAction_of_select has)).walkable.segments
      (Codec.segment_referenced (List.mem_of_getElem? listed) kind)
    have within : segment.fieldIndex < source.fields.length := by
      have short := (List.getElem?_eq_some_iff.mp there).1
      rw [List.length_map, placed.sameFields, ← placed.freezes.fields.length_eq] at short
      exact short
    have place : (messageIndex, segment.fieldIndex) ∈
        places (fieldCounts budgeted.validated.schema) :=
      mem_places_map.mpr ⟨source, placed.inSchema, within⟩
    have number := (placeNumber_lt place).le.trans (fieldCount_le text.compiled)
    obtain ⟨fieldSource, fieldPlan, descriptor, fieldAt⟩ := placed.fieldAt within
    obtain ⟨other, -, answered⟩ := field_eq text.compiled placed fieldAt
    simp only [described]
    rw [if_neg]
    · rw [show rangeStart (fieldCounts budgeted.validated.schema) messageIndex +
        segment.fieldIndex = placeNumber (fieldCounts budgeted.validated.schema)
          (messageIndex, segment.fieldIndex) from rfl, answered, if_neg (by simp)]
    · unfold placeNumber at number
      simp only at number
      omega

/-- What the query of a field answers. -/
theorem asciiField_eq (text : CompiledText environment document parsed budgeted state)
    {messageIndex fieldIndex : Nat} {source : MessageIr} {frozen : FrozenMessagePlan}
    {execution : MessageExecutionPlan}
    (placed : MessageAt budgeted.validated.schema state.plan messageIndex source frozen execution)
    {fieldSource : FieldIr} {fieldPlan : FrozenFieldPlan} {descriptor : FieldExecutionPlan}
    (fieldAt : FieldAt source frozen execution fieldIndex fieldSource fieldPlan descriptor) :
    asciiField (some state) (placeNumber (fieldCounts budgeted.validated.schema)
      (messageIndex, fieldIndex)) = some
      { status := .ok
        value := some
          { flatFieldIndex := placeNumber (fieldCounts budgeted.validated.schema)
              (messageIndex, fieldIndex)
            messageIndex := messageIndex
            fieldIndex := fieldIndex
            byteLength := ⟨descriptor.textMinLength, descriptor.textMaxLength⟩
            decodeReferenced := referencesAsciiField execution.textDecode fieldIndex
            encodeReferenced := referencesAsciiField execution.textEncode fieldIndex } } := by
  have found := placed.described
  have described := text.described found
  have valid := text.textValid found
  obtain ⟨item, -, answered⟩ := field_eq text.compiled placed fieldAt
  have place : (messageIndex, fieldIndex) ∈ places (fieldCounts budgeted.validated.schema) :=
    mem_places_map.mpr ⟨source, placed.inSchema, (List.getElem?_eq_some_iff.mp fieldAt.inSchema).1⟩
  have number := placeNumber_lt place
  rw [← fieldCount_eq text.compiled] at number
  have listed : messageIndex < messageCount (some state) := by
    rw [messageCount_eq text.compiled]
    exact (List.getElem?_eq_some_iff.mp placed.inSchema).1
  have used := described.used fieldIndex (List.getElem?_eq_some_iff.mp fieldAt.described).1
  have input := described.input fieldIndex descriptor fieldAt.described
  have checks : ∀ {action : Option TextActionExecutionPlan},
      (∀ found, action = some found → HasTextAction execution found) →
        (action.any fun action => !validAsciiAction action execution) = false := by
    intro action has
    cases action with
    | none => rfl
    | some action => simp [text.actionValid found (has action rfl)]
  have ordered : descriptor.textMinLength ≤ descriptor.textMaxLength := by
    have bounded : ∀ {action : TextActionExecutionPlan}, HasTextAction execution action →
        fieldIndex ∈ referencedFields action.segments →
          descriptor.textMinLength ≤ descriptor.textMaxLength := by
      intro action has member
      obtain ⟨segment, inside, rfl⟩ := List.mem_map.mp member
      obtain ⟨there, kind⟩ := List.mem_filter.mp inside
      exact ordered_of_segment (valid.actionValid has).walkable.segments there
        (by simpa using kind) fieldAt.described
    rcases used with ⟨action, has, member⟩ | ⟨action, has, member⟩
    · exact bounded (.inl has) member
    · exact bounded (.inr has) member
  have agrees : asciiFieldInvalid execution descriptor fieldIndex = false := by
    unfold asciiFieldInvalid
    rw [checks fun _ => .inl, checks fun _ => .inr]
    rw [← referencesAsciiField_iff, ← referencesAsciiField_iff] at used
    rw [← referencesAsciiField_iff] at input
    have same : referencesAsciiField execution.textEncode fieldIndex =
        descriptor.textEncodeInput := by
      rw [Bool.eq_iff_iff]
      exact input.symm
    rw [same] at used ⊢
    simp only [Bool.or_false, bne_self_eq_false, Bool.or_eq_false_iff, Bool.and_eq_false_iff,
      Bool.not_eq_false', decide_eq_false_iff_not, Nat.not_lt]
    exact ⟨ordered, used⟩
  unfold asciiField
  rw [heldState_compiled text.compiled]
  simp only [answered]
  rw [if_neg (Nat.not_le.mpr number), if_neg (Nat.not_le.mpr listed)]
  simp only [found, Option.bind_eq_bind, Option.bind_some]
  rw [if_neg (by simp [text.isAscii found])]
  simp only [fieldAt.described]
  rw [if_neg]
  simp only [agrees, Bool.false_eq_true, or_false, not_not]
  exact (valid.fields descriptor (List.mem_of_getElem? fieldAt.described)).type

end CompiledProtocol

end

end ProtocolAdapter.PublicApi
