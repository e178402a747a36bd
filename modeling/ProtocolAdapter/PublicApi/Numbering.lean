/-
This file proves that the queries of a compiled protocol number its records through: the
messages, the fields and the entries below the counts are described, each under its place in
the schema, and no others.
-/

import ProtocolAdapter.Description.Compiled
import ProtocolAdapter.PublicApi.Queries

namespace ProtocolAdapter.PublicApi

open Foundation ConfigCompiler Description

/-- The numbers of fields of the messages of a schema. -/
def fieldCounts (schema : SchemaIr) : List Nat :=
  schema.messages.map fun message => message.fields.length

/-- The numbers of entries of the fields of a schema. -/
def entryCountsOf (schema : SchemaIr) : List Nat := schema.messages.flatMap entryCounts

section

variable {environment : Environment} {document : JsonValue} {parsed : SchemaIr}
  {budgeted : BudgetedParts} {state : CompiledProtocolArtifacts}

/-- A compiled protocol has a value. -/
theorem heldState_compiled (compiled : CompiledFrom environment document parsed budgeted state) :
    heldState (some state) = some state := by
  refine if_neg fun empty => ?_
  have length := length_describe_storage budgeted.validated.schema
  rw [← compiled.description, empty, List.length_nil, textBase, tableBytes] at length
  omega

namespace CompiledProtocol

/-! ### Messages -/

theorem messageCount_eq (compiled : CompiledFrom environment document parsed budgeted state) :
    messageCount (some state) = budgeted.validated.schema.messages.length := by
  unfold messageCount
  rw [heldState_compiled compiled]
  exact compiled.messages.length_eq.symm

/-- A message is described with the range of its fields. -/
theorem message_eq (compiled : CompiledFrom environment document parsed budgeted state)
    {index : Nat} {source : MessageIr} {frozen : FrozenMessagePlan}
    {execution : MessageExecutionPlan}
    (placed : MessageAt budgeted.validated.schema state.plan index source frozen execution) :
    ∃ item, state.description.messages[index]? = some item ∧ message (some state) index = some
      { index := index
        id := frozen.id
        directionId := frozen.directionId
        displayName := state.description.resolve item.displayName
        description := state.description.resolve item.description
        sourceRef := state.description.resolve item.sourceRef
        fieldBegin := rangeStart (fieldCounts budgeted.validated.schema) index
        fieldCount := source.fields.length } := by
  have counts := describe_messages_counts budgeted.validated.schema
  have numbered := describe_messages_numbered budgeted.validated.schema
  have fields := describe_fields_length budgeted.validated.schema
  rw [← compiled.description] at counts numbered fields
  have sized := congrArg (fun list => list[index]?) counts
  simp only [List.getElem?_map, placed.inSchema, Option.map_some, Option.map_eq_some_iff] at sized
  obtain ⟨item, found, size⟩ := sized
  have start : item.fieldBegin = _ := numbered index item found
  have within := numbered.start_add_count_le found
  rw [counts] at start within
  have total : (budgeted.validated.schema.messages.map fun message => message.fields.length).sum =
    state.description.fields.length := fields.symm
  refine ⟨item, found, ?_⟩
  unfold message
  simp only [heldState_compiled compiled, placed.inPlan, found, Option.bind_eq_bind,
    Option.bind_some]
  rw [if_neg]
  · rw [start, size]
    rfl
  · have same := placed.freezes.fields.length_eq
    omega

/-! ### Fields -/

theorem fieldCount_eq (compiled : CompiledFrom environment document parsed budgeted state) :
    fieldCount (some state) = (fieldCounts budgeted.validated.schema).sum := by
  unfold fieldCount
  rw [heldState_compiled compiled]
  show state.description.fields.length = _
  rw [compiled.description]
  exact describe_fields_length _

/-- A field is described under the number of its place. -/
theorem field_eq (compiled : CompiledFrom environment document parsed budgeted state)
    {messageIndex fieldIndex : Nat} {source : MessageIr} {frozen : FrozenMessagePlan}
    {execution : MessageExecutionPlan}
    (placed : MessageAt budgeted.validated.schema state.plan messageIndex source frozen execution)
    {fieldSource : FieldIr} {fieldPlan : FrozenFieldPlan} {descriptor : FieldExecutionPlan}
    (fieldAt : FieldAt source frozen execution fieldIndex fieldSource fieldPlan descriptor) :
    ∃ item, state.description.fields[placeNumber (fieldCounts budgeted.validated.schema)
        (messageIndex, fieldIndex)]? = some item ∧
      field (some state) (placeNumber (fieldCounts budgeted.validated.schema)
          (messageIndex, fieldIndex)) = some
        { flatIndex := placeNumber (fieldCounts budgeted.validated.schema)
            (messageIndex, fieldIndex)
          messageIndex := messageIndex
          indexInMessage := fieldIndex
          id := fieldPlan.id
          displayName := state.description.resolve item.displayName
          description := state.description.resolve item.description
          sourceRef := state.description.resolve item.sourceRef
          valueKind := planValueKind descriptor
          encodeValueSource := mapEncodeValueSource execution descriptor
          enumBegin := rangeStart (entryCountsOf budgeted.validated.schema)
            (placeNumber (fieldCounts budgeted.validated.schema) (messageIndex, fieldIndex))
          enumCount := fieldSource.enumEntries.length } := by
  have counts := describe_fields_counts budgeted.validated.schema
  have numbered := describe_fields_numbered budgeted.validated.schema
  have enums := describe_enums_length budgeted.validated.schema
  have ranges := describe_messages_numbered budgeted.validated.schema
  have sizes := describe_messages_counts budgeted.validated.schema
  rw [← compiled.description] at counts numbered enums ranges sizes
  have sized := congrArg (fun list => list[placeNumber (fieldCounts budgeted.validated.schema)
    (messageIndex, fieldIndex)]?) counts
  have listed := flatMap_entryCounts budgeted.validated.schema placed.inSchema fieldAt.inSchema
  replace sized := sized.trans listed
  simp only [List.getElem?_map, Option.map_eq_some_iff] at sized
  obtain ⟨item, found, size⟩ := sized
  have start : item.enumBegin = _ := numbered _ item found
  have within := numbered.start_add_count_le found
  rw [counts] at start within
  rw [sum_schema_entryCounts, ← enums] at within
  have place : (messageIndex, fieldIndex) ∈ places (fieldCounts budgeted.validated.schema) :=
    mem_places_map.mpr ⟨source, placed.inSchema, (List.getElem?_eq_some_iff.mp fieldAt.inSchema).1⟩
  have owner := @Numbered.findIdx?_eq _ _ _ _ ranges (messageIndex, fieldIndex)
    (by rw [sizes]; exact place)
  rw [sizes] at owner
  have owned := congrArg (fun list => list[messageIndex]?) sizes
  simp only [List.getElem?_map, placed.inSchema, Option.map_some, Option.map_eq_some_iff] at owned
  obtain ⟨range, foundRange, -⟩ := owned
  have begins : range.fieldBegin = _ := ranges messageIndex range foundRange
  rw [sizes] at begins
  have position : placeNumber (fieldCounts budgeted.validated.schema) (messageIndex, fieldIndex) -
      range.fieldBegin = fieldIndex := by
    rw [begins]
    exact Nat.add_sub_cancel_left _ _
  obtain ⟨conversions, drafted⟩ := fieldAt.drafts
  have entries : fieldPlan.enumEntries.length = fieldSource.enumEntries.length := by
    rw [drafted]
    exact List.length_map _
  refine ⟨item, found, ?_⟩
  unfold field
  simp only [heldState_compiled compiled, found, Option.bind_eq_bind, Option.bind_some]
  rw [show (state.description.messages.findIdx? fun message =>
    holdsFlat (placeNumber (fieldCounts budgeted.validated.schema) (messageIndex, fieldIndex))
      message.fieldBegin message.fieldCount) = some messageIndex from owner]
  simp only [Option.bind_some, foundRange, position, placed.inPlan, fieldAt.inPlan,
    placed.described, fieldAt.described]
  rw [if_neg]
  · rw [start, size]
    rfl
  · omega

/-- Every number below the count is that of a place. -/
theorem exists_fieldAt (compiled : CompiledFrom environment document parsed budgeted state)
    {flatIndex : Nat} (inside : flatIndex < fieldCount (some state)) :
    ∃ messageIndex fieldIndex source frozen execution fieldSource fieldPlan descriptor,
      flatIndex = placeNumber (fieldCounts budgeted.validated.schema) (messageIndex, fieldIndex) ∧
      MessageAt budgeted.validated.schema state.plan messageIndex source frozen execution ∧
      FieldAt source frozen execution fieldIndex fieldSource fieldPlan descriptor := by
  rw [fieldCount_eq compiled] at inside
  obtain ⟨⟨messageIndex, fieldIndex⟩, place, rfl⟩ := exists_place inside
  obtain ⟨source, found, within⟩ := mem_places_map.mp place
  have listed : messageIndex < state.plan.messages.length :=
    compiled.messages.length_eq ▸ (List.getElem?_eq_some_iff.mp found).1
  obtain ⟨other, frozen, execution, placed⟩ := compiled.messageAt listed
  obtain rfl := Option.some.inj (found.symm.trans placed.inSchema)
  obtain ⟨fieldSource, fieldPlan, descriptor, fieldAt⟩ := placed.fieldAt within
  exact ⟨messageIndex, fieldIndex, source, frozen, execution, fieldSource, fieldPlan, descriptor,
    rfl, placed, fieldAt⟩

end CompiledProtocol

end

end ProtocolAdapter.PublicApi
