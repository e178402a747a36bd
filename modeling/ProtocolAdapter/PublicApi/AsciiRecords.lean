/-
This file rebuilds text records from what a compiled protocol tells about its templates. The
segments of a template, with the bytes decoded or supplied for its fields, are the record, and
the fields flagged for the direction of the template are those that occur.
-/

import ProtocolAdapter.PublicApi.AsciiFacts

namespace ProtocolAdapter.PublicApi

open Foundation ConfigCompiler Description

open Codec (isTextSchema ExecutionWorkspace EncodeValues FieldSlots FieldRef MutableByteBuffer
  Composed segmentContent partBytes referParts slotParts planCounted_of_frozen
  decodeCompleteRecord encodeCompleteRecord decodeCompleteRecord_replies
  encodeCompleteRecord_replies decoded_composed encoded_composed)

open CompiledProtocol (field asciiAction asciiSegment asciiField describeSegment asciiAction_eq
  asciiSegment_eq asciiField_eq field_eq exists_fieldAt fieldCount)

/-! ### Rebuilding -/

/-- The reference the codec has for a flat field. -/
def fieldReference (state : CompiledProtocolArtifacts) (flat : Nat) : Option FieldRef :=
  (field (some state) flat).map fun description =>
    ⟨some state.plan.address, description.messageIndex, description.indexInMessage⟩

/-- The bytes of a flat field among fields with their bytes. -/
def flatBytes (state : CompiledProtocolArtifacts) (fields : List (FieldRef × List UInt8))
    (flat : Nat) : List UInt8 :=
  ((fields.find? fun item => fieldReference state flat = some item.1).map Prod.snd).getD []

/-- The bytes a described segment stands for. -/
def describedBytes (state : CompiledProtocolArtifacts) (fields : List (FieldRef × List UInt8))
    (segment : AsciiSegmentDescription) : List UInt8 :=
  match segment.kind with
  | .literal => segment.literal.getD []
  | .field => (segment.flatFieldIndex.map (flatBytes state fields)).getD []

/-- Whether a described field is flagged for a direction. -/
def AsciiFieldDescription.flagged (description : AsciiFieldDescription) : AsciiAction → Bool
  | .decode => description.decodeReferenced
  | .encode => description.encodeReferenced

/-- A record is the described segments of a template behind each other, with the bytes of the
fields that come with it. -/
structure RebuiltFrom (state : CompiledProtocolArtifacts) (messageIndex : Nat)
    (direction : AsciiAction) (fields : List (FieldRef × List UInt8)) (record : List UInt8)
    (description : AsciiActionDescription) (segments : List AsciiSegmentDescription) : Prop where
  described : asciiAction (some state) messageIndex direction = ⟨.ok, some description⟩
  count : segments.length = description.segmentCount
  each : ∀ (ordinal : Nat) segment, segments[ordinal]? = some segment →
    asciiSegment (some state) messageIndex direction ordinal = some ⟨.ok, some segment⟩
  content : record = segments.flatMap (describedBytes state fields)
  least : description.recordLength.minimum ≤ record.length
  most : record.length ≤ description.recordLength.maximum
  distinct : (fields.map Prod.fst).Nodup
  numbered : ∀ item ∈ fields, ∃ flat, fieldReference state flat = some item.1
  occurs : ∀ flat description, asciiField (some state) flat = some ⟨.ok, some description⟩ →
    (description.messageIndex = messageIndex ∧ description.flagged direction = true ↔
      ∃ item ∈ fields, fieldReference state flat = some item.1) ∧
    (description.messageIndex = messageIndex ∧ description.flagged direction = true ↔
      some flat ∈ segments.map (·.flatFieldIndex)) ∧
    ∀ item ∈ fields, fieldReference state flat = some item.1 →
      description.byteLength.minimum ≤ item.2.length ∧
        item.2.length ≤ description.byteLength.maximum

/-- A record that the queries rebuild. -/
def Rebuilds (state : CompiledProtocolArtifacts) (messageIndex : Nat) (direction : AsciiAction)
    (fields : List (FieldRef × List UInt8)) (record : List UInt8) : Prop :=
  ∃ description segments,
    RebuiltFrom state messageIndex direction fields record description segments

section

variable {environment : Environment} {document : JsonValue} {parsed : SchemaIr}
  {budgeted : BudgetedParts} {state : CompiledProtocolArtifacts}

theorem fieldReference_eq (compiled : CompiledFrom environment document parsed budgeted state)
    {messageIndex fieldIndex : Nat} {source : MessageIr} {frozen : FrozenMessagePlan}
    {execution : MessageExecutionPlan}
    (placed : MessageAt budgeted.validated.schema state.plan messageIndex source frozen execution)
    {fieldSource : FieldIr} {fieldPlan : FrozenFieldPlan} {descriptor : FieldExecutionPlan}
    (fieldAt : FieldAt source frozen execution fieldIndex fieldSource fieldPlan descriptor) :
    fieldReference state (placeNumber (fieldCounts budgeted.validated.schema)
      (messageIndex, fieldIndex)) = some ⟨some state.plan.address, messageIndex, fieldIndex⟩ := by
  obtain ⟨item, -, answered⟩ := field_eq compiled placed fieldAt
  rw [fieldReference, answered]
  rfl

/-- The bytes of a field among the parts of a record. -/
theorem flatBytes_eq {flat messageIndex fieldIndex : Nat}
    (refers : fieldReference state flat = some ⟨some state.plan.address, messageIndex, fieldIndex⟩)
    (parts : List (Nat × List UInt8)) :
    flatBytes state (referParts state.plan messageIndex parts) flat =
      partBytes parts fieldIndex := by
  unfold flatBytes partBytes referParts
  rw [refers, List.find?_map]
  have same : ((fun item : FieldRef × List UInt8 => decide (some
      (⟨some state.plan.address, messageIndex, fieldIndex⟩ : FieldRef) = some item.1)) ∘
        fun part : Nat × List UInt8 =>
          ((⟨some state.plan.address, messageIndex, part.1⟩ : FieldRef), part.2)) =
      fun part => decide (part.1 = fieldIndex) := by
    funext part
    simp only [Function.comp_apply, Option.some.injEq, FieldRef.mk.injEq, true_and, eq_comm]
  rw [same]
  cases parts.find? fun part => decide (part.1 = fieldIndex) with
  | none => rfl
  | some part => rfl

/-- Records put together by a template are rebuilt by the queries. -/
theorem rebuilds_of_composed (text : CompiledText environment document parsed budgeted state)
    {messageIndex : Nat} {direction : AsciiAction} {execution : MessageExecutionPlan}
    {selected : TextActionExecutionPlan} {parts : List (Nat × List UInt8)} {record : List UInt8}
    (found : state.plan.messageExecutionPlans[messageIndex]? = some execution)
    (has : selectAsciiAction execution direction = some selected)
    (composed : Composed execution selected parts record) :
    Rebuilds state messageIndex direction (referParts state.plan messageIndex parts) record := by
  obtain ⟨source, frozen, placed⟩ := text.messageAt found
  have walkable := ((text.textValid found).actionValid (hasTextAction_of_select has)).walkable
  have inMessage : ∀ fieldIndex ∈ referencedFields selected.segments,
      ∃ fieldSource fieldPlan descriptor,
        FieldAt source frozen execution fieldIndex fieldSource fieldPlan descriptor := by
    intro fieldIndex member
    obtain ⟨bound, there⟩ := Codec.segments_referenced walkable.segments member
    refine placed.fieldAt ?_
    have short := (List.getElem?_eq_some_iff.mp there).1
    rw [List.length_map, placed.sameFields, ← placed.freezes.fields.length_eq] at short
    exact short
  have place : ∀ fieldIndex ∈ referencedFields selected.segments,
      (messageIndex, fieldIndex) ∈ places (fieldCounts budgeted.validated.schema) := by
    intro fieldIndex member
    obtain ⟨fieldSource, fieldPlan, descriptor, fieldAt⟩ := inMessage fieldIndex member
    exact mem_places_map.mpr
      ⟨source, placed.inSchema, (List.getElem?_eq_some_iff.mp fieldAt.inSchema).1⟩
  have content : ∀ segment ∈ selected.segments, ∀ ordinal,
      describedBytes state (referParts state.plan messageIndex parts)
        (describeSegment (fieldCounts budgeted.validated.schema) messageIndex direction segment
          ordinal) = segmentContent parts segment := by
    intro segment member ordinal
    unfold describeSegment segmentContent describedBytes
    cases kind : segment.kind with
    | literal => rfl
    | field =>
      obtain ⟨fieldSource, fieldPlan, descriptor, fieldAt⟩ :=
        inMessage _ (Codec.segment_referenced member kind)
      exact flatBytes_eq (fieldReference_eq text.compiled placed fieldAt) parts
  refine ⟨
    { messageIndex := messageIndex
      action := direction
      recordLength := ⟨selected.minRecordLength, selected.maxRecordLength⟩
      segmentCount := selected.segments.length },
    selected.segments.zipIdx.map fun item => describeSegment
      (fieldCounts budgeted.validated.schema) messageIndex direction item.1 item.2,
    ?_, ?_, ?_, ?_, composed.least, composed.most, ?_, ?_, ?_⟩
  · rw [asciiAction_eq text, found]
    simp only [has]
  · rw [List.length_map, List.length_zipIdx]
  · intro ordinal segment listed
    rw [List.getElem?_map, List.getElem?_zipIdx, Option.map_map, Option.map_eq_some_iff] at listed
    obtain ⟨planned, there, rfl⟩ := listed
    rw [Function.comp_apply, Nat.zero_add]
    exact asciiSegment_eq text found has there
  · have same : (selected.segments.zipIdx.map fun item => describeSegment
        (fieldCounts budgeted.validated.schema) messageIndex direction item.1 item.2).flatMap
          (describedBytes state (referParts state.plan messageIndex parts)) =
        (selected.segments.zipIdx.map Prod.fst).flatMap (segmentContent parts) := by
      rw [List.flatMap_map, List.flatMap_map]
      refine List.flatMap_congr fun item member => ?_
      exact content _ (List.fst_mem_of_mem_zipIdx member) _
    rw [same, List.zipIdx_map_fst]
    exact composed.content
  · have same : (referParts state.plan messageIndex parts).map Prod.fst =
        (parts.map Prod.fst).map fun fieldIndex =>
          (⟨some state.plan.address, messageIndex, fieldIndex⟩ : FieldRef) := by
      rw [referParts, List.map_map, List.map_map]
      rfl
    rw [same]
    exact composed.distinct.map fun first second equal => congrArg FieldRef.fieldIndex equal
  · intro item member
    obtain ⟨part, there, rfl⟩ := List.mem_map.mp member
    obtain ⟨fieldSource, fieldPlan, descriptor, fieldAt⟩ :=
      inMessage part.1 ((composed.used part.1).mp (List.mem_map.mpr ⟨part, there, rfl⟩))
    exact ⟨_, fieldReference_eq text.compiled placed fieldAt⟩
  · intro flat description answered
    have inside : flat < fieldCount (some state) := by
      by_contra outside
      unfold asciiField at answered
      rw [heldState_compiled text.compiled] at answered
      simp only [if_pos (Nat.not_lt.mp outside)] at answered
      cases answered
    obtain ⟨owner, fieldIndex, otherSource, otherFrozen, otherExecution, fieldSource, fieldPlan,
      descriptor, rfl, otherAt, fieldAt⟩ := exists_fieldAt text.compiled inside
    rw [asciiField_eq text otherAt fieldAt] at answered
    obtain rfl := Option.some.inj (congrArg AsciiQueryResult.value (Option.some.inj answered))
    have refers := fieldReference_eq text.compiled otherAt fieldAt
    have samePlace : owner = messageIndex → otherExecution = execution := by
      rintro rfl
      exact Option.some.inj (otherAt.described.symm.trans found)
    have flagged : owner = messageIndex → (AsciiFieldDescription.flagged
        { flatFieldIndex := placeNumber (fieldCounts budgeted.validated.schema) (owner, fieldIndex)
          messageIndex := owner
          fieldIndex := fieldIndex
          byteLength := ⟨descriptor.textMinLength, descriptor.textMaxLength⟩
          decodeReferenced := referencesAsciiField otherExecution.textDecode fieldIndex
          encodeReferenced := referencesAsciiField otherExecution.textEncode fieldIndex }
        direction = true ↔ fieldIndex ∈ referencedFields selected.segments) := by
      intro own
      rw [samePlace own]
      have uses : UsedBy (selectAsciiAction execution direction) fieldIndex ↔
          fieldIndex ∈ referencedFields selected.segments := by
        rw [has]
        constructor
        · rintro ⟨_, same, member⟩
          exact Option.some.inj same ▸ member
        · exact fun member => ⟨selected, rfl, member⟩
      rw [← uses, ← referencesAsciiField_iff]
      cases direction <;> rfl
    have parted : (∃ item ∈ referParts state.plan messageIndex parts,
        fieldReference state (placeNumber (fieldCounts budgeted.validated.schema)
          (owner, fieldIndex)) = some item.1) ↔
        owner = messageIndex ∧ fieldIndex ∈ referencedFields selected.segments := by
      rw [← composed.used, refers]
      constructor
      · rintro ⟨item, member, same⟩
        obtain ⟨part, there, rfl⟩ := List.mem_map.mp member
        simp only [Option.some.injEq, FieldRef.mk.injEq, true_and] at same
        exact ⟨same.1, List.mem_map.mpr ⟨part, there, same.2.symm⟩⟩
      · rintro ⟨rfl, member⟩
        obtain ⟨part, there, rfl⟩ := List.mem_map.mp member
        exact ⟨_, List.mem_map.mpr ⟨part, there, rfl⟩, rfl⟩
    refine ⟨?_, ?_, ?_⟩
    · rw [parted]
      exact and_congr_right flagged
    · rw [and_congr_right flagged]
      constructor
      · rintro ⟨rfl, member⟩
        obtain ⟨segment, listed, rfl⟩ := List.mem_map.mp member
        obtain ⟨there, kind⟩ := List.mem_filter.mp listed
        obtain ⟨ordinal, at'⟩ := List.mem_iff_getElem?.mp there
        refine List.mem_map.mpr ⟨_, List.mem_map.mpr ⟨(segment, ordinal), ?_, rfl⟩, ?_⟩
        · exact List.mem_zipIdx_iff_getElem?.mpr at'
        · rw [beq_iff_eq] at kind
          simp only [describeSegment, kind]
      · intro member
        obtain ⟨_, inSegments, same⟩ := List.mem_map.mp member
        obtain ⟨⟨segment, ordinal⟩, listed, rfl⟩ := List.mem_map.mp inSegments
        have there := List.fst_mem_of_mem_zipIdx listed
        unfold describeSegment at same
        cases kind : segment.kind with
        | literal =>
          simp only [kind] at same
          cases same
        | field =>
          simp only [kind, Option.some.injEq] at same
          have referenced := Codec.segment_referenced there kind
          have own : (owner, fieldIndex) ∈ places (fieldCounts budgeted.validated.schema) :=
            mem_places_map.mpr ⟨otherSource, otherAt.inSchema,
              (List.getElem?_eq_some_iff.mp fieldAt.inSchema).1⟩
          have equal := placeNumber_injOn _ (place _ referenced) own same
          simp only [Prod.mk.injEq] at equal
          exact ⟨equal.1.symm, equal.2 ▸ referenced⟩
    · intro item member same
      obtain ⟨part, there, rfl⟩ := List.mem_map.mp member
      rw [refers] at same
      simp only [Option.some.injEq, FieldRef.mk.injEq, true_and] at same
      obtain ⟨other, listed, least, most⟩ := composed.lengths part there
      rw [← same.2, ← samePlace same.1, fieldAt.described] at listed
      obtain rfl := Option.some.inj listed
      exact ⟨least, most⟩

/-! ### Every answer of a text protocol -/

theorem asciiAction_status (text : CompiledText environment document parsed budgeted state)
    (messageIndex : Nat) (direction : AsciiAction) :
    (asciiAction (some state) messageIndex direction).status ≠ .internalContractViolation := by
  rw [asciiAction_eq text]
  split
  · simp
  split <;> simp

theorem asciiSegment_status (text : CompiledText environment document parsed budgeted state)
    (messageIndex : Nat) (direction : AsciiAction) (ordinal : Nat) :
    ∃ result, asciiSegment (some state) messageIndex direction ordinal = some result ∧
      result.status ≠ .internalContractViolation := by
  cases found : state.plan.messageExecutionPlans[messageIndex]? with
  | none =>
    refine ⟨{ status := .indexOutOfRange }, ?_, by simp⟩
    unfold asciiSegment
    rw [asciiAction_eq text, found]
  | some execution =>
    cases has : selectAsciiAction execution direction with
    | none =>
      refine ⟨{ status := .actionNotAvailable }, ?_, by simp⟩
      unfold asciiSegment
      rw [asciiAction_eq text, found]
      simp only [has]
    | some selected =>
      cases listed : selected.segments[ordinal]? with
      | some segment => exact ⟨_, asciiSegment_eq text found has listed, by simp⟩
      | none =>
        refine ⟨{ status := .indexOutOfRange }, ?_, by simp⟩
        unfold asciiSegment
        rw [asciiAction_eq text, found]
        simp only [has]
        rw [if_neg (by simp), if_pos (List.getElem?_eq_none_iff.mp listed)]

theorem asciiField_status (text : CompiledText environment document parsed budgeted state)
    (flat : Nat) : ∃ result, asciiField (some state) flat = some result ∧
      result.status ≠ .internalContractViolation ∧
      (flat < fieldCount (some state) → result.status = .ok) := by
  by_cases inside : flat < fieldCount (some state)
  · obtain ⟨_, _, _, _, _, _, _, _, rfl, placed, fieldAt⟩ := exists_fieldAt text.compiled inside
    exact ⟨_, asciiField_eq text placed fieldAt, by simp, fun _ => rfl⟩
  · refine ⟨{ status := .indexOutOfRange }, ?_, by simp, fun below => absurd below inside⟩
    unfold asciiField
    rw [heldState_compiled text.compiled]
    simp only [if_pos (Nat.not_lt.mp inside)]

end

/-! ### Records -/

/-- The labels of a part of the sample document, followed by its own members. -/
def labelled (id : String) (members : List (String × JsonValue)) : JsonValue :=
  .obj ([("id", .str id), ("display_name", .str id), ("description", .str ""),
    ("source_ref", .str "manual")] ++ members)

/-- The letter `P` and the value. -/
def pingTemplate : JsonValue :=
  .obj [("segments", .arr [
    .obj [("kind", .str "literal"), ("text", .str "P")],
    .obj [("kind", .str "field"), ("field_id", .str "value")]])]

/-- A text protocol of one message, with the same template both ways. -/
def pingDocument : JsonValue :=
  .obj [("schema_version", .str "0.10"), ("protocol_id", .str "ping"),
    ("protocol_version", .str "1"), ("display_name", .str "ping"), ("source_ref", .str "manual"),
    ("resource_profile", .str "desktop"),
    ("framing_profiles", .arr [labelled "record" [("input_kind", .str "complete_record")]]),
    ("pipelines", .arr [labelled "line" [("direction_id", .str "both"),
      ("input_framing_profile_id", .str "record"), ("message_ids", .arr [.str "ping"])]]),
    ("messages", .arr [labelled "ping" [("direction_id", .str "both"),
      ("layout", .obj [("kind", .str "text"), ("encoding", .str "ascii"),
        ("decode", pingTemplate), ("encode", pingTemplate)]),
      ("fields", .arr [labelled "value" [("value_type", .str "BYTES"),
        ("wire", .obj [("codec", .str "ascii_text"), ("min_byte_length", .raw "1"),
          ("max_byte_length", .raw "4")]),
        ("encode", .obj [("source", .str "input")])]])]])]

/-- An environment that reads every text as that document. -/
def pingEnvironment : Environment where
  target := sampleTarget
  read := fun _ => .ok pingDocument
  storage := some 4096
  metadataAllocated := true

theorem ping_compiles : ∃ state,
    compileJsonToPlanWithMetadata pingEnvironment maxUint64 [] = .ok state ∧
      isTextSchema state.plan.schemaVersion = true := by
  have version : (compileJsonToPlanWithMetadata pingEnvironment maxUint64 []).toOption.map
      (fun state => isTextSchema state.plan.schemaVersion) = some true := by
    decide +kernel
  cases run : compileJsonToPlanWithMetadata pingEnvironment maxUint64 [] with
  | error diagnostic =>
    rw [run] at version
    cases version
  | ok state =>
    rw [run] at version
    exact ⟨state, rfl, Option.some.inj version⟩

/-- A compiled text protocol answers every question about its templates, and every record it
decodes or encodes is what the answers say. -/
theorem textTemplate_rebuilds {environment : Environment} {limit : Nat} {jsonBytes : List UInt8}
    {state : CompiledProtocolArtifacts}
    (run : compileJsonToPlanWithMetadata environment limit jsonBytes = .ok state)
    (version : isTextSchema state.plan.schemaVersion = true) :
    (∀ messageIndex direction,
      (asciiAction (some state) messageIndex direction).status ≠ .internalContractViolation) ∧
    (∀ messageIndex direction ordinal,
      ∃ result, asciiSegment (some state) messageIndex direction ordinal = some result ∧
        result.status ≠ .internalContractViolation) ∧
    (∀ flat, ∃ result, asciiField (some state) flat = some result ∧
      result.status ≠ .internalContractViolation ∧
      (flat < fieldCount (some state) → result.status = .ok)) ∧
    (∀ workspace : ExecutionWorkspace, workspace.IdleFor state.plan →
      ∀ pipelineIndex input fieldSlots, ∃ call,
        decodeCompleteRecord state.plan workspace pipelineIndex input fieldSlots = some call ∧
        (call.result.status = .ok → Rebuilds state call.result.messageIndex .decode
          (slotParts (call.slots.take call.result.fieldCount)) input.bytes)) ∧
    (∀ workspace : ExecutionWorkspace, workspace.IdleFor state.plan →
      ∀ pipelineIndex messageIndex values output, ∃ call,
        encodeCompleteRecord state.plan workspace pipelineIndex messageIndex values output =
          some call ∧
        (call.result.status = .ok → Rebuilds state messageIndex .encode
          (values.values.map fun value => (value.field, value.bytesValue.bytes))
          (call.output.take call.result.bytesWritten))) := by
  obtain ⟨document, parsed, budgeted, compiled⟩ := compiledFrom_of_run run
  have text : CompiledText environment document parsed budgeted state := ⟨compiled, version⟩
  refine ⟨asciiAction_status text, asciiSegment_status text, asciiField_status text, ?_, ?_⟩
  · intro workspace idle pipelineIndex input fieldSlots
    obtain ⟨call, ran, result, slots, -⟩ :=
      decodeCompleteRecord_replies text.valid idle pipelineIndex input fieldSlots
    refine ⟨call, ran, fun ok => ?_⟩
    rw [result] at ok
    obtain ⟨message, action, parts, found, has, composed, same⟩ :=
      decoded_composed text.valid text.counted (fun message member => by
        obtain ⟨index, found⟩ := List.mem_iff_getElem?.mp member
        exact (text.described found).declared) ok
    rw [result, slots, same]
    exact rebuilds_of_composed text found has composed
  · intro workspace idle pipelineIndex messageIndex values output
    obtain ⟨call, ran, result, written, -⟩ :=
      encodeCompleteRecord_replies text.valid idle pipelineIndex messageIndex values output
    refine ⟨call, ran, fun ok => ?_⟩
    rw [result] at ok
    obtain ⟨message, action, found, has, composed, same⟩ :=
      encoded_composed text.valid text.counted version
        (fun message member action has index field listed input => by
          obtain ⟨position, found⟩ := List.mem_iff_getElem?.mp member
          obtain ⟨other, same, used⟩ := ((text.described found).input index field listed).mp input
          obtain rfl := Option.some.inj (has.symm.trans same)
          exact used) ok
    rw [result, written, same]
    exact rebuilds_of_composed text found has composed

theorem textTemplate_rebuilds_ping : ∃ state,
    compileJsonToPlanWithMetadata pingEnvironment maxUint64 [] = .ok state ∧
      (∀ messageIndex direction,
        (asciiAction (some state) messageIndex direction).status ≠ .internalContractViolation) ∧
      ∀ flat, ∃ result, asciiField (some state) flat = some result ∧
        result.status ≠ .internalContractViolation ∧
        (flat < fieldCount (some state) → result.status = .ok) := by
  obtain ⟨state, run, version⟩ := ping_compiles
  obtain ⟨actions, -, fields, -⟩ := textTemplate_rebuilds run version
  exact ⟨state, run, actions, fields⟩

end ProtocolAdapter.PublicApi
