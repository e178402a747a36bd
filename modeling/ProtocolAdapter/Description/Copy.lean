/-
This file computes what the builder of a metadata block writes. The tables it fills are
given in closed form, as functions of the offset of the first text and of the flat indices
reached, and the copy of each record is shown to append exactly these to the block.
-/

import ProtocolAdapter.Description.Layout

namespace ProtocolAdapter.Description

open Foundation ConfigCompiler

/-! ### The tables -/

/-- The span of a text copied to an offset. -/
def spanAt (offset : Nat) (text : String) : DescriptionStringSpan :=
  ⟨offset, (textBytes text).length⟩

/-- The offset behind texts copied to an offset. -/
def behind (offset : Nat) (texts : List String) : Nat := offset + (textsBytes texts).length

/-- The texts that come first in the texts of a field and of a message. -/
def fieldOwnTexts (field : FieldIr) : List String :=
  [field.displayName, field.description, field.sourceRef]

def messageOwnTexts (message : MessageIr) : List String :=
  [message.displayName, message.description, message.sourceRef]

/-- The entries of a field, with their texts from an offset on. -/
def describeEnums (offset : Nat) : List EnumEntryIr → List EnumMetadata
  | [] => []
  | entry :: rest =>
    { displayName := spanAt offset entry.displayName } ::
      describeEnums (behind offset [entry.displayName]) rest

/-- A field with its texts from an offset on. -/
def describeField (offset enumBegin : Nat) (field : FieldIr) : FieldMetadata where
  displayName := spanAt offset field.displayName
  description := spanAt (behind offset [field.displayName]) field.description
  sourceRef := spanAt (behind offset [field.displayName, field.description]) field.sourceRef
  enumBegin := enumBegin
  enumCount := field.enumEntries.length

/-- The fields of a message. -/
def describeFields (offset enumBegin : Nat) : List FieldIr → List FieldMetadata
  | [] => []
  | field :: rest =>
    describeField offset enumBegin field ::
      describeFields (behind offset (fieldTexts field)) (enumBegin + field.enumEntries.length) rest

/-- The entries of the fields of a message. -/
def describeFieldEnums (offset : Nat) : List FieldIr → List EnumMetadata
  | [] => []
  | field :: rest =>
    describeEnums (behind offset (fieldOwnTexts field)) field.enumEntries ++
      describeFieldEnums (behind offset (fieldTexts field)) rest

/-- A message with its texts from an offset on. -/
def describeMessage (offset fieldBegin : Nat) (message : MessageIr) : MessageMetadata where
  displayName := spanAt offset message.displayName
  description := spanAt (behind offset [message.displayName]) message.description
  sourceRef := spanAt (behind offset [message.displayName, message.description]) message.sourceRef
  fieldBegin := fieldBegin
  fieldCount := message.fields.length

/-- The messages of a schema. -/
def describeMessages (offset fieldBegin : Nat) : List MessageIr → List MessageMetadata
  | [] => []
  | message :: rest =>
    describeMessage offset fieldBegin message ::
      describeMessages (behind offset (messageTexts message)) (fieldBegin + message.fields.length)
        rest

/-- The fields of all messages. -/
def describeAllFields (offset enumBegin : Nat) : List MessageIr → List FieldMetadata
  | [] => []
  | message :: rest =>
    describeFields (behind offset (messageOwnTexts message)) enumBegin message.fields ++
      describeAllFields (behind offset (messageTexts message)) (enumBegin + entryCount message) rest

/-- The entries of the fields of all messages. -/
def describeAllEnums (offset : Nat) : List MessageIr → List EnumMetadata
  | [] => []
  | message :: rest =>
    describeFieldEnums (behind offset (messageOwnTexts message)) message.fields ++
      describeAllEnums (behind offset (messageTexts message)) rest

/-- A pipeline with its texts from an offset on. -/
def describePipeline (offset : Nat) (pipeline : PipelineIr) : PipelineMetadata where
  displayName := spanAt offset pipeline.displayName
  description := spanAt (behind offset [pipeline.displayName]) pipeline.description
  sourceRef :=
    spanAt (behind offset [pipeline.displayName, pipeline.description]) pipeline.sourceRef

/-- The pipelines of a schema. -/
def describePipelines (offset : Nat) : List PipelineIr → List PipelineMetadata
  | [] => []
  | pipeline :: rest =>
    describePipeline offset pipeline ::
      describePipelines (behind offset (pipelineTexts pipeline)) rest

/-- A protocol with its texts from an offset on. -/
def describeProtocol (offset : Nat) (schema : SchemaIr) : ProtocolMetadata where
  displayName := spanAt offset schema.displayName
  description := spanAt (behind offset [schema.displayName]) schema.description
  sourceRef := spanAt (behind offset [schema.displayName, schema.description]) schema.sourceRef

/-! ### Offsets and counts -/

@[simp] theorem behind_nil (offset : Nat) : behind offset [] = offset := rfl

theorem behind_cons (offset : Nat) (text : String) (rest : List String) :
    behind offset (text :: rest) = behind (behind offset [text]) rest := by
  simp only [behind, textsBytes_cons, textsBytes_nil, List.append_nil, List.length_append,
    Nat.add_assoc]

@[simp] theorem length_describeEnums (offset : Nat) (entries : List EnumEntryIr) :
    (describeEnums offset entries).length = entries.length := by
  induction entries generalizing offset with
  | nil => rfl
  | cons entry rest inductionHypothesis =>
    exact congrArg Nat.succ (inductionHypothesis _)

@[simp] theorem length_describeFields (offset enumBegin : Nat) (fields : List FieldIr) :
    (describeFields offset enumBegin fields).length = fields.length := by
  induction fields generalizing offset enumBegin with
  | nil => rfl
  | cons field rest inductionHypothesis =>
    exact congrArg Nat.succ (inductionHypothesis _ _)

@[simp] theorem length_describeFieldEnums (offset : Nat) (fields : List FieldIr) :
    (describeFieldEnums offset fields).length =
      (fields.map fun field => field.enumEntries.length).sum := by
  induction fields generalizing offset with
  | nil => rfl
  | cons field rest inductionHypothesis =>
    rw [describeFieldEnums, List.length_append, length_describeEnums, inductionHypothesis]
    rfl

@[simp] theorem length_describeMessages (offset fieldBegin : Nat) (messages : List MessageIr) :
    (describeMessages offset fieldBegin messages).length = messages.length := by
  induction messages generalizing offset fieldBegin with
  | nil => rfl
  | cons message rest inductionHypothesis =>
    exact congrArg Nat.succ (inductionHypothesis _ _)

@[simp] theorem length_describeAllFields (offset enumBegin : Nat) (messages : List MessageIr) :
    (describeAllFields offset enumBegin messages).length =
      (messages.map fun message => message.fields.length).sum := by
  induction messages generalizing offset enumBegin with
  | nil => rfl
  | cons message rest inductionHypothesis =>
    rw [describeAllFields, List.length_append, length_describeFields, inductionHypothesis]
    rfl

@[simp] theorem length_describeAllEnums (offset : Nat) (messages : List MessageIr) :
    (describeAllEnums offset messages).length = (messages.map entryCount).sum := by
  induction messages generalizing offset with
  | nil => rfl
  | cons message rest inductionHypothesis =>
    rw [describeAllEnums, List.length_append, length_describeFieldEnums, inductionHypothesis]
    rfl

@[simp] theorem length_describePipelines (offset : Nat) (pipelines : List PipelineIr) :
    (describePipelines offset pipelines).length = pipelines.length := by
  induction pipelines generalizing offset with
  | nil => rfl
  | cons pipeline rest inductionHypothesis =>
    exact congrArg Nat.succ (inductionHypothesis _)

/-! ### Copies -/

/-- A writer that has copied bytes behind the tables, and has room left. -/
def writerAt (base : Nat) (written : List UInt8) (room : Nat) (fields : List FieldMetadata)
    (enums : List EnumMetadata) : MetadataWriter where
  storage := List.replicate base 0 ++ written ++ List.replicate room 0
  stringCursor := base + written.length
  fields := fields
  enums := enums

section

variable {base room : Nat} {written : List UInt8} {fields : List FieldMetadata}
  {enums : List EnumMetadata}

theorem copyString_writerAt (text : String) :
    copyString text (writerAt base written ((textBytes text).length + room) fields enums) =
      (spanAt (base + written.length) text,
        writerAt base (written ++ textBytes text) room fields enums) := by
  have front : (List.replicate base (0 : UInt8) ++ written).length = base + written.length := by
    rw [List.length_append, List.length_replicate]
  have taken : (List.replicate base (0 : UInt8) ++ written ++
      List.replicate ((textBytes text).length + room) 0).take (base + written.length) =
      List.replicate base 0 ++ written := List.take_left' front
  have dropped : (List.replicate base (0 : UInt8) ++ written ++
      List.replicate ((textBytes text).length + room) 0).drop
        (base + written.length + (textBytes text).length) = List.replicate room 0 := by
    rw [List.drop_append, front, List.drop_eq_nil_of_le (by omega), List.nil_append,
      List.drop_replicate]
    congr 1
    omega
  show (_, _) = _
  simp only [writerAt, overwrite, taken, dropped]
  simp only [spanAt, List.length_append, List.append_assoc, Nat.add_assoc]

theorem bind_writer {α β : Type} {first : StateM MetadataWriter α}
    {next : α → StateM MetadataWriter β} {start middle : MetadataWriter} {value : α}
    (run : first start = (value, middle)) : (first >>= next) start = next value middle := by
  show (first start >>= fun reached => next reached.1 reached.2 : Id _) = _
  rw [run]
  rfl

/-- Three texts are copied one behind the other. -/
theorem copyThree {α : Type} (first second third : String)
    (next : DescriptionStringSpan → DescriptionStringSpan → DescriptionStringSpan →
      StateM MetadataWriter α) :
    (do
      let firstSpan ← copyString first
      let secondSpan ← copyString second
      let thirdSpan ← copyString third
      next firstSpan secondSpan thirdSpan)
        (writerAt base written ((textsBytes [first, second, third]).length + room) fields enums) =
      next (spanAt (base + written.length) first)
        (spanAt (behind (base + written.length) [first]) second)
        (spanAt (behind (base + written.length) [first, second]) third)
        (writerAt base (written ++ textsBytes [first, second, third]) room fields enums) := by
  simp only [textsBytes_cons, textsBytes_nil, List.append_nil, List.length_append, Nat.add_assoc]
  rw [bind_writer (copyString_writerAt first), bind_writer (copyString_writerAt second),
    bind_writer (copyString_writerAt third)]
  simp only [behind, textsBytes_cons, textsBytes_nil, List.append_nil, List.length_append,
    List.append_assoc, Nat.add_assoc]

theorem copyEnum_writerAt (entry : EnumEntryIr) :
    copyEnum entry
        (writerAt base written ((textsBytes [entry.displayName]).length + room) fields enums) =
      ((), writerAt base (written ++ textsBytes [entry.displayName]) room fields
        (enums ++ describeEnums (base + written.length) [entry])) := by
  simp only [textsBytes_cons, textsBytes_nil, List.append_nil]
  exact bind_writer (copyString_writerAt entry.displayName)

theorem forM_copyEnum_writerAt : ∀ {entries : List EnumEntryIr} {written : List UInt8}
    {enums : List EnumMetadata}, entries.forM copyEnum (writerAt base written
        ((textsBytes (entries.map (·.displayName))).length + room) fields enums) =
      ((), writerAt base (written ++ textsBytes (entries.map (·.displayName))) room fields
        (enums ++ describeEnums (base + written.length) entries)) := by
  intro entries
  induction entries with
  | nil =>
    intro written enums
    simp only [List.map_nil, textsBytes_nil, List.append_nil, List.length_nil, Nat.zero_add,
      describeEnums]
    rfl
  | cons entry rest inductionHypothesis =>
    intro written enums
    have own := @copyEnum_writerAt base ((textsBytes (rest.map (·.displayName))).length + room)
      written fields enums entry
    have split := textsBytes_append [entry.displayName] (rest.map (·.displayName))
    rw [List.singleton_append] at split
    rw [List.map_cons, split, List.length_append, Nat.add_assoc]
    refine ((bind_writer own).trans inductionHypothesis).trans ?_
    simp only [describeEnums, behind, List.length_append, List.append_assoc, Nat.add_assoc,
      List.singleton_append]

/-- The copy of a field appends the field and its entries. -/
theorem copyField_writerAt (field : FieldIr) :
    copyField field
        (writerAt base written ((textsBytes (fieldTexts field)).length + room) fields enums) =
      ((), writerAt base (written ++ textsBytes (fieldTexts field)) room
        (fields ++ describeFields (base + written.length) enums.length [field])
        (enums ++ describeFieldEnums (base + written.length) [field])) := by
  rw [fieldTexts, textsBytes_append, List.length_append, Nat.add_assoc]
  refine (copyThree field.displayName field.description field.sourceRef _).trans ?_
  refine (@bind_writer _ _ _ _ _ (writerAt base _ _ _ _) _ rfl).trans ?_
  refine forM_copyEnum_writerAt.trans ?_
  simp only [describeFields, describeField, describeFieldEnums, fieldOwnTexts, behind,
    List.length_append, List.append_assoc, Nat.add_assoc, List.append_nil]
  rfl

theorem forM_copyField_writerAt : ∀ {items : List FieldIr} {written : List UInt8}
    {fields : List FieldMetadata} {enums : List EnumMetadata},
    items.forM copyField (writerAt base written
        ((textsBytes (items.flatMap fieldTexts)).length + room) fields enums) =
      ((), writerAt base (written ++ textsBytes (items.flatMap fieldTexts)) room
        (fields ++ describeFields (base + written.length) enums.length items)
        (enums ++ describeFieldEnums (base + written.length) items)) := by
  intro items
  induction items with
  | nil =>
    intro written fields enums
    simp only [List.flatMap_nil, textsBytes_nil, List.append_nil, List.length_nil, Nat.zero_add,
      describeFields, describeFieldEnums]
    rfl
  | cons field rest inductionHypothesis =>
    intro written fields enums
    rw [List.flatMap_cons, textsBytes_append, List.length_append, Nat.add_assoc]
    refine ((bind_writer (copyField_writerAt field)).trans inductionHypothesis).trans ?_
    simp only [describeFields, describeFieldEnums, behind, List.length_append, List.append_assoc,
      Nat.add_assoc, List.singleton_append, List.append_nil, length_describeEnums]

/-- The copy of a message appends its fields and their entries. -/
theorem copyMessage_writerAt (message : MessageIr) :
    copyMessage message
        (writerAt base written ((textsBytes (messageTexts message)).length + room) fields enums) =
      (describeMessage (base + written.length) fields.length message,
        writerAt base (written ++ textsBytes (messageTexts message)) room
          (fields ++ describeAllFields (base + written.length) enums.length [message])
          (enums ++ describeAllEnums (base + written.length) [message])) := by
  rw [messageTexts, textsBytes_append, List.length_append, Nat.add_assoc]
  refine (copyThree message.displayName message.description message.sourceRef _).trans ?_
  refine (@bind_writer _ _ _ _ _ (writerAt base _ _ _ _) _ rfl).trans ?_
  refine (bind_writer forM_copyField_writerAt).trans ?_
  simp only [describeMessage, describeAllFields, describeAllEnums, messageOwnTexts, behind,
    List.length_append, List.append_assoc, Nat.add_assoc, List.append_nil]
  rfl

/-- Copies of records one behind the other. -/
theorem mapM_copy {α β : Type} {copy : α → StateM MetadataWriter β} {items : List α}
    {start : MetadataWriter} {item : α} {middle : MetadataWriter} {result : β} {results : List β}
    {stop : MetadataWriter} (own : copy item start = (result, middle))
    (later : items.mapM copy middle = (results, stop)) :
    (item :: items).mapM copy start = (result :: results, stop) := by
  rw [List.mapM_cons, bind_writer own, bind_writer later]
  rfl

theorem mapM_copyPipeline_writerAt : ∀ {pipelines : List PipelineIr} {written : List UInt8},
    pipelines.mapM copyPipeline (writerAt base written
        ((textsBytes (pipelines.flatMap pipelineTexts)).length + room) fields enums) =
      (describePipelines (base + written.length) pipelines,
        writerAt base (written ++ textsBytes (pipelines.flatMap pipelineTexts)) room fields
          enums) := by
  intro pipelines
  induction pipelines with
  | nil =>
    intro written
    simp only [List.flatMap_nil, textsBytes_nil, List.append_nil, List.length_nil, Nat.zero_add,
      describePipelines]
    rfl
  | cons pipeline rest inductionHypothesis =>
    intro written
    rw [List.flatMap_cons, textsBytes_append, List.length_append, Nat.add_assoc]
    have own : copyPipeline pipeline (writerAt base written
        ((textsBytes (pipelineTexts pipeline)).length +
          ((textsBytes (rest.flatMap pipelineTexts)).length + room)) fields enums) = _ :=
      copyThree pipeline.displayName pipeline.description pipeline.sourceRef _
    refine (mapM_copy own inductionHypothesis).trans ?_
    simp only [describePipelines, describePipeline, pipelineTexts, behind, List.length_append,
      List.append_assoc, Nat.add_assoc]

theorem mapM_copyMessage_writerAt : ∀ {messages : List MessageIr} {written : List UInt8}
    {fields : List FieldMetadata} {enums : List EnumMetadata},
    messages.mapM copyMessage (writerAt base written
        ((textsBytes (messages.flatMap messageTexts)).length + room) fields enums) =
      (describeMessages (base + written.length) fields.length messages,
        writerAt base (written ++ textsBytes (messages.flatMap messageTexts)) room
          (fields ++ describeAllFields (base + written.length) enums.length messages)
          (enums ++ describeAllEnums (base + written.length) messages)) := by
  intro messages
  induction messages with
  | nil =>
    intro written fields enums
    simp only [List.flatMap_nil, textsBytes_nil, List.append_nil, List.length_nil, Nat.zero_add,
      describeMessages, describeAllFields, describeAllEnums]
    rfl
  | cons message rest inductionHypothesis =>
    intro written fields enums
    rw [List.flatMap_cons, textsBytes_append, List.length_append, Nat.add_assoc]
    refine (mapM_copy (copyMessage_writerAt message) inductionHypothesis).trans ?_
    simp only [describeMessages, describeAllFields, describeAllEnums, behind, List.length_append,
      List.append_assoc, Nat.add_assoc, List.append_nil, length_describeFields,
      length_describeFieldEnums, entryCount]

end

/-- The copy of a schema fills the block behind the tables. -/
theorem copySchema_writerAt (base : Nat) (schema : SchemaIr) :
    copySchema schema (writerAt base [] (textsBytes (schemaTexts schema)).length [] []) =
      ((describeProtocol base schema,
          describePipelines (behind base [schema.displayName, schema.description, schema.sourceRef])
            schema.pipelines,
          describeMessages (behind base ([schema.displayName, schema.description,
            schema.sourceRef] ++ schema.pipelines.flatMap pipelineTexts)) 0 schema.messages),
        writerAt base (textsBytes (schemaTexts schema)) 0
          (describeAllFields (behind base ([schema.displayName, schema.description,
            schema.sourceRef] ++ schema.pipelines.flatMap pipelineTexts)) 0 schema.messages)
          (describeAllEnums (behind base ([schema.displayName, schema.description,
            schema.sourceRef] ++ schema.pipelines.flatMap pipelineTexts)) schema.messages)) := by
  have room : (textsBytes (schemaTexts schema)).length =
      (textsBytes [schema.displayName, schema.description, schema.sourceRef]).length +
        ((textsBytes (schema.pipelines.flatMap pipelineTexts)).length +
          ((textsBytes (schema.messages.flatMap messageTexts)).length + 0)) := by
    simp only [schemaTexts, textsBytes_append, List.length_append, Nat.add_zero]
  rw [room]
  refine (copyThree schema.displayName schema.description schema.sourceRef _).trans ?_
  refine (bind_writer mapM_copyPipeline_writerAt).trans ?_
  refine (bind_writer mapM_copyMessage_writerAt).trans ?_
  simp only [schemaTexts, behind, textsBytes_append, List.length_append, List.append_assoc,
    List.nil_append, List.length_nil, Nat.add_zero, describeProtocol]
  rfl

end ProtocolAdapter.Description
