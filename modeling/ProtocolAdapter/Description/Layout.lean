/-
This file computes the layout of a metadata block. All tables hold whole words, so no
region is padded, and the account of a schema of limited size never overflows.
-/

import ProtocolAdapter.ConfigCompiler.Draft

namespace ProtocolAdapter.Description

open Foundation ConfigCompiler

/-! ### Checked arithmetic -/

theorem checkedAdd_of_le {left right : Nat} (fits : left + right ≤ maxUint64) :
    checkedAdd left right = some (left + right) := by
  unfold checkedAdd
  rw [if_neg (by omega)]

theorem checkedMultiply_of_le {left right : Nat} (fits : left * right ≤ maxUint64) :
    checkedMultiply left right = some (left * right) := by
  unfold checkedMultiply
  rw [if_neg]
  rintro ⟨nonzero, exceeds⟩
  have reached := (Nat.div_lt_iff_lt_mul (Nat.pos_of_ne_zero nonzero)).mp exceeds
  rw [Nat.mul_comm] at reached
  exact absurd fits (Nat.not_le.mpr reached)

/-! ### The layout -/

/-- The bytes of the header and the tables. -/
def tableBytes (input : ProtocolMetadataLayoutInput) : Nat :=
  136 + input.pipelineCount * 48 + input.messageCount * 64 + input.fieldCount * 64 +
    input.enumCount * 16

/-- The layout of a block: tables one behind the other, then the texts. -/
def layoutOf (input : ProtocolMetadataLayoutInput) : DescriptionLayout where
  header :=
    { protocolOffset := 88
      pipelineOffset := 136
      pipelineCount := input.pipelineCount
      messageOffset := 136 + input.pipelineCount * 48
      messageCount := input.messageCount
      fieldOffset := 136 + input.pipelineCount * 48 + input.messageCount * 64
      fieldCount := input.fieldCount
      enumOffset := 136 + input.pipelineCount * 48 + input.messageCount * 64 +
        input.fieldCount * 64
      enumCount := input.enumCount
      stringOffset := tableBytes input
      stringSize := input.stringBytes }
  report :=
    { objectBytes := tableBytes input
      stringBytes := input.stringBytes
      allocationCount := 1
      accountedTotalBytes := tableBytes input + input.stringBytes }

/-- An array behind unpadded regions that end at a multiple of its alignment starts there. -/
theorem addArrayRegion_of_aligned {element : TypeLayout} {count cursor : Nat}
    (aligned : cursor % element.alignment = 0) (fits : cursor + count * element.size ≤ maxUint64) :
    addArrayRegion element count cursor { objectBytes := cursor } =
      some (cursor, cursor + count * element.size,
        { objectBytes := cursor + count * element.size }) := by
  have start : alignUp cursor element.alignment = some cursor := if_pos aligned
  have padding : checkedAdd 0 (cursor - cursor) = some 0 := by
    rw [Nat.sub_self]
    exact checkedAdd_of_le (Nat.zero_le _)
  have bytes : checkedMultiply count element.size = some (count * element.size) :=
    checkedMultiply_of_le (by omega)
  simp only [addArrayRegion, start, padding, bytes, checkedAdd_of_le fits, Option.bind_eq_bind,
    Option.bind_some]

/-- A block that can be represented has this layout. -/
theorem calculateLayout_of_le {input : ProtocolMetadataLayoutInput}
    (fits : tableBytes input + input.stringBytes ≤ maxUint64) :
    calculateLayout input = some (layoutOf input) := by
  unfold tableBytes at fits
  have header : addArrayRegion headerLayout 1 0 {} = some (0, 88, { objectBytes := 88 }) :=
    addArrayRegion_of_aligned rfl (by decide)
  have protocol : addArrayRegion protocolLayout 1 88 { objectBytes := 88 } =
      some (88, 136, { objectBytes := 136 }) := addArrayRegion_of_aligned rfl (by decide)
  have pipelines := @addArrayRegion_of_aligned pipelineLayout input.pipelineCount 136 rfl
    (by simp only [pipelineLayout]; omega)
  have messages := @addArrayRegion_of_aligned messageLayout input.messageCount
    (136 + input.pipelineCount * pipelineLayout.size)
    (by simp only [pipelineLayout, messageLayout]; omega)
    (by simp only [pipelineLayout, messageLayout]; omega)
  have fields := @addArrayRegion_of_aligned fieldLayout input.fieldCount
    (136 + input.pipelineCount * pipelineLayout.size + input.messageCount * messageLayout.size)
    (by simp only [pipelineLayout, messageLayout, fieldLayout]; omega)
    (by simp only [pipelineLayout, messageLayout, fieldLayout]; omega)
  have enums := @addArrayRegion_of_aligned enumLayout input.enumCount
    (136 + input.pipelineCount * pipelineLayout.size + input.messageCount * messageLayout.size +
      input.fieldCount * fieldLayout.size)
    (by simp only [pipelineLayout, messageLayout, fieldLayout, enumLayout]; omega)
    (by simp only [pipelineLayout, messageLayout, fieldLayout, enumLayout]; omega)
  have total := @checkedAdd_of_le (136 + input.pipelineCount * pipelineLayout.size +
      input.messageCount * messageLayout.size + input.fieldCount * fieldLayout.size +
      input.enumCount * enumLayout.size) input.stringBytes
    (by simp only [pipelineLayout, messageLayout, fieldLayout, enumLayout]; omega)
  simp only [calculateLayout, header, protocol, pipelines, messages, fields, enums, total,
    Option.bind_eq_bind, Option.bind_some]
  rfl

/-! ### The counts -/

/-- The texts of a field, in the order they are copied. -/
def fieldTexts (field : FieldIr) : List String :=
  [field.displayName, field.description, field.sourceRef] ++
    field.enumEntries.map (·.displayName)

/-- The texts of a message and of its fields. -/
def messageTexts (message : MessageIr) : List String :=
  [message.displayName, message.description, message.sourceRef] ++
    message.fields.flatMap fieldTexts

/-- The texts of a pipeline. -/
def pipelineTexts (pipeline : PipelineIr) : List String :=
  [pipeline.displayName, pipeline.description, pipeline.sourceRef]

/-- The texts of a schema. -/
def schemaTexts (schema : SchemaIr) : List String :=
  [schema.displayName, schema.description, schema.sourceRef] ++
    (schema.pipelines.flatMap pipelineTexts ++ schema.messages.flatMap messageTexts)

/-- The bytes of texts, one behind the other. -/
def textsBytes (texts : List String) : List UInt8 := texts.flatMap textBytes

/-- The enumeration entries of a message. -/
def entryCount (message : MessageIr) : Nat :=
  (message.fields.map fun field => field.enumEntries.length).sum

/-- The fields of a schema. -/
def schemaFieldCount (schema : SchemaIr) : Nat :=
  (schema.messages.map fun message => message.fields.length).sum

/-- The enumeration entries of a schema. -/
def schemaEntryCount (schema : SchemaIr) : Nat := (schema.messages.map entryCount).sum

@[simp] theorem textsBytes_nil : textsBytes [] = [] := rfl

@[simp] theorem textsBytes_cons (text : String) (rest : List String) :
    textsBytes (text :: rest) = textBytes text ++ textsBytes rest := rfl

@[simp] theorem textsBytes_append (first second : List String) :
    textsBytes (first ++ second) = textsBytes first ++ textsBytes second :=
  List.flatMap_append

theorem foldlM_addStringSize {texts : List String} :
    ∀ {total : Nat}, total + (textsBytes texts).length ≤ maxUint64 →
      texts.foldlM addStringSize total = some (total + (textsBytes texts).length) := by
  induction texts with
  | nil => intro total fits; rfl
  | cons text rest inductionHypothesis =>
    intro total fits
    rw [textsBytes_cons, List.length_append, ← Nat.add_assoc] at fits ⊢
    rw [List.foldlM_cons, addStringSize, checkedAdd_of_le (by omega), Option.bind_eq_bind,
      Option.bind_some]
    exact inductionHypothesis fits

theorem foldlM_entries (entries : List EnumEntryIr) (total : Nat) :
    entries.foldlM (fun total entry => addStringSize total entry.displayName) total =
      (entries.map (·.displayName)).foldlM addStringSize total := by
  rw [List.foldlM_map]

theorem foldlM_pipelines {pipelines : List PipelineIr} :
    ∀ {total : Nat}, total + (textsBytes (pipelines.flatMap pipelineTexts)).length ≤ maxUint64 →
      pipelines.foldlM (fun total pipeline =>
          [pipeline.displayName, pipeline.description, pipeline.sourceRef].foldlM addStringSize
            total) total =
        some (total + (textsBytes (pipelines.flatMap pipelineTexts)).length) := by
  induction pipelines with
  | nil => intro total fits; rfl
  | cons pipeline rest inductionHypothesis =>
    intro total fits
    rw [List.flatMap_cons, textsBytes_append, List.length_append, ← Nat.add_assoc] at fits ⊢
    have own := @foldlM_addStringSize (pipelineTexts pipeline) total (by omega)
    rw [pipelineTexts] at own
    rw [List.foldlM_cons, own, Option.bind_eq_bind, Option.bind_some]
    exact inductionHypothesis fits

/-- The input of the layout after a field. -/
def addField (input : ProtocolMetadataLayoutInput) (field : FieldIr) :
    ProtocolMetadataLayoutInput :=
  { input with
    enumCount := input.enumCount + field.enumEntries.length
    stringBytes := input.stringBytes + (textsBytes (fieldTexts field)).length }

theorem countField_of_le {input : ProtocolMetadataLayoutInput} {field : FieldIr}
    (entries : input.enumCount + field.enumEntries.length ≤ maxUint64)
    (texts : input.stringBytes + (textsBytes (fieldTexts field)).length ≤ maxUint64) :
    countField input field = some (addField input field) := by
  rw [fieldTexts, textsBytes_append, List.length_append, ← Nat.add_assoc] at texts
  have own := @foldlM_addStringSize [field.displayName, field.description, field.sourceRef]
    input.stringBytes (by omega)
  simp only [countField, checkedAdd_of_le entries, own, foldlM_entries, foldlM_addStringSize texts,
    Option.bind_eq_bind, Option.bind_some, addField, fieldTexts, textsBytes_append,
    List.length_append, Nat.add_assoc]

theorem foldlM_countField {fields : List FieldIr} :
    ∀ {input : ProtocolMetadataLayoutInput},
      input.enumCount + (fields.map fun field => field.enumEntries.length).sum ≤ maxUint64 →
      input.stringBytes + (textsBytes (fields.flatMap fieldTexts)).length ≤ maxUint64 →
      fields.foldlM countField input = some { input with
        enumCount := input.enumCount + (fields.map fun field => field.enumEntries.length).sum
        stringBytes := input.stringBytes + (textsBytes (fields.flatMap fieldTexts)).length } := by
  induction fields with
  | nil => intro input _ _; rfl
  | cons field rest inductionHypothesis =>
    intro input entries texts
    rw [List.map_cons, List.sum_cons, ← Nat.add_assoc] at entries ⊢
    rw [List.flatMap_cons, textsBytes_append, List.length_append, ← Nat.add_assoc] at texts ⊢
    rw [List.foldlM_cons, countField_of_le (by omega) (by omega), Option.bind_eq_bind,
      Option.bind_some]
    exact inductionHypothesis entries texts

/-- The input of the layout after a message. -/
def addMessage (input : ProtocolMetadataLayoutInput) (message : MessageIr) :
    ProtocolMetadataLayoutInput :=
  { input with
    fieldCount := input.fieldCount + message.fields.length
    enumCount := input.enumCount + entryCount message
    stringBytes := input.stringBytes + (textsBytes (messageTexts message)).length }

theorem countMessage_of_le {input : ProtocolMetadataLayoutInput} {message : MessageIr}
    (fields : input.fieldCount + message.fields.length ≤ maxUint64)
    (entries : input.enumCount + entryCount message ≤ maxUint64)
    (texts : input.stringBytes + (textsBytes (messageTexts message)).length ≤ maxUint64) :
    countMessage input message = some (addMessage input message) := by
  rw [messageTexts, textsBytes_append, List.length_append, ← Nat.add_assoc] at texts
  have own := @foldlM_addStringSize [message.displayName, message.description, message.sourceRef]
    input.stringBytes (by omega)
  have walk := @foldlM_countField message.fields { input with
      fieldCount := input.fieldCount + message.fields.length
      stringBytes := input.stringBytes + (textsBytes [message.displayName, message.description,
        message.sourceRef]).length } entries texts
  simp only [countMessage, checkedAdd_of_le fields, own, walk, Option.bind_eq_bind,
    Option.bind_some, addMessage, messageTexts, textsBytes_append, List.length_append,
    Nat.add_assoc, entryCount]

theorem foldlM_countMessage {messages : List MessageIr} :
    ∀ {input : ProtocolMetadataLayoutInput},
      input.fieldCount + (messages.map fun message => message.fields.length).sum ≤ maxUint64 →
      input.enumCount + (messages.map entryCount).sum ≤ maxUint64 →
      input.stringBytes + (textsBytes (messages.flatMap messageTexts)).length ≤ maxUint64 →
      messages.foldlM countMessage input = some { input with
        fieldCount := input.fieldCount + (messages.map fun message => message.fields.length).sum
        enumCount := input.enumCount + (messages.map entryCount).sum
        stringBytes :=
          input.stringBytes + (textsBytes (messages.flatMap messageTexts)).length } := by
  induction messages with
  | nil => intro input _ _ _; rfl
  | cons message rest inductionHypothesis =>
    intro input fields entries texts
    rw [List.map_cons, List.sum_cons, ← Nat.add_assoc] at fields entries
    rw [List.flatMap_cons, textsBytes_append, List.length_append, ← Nat.add_assoc] at texts
    rw [List.foldlM_cons, countMessage_of_le (by omega) (by omega) (by omega),
      Option.bind_eq_bind, Option.bind_some, inductionHypothesis fields entries texts]
    simp only [addMessage, List.map_cons, List.sum_cons, List.flatMap_cons, textsBytes_append,
      List.length_append, Nat.add_assoc]

/-- The counts of a schema. -/
def schemaInput (schema : SchemaIr) : ProtocolMetadataLayoutInput where
  pipelineCount := schema.pipelines.length
  messageCount := schema.messages.length
  fieldCount := schemaFieldCount schema
  enumCount := schemaEntryCount schema
  stringBytes := (textsBytes (schemaTexts schema)).length

/-- The account of a schema that can be represented. -/
theorem schemaLayout_of_le {schema : SchemaIr}
    (fits : tableBytes (schemaInput schema) + (textsBytes (schemaTexts schema)).length ≤
      maxUint64) :
    schemaLayout schema = some (layoutOf (schemaInput schema)) := by
  have counted : countSchema schema = some (schemaInput schema) := by
    have bound := fits
    simp only [tableBytes, schemaInput, schemaFieldCount, schemaEntryCount] at bound
    rw [schemaTexts, textsBytes_append, textsBytes_append, List.length_append,
      List.length_append] at bound
    have own := @foldlM_addStringSize [schema.displayName, schema.description, schema.sourceRef] 0
      (by omega)
    have pipelines := @foldlM_pipelines schema.pipelines
      (0 + (textsBytes [schema.displayName, schema.description, schema.sourceRef]).length)
      (by omega)
    simp only [countSchema, own, pipelines, Option.bind_eq_bind, Option.bind_some]
    rw [foldlM_countMessage (by simp only; omega) (by simp only; omega) (by simp only; omega)]
    simp only [schemaInput, schemaTexts, textsBytes_append, List.length_append, Nat.zero_add,
      Nat.add_assoc, schemaFieldCount, schemaEntryCount]
  rw [schemaLayout, counted, Option.bind_eq_bind, Option.bind_some]
  exact calculateLayout_of_le fits

end ProtocolAdapter.Description
