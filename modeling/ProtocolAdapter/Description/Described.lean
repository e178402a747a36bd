/-
This file describes the metadata block of a schema. The builder delivers this block unless
it exceeds its limit or cannot be allocated; its spans tile the texts of the block, each
names the text it stands for, and the ranges of its tables stand one behind the other.
-/

import ProtocolAdapter.Description.Copy
import ProtocolAdapter.Foundation.Numbering
import Mathlib.Tactic.Abel

namespace ProtocolAdapter.Description

open Foundation ConfigCompiler

/-! ### The block -/

/-- The texts of a schema that are copied before those of its pipelines. -/
def schemaOwnTexts (schema : SchemaIr) : List String :=
  [schema.displayName, schema.description, schema.sourceRef]

/-- The offset of the texts of a block. -/
def textBase (schema : SchemaIr) : Nat := tableBytes (schemaInput schema)

/-- The offset of the texts of the messages. -/
def messageBase (schema : SchemaIr) : Nat :=
  behind (textBase schema) (schemaOwnTexts schema ++ schema.pipelines.flatMap pipelineTexts)

/-- The block of a schema. -/
def describe (schema : SchemaIr) : ProtocolMetadataStorage where
  header := (layoutOf (schemaInput schema)).header
  protocol := describeProtocol (textBase schema) schema
  pipelines :=
    describePipelines (behind (textBase schema) (schemaOwnTexts schema)) schema.pipelines
  messages := describeMessages (messageBase schema) 0 schema.messages
  fields := describeAllFields (messageBase schema) 0 schema.messages
  enums := describeAllEnums (messageBase schema) schema.messages
  storage := List.replicate (textBase schema) 0 ++ textsBytes (schemaTexts schema)
  memoryReport := (layoutOf (schemaInput schema)).report

/-- The account of a schema can be represented. -/
def Represented (schema : SchemaIr) : Prop :=
  tableBytes (schemaInput schema) + (textsBytes (schemaTexts schema)).length ≤ maxUint64

theorem length_describe_storage (schema : SchemaIr) : (describe schema).storage.length =
    textBase schema + (textsBytes (schemaTexts schema)).length := by
  show (List.replicate (textBase schema) 0 ++ textsBytes (schemaTexts schema)).length = _
  rw [List.length_append, List.length_replicate]

theorem writeBlock_eq (schema : SchemaIr) :
    writeBlock schema (layoutOf (schemaInput schema)) = .ok (describe schema) := by
  have start :
      ({ storage := List.replicate (layoutOf (schemaInput schema)).report.accountedTotalBytes 0
         stringCursor := (layoutOf (schemaInput schema)).header.stringOffset } :
        MetadataWriter) =
      writerAt (textBase schema) [] (textsBytes (schemaTexts schema)).length [] [] := by
    simp only [writerAt, layoutOf, textBase, List.append_nil, List.length_nil, Nat.add_zero,
      List.replicate_append_replicate]
    rfl
  unfold writeBlock
  rw [start, copySchema_writerAt]
  simp only [writerAt, List.replicate_zero, List.append_nil]
  rw [rejectIf, if_neg]
  · rfl
  · simp only [length_describeAllFields, length_describeAllEnums, not_or, not_not]
    exact ⟨rfl, rfl, rfl⟩

/-- The profile limits are never zero. -/
theorem derivedProtocolMetadataMemoryLimit_ne_zero (profile : ResourceProfile) :
    derivedProtocolMetadataMemoryLimit profile ≠ 0 := by
  cases profile <;> decide

/-- The builder delivers the block of a schema, unless the limit or the allocation forbids. -/
theorem build_eq {schema : SchemaIr} (represented : Represented schema) (memoryLimitBytes : Nat)
    (allocated : Bool) : build schema memoryLimitBytes allocated =
      if (describe schema).memoryReport.accountedTotalBytes >
          effectiveMetadataLimit memoryLimitBytes schema.resourceProfile then
        .error (metadataMemoryDiagnostic (describe schema).memoryReport.accountedTotalBytes
          (effectiveMetadataLimit memoryLimitBytes schema.resourceProfile) schema.resourceProfile)
      else if allocated = false then
        .error { code := .compilerAllocationFailed
                 detail := "failed to allocate protocol metadata storage" }
      else .ok (describe schema) := by
  have limit := derivedProtocolMetadataMemoryLimit_ne_zero schema.resourceProfile
  unfold build
  rw [schemaLayout_of_le represented]
  simp only [limit, false_or, writeBlock_eq]
  by_cases exceeds : (layoutOf (schemaInput schema)).report.accountedTotalBytes >
      effectiveMetadataLimit memoryLimitBytes schema.resourceProfile
  · rw [rejectIf, if_pos exceeds, if_pos]
    · rfl
    · exact exceeds
  · rw [rejectIf, if_neg exceeds, if_neg]
    · cases allocated <;> rfl
    · exact exceeds

/-! ### Tiles -/

/-- Spans that stand one behind the other. -/
inductive Tiles : Nat → List DescriptionStringSpan → Nat → Prop
  | nil {start : Nat} : Tiles start [] start
  | cons {span : DescriptionStringSpan} {rest : List DescriptionStringSpan} {stop : Nat}
      (later : Tiles (span.offset + span.size) rest stop) : Tiles span.offset (span :: rest) stop

/-- The spans of the records of a block. -/
def PipelineMetadata.spans (pipeline : PipelineMetadata) : List DescriptionStringSpan :=
  [pipeline.displayName, pipeline.description, pipeline.sourceRef]

def MessageMetadata.spans (message : MessageMetadata) : List DescriptionStringSpan :=
  [message.displayName, message.description, message.sourceRef]

def FieldMetadata.spans (field : FieldMetadata) : List DescriptionStringSpan :=
  [field.displayName, field.description, field.sourceRef]

/-- All spans of a block, in the order of its tables. -/
def ProtocolMetadataStorage.spans (metadata : ProtocolMetadataStorage) :
    List DescriptionStringSpan :=
  [metadata.protocol.displayName, metadata.protocol.description, metadata.protocol.sourceRef] ++
    metadata.pipelines.flatMap (·.spans) ++ (metadata.messages.flatMap (·.spans) ++
      metadata.fields.flatMap (·.spans) ++ metadata.enums.map (·.displayName))

/-- The spans of texts copied to an offset. -/
def placeTexts (offset : Nat) : List String → List DescriptionStringSpan
  | [] => []
  | text :: rest => spanAt offset text :: placeTexts (behind offset [text]) rest

theorem placeTexts_three (offset : Nat) (first second third : String) :
    placeTexts offset [first, second, third] =
      [spanAt offset first, spanAt (behind offset [first]) second,
        spanAt (behind offset [first, second]) third] := by
  rw [behind_cons offset first [second]]
  rfl

theorem placeTexts_append (offset : Nat) (first second : List String) :
    placeTexts offset (first ++ second) =
      placeTexts offset first ++ placeTexts (behind offset first) second := by
  induction first generalizing offset with
  | nil => rfl
  | cons text rest inductionHypothesis =>
    rw [List.cons_append, placeTexts, inductionHypothesis, behind_cons offset text rest]
    rfl

theorem tiles_placeTexts (offset : Nat) (texts : List String) :
    Tiles offset (placeTexts offset texts) (behind offset texts) := by
  induction texts generalizing offset with
  | nil => exact .nil
  | cons text rest inductionHypothesis =>
    rw [behind_cons]
    refine @Tiles.cons (spanAt offset text) _ _ ?_
    have next : behind offset [text] = offset + (textBytes text).length := by
      simp only [behind, textsBytes_cons, textsBytes_nil, List.append_nil]
    have later := inductionHypothesis (behind offset [text])
    rw [next] at later ⊢
    exact later

theorem placeTexts_enums (offset : Nat) (entries : List EnumEntryIr) :
    placeTexts offset (entries.map (·.displayName)) =
      (describeEnums offset entries).map (·.displayName) := by
  induction entries generalizing offset with
  | nil => rfl
  | cons entry rest inductionHypothesis =>
    rw [List.map_cons, placeTexts, inductionHypothesis]
    rfl

/-- The spans of the fields and entries of a message are those of its copied texts. -/
theorem placeTexts_fields (offset enumBegin : Nat) (fields : List FieldIr) :
    (placeTexts offset (fields.flatMap fieldTexts)).Perm
      ((describeFields offset enumBegin fields).flatMap (·.spans) ++
        (describeFieldEnums offset fields).map (·.displayName)) := by
  induction fields generalizing offset enumBegin with
  | nil => exact .nil
  | cons field rest inductionHypothesis =>
    have own : placeTexts offset (fieldTexts field) =
        (describeField offset enumBegin field).spans ++
          (describeEnums (behind offset (fieldOwnTexts field)) field.enumEntries).map
            (·.displayName) := by
      rw [fieldTexts, placeTexts_append, placeTexts_enums, placeTexts_three]
      rfl
    rw [List.flatMap_cons, placeTexts_append, own, describeFields, describeFieldEnums,
      List.flatMap_cons, List.map_append, List.append_assoc, List.append_assoc]
    refine .append_left _ ?_
    refine ((inductionHypothesis _ (enumBegin + field.enumEntries.length)).append_left _).trans ?_
    rw [← List.append_assoc, ← List.append_assoc]
    exact List.perm_append_comm.append_right _

theorem placeTexts_messages (offset fieldBegin enumBegin : Nat) (messages : List MessageIr) :
    (placeTexts offset (messages.flatMap messageTexts)).Perm
      ((describeMessages offset fieldBegin messages).flatMap (·.spans) ++
        (describeAllFields offset enumBegin messages).flatMap (·.spans) ++
        (describeAllEnums offset messages).map (·.displayName)) := by
  induction messages generalizing offset fieldBegin enumBegin with
  | nil => exact .nil
  | cons message rest inductionHypothesis =>
    have own : (placeTexts offset (messageTexts message)).Perm
        ((describeMessage offset fieldBegin message).spans ++
          ((describeFields (behind offset (messageOwnTexts message)) enumBegin
              message.fields).flatMap (·.spans) ++
            (describeFieldEnums (behind offset (messageOwnTexts message)) message.fields).map
              (·.displayName))) := by
      rw [messageTexts, placeTexts_append, placeTexts_three]
      exact .append_left _ (placeTexts_fields _ _ _)
    have later := inductionHypothesis (behind offset (messageTexts message))
      (fieldBegin + message.fields.length) (enumBegin + entryCount message)
    rw [List.flatMap_cons, placeTexts_append]
    refine (own.append later).trans ?_
    simp only [describeMessages, describeAllFields, describeAllEnums, List.flatMap_cons,
      List.flatMap_append, List.map_append]
    rw [← Multiset.coe_eq_coe]
    simp only [← Multiset.coe_add]
    abel

theorem placeTexts_pipelines (offset : Nat) (pipelines : List PipelineIr) :
    placeTexts offset (pipelines.flatMap pipelineTexts) =
      (describePipelines offset pipelines).flatMap (·.spans) := by
  induction pipelines generalizing offset with
  | nil => rfl
  | cons pipeline rest inductionHypothesis =>
    rw [List.flatMap_cons, placeTexts_append, inductionHypothesis, pipelineTexts, placeTexts_three]
    rfl

/-- The spans of a block tile its texts. -/
theorem describe_tiles (schema : SchemaIr) : ∃ order, order.Perm (describe schema).spans ∧
    Tiles (describe schema).header.stringOffset order (describe schema).storageSize := by
  refine ⟨placeTexts (textBase schema) (schemaTexts schema), ?_, ?_⟩
  · rw [schemaTexts, ← List.append_assoc, placeTexts_append, placeTexts_append,
      placeTexts_pipelines, placeTexts_three]
    exact .append_left _ (placeTexts_messages _ 0 0 _)
  · rw [ProtocolMetadataStorage.storageSize, length_describe_storage]
    exact tiles_placeTexts _ _

end ProtocolAdapter.Description
