/-
This file defines the builder of a metadata block. It counts the records and the texts of
a schema, lays the tables out behind the header, copies the texts behind the tables, and
checks the block against the plan frozen from the same schema.
-/

import ProtocolAdapter.ConfigCompiler.Budget
import ProtocolAdapter.Description.Metadata

namespace ProtocolAdapter.Description

open Foundation ConfigCompiler

/-! ### The layout -/

/-- The layouts of the records of a block. All their members are words. -/
def headerLayout : TypeLayout := ⟨88, 8⟩

def protocolLayout : TypeLayout := ⟨48, 8⟩

def pipelineLayout : TypeLayout := ⟨48, 8⟩

def messageLayout : TypeLayout := ⟨64, 8⟩

def fieldLayout : TypeLayout := ⟨64, 8⟩

def enumLayout : TypeLayout := ⟨16, 8⟩

/-- The counts of the records of a schema, and the bytes of its texts. -/
structure ProtocolMetadataLayoutInput where
  pipelineCount : Nat := 0
  messageCount : Nat := 0
  fieldCount : Nat := 0
  enumCount : Nat := 0
  stringBytes : Nat := 0
  deriving DecidableEq

/-- The header of a block and the account of its memory. -/
structure DescriptionLayout where
  header : DescriptionHeader := {}
  report : DescriptionMemoryReport := {}
  deriving DecidableEq

/-- The next multiple of an alignment, when it can be represented. -/
def alignUp (value alignment : Nat) : Option Nat :=
  let remainder := value % alignment
  if remainder = 0 then some value else checkedAdd value (alignment - remainder)

/-- Appends an array to the regions before `cursor`. The result is the offset of the array,
the cursor behind it, and the report with its bytes and its padding. -/
def addArrayRegion (element : TypeLayout) (count cursor : Nat)
    (report : DescriptionMemoryReport) : Option (Nat × Nat × DescriptionMemoryReport) := do
  let aligned ← alignUp cursor element.alignment
  let alignmentBytes ← checkedAdd report.alignmentBytes (aligned - cursor)
  let bytes ← checkedMultiply count element.size
  let objectBytes ← checkedAdd report.objectBytes bytes
  let cursor ← checkedAdd aligned bytes
  some (aligned, cursor,
    { report with objectBytes := objectBytes, alignmentBytes := alignmentBytes })

/-- Lays out the header, the tables and the texts behind each other. -/
def calculateLayout (input : ProtocolMetadataLayoutInput) : Option DescriptionLayout := do
  let (_, cursor, report) ← addArrayRegion headerLayout 1 0 {}
  let (protocolOffset, cursor, report) ← addArrayRegion protocolLayout 1 cursor report
  let (pipelineOffset, cursor, report) ←
    addArrayRegion pipelineLayout input.pipelineCount cursor report
  let (messageOffset, cursor, report) ←
    addArrayRegion messageLayout input.messageCount cursor report
  let (fieldOffset, cursor, report) ← addArrayRegion fieldLayout input.fieldCount cursor report
  let (enumOffset, cursor, report) ← addArrayRegion enumLayout input.enumCount cursor report
  let total ← checkedAdd cursor input.stringBytes
  some
    { header :=
        { protocolOffset := protocolOffset
          pipelineOffset := pipelineOffset
          pipelineCount := input.pipelineCount
          messageOffset := messageOffset
          messageCount := input.messageCount
          fieldOffset := fieldOffset
          fieldCount := input.fieldCount
          enumOffset := enumOffset
          enumCount := input.enumCount
          stringOffset := cursor
          stringSize := input.stringBytes }
      report :=
        { report with
          stringBytes := input.stringBytes
          indexBytes := 0
          allocationCount := 1
          accountedTotalBytes := total } }

/-! ### The counts of a schema -/

/-- The bytes of a text. -/
def textBytes (text : String) : List UInt8 := text.toUTF8.data.toList

/-- Adds the bytes of a text to a total. -/
def addStringSize (total : Nat) (text : String) : Option Nat :=
  checkedAdd total (textBytes text).length

/-- Counts the entries and texts of a field. -/
def countField (input : ProtocolMetadataLayoutInput) (field : FieldIr) :
    Option ProtocolMetadataLayoutInput := do
  let enumCount ← checkedAdd input.enumCount field.enumEntries.length
  let stringBytes ← [field.displayName, field.description, field.sourceRef].foldlM addStringSize
    input.stringBytes
  let stringBytes ← field.enumEntries.foldlM
    (fun total entry => addStringSize total entry.displayName) stringBytes
  some { input with enumCount := enumCount, stringBytes := stringBytes }

/-- Counts the fields and texts of a message. -/
def countMessage (input : ProtocolMetadataLayoutInput) (message : MessageIr) :
    Option ProtocolMetadataLayoutInput := do
  let fieldCount ← checkedAdd input.fieldCount message.fields.length
  let stringBytes ← [message.displayName, message.description, message.sourceRef].foldlM
    addStringSize input.stringBytes
  message.fields.foldlM countField
    { input with fieldCount := fieldCount, stringBytes := stringBytes }

/-- Counts the records of a schema and the bytes of its texts. -/
def countSchema (schema : SchemaIr) : Option ProtocolMetadataLayoutInput := do
  let stringBytes ← [schema.displayName, schema.description, schema.sourceRef].foldlM
    addStringSize 0
  let stringBytes ← schema.pipelines.foldlM (fun total pipeline =>
    [pipeline.displayName, pipeline.description, pipeline.sourceRef].foldlM addStringSize total)
    stringBytes
  schema.messages.foldlM countMessage
    { pipelineCount := schema.pipelines.length
      messageCount := schema.messages.length
      stringBytes := stringBytes }

/-! ### The limit -/

/-- The decoded text a document may hold. -/
def compilerDecodedStringHardLimitBytes : Nat := 2 * 1024 * 1024

/-- The bytes of the largest block a resource profile can need; zero when they cannot be
represented. -/
def derivedProtocolMetadataMemoryLimit (profile : ResourceProfile) : Nat :=
  let limits := getResourceProfileLimits profile
  let maximum : ProtocolMetadataLayoutInput :=
    { pipelineCount := limits.maxPipelines
      messageCount := limits.maxMessages
      fieldCount := limits.maxTotalFields
      enumCount := limits.maxTotalEnumEntries
      stringBytes := compilerDecodedStringHardLimitBytes }
  match calculateLayout maximum with
  | some layout => layout.report.accountedTotalBytes
  | none => 0

/-! ### Copying -/

/-- The state of the copy: the block with the cursor behind the last text, and the flat
tables filled so far. -/
structure MetadataWriter where
  storage : List UInt8
  stringCursor : Nat
  fields : List FieldMetadata := []
  enums : List EnumMetadata := []

/-- Writes bytes over a block from an offset on. -/
def overwrite (storage : List UInt8) (offset : Nat) (bytes : List UInt8) : List UInt8 :=
  storage.take offset ++ bytes ++ storage.drop (offset + bytes.length)

/-- Copies a text to the cursor. -/
def copyString (text : String) : StateM MetadataWriter DescriptionStringSpan := fun writer =>
  let bytes := textBytes text
  ({ offset := writer.stringCursor, size := bytes.length },
    { writer with
      storage := overwrite writer.storage writer.stringCursor bytes
      stringCursor := writer.stringCursor + bytes.length })

def copyPipeline (pipeline : PipelineIr) : StateM MetadataWriter PipelineMetadata := do
  let displayName ← copyString pipeline.displayName
  let description ← copyString pipeline.description
  let sourceRef ← copyString pipeline.sourceRef
  pure { displayName, description, sourceRef }

/-- Copies the text of an entry and appends the entry to the flat table. -/
def copyEnum (entry : EnumEntryIr) : StateM MetadataWriter Unit := do
  let displayName ← copyString entry.displayName
  modify fun writer => { writer with enums := writer.enums ++ [{ displayName }] }

/-- Copies the texts of a field and appends the field, with its entries, to the flat tables. -/
def copyField (field : FieldIr) : StateM MetadataWriter Unit := do
  let displayName ← copyString field.displayName
  let description ← copyString field.description
  let sourceRef ← copyString field.sourceRef
  modify fun writer => { writer with
    fields := writer.fields ++
      [{ displayName, description, sourceRef
         enumBegin := writer.enums.length
         enumCount := field.enumEntries.length }] }
  field.enumEntries.forM copyEnum

/-- Copies the texts of a message and of its fields. -/
def copyMessage (message : MessageIr) : StateM MetadataWriter MessageMetadata := do
  let displayName ← copyString message.displayName
  let description ← copyString message.description
  let sourceRef ← copyString message.sourceRef
  let writer ← get
  message.fields.forM copyField
  pure
    { displayName, description, sourceRef
      fieldBegin := writer.fields.length
      fieldCount := message.fields.length }

/-- Copies the texts of a schema in the order of its records. -/
def copySchema (schema : SchemaIr) :
    StateM MetadataWriter (ProtocolMetadata × List PipelineMetadata × List MessageMetadata) := do
  let displayName ← copyString schema.displayName
  let description ← copyString schema.description
  let sourceRef ← copyString schema.sourceRef
  let pipelines ← schema.pipelines.mapM copyPipeline
  let messages ← schema.messages.mapM copyMessage
  pure ({ displayName, description, sourceRef }, pipelines, messages)

/-! ### Build -/

/-- The diagnostic of a violated contract of the builder. -/
def internalDiagnostic (detail : String) : CompileDiagnostic := { detail := detail }

/-- The diagnostic of a block above its limit. -/
def metadataMemoryDiagnostic (requiredBytes limitBytes : Nat) (profile : ResourceProfile) :
    CompileDiagnostic :=
  { budget "" "accounted protocol metadata memory exceeds the selected limit" with
    resourceKind := .uiDescriptionAccountedMemory
    requiredBytes := requiredBytes
    limitBytes := limitBytes
    resourceProfile := profile }

/-- Copies the texts of a schema into a fresh block of the estimated layout. The bytes of
the block before the copy are taken to be zero. -/
def writeBlock (schema : SchemaIr) (layout : DescriptionLayout) :
    Compiled ProtocolMetadataStorage := do
  let ((protocol, pipelines, messages), writer) := copySchema schema
    { storage := List.replicate layout.report.accountedTotalBytes 0
      stringCursor := layout.header.stringOffset }
  rejectIf (writer.stringCursor ≠ layout.report.accountedTotalBytes ∨
      writer.fields.length ≠ layout.header.fieldCount ∨
      writer.enums.length ≠ layout.header.enumCount)
    (internalDiagnostic "protocol metadata estimate and final write differ")
  pure
    { header := layout.header
      protocol := protocol
      pipelines := pipelines
      messages := messages
      fields := writer.fields
      enums := writer.enums
      storage := writer.storage
      memoryReport := layout.report }

/-- The account of the block a schema needs, when it can be represented. -/
def schemaLayout (schema : SchemaIr) : Option DescriptionLayout := do
  let input ← countSchema schema
  calculateLayout input

/-- The smaller of the caller's limit and the one derived from the profile. -/
def effectiveMetadataLimit (memoryLimitBytes : Nat) (profile : ResourceProfile) : Nat :=
  min memoryLimitBytes (derivedProtocolMetadataMemoryLimit profile)

/-- Builds the block of a schema. `allocated` says whether its memory could be allocated. -/
def build (schema : SchemaIr) (memoryLimitBytes : Nat) (allocated : Bool) :
    Compiled ProtocolMetadataStorage :=
  match schemaLayout schema with
  | none => .error (internalDiagnostic "protocol metadata layout overflowed")
  | some layout => do
    let limit := effectiveMetadataLimit memoryLimitBytes schema.resourceProfile
    rejectIf (derivedProtocolMetadataMemoryLimit schema.resourceProfile = 0 ∨
        layout.report.accountedTotalBytes > limit)
      (metadataMemoryDiagnostic layout.report.accountedTotalBytes limit schema.resourceProfile)
    rejectIf (!allocated)
      { code := .compilerAllocationFailed
        detail := "failed to allocate protocol metadata storage" }
    writeBlock schema layout

/-! ### Audit -/

/-- Whether a range of a table lies inside it. -/
def checkedRange (start count size : Nat) : Bool :=
  match checkedAdd start count with
  | none => false
  | some stop => stop ≤ size

/-- Whether a span lies inside the texts of a block. -/
def spanWithin (stringBegin storageSize : Nat) (span : DescriptionStringSpan) : Bool :=
  span.offset ≥ stringBegin &&
    match checkedAdd span.offset span.size with
    | none => false
    | some stop => stop ≤ storageSize

/-- Whether the three spans most records have lie inside the texts of a block. -/
def commonSpansWithin (stringBegin storageSize : Nat)
    (displayName description sourceRef : DescriptionStringSpan) : Bool :=
  spanWithin stringBegin storageSize displayName &&
    spanWithin stringBegin storageSize description &&
    spanWithin stringBegin storageSize sourceRef

/-- Whether the layout of a block is the one its header and its report state. -/
def layoutAgrees (metadata : ProtocolMetadataStorage) : Bool :=
  let header := metadata.header
  match calculateLayout
    { pipelineCount := header.pipelineCount
      messageCount := header.messageCount
      fieldCount := header.fieldCount
      enumCount := header.enumCount
      stringBytes := header.stringSize } with
  | none => false
  | some expected =>
    header.protocolOffset = expected.header.protocolOffset &&
      header.pipelineOffset = expected.header.pipelineOffset &&
      header.messageOffset = expected.header.messageOffset &&
      header.fieldOffset = expected.header.fieldOffset &&
      header.enumOffset = expected.header.enumOffset &&
      header.stringOffset = expected.header.stringOffset &&
      metadata.storageSize = expected.report.accountedTotalBytes &&
      metadata.memoryReport = expected.report

/-- The detail of a field whose entries are not numbered as the plan numbers them. -/
def fieldMismatchDetail (messageIndex fieldOffset : Nat) (field : FieldMetadata)
    (expectedBegin planCount : Nat) : String :=
  "Plan and protocol metadata field enum indexes differ at message " ++ toString messageIndex ++
    ", field " ++ toString fieldOffset ++ ": UI begin/count=" ++ toString field.enumBegin ++ "/" ++
    toString field.enumCount ++ ", expected begin=" ++ toString expectedBegin ++
    ", Plan count=" ++ toString planCount

/-- Checks a field against its plan; the result is the flat index behind its entries. -/
def auditField (metadata : ProtocolMetadataStorage) (messageIndex fieldOffset : Nat)
    (field : FieldMetadata) (planField : FrozenFieldPlan) (expectedBegin : Nat) : Compiled Nat := do
  let stringBegin := metadata.header.stringOffset
  rejectIf (!commonSpansWithin stringBegin metadata.storageSize field.displayName
        field.description field.sourceRef ∨
      field.enumBegin ≠ expectedBegin ∨ field.enumCount ≠ planField.enumEntries.length ∨
      !checkedRange field.enumBegin field.enumCount metadata.header.enumCount)
    (internalDiagnostic (fieldMismatchDetail messageIndex fieldOffset field expectedBegin
      planField.enumEntries.length))
  rejectIf (((metadata.enums.drop field.enumBegin).take field.enumCount).any fun entry =>
      !spanWithin stringBegin metadata.storageSize entry.displayName)
    (internalDiagnostic "UI enum metadata span is outside storage")
  pure (expectedBegin + field.enumCount)

/-- Checks the fields of a message from an offset on. -/
def auditFields (metadata : ProtocolMetadataStorage) (messageIndex : Nat) :
    List FieldMetadata → List FrozenFieldPlan → Nat → Nat → Compiled Nat
  | field :: rest, planField :: planRest, fieldOffset, expectedBegin => do
    let expectedBegin ←
      auditField metadata messageIndex fieldOffset field planField expectedBegin
    auditFields metadata messageIndex rest planRest (fieldOffset + 1) expectedBegin
  | _, _, _, expectedBegin => .ok expectedBegin

/-- Checks the messages from an index on; the result are the flat indices behind the last
field and the last entry. -/
def auditMessages (metadata : ProtocolMetadataStorage) :
    List MessageMetadata → List FrozenMessagePlan → Nat → Nat → Nat → Compiled (Nat × Nat)
  | message :: rest, planMessage :: planRest, messageIndex, fieldBegin, enumBegin => do
    rejectIf (!commonSpansWithin metadata.header.stringOffset metadata.storageSize
          message.displayName message.description message.sourceRef ∨
        message.fieldBegin ≠ fieldBegin ∨ message.fieldCount ≠ planMessage.fields.length ∨
        !checkedRange message.fieldBegin message.fieldCount metadata.header.fieldCount)
      (internalDiagnostic "Plan and protocol metadata message field indexes differ")
    let enumBegin ← auditFields metadata messageIndex
      ((metadata.fields.drop message.fieldBegin).take message.fieldCount) planMessage.fields 0
      enumBegin
    auditMessages metadata rest planRest (messageIndex + 1) (fieldBegin + message.fieldCount)
      enumBegin
  | _, _, _, fieldBegin, enumBegin => .ok (fieldBegin, enumBegin)

/-- Checks a block against the plan frozen from the same schema. -/
def audit (plan : PlanBundle) (metadata : ProtocolMetadataStorage) : Compiled Unit := do
  rejectIf (metadata.storage = [])
    (internalDiagnostic "protocol metadata storage is empty during index audit")
  rejectIf (!layoutAgrees metadata)
    (internalDiagnostic "protocol metadata storage layout differs from its report")
  rejectIf (metadata.header.pipelineCount ≠ plan.pipelines.length ∨
      metadata.header.messageCount ≠ plan.messages.length ∨
      metadata.header.fieldCount ≠ plan.resourceRequirements.totalFieldCount ∨
      metadata.header.enumCount ≠ plan.resourceRequirements.totalEnumEntryCount ∨
      !commonSpansWithin metadata.header.stringOffset metadata.storageSize
        metadata.protocol.displayName metadata.protocol.description metadata.protocol.sourceRef)
    (internalDiagnostic "Plan and protocol metadata top-level indexes differ")
  rejectIf (metadata.pipelines.any fun pipeline =>
      !commonSpansWithin metadata.header.stringOffset metadata.storageSize pipeline.displayName
        pipeline.description pipeline.sourceRef)
    (internalDiagnostic "Pipeline metadata span is outside storage")
  let (fieldEnd, enumEnd) ← auditMessages metadata metadata.messages plan.messages 0 0 0
  rejectIf (fieldEnd ≠ metadata.header.fieldCount ∨ enumEnd ≠ metadata.header.enumCount)
    (internalDiagnostic "protocol metadata flat ranges are not exhaustive")

end ProtocolAdapter.Description
