/-
This file defines the metadata of a compiled protocol: the texts that describe it, and the
tables that number its fields and enumeration entries across all messages. The texts lie in
one block of memory, behind the tables.
-/

import ProtocolAdapter.Plan.Bundle

namespace ProtocolAdapter.Description

/-- A text, by its offset in the block and its length in bytes. -/
structure DescriptionStringSpan where
  offset : Nat := 0
  size : Nat := 0
  deriving DecidableEq

/-- The texts of the protocol. -/
structure ProtocolMetadata where
  displayName : DescriptionStringSpan := {}
  description : DescriptionStringSpan := {}
  sourceRef : DescriptionStringSpan := {}
  deriving DecidableEq

/-- The texts of a pipeline. -/
structure PipelineMetadata where
  displayName : DescriptionStringSpan := {}
  description : DescriptionStringSpan := {}
  sourceRef : DescriptionStringSpan := {}
  deriving DecidableEq

/-- The texts of a message, and its range of flat field indices. -/
structure MessageMetadata where
  displayName : DescriptionStringSpan := {}
  description : DescriptionStringSpan := {}
  sourceRef : DescriptionStringSpan := {}
  fieldBegin : Nat := 0
  fieldCount : Nat := 0
  deriving DecidableEq

/-- The texts of a field, and its range of flat enumeration indices. -/
structure FieldMetadata where
  displayName : DescriptionStringSpan := {}
  description : DescriptionStringSpan := {}
  sourceRef : DescriptionStringSpan := {}
  enumBegin : Nat := 0
  enumCount : Nat := 0
  deriving DecidableEq

/-- The text of an enumeration entry. -/
structure EnumMetadata where
  displayName : DescriptionStringSpan := {}
  deriving DecidableEq

/-- The accounted bytes of a block. -/
structure DescriptionMemoryReport where
  objectBytes : Nat := 0
  stringBytes : Nat := 0
  indexBytes : Nat := 0
  alignmentBytes : Nat := 0
  allocationCount : Nat := 0
  accountedTotalBytes : Nat := 0
  deriving DecidableEq

/-- Where the tables and the texts lie in a block. -/
structure DescriptionHeader where
  protocolOffset : Nat := 0
  pipelineOffset : Nat := 0
  pipelineCount : Nat := 0
  messageOffset : Nat := 0
  messageCount : Nat := 0
  fieldOffset : Nat := 0
  fieldCount : Nat := 0
  enumOffset : Nat := 0
  enumCount : Nat := 0
  stringOffset : Nat := 0
  stringSize : Nat := 0
  deriving DecidableEq

/-- The block of a compiled protocol. The tables in front of the texts are kept as lists;
what `storage` holds at their place is left open. -/
structure ProtocolMetadataStorage where
  header : DescriptionHeader := {}
  protocol : ProtocolMetadata := {}
  pipelines : List PipelineMetadata := []
  messages : List MessageMetadata := []
  fields : List FieldMetadata := []
  enums : List EnumMetadata := []
  storage : List UInt8 := []
  memoryReport : DescriptionMemoryReport := {}

/-- The number of bytes of a block. -/
def ProtocolMetadataStorage.storageSize (metadata : ProtocolMetadataStorage) : Nat :=
  metadata.storage.length

/-- The sum of two sizes, when it can be represented. -/
def checkedAdd (left right : Nat) : Option Nat :=
  if right > maxUint64 - left then none else some (left + right)

/-- The product of two sizes, when it can be represented. -/
def checkedMultiply (left right : Nat) : Option Nat :=
  if left ≠ 0 ∧ right > maxUint64 / left then none else some (left * right)

/-- The text of a span; empty when the span leaves the block. -/
def ProtocolMetadataStorage.resolve (metadata : ProtocolMetadataStorage)
    (span : DescriptionStringSpan) : List UInt8 :=
  match checkedAdd span.offset span.size with
  | none => []
  | some stop =>
    if stop > metadata.storageSize then []
    else (metadata.storage.drop span.offset).take span.size

/-- What a successful compilation keeps: the plan, and its metadata. -/
structure CompiledProtocolArtifacts where
  plan : PlanBundle
  description : ProtocolMetadataStorage

end ProtocolAdapter.Description
