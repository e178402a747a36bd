/-
This file defines the three representations of a plan: the mutable draft the
compiler hands over, the frozen configuration facts, and the execution
descriptors the hot path reads. A frozen array holds exactly the elements of the
vector it was frozen from, so both are lists here, and a frozen record whose
members agree with its draft record is the same type under the frozen name.
-/

import ProtocolAdapter.Plan.Types

namespace ProtocolAdapter

/-! ### Draft records -/

/-- A framing profile. -/
structure FramingPlan where
  id : String := ""
  inputKind : InputKind := .completeRecord
  strategy : FramingStrategy := .completeRecord
  frameLengthBytes : Nat := 0
  syncBytes : List UInt8 := []
  syncPrefixTable : List Nat := []
  lengthFieldOffset : Nat := 0
  lengthFieldWidth : Nat := 0
  lengthFieldByteOrder : ByteOrder := .notApplicable
  minimumFrameLength : Nat := 0
  maximumFrameLength : Nat := 0
  deriving DecidableEq

/-- A structural matcher clause of a message. -/
structure MatcherPlan where
  kind : MatcherKind := .frameLengthEquals
  lengthBytes : Nat := 0
  byteOffset : Nat := 0
  bytes : List UInt8 := []
  deriving DecidableEq

/-- An enumeration entry of a field. -/
structure EnumEntryPlan where
  id : String := ""
  rawValue : Nat := 0
  deriving DecidableEq

/-- A field of a message. Byte positions count bytes, bit positions count bits;
the container index is local to the message, the conversion index to the package. -/
structure FieldPlan where
  id : String := ""
  valueType : ValueType := .uint64
  wireCodec : WireCodec := .unsignedInteger
  byteOffset : Nat := 0
  byteWidth : Nat := 0
  byteOrder : ByteOrder := .notApplicable
  encodeSource : EncodeSource := .input
  constantValue : Option Nat := none
  unknownEnumPolicy : UnknownEnumPolicy := .reject
  enumEntries : List EnumEntryPlan := []
  bitContainerIndex : Nat := invalidIndex
  bitOffset : Nat := 0
  bitWidth : Nat := 0
  signedConstantValue : Option Int := none
  conversionIndex : Nat := invalidIndex
  textMinLength : Nat := 0
  textMaxLength : Nat := 0
  allowedAsciiLow : Nat := 0
  allowedAsciiHigh : Nat := 0
  deriving DecidableEq

/-- A segment of a text template, with the prefix table of its literal. -/
structure TextSegmentPlan where
  kind : TextSegmentKind := .literal
  literal : List UInt8 := []
  prefixTable : List Nat := []
  fieldIndex : Nat := invalidIndex
  deriving DecidableEq

/-- A text template for one direction. -/
structure TextActionPlan where
  segments : List TextSegmentPlan := []
  minRecordLength : Nat := 0
  maxRecordLength : Nat := 0
  deriving DecidableEq

/-- The two optional text directions of a message. -/
structure AsciiTextPlan where
  decode : Option TextActionPlan := none
  encode : Option TextActionPlan := none
  deriving DecidableEq

/-- A bit container of a message. The base value fills the bits no member owns. -/
structure BitContainerPlan where
  id : String := ""
  byteOffset : Nat := 0
  byteWidth : Nat := 0
  byteOrder : ByteOrder := .notApplicable
  bitNumbering : BitNumbering := .lsb0
  baseValue : Nat := 0
  deriving DecidableEq

/-- The integrity rule of a message. -/
structure IntegrityPlan where
  algorithm : IntegrityAlgorithm := .sum8
  rangeOffset : Nat := 0
  rangeLength : Nat := 0
  storageOffset : Nat := 0
  rangeEndsAtPayload : Bool := false
  storageAtPayloadEnd : Bool := false
  crcWidth : Nat := 0
  crcPolynomial : Nat := 0
  crcInitialValue : Nat := 0
  crcXorOutput : Nat := 0
  crcReflectInput : Bool := false
  crcReflectOutput : Bool := false
  storageByteOrder : ByteOrder := .notApplicable
  deriving DecidableEq

/-- The bounded payload layout of a message: header, payload, trailer. -/
structure BoundedPayloadPlan where
  payloadFieldIndex : Nat := invalidIndex
  headerLength : Nat := 0
  minPayloadLength : Nat := 0
  maxPayloadLength : Nat := 0
  trailerLength : Nat := 0
  minFrameLength : Nat := 0
  maxFrameLength : Nat := 0
  deriving DecidableEq

/-- The computed length of a message. -/
structure ComputedLengthPlan where
  fieldIndex : Nat := invalidIndex
  storageOffset : Nat := 0
  storageWidth : Nat := 0
  byteOrder : ByteOrder := .notApplicable
  scope : ComputedLengthScope := .frame
  rangeOffset : Nat := 0
  rangeLength : Nat := 0
  expectedValue : Nat := 0
  deriving DecidableEq

/-- A message of the package. -/
structure MessagePlan where
  id : String := ""
  directionId : String := ""
  frameLengthBytes : Nat := 0
  matchers : List MatcherPlan := []
  bitContainers : List BitContainerPlan := []
  integrity : Option IntegrityPlan := none
  boundedPayload : Option BoundedPayloadPlan := none
  computedLength : Option ComputedLengthPlan := none
  fields : List FieldPlan := []
  asciiText : Option AsciiTextPlan := none
  deriving DecidableEq

/-- A pipeline; its references are already package indices. -/
structure PipelinePlan where
  id : String := ""
  directionId : String := ""
  framingProfileIndex : Nat := 0
  messageIndices : List Nat := []
  deriving DecidableEq

/-! ### Linear conversions -/

/-- The number of 32-bit words of a conversion coefficient. -/
def decimalCoefficientWordCount : Nat := 8

/-- A sign and a 256-bit magnitude, least significant word first. -/
structure SignedCoefficient256 where
  words : Vector UInt32 decimalCoefficientWordCount := Vector.replicate _ 0
  negative : Bool := false
  deriving DecidableEq

/-- The exact linear conversion of a numeric field. -/
structure LinearConversionDescriptor where
  rawValueType : ValueType := .uint64
  scaleNumerator : Int64 := 0
  scaleDenominator : UInt64 := 1
  biasNumerator : Int64 := 0
  biasDenominator : UInt64 := 1
  decimalPlaces : Nat := 0
  scaleCoefficient : SignedCoefficient256 := {}
  biasCoefficient : SignedCoefficient256 := {}
  deriving DecidableEq

/-! ### Frozen facts -/

/-- A frozen framing profile has the members of its draft record. -/
abbrev FrozenFramingPlan := FramingPlan

/-- A frozen matcher clause has the members of its draft record. -/
abbrev FrozenMatcherPlan := MatcherPlan

/-- A frozen enumeration entry has the members of its draft record. -/
abbrev FrozenEnumEntryPlan := EnumEntryPlan

/-- A frozen field has the members of its draft record. -/
abbrev FrozenFieldPlan := FieldPlan

/-- A frozen bit container has the members of its draft record. -/
abbrev FrozenBitContainerPlan := BitContainerPlan

/-- A frozen integrity rule has the members of its draft record. -/
abbrev FrozenIntegrityPlan := IntegrityPlan

/-- A frozen pipeline has the members of its draft record. -/
abbrev FrozenPipelinePlan := PipelinePlan

/-- A frozen message keeps every fact of its draft record but the text actions,
which live in the execution descriptor only. -/
structure FrozenMessagePlan where
  id : String := ""
  directionId : String := ""
  frameLengthBytes : Nat := 0
  matchers : List FrozenMatcherPlan := []
  bitContainers : List FrozenBitContainerPlan := []
  integrity : Option FrozenIntegrityPlan := none
  boundedPayload : Option BoundedPayloadPlan := none
  computedLength : Option ComputedLengthPlan := none
  fields : List FrozenFieldPlan := []
  deriving DecidableEq

/-! ### Execution descriptors -/

/-- A bit container as the codec reads it. -/
structure BitContainerExecutionPlan where
  offset : Nat := 0
  width : Nat := 0
  byteOrder : ByteOrder := .notApplicable
  baseValue : Nat := 0
  deriving DecidableEq

/-- One fixed byte of a message. -/
structure FixedByteExecutionPlan where
  offset : Nat := 0
  value : UInt8 := 0
  deriving DecidableEq

/-- One entry of the sorted enumeration lookup. -/
structure EnumLookupExecutionPlan where
  rawValue : Nat := 0
  entryIndex : Nat := 0
  deriving DecidableEq

/-- A field as the codec reads it. A plain field owns the bytes from `offset`; a
bit member owns the bits of `bitMask` in its container. -/
structure FieldExecutionPlan where
  offset : Nat := 0
  width : Nat := 0
  inputOrdinal : Nat := 0
  valueType : ValueType := .uint64
  byteOrder : ByteOrder := .notApplicable
  encodeSource : EncodeSource := .input
  hasConstant : Bool := false
  constantValue : Nat := 0
  unknownEnumPolicy : UnknownEnumPolicy := .reject
  enumValuesBegin : Nat := 0
  enumValuesCount : Nat := 0
  enumLookupBegin : Nat := 0
  enumLookupCount : Nat := 0
  bitContainerIndex : Nat := invalidIndex
  bitMask : Nat := 0
  bitShift : Nat := 0
  bitWidth : Nat := 0
  signedConstantValue : Int := 0
  conversionIndex : Nat := invalidIndex
  conversionSlot : Nat := invalidIndex
  textMinLength : Nat := 0
  textMaxLength : Nat := 0
  allowedAsciiLow : Nat := 0
  allowedAsciiHigh : Nat := 0
  textEncodeInput : Bool := false
  deriving DecidableEq

/-- An execution segment has the members of its draft record. -/
abbrev TextSegmentExecutionPlan := TextSegmentPlan

/-- An execution action has the members of its draft record. -/
abbrev TextActionExecutionPlan := TextActionPlan

/-- A message as the codec reads it. -/
structure MessageExecutionPlan where
  frameSize : Nat := 0
  requiredInputCount : Nat := 0
  integrity : Option FrozenIntegrityPlan := none
  boundedPayload : Option BoundedPayloadPlan := none
  computedLength : Option ComputedLengthPlan := none
  fixedBytes : List FixedByteExecutionPlan := []
  bitContainers : List BitContainerExecutionPlan := []
  fields : List FieldExecutionPlan := []
  enumRawValues : List Nat := []
  enumLookupEntries : List EnumLookupExecutionPlan := []
  textDecode : Option TextActionExecutionPlan := none
  textEncode : Option TextActionExecutionPlan := none
  textDecodeFieldCount : Nat := 0
  deriving DecidableEq

/-- The fixed-length messages of a pipeline that share one frame size. -/
structure CandidateGroupExecutionPlan where
  frameSize : Nat := 0
  messageIndices : List Nat := []
  deriving DecidableEq

/-- A pipeline as the codec reads it. -/
structure PipelineExecutionPlan where
  framingProfileIndex : Nat := 0
  allowedMessageWords : List Nat := []
  candidateGroups : List CandidateGroupExecutionPlan := []
  variableMessageIndices : List Nat := []
  textMessageIndices : List Nat := []
  deriving DecidableEq

/-- The slots a workspace needs, the maximum over the messages of the plan. -/
structure ExecutionResourceLayout where
  maxFieldsPerMessage : Nat := 0
  maxInputFieldsPerMessage : Nat := 0
  encodeValueIndexCount : Nat := 0
  encodePresenceWordCount : Nat := 0
  bitContainerValueCount : Nat := 0
  conversionValueCount : Nat := 0
  estimatedWorkspaceBytes : Nat := 0
  deriving DecidableEq

/-- The frozen plan. `address` is where the object lives; references into the plan
carry it and the codec compares it, never two plans member by member. -/
structure PlanBundle where
  address : Nat
  schemaVersion : String
  protocolId : String
  protocolVersion : String
  resourceProfile : ResourceProfile
  resourceRequirements : ResourceRequirements
  framingProfiles : List FrozenFramingPlan
  pipelines : List FrozenPipelinePlan
  messages : List FrozenMessagePlan
  conversions : List LinearConversionDescriptor
  executionResourceLayout : ExecutionResourceLayout
  messageExecutionPlans : List MessageExecutionPlan
  pipelineExecutionPlans : List PipelineExecutionPlan
  memoryReport : PlanMemoryReport

/-! ### The draft -/

/-- The material the compiler hands to the builder: configuration with resolved
indices, the requirements and the memory account that were approved for it. -/
structure PlanDraftData where
  schemaVersion : String := ""
  protocolId : String := ""
  protocolVersion : String := ""
  resourceProfile : ResourceProfile := .desktop
  resourceRequirements : ResourceRequirements := {}
  framingProfiles : List FramingPlan := []
  pipelines : List PipelinePlan := []
  messages : List MessagePlan := []
  conversions : List LinearConversionDescriptor := []
  approvedPlanMemory : PlanMemoryReport := {}
  planMemoryLimitBytes : Nat := 0

/-- A draft is resolved when every field outside the bit containers still carries
the unresolved container sentinel of its record's default. -/
def PlanDraftData.Resolved (draft : PlanDraftData) : Prop :=
  ∀ message ∈ draft.messages, ∀ field ∈ message.fields,
    field.wireCodec ≠ .bitfield → field.bitContainerIndex = invalidIndex

instance (draft : PlanDraftData) : Decidable draft.Resolved :=
  inferInstanceAs (Decidable (∀ message ∈ draft.messages, ∀ field ∈ message.fields,
    field.wireCodec ≠ .bitfield → field.bitContainerIndex = invalidIndex))

/-- The capability `PlanBuilder::Freeze` consumes. Only the assembler mints it, from
a schema in which validation has resolved the container index of the bit members
and of nothing else, so it carries that fact about its draft. -/
structure BudgetedPlanDraft where
  draft : PlanDraftData
  resolved : draft.Resolved

/-- The prepared form of a message has the members of its execution descriptor. -/
abbrev PreparedMessageExecutionPlan := MessageExecutionPlan

/-- The prepared form of a candidate group has the members of its descriptor. -/
abbrev PreparedCandidateGroupExecutionPlan := CandidateGroupExecutionPlan

/-- The prepared form of a pipeline has the members of its descriptor. -/
abbrev PreparedPipelineExecutionPlan := PipelineExecutionPlan

end ProtocolAdapter
