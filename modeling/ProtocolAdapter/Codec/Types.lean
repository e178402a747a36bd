/-
This file defines the interface of the complete record codec: the values it takes, the
slots it fills, its results, and the workspace a caller prepares for a plan. The memory
of a caller appears as addresses, because the codec refuses inputs that share memory
with its output.
-/

import ProtocolAdapter.Foundation.Operation
import ProtocolAdapter.Plan.Bundle

namespace ProtocolAdapter.Codec

open Foundation

/-! ### Statuses -/

/-- The outcome of a call. -/
inductive CodecStatus where
  | ok
  | invalidArgument
  | invalidPlan
  | workspacePlanMismatch
  | workspaceBusy
  | unknownMessage
  | ambiguousMessage
  | outputSlotsTooSmall
  | integrityFailed
  | messageNotAllowed
  | fieldReferenceMismatch
  | duplicateField
  | missingField
  | typeMismatch
  | valueNotRepresentable
  | bytesLengthMismatch
  | unknownEnumValue
  | enumReferenceMismatch
  | constantFieldOverride
  | inputOutputOverlap
  | bufferTooSmall
  | finalReviewFailed
  | internalError
  | asciiCharacterNotAllowed
  | asciiTerminatorConflict
  | operationNotSupported
  | computedFieldOverride
  | lengthMismatch
  deriving DecidableEq

/-- The kind that selects the member of a value. -/
inductive LogicalValueKind where
  | uint64
  | int64
  | bytes
  | enum
  | bool
  | decimal64
  deriving DecidableEq

/-- Why a decimal value could not be converted. -/
inductive ConversionError where
  | none
  | decimalScaleOutOfRange
  | rawNotIntegral
  | rawOutOfRange
  | logicalOutOfRange
  deriving DecidableEq

/-! ### Values -/

/-- The decimal `coefficient * 10 ^ -scale`. -/
structure Decimal64 where
  coefficient : Int64 := 0
  scale : Int32 := 0
  deriving DecidableEq

/-- A buffer the caller lends for output, with the bytes it holds before the call. -/
structure MutableByteBuffer where
  data : Option Nat := none
  contents : List UInt8 := []

/-- The number of bytes a buffer can take. -/
abbrev MutableByteBuffer.capacity (buffer : MutableByteBuffer) : Nat := buffer.contents.length

/-- A field of a message of a plan. Only the plan at the stated address is meant. -/
structure FieldRef where
  planScope : Option Nat := none
  messageIndex : Nat := invalidIndex
  fieldIndex : Nat := invalidIndex
  deriving DecidableEq

/-- An entry of an enumeration field. -/
structure EnumValueRef where
  planScope : Option Nat := none
  messageIndex : Nat := invalidIndex
  fieldIndex : Nat := invalidIndex
  entryIndex : Nat := invalidIndex
  deriving DecidableEq

/-- A decoded enumeration value, with its entry when there is one. -/
structure DecodedEnumValue where
  known : Bool := false
  rawValue : UInt64 := 0
  reference : EnumValueRef := {}
  deriving DecidableEq

/-- A decoded field. Byte strings are views into the input. -/
structure DecodedFieldSlot where
  field : FieldRef := {}
  valueKind : LogicalValueKind := .uint64
  uint64Value : UInt64 := 0
  int64Value : Int64 := 0
  boolValue : Bool := false
  bytesValue : ByteView := {}
  enumValue : DecodedEnumValue := {}
  decimal64Value : Decimal64 := {}
  deriving DecidableEq

/-- A value to encode. -/
structure EncodeFieldValue where
  field : FieldRef := {}
  valueKind : LogicalValueKind := .uint64
  uint64Value : UInt64 := 0
  int64Value : Int64 := 0
  boolValue : Bool := false
  bytesValue : ByteView := {}
  enumValue : EnumValueRef := {}
  decimal64Value : Decimal64 := {}
  deriving DecidableEq

/-- The array of values a caller passes, at an address. -/
structure EncodeValues where
  data : Option Nat := none
  values : List EncodeFieldValue := []

/-- The array of slots a caller passes, at an address. -/
structure FieldSlots where
  data : Option Nat := none
  slots : List DecodedFieldSlot := []

/-! ### Results -/

/-- The result of a decode. The number of fields is published on success only. -/
structure DecodeResult where
  status : CodecStatus := .invalidArgument
  messageIndex : Nat := invalidIndex
  fieldCount : Nat := 0
  requiredFieldCount : Nat := 0
  failedFieldIndex : Nat := invalidIndex
  tainted : Bool := false
  conversionError : ConversionError := .none
  deriving DecidableEq

/-- The result of an encode. The number of bytes is published on success only. -/
structure EncodeResult where
  status : CodecStatus := .invalidArgument
  bytesWritten : Nat := 0
  requiredSize : Nat := 0
  failedValueIndex : Nat := invalidIndex
  failedFieldIndex : Nat := invalidIndex
  conversionError : ConversionError := .none
  deriving DecidableEq

/-! ### Memory -/

/-- The size of a value descriptor on 64-bit targets. -/
def sizeofEncodeFieldValue : Nat := 120

/-- The size of a field slot on 64-bit targets. -/
def sizeofDecodedFieldSlot : Nat := 136

/-- The addresses from `start` to before `stop`; an empty range has both zero. -/
structure AddressRange where
  start : Nat := 0
  stop : Nat := 0

/-- The addresses of a block of memory. A nonempty block has an address and does not
wrap around. -/
def getAddressRange (data : Option Nat) (size : Nat) : Option AddressRange :=
  if size = 0 then some {}
  else
    match data with
    | none => none
    | some start => if size > maxUint64 - start then none else some ⟨start, start + size⟩

/-- The addresses of an array. -/
def getArrayAddressRange (data : Option Nat) (count elementSize : Nat) : Option AddressRange :=
  if elementSize ≠ 0 ∧ count > maxUint64 / elementSize then none
  else getAddressRange data (count * elementSize)

/-- Whether two nonempty ranges share an address. -/
def rangesOverlap (left right : AddressRange) : Bool :=
  if left.start = left.stop ∨ right.start = right.stop then false
  else left.start < right.stop && right.start < left.stop

/-! ### The workspace -/

/-- The slots a caller prepares once for a plan and lends to every call. -/
structure ExecutionWorkspace where
  planScope : Nat
  maxValuesPerCall : Nat
  encodeValueIndices : List Nat
  encodePresentWords : List Nat
  bitContainerValues : List Nat
  decodeDecimalCoefficients : List Int64
  decodeDecimalScales : List Int32
  rawIntegerBits : List Nat
  rawIntegerKinds : List ValueType
  rawIntegerFieldIndices : List Nat
  encodeConversionRawValues : List Nat
  rawIntegerCount : Nat := 0
  rawIntegerMessageIndex : Nat := invalidIndex
  inUse : Bool := false

/-- A fresh workspace for a plan. -/
def ExecutionWorkspace.fresh (plan : PlanBundle) : ExecutionWorkspace :=
  let layout := plan.executionResourceLayout
  { planScope := plan.address
    maxValuesPerCall := layout.maxFieldsPerMessage
    encodeValueIndices := List.replicate layout.encodeValueIndexCount invalidIndex
    encodePresentWords := List.replicate layout.encodePresenceWordCount 0
    bitContainerValues := List.replicate layout.bitContainerValueCount 0
    decodeDecimalCoefficients := List.replicate layout.conversionValueCount 0
    decodeDecimalScales := List.replicate layout.conversionValueCount 0
    rawIntegerBits := List.replicate layout.conversionValueCount 0
    rawIntegerKinds := List.replicate layout.conversionValueCount .uint64
    rawIntegerFieldIndices := List.replicate layout.conversionValueCount invalidIndex
    encodeConversionRawValues := List.replicate layout.conversionValueCount 0 }

/-- An idle workspace of a plan: bound to it, with its slots, and not in use. What the
slots hold is left open. -/
structure ExecutionWorkspace.IdleFor (workspace : ExecutionWorkspace) (plan : PlanBundle) :
    Prop where
  planScope : workspace.planScope = plan.address
  maxValuesPerCall : workspace.maxValuesPerCall = plan.executionResourceLayout.maxFieldsPerMessage
  encodeValueIndices :
    workspace.encodeValueIndices.length = plan.executionResourceLayout.encodeValueIndexCount
  encodePresentWords :
    workspace.encodePresentWords.length = plan.executionResourceLayout.encodePresenceWordCount
  bitContainerValues :
    workspace.bitContainerValues.length = plan.executionResourceLayout.bitContainerValueCount
  decodeDecimalCoefficients :
    workspace.decodeDecimalCoefficients.length = plan.executionResourceLayout.conversionValueCount
  decodeDecimalScales :
    workspace.decodeDecimalScales.length = plan.executionResourceLayout.conversionValueCount
  rawIntegerBits :
    workspace.rawIntegerBits.length = plan.executionResourceLayout.conversionValueCount
  rawIntegerKinds :
    workspace.rawIntegerKinds.length = plan.executionResourceLayout.conversionValueCount
  rawIntegerFieldIndices :
    workspace.rawIntegerFieldIndices.length = plan.executionResourceLayout.conversionValueCount
  encodeConversionRawValues :
    workspace.encodeConversionRawValues.length = plan.executionResourceLayout.conversionValueCount
  notInUse : workspace.inUse = false

theorem ExecutionWorkspace.fresh_idleFor (plan : PlanBundle) :
    (ExecutionWorkspace.fresh plan).IdleFor plan := by
  constructor <;> simp [ExecutionWorkspace.fresh]

/-- A workspace that belongs to a plan, whether in use or not. -/
def ExecutionWorkspace.ShapedFor (workspace : ExecutionWorkspace) (plan : PlanBundle) : Prop :=
  ({ workspace with inUse := false } : ExecutionWorkspace).IdleFor plan

/-! ### Schema versions -/

/-- The schema versions of text packages. -/
def isTextSchema (schemaVersion : String) : Bool :=
  schemaVersion == "0.10" || schemaVersion == "0.11"

/-- The schema versions that know conversions and check values in the order of the
fields. -/
def isConversionSchema (schemaVersion : String) : Bool :=
  schemaVersion ∈ ["0.5", "0.6", "0.7", "0.8", "0.9"]

/-- The schema versions the codec executes. -/
def supportsCompleteRecordSchema (schemaVersion : String) : Bool :=
  schemaVersion ∈ ["0.1", "0.2", "0.3", "0.4", "0.5", "0.6", "0.7", "0.8", "0.9", "0.10", "0.11"]

end ProtocolAdapter.Codec
