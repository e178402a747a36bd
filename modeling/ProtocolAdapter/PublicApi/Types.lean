/-
This file defines the interface of the public codec: its statuses, the values it takes, and
its results. A record that was decoded is borrowed through views, which name the codec they
were taken from.
-/

import ProtocolAdapter.Codec.Types

namespace ProtocolAdapter.PublicApi

open Foundation

/-! ### Statuses -/

/-- The outcome of a call. -/
inductive CodecStatus where
  | ok
  | invalidArgument
  | invalidCompiledProtocol
  | resourceLimitExceeded
  | allocationFailed
  | workspaceBusy
  | inputValuesTooMany
  | unknownMessage
  | ambiguousMessage
  | outputSlotsTooSmall
  | integrityFailed
  | messageNotAllowed
  | fieldReferenceMismatch
  | duplicateField
  | missingField
  | typeMismatch
  | valueNotRepresentable
  | bytesLengthMismatch
  | unknownEnumValue
  | enumReferenceMismatch
  | constantFieldOverride
  | inputOutputOverlap
  | bufferTooSmall
  | finalReviewFailed
  | asciiCharacterNotAllowed
  | asciiTerminatorConflict
  | operationNotSupported
  | computedFieldOverride
  | lengthMismatch
  | internalError
  deriving DecidableEq

/-- The kind that selects the member of a value. -/
inductive ValueKind where
  | uint64
  | int64
  | bool
  | bytes
  | enum
  | decimal64
  deriving DecidableEq

/-- Why a decimal value could not be converted. -/
inductive ConversionError where
  | none
  | decimalScaleOutOfRange
  | rawNotIntegral
  | rawOutOfRange
  | logicalOutOfRange
  deriving DecidableEq

/-- The kind of the raw integer of a converted field. -/
inductive RawIntegerKind where
  | uint64
  | int64
  deriving DecidableEq

/-! ### Values -/

/-- A field: the index of its message, and its index in the message. -/
structure FieldSelector where
  messageIndex : Nat := invalidIndex
  fieldIndex : Nat := invalidIndex
  deriving DecidableEq

/-- An entry of an enumeration field, by its index in the field. -/
structure EnumSelector where
  messageIndex : Nat := invalidIndex
  fieldIndex : Nat := invalidIndex
  entryIndex : Nat := invalidIndex
  deriving DecidableEq

/-- A value to encode. -/
structure EncodeValue where
  field : FieldSelector := {}
  enum : EnumSelector := {}
  kind : ValueKind := .uint64
  uint64Value : UInt64 := 0
  int64Value : Int64 := 0
  boolValue : Bool := false
  bytesValue : ByteView := {}
  decimal64Value : Codec.Decimal64 := {}
  deriving DecidableEq

/-- The array of values a caller passes, at an address. -/
structure EncodeValues where
  data : Option Nat := none
  values : List EncodeValue := []

/-! ### Results -/

/-- A view of the record a codec has decoded. The owner is the codec, by its place among the
codecs of the host. -/
structure DecodedRecordView where
  owner : Option Nat := none
  ownerEpoch : Nat := 0
  generation : Nat := 0
  deriving DecidableEq

/-- A view of a field of such a record. -/
structure DecodedFieldView where
  owner : Option Nat := none
  ownerEpoch : Nat := 0
  generation : Nat := 0
  ordinal : Nat := 0
  deriving DecidableEq

/-- The result of a decode. -/
structure DecodeResult where
  status : CodecStatus := .invalidArgument
  record : DecodedRecordView := {}
  matchedMessageIndex : Option Nat := none
  requiredFieldCount : Nat := 0
  failedFieldFlatIndex : Option Nat := none
  conversionError : ConversionError := .none
  outputTainted : Bool := false
  deriving DecidableEq

/-- The result of an encode. -/
structure EncodeResult where
  status : CodecStatus := .invalidArgument
  bytesWritten : Nat := 0
  requiredSize : Nat := 0
  failedValueIndex : Option Nat := none
  failedFieldFlatIndex : Option Nat := none
  conversionError : ConversionError := .none
  deriving DecidableEq

/-- The accounted memory of a codec. -/
structure ExecutionMemoryReport where
  coreWorkspaceBytes : Nat := 0
  decodedSlotBytes : Nat := 0
  encodeMappingBytes : Nat := 0
  facadeBytes : Nat := 0
  codecAccountedTotalBytes : Nat := 0
  retainedCompiledStateFacadeBytes : Nat := 0
  allocationCount : Nat := 0
  deriving DecidableEq

/-- What a host asks of a codec. A capacity of zero stands for what the plan needs. -/
structure CompleteRecordCodecOptions where
  decodedFieldCapacity : Nat := 0
  executionMemoryLimitBytes : Nat := maxUint64

end ProtocolAdapter.PublicApi
