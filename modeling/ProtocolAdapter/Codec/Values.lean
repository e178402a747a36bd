/-
This file models the small functions the decoder and the encoder share: the kind of a
field's value, the conversion of a field, how its failures are reported, and the set of
fields a caller has supplied.
-/

import ProtocolAdapter.Builder.Pipeline
import ProtocolAdapter.Codec.Decimal
import ProtocolAdapter.Codec.Types

namespace ProtocolAdapter.Codec

open Foundation

/-! ### Arrays -/

/-- Writes an element of an array. -/
def setElement {α : Type} (elements : List α) (index : Nat) (value : α) : Access (List α) :=
  if index < elements.length then some (elements.set index value) else none

theorem setElement_eq {α : Type} {elements : List α} {index : Nat} (value : α)
    (within : index < elements.length) :
    setElement elements index value = some (elements.set index value) := if_pos within

theorem setElement_set {α : Type} {elements : List α} {index size : Nat} (value : α)
    (length : elements.length = size) (within : index < size) :
    setElement elements index value = some (elements.set index value) ∧
      (elements.set index value).length = size :=
  ⟨setElement_eq value (length ▸ within), by rw [List.length_set, length]⟩

/-! ### Kinds -/

/-- The kind of the values of a type. -/
def getLogicalValueKind : ValueType → LogicalValueKind
  | .uint64 => .uint64
  | .int64 => .int64
  | .bytes => .bytes
  | .enum => .enum
  | .bool => .bool

def valueKindMatches (kind : LogicalValueKind) (type : ValueType) : Bool :=
  kind == getLogicalValueKind type

/-! ### Conversions -/

def hasConversion (field : FieldExecutionPlan) : Bool := field.conversionIndex ≠ invalidIndex

/-- The reason a failed conversion is reported with. -/
def toConversionError : DecimalArithmeticStatus → ConversionError
  | .decimalScaleOutOfRange => .decimalScaleOutOfRange
  | .rawNotIntegral => .rawNotIntegral
  | .rawOutOfRange => .rawOutOfRange
  | .logicalOutOfRange => .logicalOutOfRange
  | .internalError => .none

/-- The status a failed conversion is reported with. -/
def toCodecStatus : DecimalArithmeticStatus → CodecStatus
  | .decimalScaleOutOfRange => .invalidArgument
  | .internalError => .internalError
  | .rawNotIntegral | .rawOutOfRange | .logicalOutOfRange => .valueNotRepresentable

/-- Whether the conversion of a field, if it has one, is one the codec can execute. -/
def conversionPlanValid (plan : PlanBundle) (field : FieldExecutionPlan) : Bool :=
  if hasConversion field = false then true
  else
    isConversionSchema plan.schemaVersion && field.conversionSlot ≠ invalidIndex &&
      field.bitContainerIndex == invalidIndex && field.encodeSource == .input &&
      plan.conversions[field.conversionIndex]?.any fun conversion =>
        conversion.rawValueType == field.valueType

/-! ### Presence -/

/-- The number of words a set of inputs needs. -/
def presenceWordCount (bitCount : Nat) : Nat := wordCount bitCount

/-- Whether an input is in the set. -/
def isPresent (words : List Nat) (ordinal : Nat) : Access Bool := do
  let word ← words[ordinal / bitsPerAllowedMessageWord]?
  some ((word &&& 1 <<< (ordinal % bitsPerAllowedMessageWord)) ≠ 0)

/-- Adds an input to the set. -/
def markPresent (words : List Nat) (ordinal : Nat) : Access (List Nat) := do
  let index := ordinal / bitsPerAllowedMessageWord
  let word ← words[index]?
  setElement words index (word ||| 1 <<< (ordinal % bitsPerAllowedMessageWord))

end ProtocolAdapter.Codec
