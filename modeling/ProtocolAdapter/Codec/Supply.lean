/-
This file states what the values of a caller mean for a message, without the workspace:
which value belongs to which field, and why the values are refused. It also shows that
the set of supplied inputs is a set.
-/

import Mathlib.Tactic.MkIffOfInductiveProp
import ProtocolAdapter.Codec.Encode
import ProtocolAdapter.Codec.FrozenPlan
import ProtocolAdapter.Codec.Meaning
import ProtocolAdapter.Foundation.Positions

namespace ProtocolAdapter.Codec

open Foundation

/-! ### The set of supplied inputs -/

/-- Whether the words of a set have the bit of an input. -/
def presentBit (words : List Nat) (ordinal : Nat) : Bool :=
  (words.getD (ordinal / bitsPerAllowedMessageWord) 0).testBit (ordinal % bitsPerAllowedMessageWord)

theorem isPresent_eq {words : List Nat} {ordinal : Nat}
    (within : ordinal / bitsPerAllowedMessageWord < words.length) :
    isPresent words ordinal = some (presentBit words ordinal) :=
  @messageIsAllowed_eq { allowedMessageWords := words } ordinal within

/-- Adding an input adds nothing else. -/
theorem markPresent_eq {words : List Nat} {ordinal : Nat}
    (within : ordinal / bitsPerAllowedMessageWord < words.length) :
    ∃ marked, markPresent words ordinal = some marked ∧ marked.length = words.length ∧
      ∀ other, presentBit marked other = (presentBit words other || decide (other = ordinal)) := by
  refine ⟨allowMessage words ordinal, ?_, List.length_modify .., fun other =>
    allowMessage_testBit other within⟩
  unfold markPresent allowMessage
  simp only [List.getElem?_eq_getElem within, Option.bind_eq_bind, Option.bind_some]
  rw [setElement_eq _ within, List.modify_eq_set_getElem?, List.getElem?_eq_getElem within]
  rfl

/-- The cleared set has no input. -/
theorem presentBit_cleared (words : List Nat) {count ordinal : Nat} (inside : ordinal < count) :
    presentBit (List.replicate (presenceWordCount count) 0 ++ words) ordinal = false := by
  have within : ordinal / bitsPerAllowedMessageWord < presenceWordCount count := word_within inside
  unfold presentBit
  rw [List.getD_eq_getElem?_getD, List.getElem?_append_left (by rwa [List.length_replicate]),
    List.getElem?_replicate, if_pos within, Option.getD_some, Nat.zero_testBit]

/-! ### Input fields -/

/-- Whether the caller supplies the value of a field. -/
def takesInput (plan : PlanBundle) (field : FieldExecutionPlan) : Bool :=
  if isTextSchema plan.schemaVersion then field.textEncodeInput else field.encodeSource == .input

/-- The input fields of a message are numbered in the order of the fields. -/
@[mk_iff]
structure InputsValid (plan : PlanBundle) (message : MessageExecutionPlan) : Prop where
  ordinal : ∀ (index : Nat) field, message.fields[index]? = some field →
    takesInput plan field = true →
      field.inputOrdinal = (message.fields.take index).countP (takesInput plan)
  required : message.requiredInputCount = message.fields.countP (takesInput plan)
  source : ∀ field ∈ message.fields, takesInput plan field = true → field.encodeSource = .input

/-- A message the encoder accepts is a binary message of a binary package or a text message
of a text package. -/
inductive Encodable (plan : PlanBundle) (message : MessageExecutionPlan) : Prop where
  | binary (version : isTextSchema plan.schemaVersion = false)
      (valid : BinaryValid plan.schemaVersion plan.conversions message)
  | text (action : TextActionExecutionPlan) (has : message.textEncode = some action)
      (valid : TextValid plan.schemaVersion message)

section

variable {plan : PlanBundle} {message : MessageExecutionPlan}

theorem encodable_of_valid (valid : MessageValid plan.schemaVersion plan.conversions message)
    (supported : ¬(isTextSchema plan.schemaVersion = true ∧ message.textEncode = none)) :
    Encodable plan message := by
  cases valid with
  | binary valid =>
    cases version : isTextSchema plan.schemaVersion with
    | false => exact .binary version valid
    | true => exact absurd ⟨version, valid.noEncode⟩ supported
  | text valid =>
    cases has : message.textEncode with
    | none => exact absurd ⟨valid.schema, has⟩ supported
    | some action => exact .text action has valid

theorem takesInput_binary (version : isTextSchema plan.schemaVersion = false) :
    takesInput plan = isInput := by
  funext field
  rw [takesInput, version]
  rfl

theorem takesInput_text (version : isTextSchema plan.schemaVersion = true) :
    takesInput plan = (·.textEncodeInput) := by
  funext field
  rw [takesInput, version]
  rfl

theorem Encodable.inputs (encodable : Encodable plan message) : InputsValid plan message := by
  cases encodable with
  | binary version valid =>
    rw [inputsValid_iff, takesInput_binary version]
    exact ⟨fun index field found takes => valid.ordinals index field found (beq_iff_eq.mp takes),
      valid.requiredInputs, fun field _ takes => beq_iff_eq.mp takes⟩
  | text action has valid =>
    rw [inputsValid_iff, takesInput_text valid.schema]
    exact ⟨valid.ordinals, valid.requiredInputs, fun field member _ =>
      (valid.fields field member).source⟩

/-- Different input fields have different numbers. -/
theorem InputsValid.injective (inputs : InputsValid plan message) {left right : Nat}
    {leftField rightField : FieldExecutionPlan} (leftFound : message.fields[left]? = some leftField)
    (rightFound : message.fields[right]? = some rightField)
    (leftTakes : takesInput plan leftField = true) (rightTakes : takesInput plan rightField = true)
    (same : leftField.inputOrdinal = rightField.inputOrdinal) : left = right := by
  rw [inputs.ordinal left leftField leftFound leftTakes,
    inputs.ordinal right rightField rightFound rightTakes] at same
  exact countP_take_inj leftFound rightFound leftTakes rightTakes same

theorem InputsValid.ordinal_lt (inputs : InputsValid plan message) {index : Nat}
    {field : FieldExecutionPlan} (found : message.fields[index]? = some field)
    (takes : takesInput plan field = true) : field.inputOrdinal < message.requiredInputCount := by
  rw [inputs.ordinal index field found takes, inputs.required]
  exact countP_take_lt_countP found takes

end

/-! ### Values -/

/-- Whether a value is for a field. -/
def isFor (fieldIndex : Nat) (value : EncodeFieldValue) : Bool :=
  value.field.fieldIndex = fieldIndex

/-- The value supplied for a field. -/
def valueFor (values : List EncodeFieldValue) (fieldIndex : Nat) : EncodeFieldValue :=
  (values.find? (isFor fieldIndex)).getD {}

/-- The index of the value supplied for a field. -/
def valueIndexFor (values : List EncodeFieldValue) (fieldIndex : Nat) : Nat :=
  values.findIdx (isFor fieldIndex)

/-! ### Refusals -/

/-- The field a value is for, when its reference is one of the message. -/
def referencedField (plan : PlanBundle) (messageIndex : Nat) (message : MessageExecutionPlan)
    (value : EncodeFieldValue) : Option FieldExecutionPlan :=
  if value.field.planScope ≠ some plan.address ∨ value.field.messageIndex ≠ messageIndex then none
  else message.fields[value.field.fieldIndex]?

/-- Why a value is refused when the values before it have been placed. -/
def placementStatus (plan : PlanBundle) (messageIndex : Nat) (message : MessageExecutionPlan)
    (earlier : List EncodeFieldValue) (value : EncodeFieldValue) : Option CodecStatus :=
  match referencedField plan messageIndex message value with
  | none => some .fieldReferenceMismatch
  | some field =>
    if isTextSchema plan.schemaVersion = true ∧ field.textEncodeInput = false then
      some .fieldReferenceMismatch
    else if field.encodeSource = .computed then some .computedFieldOverride
    else if field.encodeSource ≠ .input then some .constantFieldOverride
    else if earlier.any (isFor value.field.fieldIndex) then some .duplicateField
    else if isConversionSchema plan.schemaVersion then none
    else if valueKindMatches value.valueKind field.valueType = false then some .typeMismatch
    else valueFailure plan messageIndex message value.field.fieldIndex field value

/-- The field that the result names once some values have been placed. -/
def namedField (values : List EncodeFieldValue) : Nat → Nat
  | 0 => invalidIndex
  | passed + 1 => (values[passed]?.map (·.field.fieldIndex)).getD invalidIndex

/-- How the first value that is refused is reported. -/
def placementFailure (plan : PlanBundle) (messageIndex : Nat) (message : MessageExecutionPlan)
    (values : List EncodeFieldValue) (item : EncodeFieldValue × Nat) : Option EncodeResult :=
  (placementStatus plan messageIndex message (values.take item.2) item.1).map fun status =>
    { status := status
      failedValueIndex := item.2
      failedFieldIndex :=
        if (referencedField plan messageIndex message item.1).isSome then item.1.field.fieldIndex
        else namedField values item.2 }

/-- How a missing value is reported. -/
def missingFailure (plan : PlanBundle) (values : List EncodeFieldValue)
    (item : FieldExecutionPlan × Nat) : Option EncodeResult :=
  if takesInput plan item.1 = true ∧ values.any (isFor item.2) = false then
    some { status := .missingField, failedFieldIndex := item.2 }
  else none

/-- How a value is reported that its field cannot take, in the packages that check values in
the order of the fields. -/
def conversionFailure (plan : PlanBundle) (messageIndex : Nat) (message : MessageExecutionPlan)
    (values : List EncodeFieldValue) (item : FieldExecutionPlan × Nat) : Option EncodeResult :=
  let value := valueFor values item.2
  let failure : EncodeResult :=
    { failedValueIndex := valueIndexFor values item.2, failedFieldIndex := item.2 }
  if item.1.encodeSource ≠ .input then none
  else if hasConversion item.1 then
    if value.valueKind ≠ .decimal64 then some { failure with status := .typeMismatch }
    else
      match encodeDecimal (conversionOf plan.conversions item.1) value.decimal64Value
        item.1.width with
      | .error status => some { failure with
          status := toCodecStatus status, conversionError := toConversionError status }
      | .ok _ => none
  else if valueKindMatches value.valueKind item.1.valueType = false then
    some { failure with status := .typeMismatch }
  else
    (valueFailure plan messageIndex message item.2 item.1 value).map fun status =>
      { failure with status := status }

/-- How the values are refused, if they are. -/
def inputsFailure (plan : PlanBundle) (messageIndex : Nat) (message : MessageExecutionPlan)
    (values : List EncodeFieldValue) : Option EncodeResult :=
  (values.zipIdx.findSome? (placementFailure plan messageIndex message values)).or <|
    (message.fields.zipIdx.findSome? (missingFailure plan values)).or <|
      if isConversionSchema plan.schemaVersion then
        message.fields.zipIdx.findSome? (conversionFailure plan messageIndex message values)
      else none

end ProtocolAdapter.Codec
