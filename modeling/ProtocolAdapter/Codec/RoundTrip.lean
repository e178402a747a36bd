/-
This file shows that a record that has been encoded is decoded again: the decoder accepts it,
finds its message, and reads back every value that was supplied, every constant, and the
length of the record.
-/

import ProtocolAdapter.Codec.EncodeOutcome

namespace ProtocolAdapter.Codec

open Foundation Foundation.Operation Foundation.Bytes

/-! ### Values -/

/-- A decoded field holds the value that was supplied for it. Decimals hold the same number,
perhaps at another scale. -/
def SlotHolds (value : EncodeFieldValue) (slot : DecodedFieldSlot) : Prop :=
  slot.valueKind = value.valueKind ∧
    match value.valueKind with
    | .uint64 => slot.uint64Value = value.uint64Value
    | .int64 => slot.int64Value = value.int64Value
    | .bytes => slot.bytesValue.bytes = value.bytesValue.bytes
    | .bool => slot.boolValue = value.boolValue
    | .enum => slot.enumValue.known = true ∧ slot.enumValue.reference = value.enumValue
    | .decimal64 => value.decimal64Value.ScaleInRange ∧ slot.decimal64Value.ScaleInRange ∧
        Decimal.SameValue value.decimal64Value.coefficient.toInt value.decimal64Value.places
          slot.decimal64Value.coefficient.toInt slot.decimal64Value.places

/-- A decoded field holds the constant of its field. -/
def SlotHoldsConstant (field : FieldExecutionPlan) (slot : DecodedFieldSlot) : Prop :=
  if field.valueType = .int64 then
    slot.valueKind = .int64 ∧ slot.int64Value = Int64.ofInt field.signedConstantValue
  else slot.valueKind = .uint64 ∧ slot.uint64Value = UInt64.ofNat field.constantValue

/-- The length a computed field states in a record of a length. -/
def statedLength (message : MessageExecutionPlan) (computed : ComputedLengthPlan) (size : Nat) :
    Nat :=
  match computed.scope with
  | .frame => size
  | .payload => payloadSize message size
  | .region => computed.rangeLength

/-- What the slots of a record hold, field by field. -/
structure SlotsHold (message : MessageExecutionPlan) (values : List EncodeFieldValue) (size : Nat)
    (slots : List DecodedFieldSlot) : Prop where
  supplied : ∀ (index : Nat) field, message.fields[index]? = some field →
    field.encodeSource = .input → ∃ value ∈ values, value.field.fieldIndex = index
  inputs : ∀ value ∈ values, ∃ slot, slots[value.field.fieldIndex]? = some slot ∧
    SlotHolds value slot
  constants : ∀ (index : Nat) field, message.fields[index]? = some field →
    field.encodeSource = .constant → ∃ slot, slots[index]? = some slot ∧
      SlotHoldsConstant field slot
  computed : ∀ (index : Nat) field, message.fields[index]? = some field →
    field.encodeSource = .computed → ∃ slot computed, slots[index]? = some slot ∧
      message.computedLength = some computed ∧ slot.valueKind = .uint64 ∧
        slot.uint64Value = UInt64.ofNat (statedLength message computed size)

section

variable {plan : PlanBundle} {messageIndex : Nat} {message : MessageExecutionPlan}
  {values : List EncodeFieldValue} {input : ByteView} {size : Nat}

/-! ### Records with given contents -/

/-- The raw value of a field in the record that accepted values ask for. -/
theorem rawValue_supplied (valid : BinaryValid plan.schemaVersion plan.conversions message)
    (version : isTextSchema plan.schemaVersion = false)
    (accepted : inputsFailure plan messageIndex message values = none)
    (bytes : input.bytes =
      recordOf message (suppliedContents plan message values) (recordSize message values))
    {index : Nat} {field : FieldExecutionPlan} (found : message.fields[index]? = some field)
    (type : field.valueType ≠ .bytes) (stored : field.encodeSource ≠ .computed) :
    rawValue message field input.bytes = suppliedRaw plan message values index := by
  rw [bytes]
  exact valid.recordOf_raw (recordSize_fits valid version accepted)
    (suppliedContents_fit valid version accepted) found type stored

/-- An enumeration value is found at the entry that was supplied. -/
theorem enumEntry_entryValues {field : FieldExecutionPlan} {entries : List EnumEntryPlan}
    (valid : EnumValid message field entries) {entryIndex : Nat}
    (within : entryIndex < entries.length) :
    enumEntry message field ((entryValues message field).getD entryIndex 0) =
      some entryIndex := by
  have inside : entryIndex < (entries.map (·.rawValue)).length := by rwa [List.length_map]
  rw [enumEntry, valid.entryValues_eq, List.getD_eq_getElem _ _ inside,
    List.findIdx?_eq_some_iff_getElem]
  refine ⟨inside, by simp, fun earlier before => ?_⟩
  have distinct := List.nodup_iff_injective_getElem.mp valid.distinct
  have within : earlier < (entries.map (·.rawValue)).length := before.trans inside
  have different : (entries.map (·.rawValue))[earlier] ≠
      (entries.map (·.rawValue))[entryIndex] := fun same => by
    have := @distinct ⟨earlier, within⟩ ⟨entryIndex, inside⟩ same
    exact absurd (Fin.mk.inj this) (Nat.ne_of_lt before)
  simpa using different

/-- The entry of an accepted enumeration value. -/
theorem suppliedEntry (valid : BinaryValid plan.schemaVersion plan.conversions message)
    (version : isTextSchema plan.schemaVersion = false)
    (accepted : inputsFailure plan messageIndex message values = none) {index : Nat}
    {field : FieldExecutionPlan} (found : message.fields[index]? = some field)
    (source : field.encodeSource = .input) (has : hasConversion field = false)
    (type : field.valueType = .enum) :
    (valueFor values index).enumValue =
        ⟨some plan.address, messageIndex, index, (valueFor values index).enumValue.entryIndex⟩ ∧
      enumEntry message field (suppliedRaw plan message values index) =
        some (valueFor values index).enumValue.entryIndex := by
  obtain ⟨entries, enumValid⟩ := valid.enums field (List.mem_of_getElem? found) type
  obtain ⟨-, passes⟩ := (valueAccepted valid version accepted found source).plain has
  rw [valueFailure, type] at passes
  simp only [ite_eq_right_iff, reduceCtorEq, imp_false, not_or, not_not, not_le] at passes
  obtain ⟨scope, messages, fields, within⟩ := passes
  constructor
  · cases reference : (valueFor values index).enumValue with
    | mk planScope ofMessage ofField entryIndex =>
      rw [reference] at scope messages fields
      simp only at scope messages fields
      rw [scope, messages, fields]
  · have raw : suppliedRaw plan message values index =
        (entryValues message field).getD (valueFor values index).enumValue.entryIndex 0 := by
      unfold suppliedRaw
      simp only [suppliedRaw_eq found, has, Bool.false_eq_true, if_false, source, reduceCtorEq,
        type]
    rw [raw]
    exact enumEntry_entryValues enumValid (enumValid.valuesCount ▸ within)

/-! ### Slots -/

/-- A converted field decodes to the decimal that was supplied. -/
theorem decimalOf_supplied (valid : BinaryValid plan.schemaVersion plan.conversions message)
    (version : isTextSchema plan.schemaVersion = false)
    (accepted : inputsFailure plan messageIndex message values = none)
    (bytes : input.bytes =
      recordOf message (suppliedContents plan message values) (recordSize message values))
    {index : Nat} {field : FieldExecutionPlan} (found : message.fields[index]? = some field)
    (has : hasConversion field = true) :
    ∃ decoded, decimalOf plan message field input.bytes = .ok decoded ∧
      decimalEqual (valueFor values index).decimal64Value decoded = true := by
  have facts := convertedField valid found has
  obtain ⟨-, raw, run⟩ :=
    (valueAccepted valid version accepted found facts.source).converted has
  have supplied : suppliedRaw plan message values index = raw := by
    unfold suppliedRaw
    simp only [suppliedRaw_eq found, has, if_true, run]
  obtain ⟨-, decoded, decodes, equal⟩ := decodeDecimal_of_encodeDecimal facts.valid
    facts.integer.positive facts.integer.bounded facts.rawType run
  refine ⟨decoded, ?_, equal⟩
  rw [decimalOf, rawValue_supplied valid version accepted bytes found facts.notBytes
    (by simp [facts.source]), supplied, decodes]

/-- The slot of an input field holds the value supplied for it. -/
theorem decodedSlot_holds (valid : BinaryValid plan.schemaVersion plan.conversions message)
    (version : isTextSchema plan.schemaVersion = false)
    (accepted : inputsFailure plan messageIndex message values = none)
    (bytes : input.bytes =
      recordOf message (suppliedContents plan message values) (recordSize message values))
    {index : Nat} {field : FieldExecutionPlan} (found : message.fields[index]? = some field)
    (source : field.encodeSource = .input) :
    SlotHolds (valueFor values index)
      (decodedSlot plan messageIndex message input index field) := by
  have acceptedValue := valueAccepted valid version accepted found source
  unfold SlotHolds decodedSlot
  cases has : hasConversion field with
  | true =>
    obtain ⟨kind, -⟩ := acceptedValue.converted has
    obtain ⟨decoded, decodes, equal⟩ :=
      decimalOf_supplied valid version accepted bytes found has
    obtain ⟨left, right, value⟩ := decimalEqual_iff.mp equal
    simp only [if_true, decodes, kind]
    exact ⟨trivial, left, right, value⟩
  | false =>
    obtain ⟨kind, passes⟩ := acceptedValue.plain has
    rw [valueKindMatches, beq_iff_eq] at kind
    simp only [Bool.false_eq_true, if_false]
    have raw : field.valueType ≠ .bytes →
        rawValue message field input.bytes = suppliedRaw plan message values index := fun type =>
      rawValue_supplied valid version accepted bytes found type (by simp [source])
    unfold suppliedRaw at raw
    simp only [suppliedRaw_eq found, has, Bool.false_eq_true, if_false, source, reduceCtorEq]
      at raw
    cases type : field.valueType with
    | uint64 =>
      rw [type] at kind raw
      rw [raw (by simp), kind]
      simp only [getLogicalValueKind]
      exact ⟨trivial, UInt64.ofNat_toNat⟩
    | int64 =>
      rw [type] at kind raw
      rw [valueFailure, type] at passes
      simp only [ite_eq_right_iff, reduceCtorEq, imp_false, Bool.not_eq_false] at passes
      rw [raw (by simp), kind]
      simp only [getLogicalValueKind, interpretSigned_signedBits passes, Option.getD_some]
      exact ⟨trivial, Int64.ofInt_toInt _⟩
    | bool =>
      rw [type] at kind raw
      rw [raw (by simp), kind]
      simp only [getLogicalValueKind]
      refine ⟨trivial, ?_⟩
      cases (valueFor values index).boolValue <;> rfl
    | bytes =>
      rw [type] at kind
      rw [kind]
      simp only [getLogicalValueKind]
      refine ⟨trivial, ?_⟩
      have fits := recordSize_fits valid version accepted
      have fit := suppliedContents_fit valid version accepted
      show slice input.bytes field.offset (byteLength message index field input.bytes.length) = _
      rw [bytes, recordOf_length]
      exact valid.recordOf_bytes fits fit found type
    | enum =>
      obtain ⟨reference, entry⟩ := suppliedEntry valid version accepted found source has type
      have raw := rawValue_supplied valid version accepted bytes found (by simp [type])
        (by simp [source])
      rw [type] at kind
      rw [kind, raw, entry, reference]
      simp only [getLogicalValueKind]
      exact ⟨trivial, rfl, rfl⟩

/-- The slot of a constant field holds its constant. -/
theorem decodedSlot_holdsConstant
    (valid : BinaryValid plan.schemaVersion plan.conversions message)
    (version : isTextSchema plan.schemaVersion = false)
    (accepted : inputsFailure plan messageIndex message values = none)
    (bytes : input.bytes =
      recordOf message (suppliedContents plan message values) (recordSize message values))
    {index : Nat} {field : FieldExecutionPlan} (found : message.fields[index]? = some field)
    (source : field.encodeSource = .constant) :
    SlotHoldsConstant field (decodedSlot plan messageIndex message input index field) := by
  have plain : hasConversion field = false := by
    cases has : hasConversion field with
    | false => rfl
    | true =>
      have input := (convertedField valid found has).source
      rw [source] at input
      cases input
  have types : field.valueType = .uint64 ∨ (field.valueType = .int64 ∧
      fitsSignedWidth field.signedConstantValue field.width = true) := by
    cases valid.fields field (List.mem_of_getElem? found) with
    | member _ _ _ memberValid =>
      rcases memberValid.source with other | ⟨type, -⟩
      · rw [source] at other
        cases other
      · exact .inl type
    | integer _ integerValid => exact (integerValid.constant source).imp And.left id
    | bytes _ bytesValid =>
      have other := bytesValid.source
      rw [source] at other
      cases other
  have raw : field.valueType ≠ .bytes →
      rawValue message field input.bytes = constantRaw field := fun type =>
    (rawValue_supplied valid version accepted bytes found type (by simp [source])).trans
      (@suppliedContents_constants plan message values valid index field found source)
  unfold SlotHoldsConstant decodedSlot
  simp only [plain, Bool.false_eq_true, if_false]
  rcases types with type | ⟨type, fits⟩
  · simp only [type, reduceCtorEq, if_false, getLogicalValueKind, true_and]
    rw [raw (by simp [type]), constantRaw, if_neg (by simp [type])]
  · simp only [type, if_true, getLogicalValueKind, true_and]
    rw [raw (by simp [type]), constantRaw, if_pos type, interpretSigned_signedBits fits,
      Option.getD_some]

/-- The length a record has is the length it states. -/
theorem actualLength_eq (valid : BinaryValid plan.schemaVersion plan.conversions message)
    (fits : lengthMatches message size = true) {computed : ComputedLengthPlan}
    (has : message.computedLength = some computed) :
    actualLength message computed size (payloadSize message size) =
      statedLength message computed size := by
  have facts := valid.length_valid has
  have expected := facts.expected
  unfold actualLength statedLength
  unfold longestLength at expected
  cases payload : message.boundedPayload with
  | some bounded =>
    cases scope : computed.scope with
    | frame => rfl
    | payload => rfl
    | region =>
      rw [scope, payload] at expected
      exact expected
  | none =>
    rw [lengthMatches, payload] at fits
    cases scope : computed.scope with
    | frame =>
      rw [scope] at expected
      exact expected.trans (beq_iff_eq.mp fits).symm
    | payload =>
      have bounded := facts.payload scope
      rw [payload] at bounded
      cases bounded
    | region =>
      rw [scope] at expected
      exact expected

/-- The slot of a computed field holds the length of the record. -/
theorem decodedSlot_holdsLength
    (valid : BinaryValid plan.schemaVersion plan.conversions message)
    (version : isTextSchema plan.schemaVersion = false)
    (accepted : inputsFailure plan messageIndex message values = none)
    (bytes : input.bytes =
      recordOf message (suppliedContents plan message values) (recordSize message values))
    {index : Nat} {field : FieldExecutionPlan} (found : message.fields[index]? = some field)
    (source : field.encodeSource = .computed) :
    ∃ computed, message.computedLength = some computed ∧
      (decodedSlot plan messageIndex message input index field).valueKind = .uint64 ∧
      (decodedSlot plan messageIndex message input index field).uint64Value =
        UInt64.ofNat (statedLength message computed (recordSize message values)) := by
  have fits := recordSize_fits valid version accepted
  obtain ⟨computed, has, same⟩ := valid.computedField index field found source
  obtain ⟨other, listed, -, -, -, -, -, type⟩ := valid.lengthField has
  rw [same] at listed
  obtain rfl := Option.some.inj (found.symm.trans listed)
  have plain : hasConversion field = false := by
    cases converted : hasConversion field with
    | false => rfl
    | true =>
      have input := (convertedField valid found converted).source
      rw [source] at input
      cases input
  have raw := valid.recordOf_computed fits (suppliedContents_fit valid version accepted) has
    (same.symm ▸ found)
  rw [← bytes, actualLength_eq valid fits has] at raw
  refine ⟨computed, has, ?_, ?_⟩
  · unfold decodedSlot
    simp only [plain, Bool.false_eq_true, if_false, type, getLogicalValueKind]
  · unfold decodedSlot
    simp only [plain, Bool.false_eq_true, if_false, type, raw]

/-! ### Replies -/

/-- What a successful encode of a binary package has established, and what it replies. -/
structure Encoded (plan : PlanBundle) (pipelineIndex messageIndex : Nat)
    (message : MessageExecutionPlan) (values : List EncodeFieldValue) (reply : EncodeReply) :
    Prop where
  pipeline : ∃ pipeline, plan.pipelineExecutionPlans[pipelineIndex]? = some pipeline ∧
    messageIsAllowed pipeline messageIndex = some true
  listed : plan.messageExecutionPlans[messageIndex]? = some message
  valid : BinaryValid plan.schemaVersion plan.conversions message
  accepted : inputsFailure plan messageIndex message values = none
  shape : hasShape message (recordOf message (suppliedContents plan message values)
    (recordSize message values)) = true
  written : reply.result.bytesWritten = recordSize message values
  output : ∃ rest, reply.output = recordOf message (suppliedContents plan message values)
    (recordSize message values) ++ rest

theorem encodeReply_ok (valid : PlanValid plan) (version : isTextSchema plan.schemaVersion = false)
    {pipelineIndex : Nat} {values : EncodeValues} {output : MutableByteBuffer}
    (ok : (encodeReply plan pipelineIndex messageIndex values output).result.status = .ok) :
    ∃ message, Encoded plan pipelineIndex messageIndex message values.values
      (encodeReply plan pipelineIndex messageIndex values output) := by
  unfold encodeReply at ok ⊢
  split at ok
  · cases ok
  rename_i present
  rw [if_neg present]
  split at ok
  · cases ok
  rename_i addressed
  rw [if_neg addressed]
  split at ok
  · cases ok
  rename_i pipeline compiled
  split at ok
  · cases ok
  rename_i message listed
  split at ok
  swap
  · cases ok
  rename_i allowed
  rw [if_pos allowed]
  unfold encodeMessageReply at ok ⊢
  split at ok
  · cases ok
  rename_i supported
  rw [if_neg supported]
  cases refused : inputsFailure plan messageIndex message values.values with
  | some failure =>
    rw [refused] at ok
    exact absurd ok (inputsFailure_refuses refused).status
  | none =>
    cases valid.messages message (List.mem_of_getElem? listed) with
    | text text => exact absurd (text.schema.symm.trans version) (by simp)
    | binary binary =>
      simp only [refused, binary.noEncode] at ok ⊢
      unfold binaryReply at ok ⊢
      cases memory : binaryMemoryFailure values output (recordSize message values.values) with
      | some failure =>
        rw [memory] at ok
        exact absurd ok (binaryMemoryFailure_refuses memory).status
      | none =>
        simp only [memory] at ok
        unfold recordReply at ok ⊢
        simp only at ok ⊢
        split at ok
        swap
        · cases ok
        rename_i shape
        refine ⟨message, ⟨pipeline, compiled, allowed⟩, listed, binary, refused, shape, ?_, _, rfl⟩
        rw [if_pos shape]

/-- Slots for a number of fields, in memory apart from the input. -/
structure SlotsReady (count : Nat) (input : ByteView) (fieldSlots : FieldSlots) : Prop where
  present : ¬(fieldSlots.data = none ∧ fieldSlots.slots.length ≠ 0)
  room : count ≤ fieldSlots.slots.length
  apart : ∃ inputRange slotRange, getAddressRange input.data input.size = some inputRange ∧
    getArrayAddressRange fieldSlots.data count sizeofDecodedFieldSlot = some slotRange ∧
      rangesOverlap inputRange slotRange = false

theorem SlotsReady.outputRefusal_eq {count : Nat} {fieldSlots : FieldSlots}
    (ready : SlotsReady count input fieldSlots) : outputRefusal count input fieldSlots = none := by
  obtain ⟨inputRange, slotRange, inputAt, slotsAt, apart⟩ := ready.apart
  unfold outputRefusal
  rw [if_neg (Nat.not_lt.mpr ready.room), inputAt, slotsAt]
  simp only
  rw [if_neg (by simp [apart])]

theorem SlotsReady.inputs_present {count : Nat} {fieldSlots : FieldSlots}
    (ready : SlotsReady count input fieldSlots) :
    ¬((input.data = none ∧ input.size ≠ 0) ∨
      (fieldSlots.data = none ∧ fieldSlots.slots.length ≠ 0)) := by
  rintro (⟨null, nonempty⟩ | absent)
  · obtain ⟨inputRange, -, inputAt, -⟩ := ready.apart
    unfold getAddressRange at inputAt
    rw [if_neg nonempty, null] at inputAt
    cases inputAt
  · exact ready.present absent

/-- A record that one binary message of a pipeline matches is decoded as this message says. -/
theorem decodeReply_shape (valid : PlanValid plan)
    (version : isTextSchema plan.schemaVersion = false) {pipelineIndex : Nat}
    {pipeline : PipelineExecutionPlan}
    (compiled : plan.pipelineExecutionPlans[pipelineIndex]? = some pipeline)
    (allowed : messageIsAllowed pipeline messageIndex = some true)
    (listed : plan.messageExecutionPlans[messageIndex]? = some message)
    (shape : hasShape message input.bytes = true) {fieldSlots : FieldSlots}
    (ready : SlotsReady message.fields.length input fieldSlots) :
    decodeReply plan pipelineIndex input fieldSlots =
      match recordRefusal plan message input.bytes with
      | some refusal =>
        { result := refusal.report
            { messageIndex := messageIndex, requiredFieldCount := message.fields.length }
          slots := fieldSlots.slots }
      | none =>
        { result :=
            { status := .ok, messageIndex := messageIndex
              fieldCount := message.fields.length, requiredFieldCount := message.fields.length
              tainted := message.fields.any (isUnknown message input.bytes) }
          slots := decodedSlots plan messageIndex message input ++
            fieldSlots.slots.drop message.fields.length
          rawMessage := messageIndex } := by
  obtain ⟨outcome, run, finds⟩ := search_iff valid version compiled listed allowed input.bytes
  have found : outcome.matchCount = 1 ∧ outcome.messageIndex = messageIndex := by
    have unique := finds.not.mpr (not_not.mpr shape)
    rwa [not_or, not_not, not_not] at unique
  have binary : message.textDecode = none := by
    cases valid.messages message (List.mem_of_getElem? listed) with
    | text text => exact absurd (text.schema.symm.trans version) (by simp)
    | binary binary => exact binary.noDecode
  unfold decodeReply
  rw [if_neg ready.inputs_present, compiled]
  simp only
  rw [if_neg (by simp [version]), pipelineReply, run]
  simp only
  rw [matchReply, if_neg (by simp [found.1]), if_neg (by simp [found.1]), found.2, listed]
  simp only
  unfold messageReply decodedCount messageRefusal messageSlots messageTainted
  cases recordRefusal plan message input.bytes <;>
    simp only [binary, ready.outputRefusal_eq]

/-- The record that accepted values ask for is not refused, and has no unknown value. -/
theorem recordRefusal_supplied (valid : BinaryValid plan.schemaVersion plan.conversions message)
    (version : isTextSchema plan.schemaVersion = false)
    (accepted : inputsFailure plan messageIndex message values = none)
    (bytes : input.bytes =
      recordOf message (suppliedContents plan message values) (recordSize message values)) :
    recordRefusal plan message input.bytes = none ∧
      message.fields.any (isUnknown message input.bytes) = false := by
  have fits := recordSize_fits valid version accepted
  have fit := suppliedContents_fit valid version accepted
  have length : input.bytes.length = recordSize message values := by rw [bytes, recordOf_length]
  have known : ∀ (index : Nat) field, message.fields[index]? = some field →
      isUnknown message input.bytes field = false := by
    intro index field found
    unfold isUnknown
    cases has : hasConversion field with
    | true => rfl
    | false =>
      by_cases type : field.valueType = .enum
      swap
      · simp [type]
      have source : field.encodeSource = .input := by
        cases valid.fields field (List.mem_of_getElem? found) with
        | member _ _ _ memberValid =>
          exact memberValid.source.resolve_right fun other => by simp [type] at other
        | integer _ integerValid =>
          rcases integerValid.type with other | other | ⟨-, source⟩
          · rw [type] at other
            cases other
          · rw [type] at other
            cases other
          · exact source
        | bytes _ bytesValid => exact bytesValid.source
      have raw := rawValue_supplied valid version accepted bytes found (by simp [type])
        (by simp [source])
      rw [raw, (suppliedEntry valid version accepted found source has type).2]
      simp
  constructor
  · unfold recordRefusal
    rw [length, if_neg (by simp [bytes, valid.recordOf_statesLength fits fit]),
      if_neg (by simp [bytes, valid.recordOf_carriesChecksum fits]), List.findSome?_eq_none_iff]
    rintro ⟨field, index⟩ member
    have found := List.mem_zipIdx_iff_getElem?.mp member
    unfold fieldRefusal
    cases has : hasConversion field with
    | true =>
      obtain ⟨decoded, decodes, -⟩ := decimalOf_supplied valid version accepted bytes found has
      simp only [if_true, decodes]
    | false =>
      simp only [Bool.false_eq_true, if_false, known index field found, false_and]
  · rw [List.any_eq_false]
    intro field member
    obtain ⟨index, found⟩ := List.mem_iff_getElem?.mp member
    simp [known index field found]

/-- The slots of the record that accepted values ask for hold them. -/
theorem slotsHold_supplied (valid : BinaryValid plan.schemaVersion plan.conversions message)
    (version : isTextSchema plan.schemaVersion = false)
    (accepted : inputsFailure plan messageIndex message values = none)
    (bytes : input.bytes =
      recordOf message (suppliedContents plan message values) (recordSize message values))
    (rest : List DecodedFieldSlot) :
    SlotsHold message values (recordSize message values)
      (decodedSlots plan messageIndex message input ++ rest) := by
  have slot : ∀ (index : Nat) field, message.fields[index]? = some field →
      (decodedSlots plan messageIndex message input ++ rest)[index]? =
        some (decodedSlot plan messageIndex message input index field) := by
    intro index field found
    have within := (List.getElem?_eq_some_iff.mp found).1
    rw [List.getElem?_append_left (by rwa [decodedSlots, List.length_mapIdx]), decodedSlots,
      List.getElem?_mapIdx, found]
    rfl
  refine ⟨fun index field found source => ?_, fun value member => ?_,
    fun index field found source => ?_, fun index field found source => ?_⟩
  · have takes : takesInput plan field = true := by
      rw [takesInput_binary version]
      exact beq_iff_eq.mpr source
    obtain ⟨position, listed, this⟩ :=
      valueFor_mem ((inputsFailure_eq_none.mp accepted).2.1 index field found takes)
    exact ⟨_, List.mem_of_getElem? listed, of_decide_eq_true this⟩
  · obtain ⟨position, listed⟩ := List.mem_iff_getElem?.mp member
    obtain ⟨⟨field, found, source⟩, -⟩ := value_referenced accepted listed
    have holds := decodedSlot_holds valid version accepted bytes found source
    have supplied : values.any (isFor value.field.fieldIndex) = true :=
      List.any_eq_true.mpr ⟨value, member, by simp [isFor]⟩
    obtain ⟨other, there, this⟩ := valueFor_mem supplied
    have same : valueFor values value.field.fieldIndex = value :=
      List.inj_on_of_nodup_map (values_distinct accepted) (List.mem_of_getElem? there) member
        (of_decide_eq_true this)
    rw [same] at holds
    exact ⟨_, slot _ field found, holds⟩
  · exact ⟨_, slot _ field found,
      decodedSlot_holdsConstant valid version accepted bytes found source⟩
  · obtain ⟨computed, has, kind, value⟩ :=
      @decodedSlot_holdsLength plan messageIndex message values input valid version accepted bytes
        index field found source
    exact ⟨_, computed, slot _ field found, has, kind, value⟩

end

/-- A binary record that has been encoded is decoded in the same pipeline: the decoder names
its message, and the slots hold the supplied values, the constants and the length. -/
theorem decodeCompleteRecord_encoded {target : TargetLayout} {budgeted : BudgetedPlanDraft}
    {storage : Option Nat} {plan : PlanBundle} {encoder decoder : ExecutionWorkspace}
    (frozen : freeze target budgeted storage = .ok plan)
    (version : isTextSchema plan.schemaVersion = false) (encoderIdle : encoder.IdleFor plan)
    (decoderIdle : decoder.IdleFor plan) {pipelineIndex messageIndex : Nat}
    {message : MessageExecutionPlan}
    (listed : plan.messageExecutionPlans[messageIndex]? = some message) {values : EncodeValues}
    {output : MutableByteBuffer} {encoded : EncodeCall}
    (encodes : encodeCompleteRecord plan encoder pipelineIndex messageIndex values output =
      some encoded)
    (ok : encoded.result.status = .ok) {input : ByteView}
    (bytes : input.bytes = encoded.output.take encoded.result.bytesWritten)
    {fieldSlots : FieldSlots} (ready : SlotsReady message.fields.length input fieldSlots) :
    ∃ decoded, decodeCompleteRecord plan decoder pipelineIndex input fieldSlots = some decoded ∧
      decoded.result.status = .ok ∧ decoded.result.tainted = false ∧
      decoded.result.messageIndex = messageIndex ∧
      decoded.result.fieldCount = message.fields.length ∧
      SlotsHold message values.values encoded.result.bytesWritten decoded.slots := by
  have valid := planValid_of_freeze frozen
  obtain ⟨call, run, result, written, -⟩ :=
    encodeCompleteRecord_replies valid encoderIdle pipelineIndex messageIndex values output
  obtain rfl := Option.some.inj (run.symm.trans encodes)
  rw [result] at ok bytes
  rw [written] at bytes
  obtain ⟨other, facts⟩ := encodeReply_ok valid version ok
  obtain rfl := Option.some.inj (listed.symm.trans facts.listed)
  obtain ⟨pipeline, compiled, allowed⟩ := facts.pipeline
  obtain ⟨rest, laid⟩ := facts.output
  have record : input.bytes = recordOf message (suppliedContents plan message values.values)
      (recordSize message values.values) := by
    rw [bytes, laid, facts.written, List.take_left' (recordOf_length ..)]
  obtain ⟨accepts, known⟩ :=
    recordRefusal_supplied facts.valid version facts.accepted record
  have reply := decodeReply_shape valid version compiled allowed listed
    (record ▸ facts.shape) ready
  rw [accepts] at reply
  obtain ⟨decoded, decodes, decodedResult, decodedSlots, -⟩ :=
    decodeCompleteRecord_replies valid decoderIdle pipelineIndex input fieldSlots
  rw [reply] at decodedResult decodedSlots
  refine ⟨decoded, decodes, ?_, ?_, ?_, ?_, ?_⟩
  · rw [decodedResult]
  · rw [decodedResult]
    exact known
  · rw [decodedResult]
  · rw [decodedResult]
  · rw [decodedSlots, result, facts.written]
    exact slotsHold_supplied facts.valid version facts.accepted record _

theorem decodeCompleteRecord_encoded_sample : ∃ encoded decoded message,
    samplePlan.messageExecutionPlans[0]? = some message ∧
      encodeCompleteRecord samplePlan (.fresh samplePlan) 0 0 sampleValues (sampleBuffer 0) =
        some encoded ∧
      encoded.result.status = .ok ∧
      decodeCompleteRecord samplePlan (.fresh samplePlan) 0 sampleInput sampleSlots =
        some decoded ∧
      decoded.result.status = .ok ∧
      SlotsHold message sampleValues.values encoded.result.bytesWritten decoded.slots := by
  have seen : (encodeCompleteRecord samplePlan (.fresh samplePlan) 0 0 sampleValues
      (sampleBuffer 0)).map (fun call => (call.result.status,
        call.output.take call.result.bytesWritten)) = some (.ok, sampleInput.bytes) := by
    decide +kernel
  obtain ⟨encoded, run, same⟩ := Option.map_eq_some_iff.mp seen
  obtain ⟨ok, bytes⟩ := Prod.mk.inj same
  obtain ⟨message, listed⟩ : ∃ message, samplePlan.messageExecutionPlans[0]? = some message :=
    Option.isSome_iff_exists.mp (by decide)
  have count : message.fields.length = 5 := by
    obtain rfl := Option.some.inj listed
    rfl
  have ready : SlotsReady message.fields.length sampleInput sampleSlots := by
    rw [count]
    exact ⟨by decide, by decide, _, _, rfl, rfl, rfl⟩
  have fresh := ExecutionWorkspace.fresh_idleFor samplePlan
  obtain ⟨decoded, decodes, decodedOk, -, -, -, holds⟩ :=
    decodeCompleteRecord_encoded sampleBudgeted_freezes rfl fresh fresh listed run ok bytes.symm
      ready
  exact ⟨encoded, decoded, message, listed, run, ok, decodes, decodedOk, holds⟩

end ProtocolAdapter.Codec
