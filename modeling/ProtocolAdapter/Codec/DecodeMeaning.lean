/-
This file shows that the decoder computes the meaning of a binary record. Whatever the
workspace holds before the call, the containers, decimals and raw integers are written
before they are read, so the outcome depends on the record alone; and no access leaves its
array.
-/

import ProtocolAdapter.Codec.FrozenPlan
import ProtocolAdapter.Codec.Meaning
import ProtocolAdapter.Foundation.Positions
import ProtocolAdapter.Foundation.Rules

namespace ProtocolAdapter.Codec

open Foundation Foundation.Operation Foundation.Bytes

/-! ### Loads -/

/-- The values of the containers of a record are loaded. -/
def ContainersLoaded (message : MessageExecutionPlan) (record : List UInt8)
    (values : List Nat) : Prop :=
  ∀ (index : Nat) container, message.bitContainers[index]? = some container →
    values[index]? = some (containerValue container record)

section

variable {plan : PlanBundle} {message : MessageExecutionPlan} {input : ByteView}

theorem loadContainer_eq (valid : BinaryValid plan.schemaVersion plan.conversions message)
    (fits : lengthMatches message input.size = true) {container : BitContainerExecutionPlan}
    (member : container ∈ message.bitContainers) :
    loadUnsigned input.bytes container.offset container.width container.byteOrder =
      some (some (containerValue container input.bytes)) := by
  have facts := valid.containers container member
  have limit := valid.storageLimit_le fits
  exact loadUnsigned_eq facts.positive facts.bounded facts.order (facts.inside.trans limit)

/-- An integer outside the containers lies in the record. -/
theorem BinaryValid.integer_inside (valid : BinaryValid plan.schemaVersion plan.conversions message)
    {size : Nat} (fits : lengthMatches message size = true) {index : Nat}
    {field : FieldExecutionPlan} (found : message.fields[index]? = some field)
    (plain : isMember field = false) (type : field.valueType ≠ .bytes) :
    field.offset + field.width ≤ size := by
  have inside := valid.plainInside index field found plain
  have limit := valid.storageLimit_le fits
  split at inside
  · exact absurd inside type
  · exact inside.trans limit

/-- A byte string lies in the record. -/
theorem BinaryValid.bytes_inside (valid : BinaryValid plan.schemaVersion plan.conversions message)
    {size : Nat} (fits : lengthMatches message size = true) {index : Nat}
    {field : FieldExecutionPlan} (found : message.fields[index]? = some field)
    (plain : isMember field = false) :
    field.offset + byteLength message index field size ≤ size := by
  have inside := valid.plainInside index field found plain
  have limit := valid.storageLimit_le fits
  unfold byteLength
  by_cases payload : isPayload message index = true
  · rw [if_pos payload]
    obtain ⟨bounded, has, same⟩ := (Option.any_eq_true _ _).mp payload
    obtain rfl : bounded.payloadFieldIndex = index := of_decide_eq_true same
    obtain ⟨other, listed, -, -, offset, -⟩ := (valid.payload bounded has).field
    obtain rfl := Option.some.inj (found.symm.trans listed)
    have whole := (valid.size_bounded fits has).1
    omega
  · rw [if_neg payload] at inside ⊢
    exact inside.trans limit

theorem byteCount_eq (valid : BinaryValid plan.schemaVersion plan.conversions message)
    (fits : lengthMatches message input.size = true) (index : Nat) (field : FieldExecutionPlan) :
    byteCount message input index field = some (byteLength message index field input.size) := by
  unfold byteCount byteLength isPayload
  split
  · exact valid.resolvePayloadLength_eq fits
  · rfl

/-- Bits of a loaded container, or the own bytes of a field, give its raw value. -/
theorem loadField_eq (valid : BinaryValid plan.schemaVersion plan.conversions message)
    (fits : lengthMatches message input.size = true) {index : Nat} {field : FieldExecutionPlan}
    (found : message.fields[index]? = some field) (type : field.valueType ≠ .bytes)
    {state : DecodeState}
    (loaded : ContainersLoaded message input.bytes state.workspace.bitContainerValues) :
    loadField input field state =
      .done (some (rawValue message field input.bytes)) state := by
  unfold loadField rawValue
  cases valid.fields field (List.mem_of_getElem? found) with
  | member container real listed memberValid =>
    have isMember : isMember field = true := decide_eq_true real
    rw [if_pos real, if_pos isMember, List.getD_eq_getElem?_getD, listed]
    simp only [current_bind, loaded _ _ listed, Option.getD_some]
    rfl
  | integer plain integerValid =>
    have notMember : isMember field = false := decide_eq_false (not_not.mpr plain)
    rw [if_neg (not_not.mpr plain), if_neg (by simp [notMember])]
    rw [loadUnsigned_eq integerValid.positive integerValid.bounded integerValid.order
      (valid.integer_inside fits found notMember type)]
    rfl
  | bytes plain bytesValid => exact absurd bytesValid.type type

/-! ### Converted fields -/

/-- The slot of a converted field: the number of converted fields before it. -/
def conversionSlotOf (message : MessageExecutionPlan) (index : Nat) : Nat :=
  (message.fields.take index).countP hasConversion

theorem conversionSlotOf_lt {index : Nat} {field : FieldExecutionPlan}
    (found : message.fields[index]? = some field) (converted : hasConversion field = true) :
    conversionSlotOf message index < message.fields.countP hasConversion :=
  countP_take_lt_countP found converted

/-- What a valid message says about a converted field. -/
structure ConvertedField (plan : PlanBundle) (message : MessageExecutionPlan) (index : Nat)
    (field : FieldExecutionPlan) : Prop where
  integer : IntegerValid field
  plain : isMember field = false
  notBytes : field.valueType ≠ .bytes
  slot : field.conversionSlot = conversionSlotOf message index
  schema : isConversionSchema plan.schemaVersion = true
  source : field.encodeSource = .input
  found : plan.conversions[field.conversionIndex]? = some (conversionOf plan.conversions field)
  valid : (conversionOf plan.conversions field).Valid
  rawType : IsRawType (conversionOf plan.conversions field).rawValueType
  type : (conversionOf plan.conversions field).rawValueType = field.valueType

theorem convertedField (valid : BinaryValid plan.schemaVersion plan.conversions message)
    {index : Nat} {field : FieldExecutionPlan} (found : message.fields[index]? = some field)
    (converted : hasConversion field = true) : ConvertedField plan message index field := by
  have member := List.mem_of_getElem? found
  obtain ⟨schema, plain, source, conversion, listed, conversionValid, rawType, type⟩ :=
    valid.converted field member converted
  have same : conversionOf plan.conversions field = conversion := by
    rw [conversionOf, List.getD_eq_getElem?_getD, listed, Option.getD_some]
  have notBytes : field.valueType ≠ .bytes := by
    rw [← type]
    rcases rawType with unsigned | signed
    · simp [unsigned]
    · simp [signed]
  have integer : IntegerValid field := by
    cases valid.fields field member with
    | member container real listed memberValid => exact absurd plain real
    | integer _ integerValid => exact integerValid
    | bytes _ bytesValid => exact absurd bytesValid.type notBytes
  exact ⟨integer, decide_eq_false (not_not.mpr plain), notBytes,
    valid.slots index field found converted, schema, source, same ▸ listed, same ▸ conversionValid,
    same ▸ rawType, same ▸ type⟩

theorem conversionPlanValid_eq (valid : BinaryValid plan.schemaVersion plan.conversions message)
    {index : Nat} {field : FieldExecutionPlan} (found : message.fields[index]? = some field)
    (bound : message.fields.length ≤ 65536) : conversionPlanValid plan field = true := by
  unfold conversionPlanValid
  cases converted : hasConversion field with
  | false => rfl
  | true =>
    have facts := convertedField valid found converted
    have plain : field.bitContainerIndex = invalidIndex := by
      have := facts.plain
      simpa [isMember] using this
    have small := conversionSlotOf_lt found converted
    have most : message.fields.countP hasConversion ≤ message.fields.length := List.countP_le_length
    have real : field.conversionSlot ≠ invalidIndex := by
      rw [facts.slot]
      unfold invalidIndex maxUint64
      omega
    simp [facts.schema, real, plain, facts.source, facts.found, facts.type]

/-- The raw value of an integer fits its width. -/
theorem rawValue_lt (valid : BinaryValid plan.schemaVersion plan.conversions message)
    {size : Nat} (fits : lengthMatches message size = true) {record : List UInt8}
    (length : record.length = size) {index : Nat} {field : FieldExecutionPlan}
    (found : message.fields[index]? = some field) (plain : isMember field = false)
    (type : field.valueType ≠ .bytes) :
    rawValue message field record < 2 ^ (8 * field.width) := by
  have inside := valid.integer_inside fits found plain type
  have small := loadValue_lt (slice record field.offset field.width) field.byteOrder
  rw [slice_length (length ▸ inside)] at small
  rw [rawValue, plain, if_neg (by simp), two_pow_eight_mul]
  exact small

/-! ### Checking the values -/

/-- What the decoder has kept of a converted field. -/
structure Kept (plan : PlanBundle) (message : MessageExecutionPlan) (record : List UInt8)
    (workspace : ExecutionWorkspace) (index : Nat) (field : FieldExecutionPlan) : Prop where
  decimal : ∃ decimal, decimalOf plan message field record = .ok decimal ∧
    workspace.decodeDecimalCoefficients[conversionSlotOf message index]? =
      some decimal.coefficient ∧
    workspace.decodeDecimalScales[conversionSlotOf message index]? = some decimal.scale
  bits : workspace.rawIntegerBits[conversionSlotOf message index]? =
    some (rawValue message field record)
  kind : workspace.rawIntegerKinds[conversionSlotOf message index]? = some field.valueType
  fieldIndex : workspace.rawIntegerFieldIndices[conversionSlotOf message index]? = some index

/-- What the loop that checks the values has established after some fields. -/
structure Checked (plan : PlanBundle) (message : MessageExecutionPlan) (record : List UInt8)
    (start : DecodeState) (passed : Nat) (progress : Precheck) (state : DecodeState) : Prop where
  accepted : ∀ (index : Nat) field, index < passed → message.fields[index]? = some field →
    fieldRefusal plan message record (field, index) = none
  converted : progress.converted = conversionSlotOf message passed
  tainted : progress.tainted = (message.fields.take passed).any (isUnknown message record)
  slots : state.slots = start.slots
  result : state.result = start.result
  shaped : state.workspace.ShapedFor plan
  rawCount : state.workspace.rawIntegerCount = start.workspace.rawIntegerCount
  rawMessage : state.workspace.rawIntegerMessageIndex = start.workspace.rawIntegerMessageIndex
  loaded : ContainersLoaded message record state.workspace.bitContainerValues
  kept : ∀ (index : Nat) field, index < passed → message.fields[index]? = some field →
    hasConversion field = true → Kept plan message record state.workspace index field

/-- A record that is refused leaves the slots as they are. -/
structure Refused (plan : PlanBundle) (message : MessageExecutionPlan) (record : List UInt8)
    (start state : DecodeState) : Prop where
  refusal : ∃ refusal, recordRefusal plan message record = some refusal ∧
    state.result = refusal.report start.result
  slots : state.slots = start.slots
  shaped : state.workspace.ShapedFor plan
  rawCount : state.workspace.rawIntegerCount = start.workspace.rawIntegerCount
  rawMessage : state.workspace.rawIntegerMessageIndex = start.workspace.rawIntegerMessageIndex

/-- Slots of earlier converted fields come before those of later ones. -/
theorem conversionSlotOf_mono {earlier index : Nat} {field : FieldExecutionPlan}
    (before : earlier < index) (found : message.fields[earlier]? = some field)
    (converted : hasConversion field = true) :
    conversionSlotOf message earlier < conversionSlotOf message index :=
  countP_take_lt before found converted

/-- The workspace after a converted field has been kept. -/
def ExecutionWorkspace.keep (workspace : ExecutionWorkspace) (slot fieldIndex raw : Nat)
    (type : ValueType) (decimal : Decimal64) : ExecutionWorkspace :=
  { workspace with
    decodeDecimalCoefficients := workspace.decodeDecimalCoefficients.set slot decimal.coefficient
    decodeDecimalScales := workspace.decodeDecimalScales.set slot decimal.scale
    rawIntegerBits := workspace.rawIntegerBits.set slot raw
    rawIntegerKinds := workspace.rawIntegerKinds.set slot type
    rawIntegerFieldIndices := workspace.rawIntegerFieldIndices.set slot fieldIndex }

theorem ExecutionWorkspace.ShapedFor.keep {workspace : ExecutionWorkspace}
    (shaped : workspace.ShapedFor plan) (slot fieldIndex raw : Nat) (type : ValueType)
    (decimal : Decimal64) : (workspace.keep slot fieldIndex raw type decimal).ShapedFor plan :=
  { shaped with
    decodeDecimalCoefficients := (List.length_set ..).trans shaped.decodeDecimalCoefficients
    decodeDecimalScales := (List.length_set ..).trans shaped.decodeDecimalScales
    rawIntegerBits := (List.length_set ..).trans shaped.rawIntegerBits
    rawIntegerKinds := (List.length_set ..).trans shaped.rawIntegerKinds
    rawIntegerFieldIndices := (List.length_set ..).trans shaped.rawIntegerFieldIndices }

/-- Keeping a field does not disturb what has been kept of earlier ones. -/
theorem Kept.keep {record : List UInt8} {workspace : ExecutionWorkspace} {earlier : Nat}
    {other : FieldExecutionPlan} (kept : Kept plan message record workspace earlier other)
    {slot fieldIndex raw : Nat} {type : ValueType} {decimal : Decimal64}
    (apart : slot ≠ conversionSlotOf message earlier) :
    Kept plan message record (workspace.keep slot fieldIndex raw type decimal) earlier other := by
  obtain ⟨⟨value, decoded, coefficient, scale⟩, bits, kind, index⟩ := kept
  refine ⟨⟨value, decoded, ?_, ?_⟩, ?_, ?_, ?_⟩ <;>
    exact (List.getElem?_set_ne apart).trans (by assumption)

/-- The conversion of a field is kept, or its failure refuses the record. -/
theorem precheckConversion_eq (valid : BinaryValid plan.schemaVersion plan.conversions message)
    (covers : LayoutCovers plan.executionResourceLayout message)
    (fits : lengthMatches message input.size = true) {index : Nat} {field : FieldExecutionPlan}
    (found : message.fields[index]? = some field) (converted : hasConversion field = true)
    {state : DecodeState} (shaped : state.workspace.ShapedFor plan) :
    precheckConversion plan input (conversionSlotOf message index) index field state =
      match decimalOf plan message field input.bytes with
      | .error status =>
        let failed := state.failField (toCodecStatus status) index
        .returned { failed with
          result := { failed.result with conversionError := toConversionError status } }
      | .ok decimal => .done () { state with
          workspace := state.workspace.keep (conversionSlotOf message index) index
            (rawValue message field input.bytes) field.valueType decimal } := by
  have facts := convertedField valid found converted
  have small := (conversionSlotOf_lt found converted).trans_le covers.conversions
  have inside := valid.integer_inside fits found facts.plain facts.notBytes
  have loaded : loadUnsigned input.bytes field.offset field.width field.byteOrder =
      some (some (rawValue message field input.bytes)) := by
    rw [loadUnsigned_eq facts.integer.positive facts.integer.bounded facts.integer.order inside,
      rawValue, facts.plain]
    rfl
  unfold precheckConversion
  rw [current_bind, leaveIf_bind_neg, access_bind loaded]
  swap
  · rw [facts.slot, shaped.decodeDecimalCoefficients, shaped.rawIntegerBits]
    omega
  simp only
  rw [access_bind facts.found]
  unfold decimalOf
  cases run : decodeDecimal (conversionOf plan.conversions field)
      (rawValue message field input.bytes) field.width with
  | error status => rfl
  | ok decimal =>
    simp only [facts.slot]
    rw [access_bind (setElement_set _ shaped.decodeDecimalCoefficients small).1,
      access_bind (setElement_set _ shaped.decodeDecimalScales small).1,
      access_bind (setElement_set _ shaped.rawIntegerBits small).1,
      access_bind (setElement_set _ shaped.rawIntegerKinds small).1,
      access_bind (setElement_set _ shaped.rawIntegerFieldIndices small).1]
    rfl

/-- The entry of an enumeration field is looked up, or its lack refuses the record. -/
theorem precheckEnum_eq (valid : BinaryValid plan.schemaVersion plan.conversions message)
    (fits : lengthMatches message input.size = true) {index : Nat} {field : FieldExecutionPlan}
    (found : message.fields[index]? = some field) (type : field.valueType = .enum)
    {state : DecodeState}
    (loaded : ContainersLoaded message input.bytes state.workspace.bitContainerValues) :
    precheckEnum message input index field state =
      if (enumEntry message field (rawValue message field input.bytes) = none ∧
          field.unknownEnumPolicy = .reject) then
        .returned (state.failField .unknownEnumValue index)
      else
        .done (enumEntry message field (rawValue message field input.bytes)).isNone state := by
  obtain ⟨entries, enumValid⟩ := valid.enums field (List.mem_of_getElem? found) type
  unfold precheckEnum
  rw [bind_of_done (loadField_eq valid fits found (by simp [type]) loaded)]
  simp only
  rw [access_bind (findEnumEntry_eq enumValid _)]
  split
  · rename_i refused
    rw [leaveIf_bind_pos refused]
  · rename_i accepted
    rw [leaveIf_bind_neg accepted]
    rfl

theorem toConversionError_ne {conversion : LinearConversionDescriptor} {raw width : Nat}
    {status : DecimalArithmeticStatus} (valid : conversion.Valid)
    (rawType : IsRawType conversion.rawValueType) (positive : 0 < width) (bounded : width ≤ 8)
    (small : raw < 2 ^ (8 * width)) (run : decodeDecimal conversion raw width = .error status) :
    status = .logicalOutOfRange := by
  rw [decodeDecimal_eq valid rawType positive bounded small] at run
  split at run
  · cases run
  · exact (Except.error.inj run).symm

/-- One round of the loop that checks the values. -/
theorem precheckField_ends (valid : BinaryValid plan.schemaVersion plan.conversions message)
    (covers : LayoutCovers plan.executionResourceLayout message)
    (count : message.fields.length ≤ 65536) (fits : lengthMatches message input.size = true)
    (states : statesLength message input.bytes input.bytes.length = true)
    (carries : carriesChecksum message input.bytes input.bytes.length = true)
    {start state : DecodeState} {index : Nat} {field : FieldExecutionPlan} {progress : Precheck}
    (found : message.fields[index]? = some field)
    (checked : Checked plan message input.bytes start index progress state) :
    Ends (Checked plan message input.bytes start (index + 1))
      (Refused plan message input.bytes start)
      (precheckField plan message input progress (field, index) state) := by
  have refuses : ∀ refusal, fieldRefusal plan message input.bytes (field, index) = some refusal →
      recordRefusal plan message input.bytes = some refusal := by
    intro refusal refused
    rw [recordRefusal, if_neg (by simp [states]), if_neg (by simp [carries])]
    exact findSome_zipIdx found refused fun earlier other before listed =>
      checked.accepted earlier other before listed
  have accepts : fieldRefusal plan message input.bytes (field, index) = none →
      ∀ (earlier : Nat) other, earlier < index + 1 → message.fields[earlier]? = some other →
        fieldRefusal plan message input.bytes (other, earlier) = none := by
    intro accepted earlier other before listed
    rcases Nat.lt_succ_iff_lt_or_eq.mp before with before | rfl
    · exact checked.accepted earlier other before listed
    · exact Option.some.inj (found.symm.trans listed) ▸ accepted
  have counted := countP_take_succ hasConversion found
  have tainted : (message.fields.take (index + 1)).any (isUnknown message input.bytes) =
      (progress.tainted || isUnknown message input.bytes field) := by
    rw [List.take_add_one, found, Option.toList_some, List.any_append, List.any_cons, List.any_nil,
      Bool.or_false, checked.tainted]
  unfold precheckField
  simp only
  rw [leaveIf_bind_neg (by simp [conversionPlanValid_eq valid found count])]
  cases converted : hasConversion field with
  | true =>
    have facts := convertedField valid found converted
    have known : isUnknown message input.bytes field = false := by simp [isUnknown, converted]
    have run := precheckConversion_eq valid covers fits found converted checked.shaped
    rw [if_pos ⟨facts.schema, rfl⟩, checked.converted]
    cases decoded : decimalOf plan message field input.bytes with
    | error status =>
      rw [decoded] at run
      rw [bind_of_returned run]
      have out : status = .logicalOutOfRange := toConversionError_ne facts.valid facts.rawType
        facts.integer.positive facts.integer.bounded
        (rawValue_lt valid fits rfl found facts.plain facts.notBytes) decoded
      refine .returned ⟨⟨_, refuses _ (by rw [fieldRefusal, if_pos converted, decoded]), ?_⟩,
        checked.slots, checked.shaped, checked.rawCount, checked.rawMessage⟩
      rw [← checked.result, out]
      rfl
    | ok decimal =>
      rw [decoded] at run
      rw [bind_of_done run]
      have small := conversionSlotOf_lt found converted
      have room := small.trans_le covers.conversions
      have shaped := checked.shaped
      refine .done ⟨accepts (by rw [fieldRefusal, if_pos converted, decoded]), ?_, ?_,
        checked.slots, checked.result, shaped.keep _ _ _ _ _, checked.rawCount, checked.rawMessage,
        checked.loaded, fun earlier other before listed kept => ?_⟩
      · show _ = (message.fields.take (index + 1)).countP hasConversion
        rw [counted, converted]
        rfl
      · rw [tainted, known, Bool.or_false]
      rcases Nat.lt_succ_iff_lt_or_eq.mp before with before | rfl
      · exact (checked.kept earlier other before listed kept).keep
          (conversionSlotOf_mono before listed kept).ne'
      · obtain rfl := Option.some.inj (found.symm.trans listed)
        refine ⟨⟨decimal, decoded, ?_, ?_⟩, ?_, ?_, ?_⟩
        · exact List.getElem?_set_self (room.trans_eq shaped.decodeDecimalCoefficients.symm)
        · exact List.getElem?_set_self (room.trans_eq shaped.decodeDecimalScales.symm)
        · exact List.getElem?_set_self (room.trans_eq shaped.rawIntegerBits.symm)
        · exact List.getElem?_set_self (room.trans_eq shaped.rawIntegerKinds.symm)
        · exact List.getElem?_set_self (room.trans_eq shaped.rawIntegerFieldIndices.symm)
  | false =>
    have slot : progress.converted = conversionSlotOf message (index + 1) := by
      rw [checked.converted, conversionSlotOf, conversionSlotOf, counted, converted]
      rfl
    have keptBefore : ∀ (earlier : Nat) other, earlier < index + 1 →
        message.fields[earlier]? = some other → hasConversion other = true →
          Kept plan message input.bytes state.workspace earlier other := by
      intro earlier other before listed kept
      rcases Nat.lt_succ_iff_lt_or_eq.mp before with before | rfl
      · exact checked.kept earlier other before listed kept
      · rw [← Option.some.inj (found.symm.trans listed), converted] at kept
        cases kept
    rw [if_neg (by simp)]
    by_cases type : field.valueType = .enum
    · rw [if_neg (not_not.mpr type)]
      have run := precheckEnum_eq valid fits found type checked.loaded
      have unknown : isUnknown message input.bytes field =
          (enumEntry message field (rawValue message field input.bytes)).isNone := by
        simp [isUnknown, converted, type]
      split at run
      · rename_i refused
        rw [bind_of_returned run]
        have rejected : isUnknown message input.bytes field ∧
            field.unknownEnumPolicy = .reject := by
          rw [unknown, refused.1]
          exact ⟨rfl, refused.2⟩
        refine .returned ⟨⟨_, refuses _ (by
          rw [fieldRefusal, if_neg (by simp [converted]), if_pos rejected]), ?_⟩,
          checked.slots, checked.shaped, checked.rawCount, checked.rawMessage⟩
        rw [← checked.result]
        rfl
      · rename_i accepted
        rw [bind_of_done run]
        have passes : fieldRefusal plan message input.bytes (field, index) = none := by
          rw [fieldRefusal, if_neg (by simp [converted]), if_neg]
          rw [unknown, Option.isNone_iff_eq_none]
          exact accepted
        refine .done ⟨accepts passes, slot, ?_, checked.slots, checked.result, checked.shaped,
          checked.rawCount, checked.rawMessage, checked.loaded, keptBefore⟩
        rw [tainted, unknown]
    · rw [if_pos type]
      have known : isUnknown message input.bytes field = false := by
        simp [isUnknown, type]
      have passes : fieldRefusal plan message input.bytes (field, index) = none := by
        simp [fieldRefusal, converted, known]
      refine .done ⟨accepts passes, slot, ?_, checked.slots, checked.result, checked.shaped,
        checked.rawCount, checked.rawMessage, checked.loaded, keptBefore⟩
      rw [tainted, known, Bool.or_false]

end

end ProtocolAdapter.Codec
