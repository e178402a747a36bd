/-
This file shows that decoding loses nothing of a record that keeps the constants and the base
bits of its message: when the decoded inputs are encoded again, the same bytes come out.
-/

import ProtocolAdapter.Codec.RoundTrip

namespace ProtocolAdapter.Codec

open Foundation Foundation.Operation Foundation.Bytes

/-! ### Decoded inputs -/

/-- The value to encode that a decoded field holds. An enumeration value is named by its
entry. -/
def DecodedFieldSlot.toValue (slot : DecodedFieldSlot) : EncodeFieldValue where
  field := slot.field
  valueKind := slot.valueKind
  uint64Value := slot.uint64Value
  int64Value := slot.int64Value
  boolValue := slot.boolValue
  bytesValue := slot.bytesValue
  enumValue := slot.enumValue.reference
  decimal64Value := slot.decimal64Value

/-- The decoded input fields of a message, as values to encode. -/
def decodedInputs (message : MessageExecutionPlan) (slots : List DecodedFieldSlot) :
    List EncodeFieldValue :=
  ((message.fields.zip slots).filter (·.1.encodeSource = .input)).map (·.2.toValue)

/-- A record whose constant fields hold their constants. -/
def HoldsConstants (message : MessageExecutionPlan) (slots : List DecodedFieldSlot) : Prop :=
  ∀ (index : Nat) field, message.fields[index]? = some field → field.encodeSource = .constant →
    ∃ slot, slots[index]? = some slot ∧ SlotHoldsConstant field slot

/-- A record whose bit containers have the base value at every bit that no member owns. -/
def HoldsBaseBits (message : MessageExecutionPlan) (record : List UInt8) : Prop :=
  ∀ (index : Nat) container, message.bitContainers[index]? = some container →
    ∀ position < 8 * container.width, (∀ field ∈ message.fields,
      field.bitContainerIndex = index → field.bitMask.testBit position = false) →
        (containerValue container record).testBit position =
          container.baseValue.testBit position

instance (field : FieldExecutionPlan) (slot : DecodedFieldSlot) :
    Decidable (SlotHoldsConstant field slot) :=
  inferInstanceAs (Decidable (if field.valueType = .int64 then
    slot.valueKind = .int64 ∧ slot.int64Value = Int64.ofInt field.signedConstantValue
  else slot.valueKind = .uint64 ∧ slot.uint64Value = UInt64.ofNat field.constantValue))

instance (message : MessageExecutionPlan) (slots : List DecodedFieldSlot) :
    Decidable (HoldsConstants message slots) :=
  decidable_of_iff (∀ item ∈ message.fields.zipIdx, item.1.encodeSource = .constant →
    slots[item.2]?.any (SlotHoldsConstant item.1 ·) = true) <| by
    simp only [HoldsConstants, Prod.forall, List.mem_zipIdx_iff_getElem?, Option.any_eq_true,
      decide_eq_true_eq]
    exact forall_comm

instance (message : MessageExecutionPlan) (record : List UInt8) :
    Decidable (HoldsBaseBits message record) :=
  decidable_of_iff (∀ item ∈ message.bitContainers.zipIdx, ∀ position < 8 * item.1.width,
    (∀ field ∈ message.fields, field.bitContainerIndex = item.2 →
      field.bitMask.testBit position = false) →
        (containerValue item.1 record).testBit position =
          item.1.baseValue.testBit position) <| by
    simp only [HoldsBaseBits, Prod.forall, List.mem_zipIdx_iff_getElem?]
    exact forall_comm

/-- What a successful decode of a binary package has established. -/
structure DecodedRecord (plan : PlanBundle) (pipelineIndex messageIndex : Nat)
    (message : MessageExecutionPlan) (record : List UInt8) : Prop where
  pipeline : ∃ pipeline, plan.pipelineExecutionPlans[pipelineIndex]? = some pipeline ∧
    messageIsAllowed pipeline messageIndex = some true
  version : isTextSchema plan.schemaVersion = false
  listed : plan.messageExecutionPlans[messageIndex]? = some message
  valid : BinaryValid plan.schemaVersion plan.conversions message
  shape : hasShape message record = true
  accepts : recordRefusal plan message record = none
  known : ∀ field ∈ message.fields, isUnknown message record field = false

section

variable {plan : PlanBundle} {pipelineIndex messageIndex : Nat} {message : MessageExecutionPlan}
  {input : ByteView}

theorem decodeReply_ok (valid : PlanValid plan) (version : isTextSchema plan.schemaVersion = false)
    {fieldSlots : FieldSlots}
    (ok : (decodeReply plan pipelineIndex input fieldSlots).result.status = .ok)
    (clean : (decodeReply plan pipelineIndex input fieldSlots).result.tainted = false) :
    ∃ message, DecodedRecord plan pipelineIndex
        (decodeReply plan pipelineIndex input fieldSlots).result.messageIndex message input.bytes ∧
      ∃ rest, (decodeReply plan pipelineIndex input fieldSlots).slots = decodedSlots plan
        (decodeReply plan pipelineIndex input fieldSlots).result.messageIndex message input ++
          rest := by
  unfold decodeReply at ok clean ⊢
  split at ok
  · cases ok
  rename_i present
  rw [if_neg present] at clean ⊢
  split at ok
  · cases ok
  rename_i pipeline compiled
  rw [compiled] at clean
  simp only at clean
  rw [if_neg (by simp [version])] at ok clean ⊢
  obtain ⟨indices, indexed⟩ := valid.pipelines pipelineIndex pipeline compiled
  obtain ⟨found, run, perm⟩ := findPipelineMatch_eq valid indexed input.bytes
  unfold pipelineReply at ok clean ⊢
  rw [run] at ok clean ⊢
  simp only [matchReply] at ok clean ⊢
  split at ok
  · cases ok
  rename_i nonempty
  rw [if_neg nonempty] at clean ⊢
  split at ok
  · cases ok
  rename_i single
  rw [if_neg single] at clean ⊢
  obtain ⟨index, rfl⟩ := List.length_eq_one_iff.mp (not_not.mp single)
  obtain ⟨inside, message, listed, holds⟩ :=
    mem_having.mp (perm.mem_iff.mp (List.mem_cons_self : index ∈ [index]))
  have named : (outcomeOf [index]).messageIndex = index := rfl
  rw [named] at ok clean ⊢
  simp only [listed] at ok clean ⊢
  have binary : BinaryValid plan.schemaVersion plan.conversions message := by
    cases valid.messages message (List.mem_of_getElem? listed) with
    | text text => exact absurd (text.schema.symm.trans version) (by simp)
    | binary binary => exact binary
  have shape : hasShape message input.bytes = true := by
    rw [Bool.and_eq_true] at holds
    have rule := holds.2
    rwa [matchesRecord, binary.noDecode, if_neg (by simp)] at rule
  have allowed : messageIsAllowed pipeline index = some true := by
    rw [indexed.allowed index (List.getElem?_eq_some_iff.mp listed).1]
    simpa using inside
  unfold messageReply at ok clean ⊢
  cases output : outputRefusal (decodedCount message) input fieldSlots with
  | some status =>
    simp only [output] at ok
    exact absurd ok (outputRefusal_ne_ok output)
  | none =>
    cases refused : messageRefusal plan message input.bytes with
    | some refusal =>
      simp only [output, refused] at ok
      exact absurd ok (messageRefusal_ne_ok refused)
    | none =>
      simp only [output, refused] at clean ⊢
      unfold messageRefusal at refused
      unfold messageTainted at clean
      unfold messageSlots
      simp only [binary.noDecode] at refused clean ⊢
      rw [List.any_eq_false] at clean
      exact ⟨message, ⟨⟨pipeline, compiled, allowed⟩, version, listed, binary, shape, refused,
        fun field member => by simpa using clean field member⟩, _, rfl⟩

/-! ### The values -/

/-- The decoded input fields, in the order of the fields. -/
def inputValues (plan : PlanBundle) (messageIndex : Nat) (message : MessageExecutionPlan)
    (input : ByteView) : List EncodeFieldValue :=
  (message.fields.zipIdx.filter (isInput ·.1)).map fun item =>
    (decodedSlot plan messageIndex message input item.2 item.1).toValue

theorem decodedInputs_eq (rest : List DecodedFieldSlot) :
    decodedInputs message (decodedSlots plan messageIndex message input ++ rest) =
      inputValues plan messageIndex message input := by
  have zipped : message.fields.zip (decodedSlots plan messageIndex message input ++ rest) =
      message.fields.zipIdx.map fun item =>
        (item.1, decodedSlot plan messageIndex message input item.2 item.1) := by
    refine List.ext_getElem? fun index => ?_
    rw [List.zip, List.getElem?_zipWith, List.getElem?_map, List.getElem?_zipIdx, Nat.zero_add]
    cases found : message.fields[index]? with
    | none => rfl
    | some field =>
      have within := (List.getElem?_eq_some_iff.mp found).1
      rw [List.getElem?_append_left (by rwa [decodedSlots, List.length_mapIdx]), decodedSlots,
        List.getElem?_mapIdx, found]
      rfl
  rw [decodedInputs, inputValues, zipped, List.filter_map, List.map_map]
  rfl

@[simp] theorem decodedSlot_field (index : Nat) (field : FieldExecutionPlan) :
    (decodedSlot plan messageIndex message input index field).field =
      ⟨some plan.address, messageIndex, index⟩ := by
  unfold decodedSlot
  cases hasConversion field with
  | true =>
    simp only [if_true]
    cases decimalOf plan message field input.bytes <;> rfl
  | false => cases type : field.valueType <;> rfl

theorem mem_inputValues {value : EncodeFieldValue} :
    value ∈ inputValues plan messageIndex message input ↔
      ∃ (index : Nat) (field : FieldExecutionPlan), message.fields[index]? = some field ∧
        field.encodeSource = .input ∧
        (decodedSlot plan messageIndex message input index field).toValue = value := by
  simp only [inputValues, List.mem_map, List.mem_filter, Prod.exists,
    List.mem_zipIdx_iff_getElem?, isInput, beq_iff_eq, and_assoc]
  exact exists_comm

/-- No two of the values are for one field. -/
theorem inputValues_distinct :
    ((inputValues plan messageIndex message input).map (·.field.fieldIndex)).Nodup := by
  have indices : (inputValues plan messageIndex message input).map (·.field.fieldIndex) =
      (message.fields.zipIdx.filter (isInput ·.1)).map Prod.snd := by
    rw [inputValues, List.map_map]
    refine List.map_congr_left fun item _ => ?_
    simp [DecodedFieldSlot.toValue]
  rw [indices]
  refine List.Nodup.sublist (List.filter_sublist.map Prod.snd) ?_
  rw [List.zipIdx_map_snd]
  exact List.nodup_range'

/-- The value for an input field is what was decoded for it. -/
theorem valueFor_inputValues {index : Nat} {field : FieldExecutionPlan}
    (found : message.fields[index]? = some field) (source : field.encodeSource = .input) :
    (inputValues plan messageIndex message input).any (isFor index) = true ∧
      valueFor (inputValues plan messageIndex message input) index =
        (decodedSlot plan messageIndex message input index field).toValue := by
  have member := mem_inputValues.mpr ⟨index, field, found, source,
    (rfl : (decodedSlot plan messageIndex message input index field).toValue = _)⟩
  have this : (decodedSlot plan messageIndex message input index field).toValue.field.fieldIndex =
      index := by simp [DecodedFieldSlot.toValue]
  have supplied : (inputValues plan messageIndex message input).any (isFor index) = true :=
    List.any_eq_true.mpr ⟨_, member, decide_eq_true this⟩
  obtain ⟨position, listed, same⟩ := valueFor_mem supplied
  exact ⟨supplied, List.inj_on_of_nodup_map inputValues_distinct (List.mem_of_getElem? listed)
    member ((of_decide_eq_true same).trans this.symm)⟩

/-- No earlier value is for the field of a value. -/
theorem inputValues_first {position : Nat} {value : EncodeFieldValue}
    (listed : (inputValues plan messageIndex message input)[position]? = some value) :
    ((inputValues plan messageIndex message input).take position).any
      (isFor value.field.fieldIndex) = false := by
  rw [List.any_eq_false]
  intro earlier member same
  obtain ⟨inside, rfl⟩ := List.getElem?_eq_some_iff.mp listed
  obtain ⟨index, before, rfl⟩ := List.mem_take_iff_getElem.mp member
  have distinct := List.nodup_iff_getElem?_ne_getElem?.mp
    (@inputValues_distinct plan messageIndex message input) index position (by omega)
    (by rwa [List.length_map])
  rw [List.getElem?_map, List.getElem?_map, List.getElem?_eq_getElem inside,
    List.getElem?_eq_getElem (by omega)] at distinct
  exact distinct (congrArg some (of_decide_eq_true same))

/-! ### What was decoded is accepted -/

theorem toNat_ofNat_of_bits {raw bits : Nat} (small : raw < 2 ^ bits) (bounded : bits ≤ 64) :
    (UInt64.ofNat raw).toNat = raw :=
  UInt64.toNat_ofNat_of_lt' (small.trans_le (Nat.pow_le_pow_right Nat.two_pos bounded))

/-- The raw value of a field has no more bits than the field. -/
theorem DecodedRecord.rawValue_lt
    (record : DecodedRecord plan pipelineIndex messageIndex message input.bytes) {index : Nat}
    {field : FieldExecutionPlan} (found : message.fields[index]? = some field)
    (type : field.valueType ≠ .bytes) :
    rawValue message field input.bytes < 2 ^ rawBitCount field := by
  have fits : lengthMatches message input.bytes.length = true :=
    (Bool.and_eq_true _ _ ▸ record.shape).1
  cases member : isMember field with
  | false =>
    rw [rawBitCount, member, if_neg (by simp)]
    exact Codec.rawValue_lt record.valid fits rfl found member type
  | true =>
    rw [rawBitCount, rawValue, member, if_pos rfl, if_pos rfl]
    cases record.valid.fields field (List.mem_of_getElem? found) with
    | member container _ _ memberValid => exact memberValid.extract_lt _
    | integer plain _ => exact absurd plain (of_decide_eq_true member)
    | bytes plain _ => exact absurd plain (of_decide_eq_true member)

/-- A converted field holds a decimal that encodes to its raw value. -/
theorem DecodedRecord.decimal
    (record : DecodedRecord plan pipelineIndex messageIndex message input.bytes) {index : Nat}
    {field : FieldExecutionPlan} (found : message.fields[index]? = some field)
    (has : hasConversion field = true) :
    (decodedSlot plan messageIndex message input index field).valueKind = .decimal64 ∧
      encodeDecimal (conversionOf plan.conversions field)
        (decodedSlot plan messageIndex message input index field).decimal64Value field.width =
          .ok (rawValue message field input.bytes) := by
  have facts := convertedField record.valid found has
  have small := record.rawValue_lt found facts.notBytes
  rw [rawBitCount, facts.plain, if_neg (by simp)] at small
  have accepts := record.accepts
  unfold recordRefusal at accepts
  split at accepts
  · cases accepts
  split at accepts
  · cases accepts
  have passes := List.findSome?_eq_none_iff.mp accepts (field, index)
    (List.mem_zipIdx_iff_getElem?.mpr found)
  unfold fieldRefusal at passes
  simp only [has, if_true] at passes
  split at passes
  swap
  · cases passes
  rename_i decoded decodes
  unfold decodedSlot
  simp only [has, if_true, decodes]
  exact ⟨trivial, encodeDecimal_of_decodeDecimal facts.valid facts.integer.positive
    facts.integer.bounded facts.rawType small decodes⟩

/-- An enumeration field holds the entry of its raw value. -/
theorem DecodedRecord.entry
    (record : DecodedRecord plan pipelineIndex messageIndex message input.bytes) {index : Nat}
    {field : FieldExecutionPlan} (found : message.fields[index]? = some field)
    (has : hasConversion field = false) (type : field.valueType = .enum) :
    ∃ entryIndex, enumEntry message field (rawValue message field input.bytes) = some entryIndex ∧
      entryIndex < field.enumValuesCount ∧
      (entryValues message field).getD entryIndex 0 = rawValue message field input.bytes := by
  have inMessage := List.mem_of_getElem? found
  have known := record.known field inMessage
  simp only [isUnknown, has, Bool.not_false, type, beq_self_eq_true, Bool.and_self,
    Bool.true_and, Option.isNone_eq_false_iff] at known
  obtain ⟨entryIndex, entry⟩ := Option.isSome_iff_exists.mp known
  obtain ⟨entries, enumValid⟩ := record.valid.enums field inMessage type
  obtain ⟨inside, same, -⟩ := List.findIdx?_eq_some_iff_getElem.mp entry
  refine ⟨entryIndex, entry, ?_, ?_⟩
  · rw [enumValid.entryValues_eq, List.length_map] at inside
    rwa [enumValid.valuesCount]
  · rw [List.getD_eq_getElem _ _ inside]
    exact of_decide_eq_true same

/-- The signed value of an integer field. -/
theorem DecodedRecord.signed
    (record : DecodedRecord plan pipelineIndex messageIndex message input.bytes) {index : Nat}
    {field : FieldExecutionPlan} (found : message.fields[index]? = some field)
    (type : field.valueType = .int64) :
    ∃ value : Int, interpretSigned (rawValue message field input.bytes) field.width = some value ∧
      (Int64.ofInt value).toInt = value ∧
      signedBits value field.width = rawValue message field input.bytes ∧
      fitsSignedWidth value field.width = true := by
  have small := record.rawValue_lt found (by simp [type])
  cases record.valid.fields field (List.mem_of_getElem? found) with
  | member _ _ _ memberValid =>
    rcases memberValid.type with other | other | other <;> rw [type] at other <;> cases other
  | bytes _ bytesValid =>
    have other := bytesValid.type
    rw [type] at other
    cases other
  | integer plain integerValid =>
    rw [rawBitCount, isMember, decide_eq_false (not_not.mpr plain), if_neg (by simp)] at small
    have interpreted := interpretSigned_eq integerValid.positive integerValid.bounded small
    obtain ⟨bits, fits⟩ := signedBits_of_interpretSigned integerValid.positive
      integerValid.bounded small interpreted
    refine ⟨_, interpreted, ?_, bits, fits⟩
    obtain ⟨-, bounded, lower, upper⟩ := fitsSignedWidth_iff.mp fits
    have exponent : 8 * field.width - 1 ≤ 63 := by omega
    have wide : (2 : Int) ^ (8 * field.width - 1) ≤ 2 ^ 63 :=
      pow_le_pow_right₀ (by decide) exponent
    exact Int64.toInt_ofInt_of_le (by omega) (by omega)

/-- The encoder gives an input field the raw value it was decoded from. -/
theorem DecodedRecord.suppliedRaw_input
    (record : DecodedRecord plan pipelineIndex messageIndex message input.bytes) {index : Nat}
    {field : FieldExecutionPlan} (found : message.fields[index]? = some field)
    (source : field.encodeSource = .input) (notBytes : field.valueType ≠ .bytes) :
    suppliedRaw plan message (inputValues plan messageIndex message input) index =
      rawValue message field input.bytes := by
  have value := (@valueFor_inputValues plan messageIndex message input index field found source).2
  have small := record.rawValue_lt found notBytes
  unfold suppliedRaw
  simp only [suppliedRaw_eq found, value, DecodedFieldSlot.toValue]
  cases has : hasConversion field with
  | true =>
    obtain ⟨-, encodes⟩ := record.decimal found has
    simp only [if_true, encodes]
  | false =>
    simp only [Bool.false_eq_true, if_false, source, reduceCtorEq]
    unfold decodedSlot
    simp only [has, Bool.false_eq_true, if_false]
    cases type : field.valueType with
    | bytes => exact absurd type notBytes
    | uint64 =>
      have bounded : rawBitCount field ≤ 64 := by
        cases record.valid.fields field (List.mem_of_getElem? found) with
        | member container real there memberValid =>
          have bounded := (record.valid.containers container (List.mem_of_getElem? there)).bounded
          have inside := memberValid.inside
          rw [rawBitCount, isMember, decide_eq_true real, if_pos rfl]
          omega
        | integer plain integerValid =>
          have bounded := integerValid.bounded
          rw [rawBitCount, isMember, decide_eq_false (not_not.mpr plain), if_neg (by simp)]
          omega
        | bytes _ bytesValid => exact absurd bytesValid.type notBytes
      exact toNat_ofNat_of_bits small bounded
    | int64 =>
      obtain ⟨signed, interpreted, cast, bits, -⟩ := record.signed found type
      simp only [interpreted, Option.getD_some, cast, bits]
    | bool =>
      cases record.valid.fields field (List.mem_of_getElem? found) with
      | member container real _ memberValid =>
        rw [rawBitCount, isMember, decide_eq_true real, if_pos rfl, memberValid.bool type] at small
        by_cases zero : rawValue message field input.bytes = 0
        · simp [zero]
        · simp only [ne_eq, zero, not_false_eq_true, decide_true, if_true]
          omega
      | integer _ integerValid =>
        rcases integerValid.type with other | other | ⟨other, -⟩ <;> rw [type] at other <;>
          cases other
      | bytes _ bytesValid => exact absurd bytesValid.type notBytes
    | enum =>
      obtain ⟨entryIndex, entry, -, same⟩ := record.entry found has type
      simp only [entry, entryReference]
      exact same

/-- A byte string has a length its field takes. -/
theorem DecodedRecord.bytes_length
    (record : DecodedRecord plan pipelineIndex messageIndex message input.bytes) {index : Nat}
    {field : FieldExecutionPlan} (found : message.fields[index]? = some field)
    (type : field.valueType = .bytes) :
    (slice input.bytes field.offset (byteLength message index field input.size)).length =
        byteLength message index field input.size ∧
      bytesLengthInvalid message index field (byteLength message index field input.size) =
        false := by
  have fits : lengthMatches message input.size = true :=
    (Bool.and_eq_true _ _ ▸ record.shape).1
  have plain : isMember field = false := by
    cases record.valid.fields field (List.mem_of_getElem? found) with
    | member _ _ _ memberValid =>
      rcases memberValid.type with other | other | other <;> rw [type] at other <;> cases other
    | integer plain _ => exact decide_eq_false (not_not.mpr plain)
    | bytes plain _ => exact decide_eq_false (not_not.mpr plain)
  refine ⟨slice_length (record.valid.bytes_inside fits found plain), ?_⟩
  unfold bytesLengthInvalid byteLength isPayload
  cases has : message.boundedPayload with
  | none => simp
  | some bounded =>
    obtain ⟨-, shortest, longest, -⟩ := record.valid.size_bounded fits has
    simp only [Option.any_some, decide_eq_true_eq]
    by_cases payload : index = bounded.payloadFieldIndex
    · rw [if_pos payload, if_pos payload.symm]
      simp only [Bool.or_eq_false_iff, decide_eq_false_iff_not, not_lt]
      exact ⟨shortest, longest⟩
    · rw [if_neg payload, if_neg fun same => payload same.symm]
      simp

/-- An input field takes what was decoded for it. -/
theorem DecodedRecord.accepted_value
    (record : DecodedRecord plan pipelineIndex messageIndex message input.bytes) {index : Nat}
    {field : FieldExecutionPlan} (found : message.fields[index]? = some field)
    (has : hasConversion field = false)
    (viewed : getAddressRange
      (decodedSlot plan messageIndex message input index field).bytesValue.data
      (decodedSlot plan messageIndex message input index field).bytesValue.size ≠ none ∨
        field.valueType ≠ .bytes) :
    let value := (decodedSlot plan messageIndex message input index field).toValue
    valueKindMatches value.valueKind field.valueType = true ∧
      valueFailure plan messageIndex message index field value = none := by
  have small := record.rawValue_lt found
  unfold decodedSlot at viewed ⊢
  simp only [has, Bool.false_eq_true, if_false] at viewed ⊢
  unfold DecodedFieldSlot.toValue valueKindMatches valueFailure
  cases type : field.valueType with
  | bytes =>
    obtain ⟨length, valid⟩ := record.bytes_length found type
    simp only [type] at viewed ⊢
    refine ⟨beq_self_eq_true _, ?_⟩
    have size : (subView input field.offset
        (byteLength message index field input.size)).size =
          byteLength message index field input.size := length
    rw [bytesFailure, if_neg (by simp [record.version]), size, valid, if_neg (by simp),
      if_neg]
    rw [size] at viewed
    exact viewed.resolve_right (by simp)
  | int64 =>
    obtain ⟨signed, interpreted, cast, -, fits⟩ := record.signed found type
    simp only [interpreted, Option.getD_some, cast, fits]
    exact ⟨beq_self_eq_true _, rfl⟩
  | bool => exact ⟨beq_self_eq_true _, rfl⟩
  | enum =>
    obtain ⟨entryIndex, entry, within, -⟩ := record.entry found has type
    simp only [entry, entryReference]
    exact ⟨beq_self_eq_true _, if_neg (by simp; omega)⟩
  | uint64 =>
    refine ⟨beq_self_eq_true _, if_neg ?_⟩
    rw [Bool.not_eq_false]
    specialize small (by simp [type])
    cases record.valid.fields field (List.mem_of_getElem? found) with
    | member container real there memberValid =>
      have bounded := (record.valid.containers container (List.mem_of_getElem? there)).bounded
      have inside := memberValid.inside
      have positive := memberValid.positive
      rw [rawBitCount, isMember, decide_eq_true real, if_pos rfl] at small
      rw [if_pos real, fitsUnsignedBits_iff, toNat_ofNat_of_bits small (by omega)]
      exact ⟨positive, by omega, small⟩
    | integer plain integerValid =>
      have bounded := integerValid.bounded
      rw [rawBitCount, isMember, decide_eq_false (not_not.mpr plain), if_neg (by simp)] at small
      rw [if_neg (not_not.mpr plain), fitsUnsignedWidth_iff,
        toNat_ofNat_of_bits small (by omega)]
      exact ⟨integerValid.positive, bounded, small⟩
    | bytes _ bytesValid =>
      have other := bytesValid.type
      rw [type] at other
      cases other

/-- What was decoded is accepted when it is encoded again. -/
theorem DecodedRecord.accepted
    (record : DecodedRecord plan pipelineIndex messageIndex message input.bytes)
    (viewed : ∀ value ∈ inputValues plan messageIndex message input, value.valueKind = .bytes →
      getAddressRange value.bytesValue.data value.bytesValue.size ≠ none) :
    inputsFailure plan messageIndex message (inputValues plan messageIndex message input) =
      none := by
  have takes : ∀ (index : Nat) field, message.fields[index]? = some field →
      field.encodeSource = .input → hasConversion field = false →
        let value := (decodedSlot plan messageIndex message input index field).toValue
        valueKindMatches value.valueKind field.valueType = true ∧
          valueFailure plan messageIndex message index field value = none := by
    intro index field found source has
    refine record.accepted_value found has ?_
    by_cases type : field.valueType = .bytes
    · refine .inl (viewed _ (mem_inputValues.mpr ⟨index, field, found, source, rfl⟩) ?_)
      unfold decodedSlot
      simp only [has, Bool.false_eq_true, if_false, type, DecodedFieldSlot.toValue]
      rfl
    · exact .inr type
  refine inputsFailure_eq_none.mpr ⟨fun position value listed => ?_,
    fun index field found taking => ?_, fun schema index field found => ?_⟩
  · obtain ⟨index, field, found, source, rfl⟩ :=
      mem_inputValues.mp (List.mem_of_getElem? listed)
    have first := inputValues_first listed
    have named : (decodedSlot plan messageIndex message input index field).toValue.field =
        ⟨some plan.address, messageIndex, index⟩ := by simp [DecodedFieldSlot.toValue]
    have referenced : referencedField plan messageIndex message
        (decodedSlot plan messageIndex message input index field).toValue = some field := by
      rw [referencedField, named, if_neg (by simp), found]
    rw [named] at first
    unfold placementStatus
    rw [referenced, named]
    simp only [record.version, Bool.false_eq_true, false_and, if_false, source, reduceCtorEq,
      ne_eq, not_true_eq_false, first]
    by_cases schema : isConversionSchema plan.schemaVersion = true
    · rw [if_pos schema]
    rw [if_neg schema]
    have has : hasConversion field = false := by
      cases converted : hasConversion field with
      | false => rfl
      | true => exact absurd (convertedField record.valid found converted).schema schema
    obtain ⟨kind, passes⟩ := takes index field found source has
    rw [if_neg (by simp [kind])]
    exact passes
  · rw [takesInput_binary record.version, isInput, beq_iff_eq] at taking
    exact (valueFor_inputValues found taking).1
  · unfold conversionFailure
    by_cases source : field.encodeSource = .input
    swap
    · exact if_pos source
    rw [if_neg (not_not.mpr source), (valueFor_inputValues found source).2]
    cases has : hasConversion field with
    | true =>
      obtain ⟨kind, encodes⟩ := record.decimal found has
      simp only [if_true, DecodedFieldSlot.toValue, kind, encodes, ne_eq, not_true_eq_false,
        if_false]
    | false =>
      obtain ⟨kind, passes⟩ := takes index field found source has
      simp only [Bool.false_eq_true, if_false, kind, passes, Option.map_none,
        Bool.true_eq_false]

/-! ### The record -/

/-- A constant field has the raw value of its constant. -/
theorem DecodedRecord.constantRaw_eq
    (record : DecodedRecord plan pipelineIndex messageIndex message input.bytes) {index : Nat}
    {field : FieldExecutionPlan} (found : message.fields[index]? = some field)
    (source : field.encodeSource = .constant)
    (holds : SlotHoldsConstant field (decodedSlot plan messageIndex message input index field)) :
    constantRaw field = rawValue message field input.bytes := by
  have has : hasConversion field = false := by
    cases converted : hasConversion field with
    | false => rfl
    | true =>
      have input := (convertedField record.valid found converted).source
      rw [source] at input
      cases input
  have constant : (field.valueType = .uint64 ∧ rawBitCount field ≤ 64 ∧
      field.constantValue < 2 ^ rawBitCount field) ∨
      (field.valueType = .int64 ∧
        fitsSignedWidth field.signedConstantValue field.width = true) := by
    cases record.valid.fields field (List.mem_of_getElem? found) with
    | member container real there memberValid =>
      have bounded := (record.valid.containers container (List.mem_of_getElem? there)).bounded
      have inside := memberValid.inside
      rcases memberValid.source with other | ⟨type, -, small⟩
      · rw [source] at other
        cases other
      · rw [rawBitCount, isMember, decide_eq_true real, if_pos rfl]
        exact .inl ⟨type, by omega, small⟩
    | integer plain integerValid =>
      rw [rawBitCount, isMember, decide_eq_false (not_not.mpr plain), if_neg (by simp)]
      rcases integerValid.constant source with ⟨type, fits⟩ | signed
      · obtain ⟨-, bounded, small⟩ := fitsUnsignedWidth_iff.mp fits
        exact .inl ⟨type, by omega, small⟩
      · exact .inr signed
    | bytes _ bytesValid =>
      have other := bytesValid.source
      rw [source] at other
      cases other
  unfold SlotHoldsConstant decodedSlot at holds
  simp only [has, Bool.false_eq_true, if_false] at holds
  rcases constant with ⟨type, bounded, fits⟩ | ⟨type, fits⟩
  · have small := record.rawValue_lt found (by simp [type])
    simp only [type, reduceCtorEq, if_false, getLogicalValueKind, true_and] at holds
    have same := congrArg UInt64.toNat holds
    rw [toNat_ofNat_of_bits small bounded, toNat_ofNat_of_bits fits bounded] at same
    rw [constantRaw, if_neg (by simp [type]), same]
  · obtain ⟨signed, interpreted, cast, bits, -⟩ := record.signed found type
    simp only [type, if_true, getLogicalValueKind, true_and, interpreted,
      Option.getD_some] at holds
    have same := congrArg Int64.toInt holds
    obtain ⟨-, bounded, lower, upper⟩ := fitsSignedWidth_iff.mp fits
    have wide : (2 : Int) ^ (8 * field.width - 1) ≤ 2 ^ 63 :=
      pow_le_pow_right₀ (by decide) (by omega)
    rw [cast, Int64.toInt_ofInt_of_le (by omega) (by omega)] at same
    rw [constantRaw, if_pos type, ← same, bits]

/-- The record has the length that the decoded inputs ask for. -/
theorem DecodedRecord.recordSize_eq
    (record : DecodedRecord plan pipelineIndex messageIndex message input.bytes) :
    recordSize message (inputValues plan messageIndex message input) = input.size := by
  have fits : lengthMatches message input.size = true :=
    (Bool.and_eq_true _ _ ▸ record.shape).1
  unfold recordSize
  cases has : message.boundedPayload with
  | none =>
    rw [lengthMatches, has] at fits
    exact (beq_iff_eq.mp fits).symm
  | some bounded =>
    obtain ⟨field, found, plain, type, -⟩ := (record.valid.payload bounded has).field
    have source : field.encodeSource = .input := by
      cases record.valid.fields field (List.mem_of_getElem? found) with
      | member _ real _ _ => exact absurd plain real
      | integer _ integerValid =>
        rcases integerValid.type with other | other | ⟨other, -⟩ <;> rw [type] at other <;>
          cases other
      | bytes _ bytesValid => exact bytesValid.source
    have unconverted : hasConversion field = false := by
      cases converted : hasConversion field with
      | false => rfl
      | true => exact absurd type (convertedField record.valid found converted).notBytes
    have length := (record.bytes_length found type).1
    have payload : byteLength message bounded.payloadFieldIndex field input.size =
        payloadSize message input.size := by
      rw [byteLength, isPayload, has, if_pos (by simp)]
    have value := (@valueFor_inputValues plan messageIndex message input _ field found source).2
    have size : (valueFor (inputValues plan messageIndex message input)
        bounded.payloadFieldIndex).bytesValue.size = payloadSize message input.size := by
      rw [value, ← payload, ← length]
      unfold decodedSlot DecodedFieldSlot.toValue
      simp only [unconverted, Bool.false_eq_true, if_false, type]
      rfl
    have whole := (record.valid.size_bounded fits has).1
    simp only
    omega

/-- The decoded inputs ask for the record they were decoded from. -/
theorem DecodedRecord.eq_recordOf
    (record : DecodedRecord plan pipelineIndex messageIndex message input.bytes)
    (accepted : inputsFailure plan messageIndex message
      (inputValues plan messageIndex message input) = none)
    (constants : ∀ (index : Nat) field, message.fields[index]? = some field →
      field.encodeSource = .constant →
        SlotHoldsConstant field (decodedSlot plan messageIndex message input index field))
    (base : HoldsBaseBits message input.bytes) :
    input.bytes = recordOf message
      (suppliedContents plan message (inputValues plan messageIndex message input))
      (recordSize message (inputValues plan messageIndex message input)) := by
  obtain ⟨fits, fixed⟩ : lengthMatches message input.size = true ∧
      message.fixedBytes.all (hasByte input.bytes) = true :=
    Bool.and_eq_true _ _ ▸ record.shape
  have size := record.recordSize_eq
  have raw : ∀ (index : Nat) field, message.fields[index]? = some field →
      field.valueType ≠ .bytes → field.encodeSource ≠ .computed →
        suppliedRaw plan message (inputValues plan messageIndex message input) index =
          rawValue message field input.bytes := by
    intro index field found type stored
    by_cases constant : field.encodeSource = .constant
    · exact (@suppliedContents_constants plan message _ record.valid index field found
        constant).trans
          (record.constantRaw_eq found constant (constants index field found constant))
    · exact record.suppliedRaw_input found (input_of_not stored constant) type
  have accepts := record.accepts
  unfold recordRefusal at accepts
  split at accepts
  · cases accepts
  rename_i states
  split at accepts
  · cases accepts
  rename_i carries
  rw [size]
  refine record.valid.eq_recordOf fits (size ▸ suppliedContents_fit record.valid record.version
    accepted) rfl (Bool.eq_true_of_not_eq_false states) (Bool.eq_true_of_not_eq_false carries)
    fixed (fun index field found written => ?_) fun index container there => ?_
  · obtain ⟨stored, plain⟩ := isWritten_iff.mp written
    unfold fieldBytes
    by_cases type : field.valueType = .bytes
    · have source : field.encodeSource = .input := by
        cases record.valid.fields field (List.mem_of_getElem? found) with
        | member _ real _ _ => exact absurd plain (by simp [isMember, real])
        | integer _ integerValid =>
          rcases integerValid.type with other | other | ⟨other, -⟩ <;> rw [type] at other <;>
            cases other
        | bytes _ bytesValid => exact bytesValid.source
      have unconverted : hasConversion field = false := by
        cases converted : hasConversion field with
        | false => rfl
        | true => exact absurd type (convertedField record.valid found converted).notBytes
      have bytes : (suppliedContents plan message
          (inputValues plan messageIndex message input)).bytes index =
            slice input.bytes field.offset (byteLength message index field input.size) := by
        show (valueFor (inputValues plan messageIndex message input) index).bytesValue.bytes = _
        rw [(valueFor_inputValues found source).2]
        unfold decodedSlot DecodedFieldSlot.toValue
        simp only [unconverted, Bool.false_eq_true, if_false, type]
        rfl
      rw [if_pos type, bytes, (record.bytes_length found type).1]
    · rw [if_neg type, storedBytes_length]
      have inside := record.valid.integer_inside fits found plain type
      have value : (suppliedContents plan message
          (inputValues plan messageIndex message input)).raw index =
            loadValue (slice input.bytes field.offset field.width) field.byteOrder := by
        refine (raw index field found type stored).trans ?_
        rw [rawValue, plain, if_neg (by simp)]
      have restored := storedBytes_loadValue (slice input.bytes field.offset field.width)
        field.byteOrder
      rw [slice_length inside] at restored
      simp only [value]
      exact restored.symm
  · have facts := record.valid.containers container (List.mem_of_getElem? there)
    have inside := facts.inside.trans (record.valid.storageLimit_le fits)
    have small := loadValue_lt (slice input.bytes container.offset container.width)
      container.byteOrder
    rw [slice_length inside, ← two_pow_eight_mul] at small
    refine (record.valid.filledContainer_eq there small (fun other field found refers => ?_)
      (base index container there)).symm
    have memberValid := record.valid.memberValid there (List.mem_of_getElem? found) refers
    have member : isMember field = true :=
      decide_eq_true (refers.symm ▸ record.valid.containerIndex_ne there)
    refine (raw other field found
      (by rcases memberValid.type with type | type | type <;> simp [type])
      (by rcases memberValid.source with source | ⟨-, source, -⟩ <;> simp [source])).trans ?_
    rw [rawValue, member, if_pos rfl, refers, List.getD_eq_getElem?_getD, there,
      Option.getD_some]
    rfl

end

/-- Encoding what has been decoded yields the record again, when the record holds the
constants and the base bits of its message. -/
theorem encodeCompleteRecord_decoded {target : TargetLayout} {budgeted : BudgetedPlanDraft}
    {storage : Option Nat} {plan : PlanBundle} {decoder encoder : ExecutionWorkspace}
    (frozen : freeze target budgeted storage = .ok plan)
    (version : isTextSchema plan.schemaVersion = false) (decoderIdle : decoder.IdleFor plan)
    (encoderIdle : encoder.IdleFor plan) {pipelineIndex : Nat} {input : ByteView}
    {fieldSlots : FieldSlots} {decoded : DecodeCall}
    (decodes : decodeCompleteRecord plan decoder pipelineIndex input fieldSlots = some decoded)
    (ok : decoded.result.status = .ok) (clean : decoded.result.tainted = false)
    {message : MessageExecutionPlan}
    (listed : plan.messageExecutionPlans[decoded.result.messageIndex]? = some message)
    (constants : HoldsConstants message decoded.slots)
    (base : HoldsBaseBits message input.bytes) {address : Option Nat} {output : MutableByteBuffer}
    (apart : BufferApart ⟨address, decodedInputs message decoded.slots⟩ output)
    (room : input.size ≤ output.capacity) :
    ∃ encoded, encodeCompleteRecord plan encoder pipelineIndex decoded.result.messageIndex
        ⟨address, decodedInputs message decoded.slots⟩ output = some encoded ∧
      encoded.result.status = .ok ∧
      encoded.output.take encoded.result.bytesWritten = input.bytes := by
  have valid := planValid_of_freeze frozen
  obtain ⟨call, run, result, slots, -⟩ :=
    decodeCompleteRecord_replies valid decoderIdle pipelineIndex input fieldSlots
  obtain rfl := Option.some.inj (run.symm.trans decodes)
  rw [result] at ok clean
  obtain ⟨other, record, rest, filled⟩ := decodeReply_ok valid version ok clean
  rw [← result] at record filled
  obtain rfl := Option.some.inj (listed.symm.trans record.listed)
  rw [slots, filled] at constants apart
  rw [slots, filled]
  have held : ∀ (index : Nat) field, message.fields[index]? = some field →
      field.encodeSource = .constant → SlotHoldsConstant field
        (decodedSlot plan call.result.messageIndex message input index field) := by
    intro index field found source
    obtain ⟨slot, there, holds⟩ := constants index field found source
    have within := (List.getElem?_eq_some_iff.mp found).1
    rw [List.getElem?_append_left (by rwa [decodedSlots, List.length_mapIdx]), decodedSlots,
      List.getElem?_mapIdx, found] at there
    exact Option.some.inj there ▸ holds
  rw [decodedInputs_eq] at apart ⊢
  have accepted := record.accepted fun value member bytes => by
    obtain ⟨range, viewed, -⟩ := apart.views value member bytes
    simp [viewed]
  have same := record.eq_recordOf accepted held base
  have size := record.recordSize_eq
  obtain ⟨pipeline, compiled, allowed⟩ := record.pipeline
  obtain ⟨encoded, encodes, encodedResult, written, -⟩ := encodeCompleteRecord_replies valid
    encoderIdle pipelineIndex call.result.messageIndex
    ⟨address, inputValues plan call.result.messageIndex message input⟩ output
  have reply := @encodeReply_reviewed plan call.result.messageIndex message
    ⟨address, inputValues plan call.result.messageIndex message input⟩ output valid version
    pipelineIndex pipeline compiled listed allowed accepted apart (size.symm ▸ room)
  rw [reply] at encodedResult written
  simp only [recordReply, ← same, if_pos record.shape] at encodedResult written
  refine ⟨encoded, encodes, by rw [encodedResult], ?_⟩
  rw [encodedResult, written]
  exact List.take_left' size.symm

/-- The sample message, as the codec executes it. -/
def sampleMessage : MessageExecutionPlan := samplePlan.messageExecutionPlans.getD 0 {}

theorem encodeCompleteRecord_decoded_sample : ∃ decoded encoded,
    decodeCompleteRecord samplePlan (.fresh samplePlan) 0 sampleInput sampleSlots =
        some decoded ∧
      decoded.result.status = .ok ∧
      encodeCompleteRecord samplePlan (.fresh samplePlan) 0 decoded.result.messageIndex
        ⟨some 2048, decodedInputs sampleMessage decoded.slots⟩ (sampleBuffer 0) = some encoded ∧
      encoded.result.status = .ok ∧
      encoded.output.take encoded.result.bytesWritten = sampleInput.bytes := by
  have seen : (decodeCompleteRecord samplePlan (.fresh samplePlan) 0 sampleInput sampleSlots).map
      (fun call => (call.result.status, call.result.tainted, call.result.messageIndex,
        decide (HoldsConstants sampleMessage call.slots),
        decodedInputs sampleMessage call.slots)) =
          some (.ok, false, 0, true, sampleValues.values) := by decide +kernel
  obtain ⟨decoded, run, same⟩ := Option.map_eq_some_iff.mp seen
  simp only [Prod.mk.injEq, decide_eq_true_eq] at same
  obtain ⟨ok, clean, first, constants, inputs⟩ := same
  have listed : samplePlan.messageExecutionPlans[decoded.result.messageIndex]? =
      some sampleMessage := by
    rw [first]
    rfl
  have base : HoldsBaseBits sampleMessage sampleInput.bytes := by decide +kernel
  have apart : BufferApart ⟨some 2048, decodedInputs sampleMessage decoded.slots⟩
      (sampleBuffer 0) := by
    rw [inputs]
    exact sampleBuffer_apart
  have fresh := ExecutionWorkspace.fresh_idleFor samplePlan
  obtain ⟨encoded, encodes, written, bytes⟩ := encodeCompleteRecord_decoded sampleBudgeted_freezes
    rfl fresh fresh run ok clean listed constants base apart (by decide)
  exact ⟨decoded, encoded, run, ok, encodes, written, bytes⟩

end ProtocolAdapter.Codec
