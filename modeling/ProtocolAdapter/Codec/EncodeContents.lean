/-
This file works out the contents of the record that the values of a caller ask for. Values
that are not refused fit their fields, so the record has an admissible length and every
field has room for its contents.
-/

import ProtocolAdapter.Codec.RecordMeaning
import ProtocolAdapter.Codec.Supply

namespace ProtocolAdapter.Codec

open Foundation Foundation.Bytes

/-! ### Contents -/

/-- The raw value the encoder gives a field that is neither computed nor a byte string. -/
def suppliedRaw (plan : PlanBundle) (message : MessageExecutionPlan)
    (values : List EncodeFieldValue) (fieldIndex : Nat) : Nat :=
  let field := message.fields.getD fieldIndex {}
  let value := valueFor values fieldIndex
  if hasConversion field then
    match encodeDecimal (conversionOf plan.conversions field) value.decimal64Value field.width with
    | .ok raw => raw
    | .error _ => 0
  else if field.encodeSource = .constant then constantRaw field
  else
    match field.valueType with
    | .int64 => signedBits value.int64Value.toInt field.width
    | .enum => (entryValues message field).getD value.enumValue.entryIndex 0
    | .bool => if value.boolValue then 1 else 0
    | _ => value.uint64Value.toNat

/-- The contents of the record that values ask for. -/
def suppliedContents (plan : PlanBundle) (message : MessageExecutionPlan)
    (values : List EncodeFieldValue) : RecordContents where
  raw := suppliedRaw plan message values
  bytes fieldIndex := (valueFor values fieldIndex).bytesValue.bytes

/-- The length of the record that values ask for. -/
def recordSize (message : MessageExecutionPlan) (values : List EncodeFieldValue) : Nat :=
  match message.boundedPayload with
  | none => message.frameSize
  | some bounded => bounded.headerLength +
      (valueFor values bounded.payloadFieldIndex).bytesValue.size + bounded.trailerLength

section

variable {plan : PlanBundle} {messageIndex : Nat} {message : MessageExecutionPlan}
  {values : List EncodeFieldValue}

/-! ### Accepted values -/

/-- A value that its field can take. -/
structure ValueAccepted (plan : PlanBundle) (messageIndex : Nat) (message : MessageExecutionPlan)
    (index : Nat) (field : FieldExecutionPlan) (value : EncodeFieldValue) : Prop where
  converted : hasConversion field = true → value.valueKind = .decimal64 ∧
    ∃ raw, encodeDecimal (conversionOf plan.conversions field) value.decimal64Value field.width =
      .ok raw
  plain : hasConversion field = false →
    valueKindMatches value.valueKind field.valueType = true ∧
      valueFailure plan messageIndex message index field value = none

/-- Nothing is wrong with values that are not refused. -/
theorem inputsFailure_eq_none : inputsFailure plan messageIndex message values = none ↔
    (∀ (position : Nat) value, values[position]? = some value →
      placementStatus plan messageIndex message (values.take position) value = none) ∧
    (∀ (index : Nat) field, message.fields[index]? = some field → takesInput plan field = true →
      values.any (isFor index) = true) ∧
    (isConversionSchema plan.schemaVersion = true → ∀ (index : Nat) field,
      message.fields[index]? = some field →
        conversionFailure plan messageIndex message values (field, index) = none) := by
  have listed : ∀ {α β : Type} {items : List α} {answer : α × Nat → Option β},
      items.zipIdx.findSome? answer = none ↔
        ∀ (index : Nat) item, items[index]? = some item → answer (item, index) = none := by
    intro α β items answer
    simp only [List.findSome?_eq_none_iff, Prod.forall, List.mem_zipIdx_iff_getElem?]
    exact forall_comm
  rw [inputsFailure, Option.or_eq_none_iff, Option.or_eq_none_iff, listed, listed]
  refine and_congr ?_ (and_congr ?_ ?_)
  · refine forall_congr' fun position => forall_congr' fun value => imp_congr_right fun _ => ?_
    rw [placementFailure, Option.map_eq_none_iff]
  · refine forall_congr' fun index => forall_congr' fun field => imp_congr_right fun _ => ?_
    unfold missingFailure
    cases takesInput plan field <;> cases values.any (isFor index) <;> simp
  · split
    · rename_i version
      rw [listed]
      exact ⟨fun all _ => all, fun all => all version⟩
    · rename_i version
      exact ⟨fun _ holds => absurd holds version, fun _ => rfl⟩

/-- The value found for an input is one of the values. -/
theorem valueFor_mem {index : Nat} (supplied : values.any (isFor index) = true) :
    ∃ position : Nat, values[position]? = some (valueFor values index) ∧
      isFor index (valueFor values index) = true := by
  have present : ∃ value ∈ values, isFor index value = true := by simpa using supplied
  obtain ⟨value, found⟩ := Option.isSome_iff_exists.mp (List.find?_isSome.mpr present)
  rw [valueFor, found, Option.getD_some]
  obtain ⟨position, listed⟩ := List.mem_iff_getElem?.mp (List.mem_of_find?_eq_some found)
  exact ⟨position, listed, List.find?_some found⟩

/-- Every input field has a value it can take. -/
theorem valueAccepted (valid : BinaryValid plan.schemaVersion plan.conversions message)
    (version : isTextSchema plan.schemaVersion = false)
    (accepted : inputsFailure plan messageIndex message values = none) {index : Nat}
    {field : FieldExecutionPlan} (found : message.fields[index]? = some field)
    (source : field.encodeSource = .input) :
    ValueAccepted plan messageIndex message index field (valueFor values index) := by
  obtain ⟨placed, supplied, converted⟩ := inputsFailure_eq_none.mp accepted
  have takes : takesInput plan field = true := by
    rw [takesInput_binary version]
    exact beq_iff_eq.mpr source
  by_cases schema : isConversionSchema plan.schemaVersion = true
  · have passes := converted schema index field found
    rw [conversionFailure] at passes
    simp only [source, ne_eq, not_true_eq_false, if_false] at passes
    constructor
    · intro has
      rw [if_pos has] at passes
      split at passes
      · cases passes
      · rename_i kind
        refine ⟨not_not.mp kind, ?_⟩
        split at passes
        · cases passes
        · rename_i raw run
          exact ⟨raw, run⟩
    · intro has
      rw [if_neg (by simp [has])] at passes
      split at passes
      · cases passes
      · rename_i kind
        rw [Option.map_eq_none_iff] at passes
        exact ⟨by simpa using kind, passes⟩
  · obtain ⟨position, listed, this⟩ := valueFor_mem (supplied index field found takes)
    have passes := placed position _ listed
    have same : (valueFor values index).field.fieldIndex = index := of_decide_eq_true this
    unfold placementStatus at passes
    split at passes
    · cases passes
    rename_i referenced there
    rw [referencedField] at there
    split at there
    · cases there
    rw [same] at there
    obtain rfl := Option.some.inj (found.symm.trans there)
    simp only [version, Bool.false_eq_true, false_and, if_false, source, reduceCtorEq, ne_eq,
      not_true_eq_false, schema] at passes
    split at passes
    · cases passes
    split at passes
    · cases passes
    rename_i kind
    rw [same] at passes
    refine ⟨fun has => absurd (convertedField valid found has).schema schema, fun _ =>
      ⟨by simpa using kind, passes⟩⟩

/-- The entries of an enumeration field are there. -/
theorem EnumValid.entryValues_eq {field : FieldExecutionPlan} {entries : List EnumEntryPlan}
    (valid : EnumValid message field entries) :
    entryValues message field = entries.map (·.rawValue) := by
  obtain ⟨rest, values⟩ := valid.values
  rw [entryValues, values, valid.valuesCount, List.take_left' (List.length_map _)]

theorem suppliedRaw_eq {index : Nat} {field : FieldExecutionPlan}
    (found : message.fields[index]? = some field) : message.fields.getD index {} = field := by
  rw [List.getD_eq_getElem?_getD, found, Option.getD_some]

/-- A raw value that the encoder gives a field has no more bits than the field. -/
theorem suppliedRaw_lt (valid : BinaryValid plan.schemaVersion plan.conversions message)
    (version : isTextSchema plan.schemaVersion = false)
    (accepted : inputsFailure plan messageIndex message values = none) {index : Nat}
    {field : FieldExecutionPlan} (found : message.fields[index]? = some field)
    (type : field.valueType ≠ .bytes) (stored : field.encodeSource ≠ .computed) :
    suppliedRaw plan message values index < 2 ^ rawBitCount field := by
  have inMessage := List.mem_of_getElem? found
  unfold suppliedRaw
  simp only [suppliedRaw_eq found]
  cases has : hasConversion field with
  | true =>
    have facts := convertedField valid found has
    obtain ⟨-, raw, run⟩ := (valueAccepted valid version accepted found facts.source).converted has
    rw [if_pos rfl, run, rawBitCount, facts.plain]
    exact (decodeDecimal_of_encodeDecimal facts.valid facts.integer.positive facts.integer.bounded
      facts.rawType run).1
  | false =>
    rw [if_neg (by simp)]
    by_cases constant : field.encodeSource = .constant
    · rw [if_pos constant]
      cases valid.fields field inMessage with
      | member container real _ memberValid =>
        rcases memberValid.source with source | ⟨kind, -, small⟩
        · rw [source] at constant
          cases constant
        · rw [constantRaw, if_neg (by simp [kind]), rawBitCount, isMember, decide_eq_true real,
            if_pos rfl]
          exact small
      | integer plain integerValid =>
        rw [rawBitCount, isMember, decide_eq_false (not_not.mpr plain), if_neg (by simp)]
        rcases integerValid.constant constant with ⟨kind, fits⟩ | ⟨kind, -⟩
        · rw [constantRaw, if_neg (by simp [kind])]
          exact (fitsUnsignedWidth_iff.mp fits).2.2
        · rw [constantRaw, if_pos kind]
          exact signedBits_lt integerValid.bounded
      | bytes _ bytesValid => exact absurd bytesValid.type type
    · rw [if_neg constant]
      have source : field.encodeSource = .input := by
        cases kind : field.encodeSource with
        | input => rfl
        | constant => exact absurd kind constant
        | computed => exact absurd kind stored
      obtain ⟨-, passes⟩ := (valueAccepted valid version accepted found source).plain has
      unfold valueFailure at passes
      cases kind : field.valueType with
      | bytes => exact absurd kind type
      | uint64 =>
        rw [kind] at passes
        simp only [ite_eq_right_iff, reduceCtorEq, imp_false, Bool.not_eq_false] at passes
        simp only
        by_cases plain : field.bitContainerIndex = invalidIndex
        · rw [if_neg (not_not.mpr plain)] at passes
          rw [rawBitCount, isMember, decide_eq_false (not_not.mpr plain), if_neg (by simp)]
          exact (fitsUnsignedWidth_iff.mp passes).2.2
        · rw [if_pos plain] at passes
          rw [rawBitCount, isMember, decide_eq_true plain, if_pos rfl]
          exact (fitsUnsignedBits_iff.mp passes).2.2
      | int64 =>
        simp only
        cases valid.fields field inMessage with
        | member container real _ memberValid =>
          rcases memberValid.type with other | other | other <;> rw [kind] at other <;> cases other
        | integer plain integerValid =>
          rw [rawBitCount, isMember, decide_eq_false (not_not.mpr plain), if_neg (by simp)]
          exact signedBits_lt integerValid.bounded
        | bytes _ bytesValid => exact absurd bytesValid.type type
      | bool =>
        simp only
        cases valid.fields field inMessage with
        | member container real _ memberValid =>
          rw [rawBitCount, isMember, decide_eq_true real, if_pos rfl, memberValid.bool kind]
          split <;> decide
        | integer plain integerValid =>
          rcases integerValid.type with other | other | ⟨other, -⟩ <;> rw [kind] at other <;>
            cases other
        | bytes _ bytesValid => exact absurd bytesValid.type type
      | enum =>
        obtain ⟨entries, enumValid⟩ := valid.enums field inMessage kind
        rw [kind] at passes
        simp only [ite_eq_right_iff, reduceCtorEq, imp_false, not_or, not_not, not_le] at passes
        obtain ⟨-, -, -, within⟩ := passes
        rw [enumValid.valuesCount] at within
        simp only
        rw [enumValid.entryValues_eq, List.getD_eq_getElem _ _ (by rwa [List.length_map]),
          List.getElem_map]
        exact enumValid.fits _ (List.getElem_mem within)

/-- The byte string supplied for a field has the length its record gives it. -/
theorem supplied_length (valid : BinaryValid plan.schemaVersion plan.conversions message)
    (version : isTextSchema plan.schemaVersion = false)
    (accepted : inputsFailure plan messageIndex message values = none) {index : Nat}
    {field : FieldExecutionPlan} (found : message.fields[index]? = some field)
    (type : field.valueType = .bytes) :
    bytesLengthInvalid message index field (valueFor values index).bytesValue.size = false := by
  cases valid.fields field (List.mem_of_getElem? found) with
  | member container _ _ memberValid =>
    rcases memberValid.type with other | other | other <;> rw [type] at other <;> cases other
  | integer _ integerValid =>
    rcases integerValid.type with other | other | ⟨other, -⟩ <;> rw [type] at other <;> cases other
  | bytes plain bytesValid =>
    obtain ⟨-, passes⟩ :=
      (valueAccepted valid version accepted found bytesValid.source).plain bytesValid.unconverted
    simp only [valueFailure, type, bytesFailure, version, Bool.false_eq_true, if_false] at passes
    split at passes
    · cases passes
    · rename_i fits
      simpa using fits

theorem recordSize_fits (valid : BinaryValid plan.schemaVersion plan.conversions message)
    (version : isTextSchema plan.schemaVersion = false)
    (accepted : inputsFailure plan messageIndex message values = none) :
    lengthMatches message (recordSize message values) = true := by
  unfold lengthMatches recordSize
  cases has : message.boundedPayload with
  | none => exact beq_self_eq_true _
  | some bounded =>
    have payload := valid.payload bounded has
    obtain ⟨field, found, -, type, -⟩ := payload.field
    have length := supplied_length valid version accepted found type
    simp only [bytesLengthInvalid, has, if_true, Bool.or_eq_false_iff, decide_eq_false_iff_not,
      not_lt] at length
    have shortest := payload.shortest
    have longest := payload.longest
    simp only [Bool.not_eq_true', Bool.or_eq_false_iff, decide_eq_false_iff_not, not_lt]
    omega

/-- The contents that accepted values ask for fit their record. -/
theorem suppliedContents_fit (valid : BinaryValid plan.schemaVersion plan.conversions message)
    (version : isTextSchema plan.schemaVersion = false)
    (accepted : inputsFailure plan messageIndex message values = none) :
    ContentsFit message (recordSize message values) (suppliedContents plan message values) where
  integer index field found plain type stored := by
    have small := suppliedRaw_lt valid version accepted found type stored
    rwa [rawBitCount, plain, if_neg (by simp), two_pow_eight_mul] at small
  member index field found member := by
    cases valid.fields field (List.mem_of_getElem? found) with
    | member container real _ memberValid =>
      have small := suppliedRaw_lt valid version accepted found
        (by rcases memberValid.type with type | type | type <;> simp [type])
        (by rcases memberValid.source with source | ⟨-, source, -⟩ <;> simp [source])
      rwa [rawBitCount, member, if_pos rfl] at small
    | integer plain _ => exact absurd plain (of_decide_eq_true member)
    | bytes plain _ => exact absurd plain (of_decide_eq_true member)
  bytes index field found type := by
    have length := supplied_length valid version accepted found type
    show (valueFor values index).bytesValue.size = _
    unfold bytesLengthInvalid at length
    unfold byteLength isPayload payloadSize recordSize
    cases has : message.boundedPayload with
    | none => simpa [has] using length
    | some bounded =>
      simp only [has, Option.any_some, decide_eq_true_eq] at length ⊢
      by_cases payload : index = bounded.payloadFieldIndex
      · rw [if_pos payload.symm, ← payload]
        omega
      · rw [if_neg payload] at length
        rw [if_neg fun same => payload same.symm]
        simpa using length

/-- The record holds the constants of its message. -/
theorem suppliedContents_constants
    (valid : BinaryValid plan.schemaVersion plan.conversions message) :
    ConstantsHeld message (suppliedContents plan message values) := by
  intro index field found constant
  show suppliedRaw plan message values index = _
  unfold suppliedRaw
  simp only [suppliedRaw_eq found]
  rw [if_neg, if_pos constant]
  intro has
  have source := (convertedField valid found has).source
  rw [constant] at source
  cases source

end

end ProtocolAdapter.Codec
