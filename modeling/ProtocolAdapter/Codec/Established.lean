/-
This file shows that the builder establishes what the codec relies on: a prepared binary
message has a valid descriptor.
-/

import ProtocolAdapter.Builder.FieldLoop
import ProtocolAdapter.Builder.Message
import ProtocolAdapter.Codec.Valid

namespace ProtocolAdapter.Codec

open Foundation

/-! ### The checks of the builder -/

/-- The checks a binary message has passed and what its descriptor was made from. -/
structure BinaryPrepared (limits : ResourceProfileLimits) (context : FieldContext)
    (counts : List Nat) (prepared : MessageExecutionPlan) (state : FieldLoopState)
    (fixed : List FixedByteExecutionPlan) : Prop where
  bounded : checkBoundedPayload context.schemaVersion limits context.messageIndex
    context.message = .ok ()
  integrity : checkIntegrity context.schemaVersion context.messageIndex context.message = .ok ()
  computed : checkComputedLength context.schemaVersion context.messageIndex context.message =
    .ok ()
  containers : checkBitContainers context.messageIndex context.message = .ok ()
  loop : prepareFields context counts = .ok state
  overlap : checkOverlap context.messageIndex (sortIntervals state.fieldIntervals) = .ok ()
  storage : checkIntegrityStorage context.messageIndex context.message
    (sortIntervals state.fieldIntervals) = .ok ()
  matchers : collectMatchers context.messageIndex context.message = .ok fixed
  coverage : checkCoverage context.messageIndex context.message
    (sortIntervals state.fieldIntervals) fixed = .ok ()
  determined : checkDetermined context.messageIndex context.message state.tallies fixed = .ok ()
  description : prepared = binaryExecution context.message state fixed
  resolved : FieldsResolved context.message.fields
  conversions : ∀ conversion ∈ context.conversions,
    conversion.Valid ∧ IsRawType conversion.rawValueType
  frameBound : context.message.frameLengthBytes ≤ 65536
  containerCount : context.message.bitContainers.length ≤ 65536

theorem binaryPrepared_of_prepareBinaryMessage {limits : ResourceProfileLimits}
    {context : FieldContext} {counts : List Nat} {prepared : MessageExecutionPlan}
    {state : FieldLoopState}
    (run : prepareBinaryMessage limits context counts = .ok (prepared, state))
    (resolved : FieldsResolved context.message.fields)
    (conversions : ∀ conversion ∈ context.conversions,
      conversion.Valid ∧ IsRawType conversion.rawValueType)
    (frameBound : context.message.frameLengthBytes ≤ 65536)
    (containerCount : context.message.bitContainers.length ≤ 65536) :
    ∃ fixed, BinaryPrepared limits context counts prepared state fixed := by
  simp only [prepareBinaryMessage, bind_eq_ok, pure_eq_ok, Prod.mk.injEq] at run
  obtain ⟨_, bounded, _, integrity, _, computed, _, containers, looped, loop, _, overlap, _,
    storage, fixed, matchers, _, coverage, _, determined, rfl, rfl⟩ := run
  exact ⟨fixed, bounded, integrity, computed, containers, loop, overlap, storage, matchers,
    coverage, determined, rfl, resolved, conversions, frameBound, containerCount⟩

section

variable {limits : ResourceProfileLimits} {context : FieldContext} {counts : List Nat}
  {prepared : MessageExecutionPlan} {state : FieldLoopState}
  {fixed : List FixedByteExecutionPlan}

namespace BinaryPrepared

/-! ### The fields -/

theorem looped (checks : BinaryPrepared limits context counts prepared state fixed) :
    state = fieldLoop context.message counts context.message.fields ∧
      ∀ index field, context.message.fields[index]? = some field → ∃ placement,
        FieldPrepared context
          (fieldLoop context.message counts (context.message.fields.take index)) field placement :=
  ⟨(prepareFields_ok checks.loop).1, (prepareFields_ok checks.loop).2.1⟩

theorem placed (checks : BinaryPrepared limits context counts prepared state fixed) :
    AllPlaced context.message context.message.fields := by
  intro field member
  obtain ⟨index, found⟩ := List.mem_iff_getElem?.mp member
  obtain ⟨placement, passed⟩ := checks.looped.2 index field found
  exact ⟨placement, passed.placed⟩

theorem fields_eq (checks : BinaryPrepared limits context counts prepared state fixed) :
    prepared.fields = (fieldLoop context.message counts context.message.fields).fields := by
  rw [checks.description, ← checks.looped.1]
  rfl

/-- A field of the draft with its place and its description. -/
structure Described (context : FieldContext) (counts : List Nat) (index : Nat)
    (field : FieldPlan) (placement : FieldPlacement) (execution : FieldExecutionPlan) : Prop where
  found : context.message.fields[index]? = some field
  passed : FieldPrepared context
    (fieldLoop context.message counts (context.message.fields.take index)) field placement
  description : execution = fieldExecution
    (fieldLoop context.message counts (context.message.fields.take index)) field placement

namespace Described

variable {index : Nat} {field : FieldPlan} {placement : FieldPlacement}
  {execution : FieldExecutionPlan}

theorem offset_eq (described : Described context counts index field placement execution) :
    execution.offset = placement.offset := by rw [described.description]; rfl

theorem width_eq (described : Described context counts index field placement execution) :
    execution.width = placement.width := by rw [described.description]; rfl

theorem valueType_eq (described : Described context counts index field placement execution) :
    execution.valueType = field.valueType := by rw [described.description]; rfl

theorem byteOrder_eq (described : Described context counts index field placement execution) :
    execution.byteOrder = field.byteOrder := by rw [described.description]; rfl

theorem encodeSource_eq (described : Described context counts index field placement execution) :
    execution.encodeSource = field.encodeSource := by rw [described.description]; rfl

theorem container_eq (described : Described context counts index field placement execution) :
    execution.bitContainerIndex = field.bitContainerIndex := by rw [described.description]; rfl

theorem hasConversion_eq (described : Described context counts index field placement execution) :
    hasConversion execution = field.hasConversion := by rw [described.description]; rfl

theorem length_eq (checks : BinaryPrepared limits context counts prepared state fixed)
    (described : Described context counts index field placement execution) :
    (fieldLoop context.message counts (context.message.fields.take index)).fields.length =
      index := by
  have within := (List.getElem?_eq_some_iff.mp described.found).1
  rw [fieldLoop_length (checks.placed.take index), List.length_take]
  omega

end Described

theorem describe (checks : BinaryPrepared limits context counts prepared state fixed)
    {index : Nat} {field : FieldPlan} (found : context.message.fields[index]? = some field) :
    ∃ placement execution, prepared.fields[index]? = some execution ∧
      Described context counts index field placement execution := by
  obtain ⟨placement, passed⟩ := checks.looped.2 index field found
  rw [checks.fields_eq]
  exact ⟨placement, _, fieldLoop_getElem? checks.placed found passed.placed, found, passed, rfl⟩

theorem described (checks : BinaryPrepared limits context counts prepared state fixed)
    {index : Nat} {execution : FieldExecutionPlan}
    (found : prepared.fields[index]? = some execution) :
    ∃ field placement, Described context counts index field placement execution := by
  have within := (List.getElem?_eq_some_iff.mp found).1
  rw [checks.fields_eq, fieldLoop_length checks.placed] at within
  obtain ⟨placement, same, listed, description⟩ :=
    checks.describe (List.getElem?_eq_getElem within)
  obtain rfl := Option.some.inj (listed.symm.trans found)
  exact ⟨_, placement, description⟩

theorem described_of_mem (checks : BinaryPrepared limits context counts prepared state fixed)
    {execution : FieldExecutionPlan} (member : execution ∈ prepared.fields) :
    ∃ index field placement, prepared.fields[index]? = some execution ∧
      Described context counts index field placement execution := by
  obtain ⟨index, found⟩ := List.mem_iff_getElem?.mp member
  obtain ⟨field, placement, description⟩ := checks.described found
  exact ⟨index, field, placement, found, description⟩

/-- A bit member lies in its container, every other field in its own bytes. -/
theorem placeField_spec {message : MessagePlan} {field : FieldPlan} {placement : FieldPlacement}
    (placed : placeField message field = some placement) :
    if field.isBitfield then
      ∃ container, message.bitContainers[field.bitContainerIndex]? = some container ∧
        placement = ⟨container.byteOffset, container.byteWidth, some container⟩
    else
      placement = ⟨field.byteOffset, field.byteWidth, none⟩ ∧ 0 < field.byteWidth ∧
        field.byteOffset + field.byteWidth ≤ message.frameLengthBytes := by
  unfold placeField at placed
  split
  · rename_i bitfield
    rw [if_pos bitfield] at placed
    split at placed
    · cases placed
    · rename_i container found
      exact ⟨container, found, (Option.some.inj placed).symm⟩
  · rename_i plain
    rw [if_neg plain] at placed
    split at placed
    · rename_i within
      simp only [Bool.and_eq_true, isRangeWithin_iff] at within
      exact ⟨(Option.some.inj placed).symm, within.2⟩
    · cases placed

/-- A field is described as a member exactly when it is a bit field. -/
theorem isMember_eq (checks : BinaryPrepared limits context counts prepared state fixed)
    {index : Nat} {field : FieldPlan} {placement : FieldPlacement}
    {execution : FieldExecutionPlan}
    (described : Described context counts index field placement execution) :
    isMember execution = field.isBitfield := by
  have place := placeField_spec described.passed.placed
  rw [described.description]
  cases bitfield : field.isBitfield
  · have unresolved := checks.resolved field (List.mem_of_getElem? described.found) bitfield
    simp [isMember, fieldExecution, unresolved]
  · rw [bitfield, if_pos rfl] at place
    obtain ⟨container, found, -⟩ := place
    have within := (List.getElem?_eq_some_iff.mp found).1
    have count := checks.containerCount
    refine decide_eq_true fun same => ?_
    rw [show field.bitContainerIndex = invalidIndex from same] at within
    exact absurd (within.trans_le count) (by decide)

theorem containers_eq (checks : BinaryPrepared limits context counts prepared state fixed) :
    prepared.bitContainers = context.message.bitContainers.map bitContainerExecution := by
  rw [checks.description]
  rfl

/-- What the rules for a bit member give. -/
theorem bitMemberValid_spec {field : FieldPlan} {width : Nat}
    (valid : bitMemberValid field width = true) :
    0 < field.bitWidth ∧ field.bitWidth ≤ 64 ∧ field.bitOffset + field.bitWidth ≤ width * 8 ∧
      (field.valueType = .uint64 ∨ field.valueType = .bool ∨ field.valueType = .enum) ∧
      (field.valueType = .bool → field.bitWidth = 1) ∧
      (field.encodeSource = .input ∨ (field.valueType = .uint64 ∧
        field.encodeSource = .constant ∧ field.constantValue.getD 0 < 2 ^ field.bitWidth)) := by
  simp only [bitMemberValid, Bool.and_eq_true, Bool.or_eq_true, decide_eq_true_eq, beq_iff_eq,
    ne_eq] at valid
  obtain ⟨⟨⟨⟨⟨⟨⟨⟨nonzero, small⟩, offset⟩, inside⟩, type⟩, bool⟩, -⟩, source⟩, -⟩ := valid
  refine ⟨Nat.pos_of_ne_zero nonzero, small, by omega, by tauto, by tauto, ?_⟩
  rcases source with ⟨input, -⟩ | ⟨⟨unsigned, constant⟩, value⟩
  · exact Or.inl input
  · refine Or.inr ⟨unsigned, constant, ?_⟩
    obtain ⟨number, same, fits⟩ := (Option.any_eq_true _ _).mp value
    rw [same]
    exact (fitsUnsignedBits_iff.mp fits).2.2

theorem unconverted_of_bitfield {field : FieldPlan}
    (accepted : conversionReferenceInvalid context field = false)
    (bitfield : field.isBitfield = true) : field.hasConversion = false := by
  by_contra converted
  simp only [Bool.not_eq_false] at converted
  simp only [conversionReferenceInvalid, converted, Bool.true_and, Bool.or_eq_false_iff,
    bitfield, Bool.true_or] at accepted
  split at accepted <;> simp at accepted

theorem member_valid {field : FieldPlan} {placement : FieldPlacement} {index : Nat}
    {execution : FieldExecutionPlan}
    (described : Described context counts index field placement execution)
    (bitfield : field.isBitfield = true) :
    ∃ container, context.message.bitContainers[field.bitContainerIndex]? = some container ∧
      placement = ⟨container.byteOffset, container.byteWidth, some container⟩ ∧
        MemberValid (bitContainerExecution container) execution := by
  have place := placeField_spec described.passed.placed
  rw [if_pos bitfield] at place
  obtain ⟨container, found, rfl⟩ := place
  have typed := described.passed.typed
  simp only [fieldTypeInvalid, bitfield, if_true, Bool.not_eq_eq_eq_not, Bool.not_false] at typed
  obtain ⟨positive, small, inside, type, bool, source⟩ := bitMemberValid_spec typed
  have width : execution.bitWidth = field.bitWidth := by
    rw [described.description]
    exact Nat.mod_eq_of_lt (by omega)
  have shift : execution.bitShift = memberShift field container := by
    rw [described.description]
    rfl
  refine ⟨container, found, rfl, ?_⟩
  constructor
  · rwa [width]
  · have carried : (bitContainerExecution container).width = container.byteWidth := rfl
    rw [width, shift, memberShift, carried]
    split <;> omega
  · rw [width, shift, described.description]
    rfl
  · rw [described.description]
    exact type
  · rw [width, described.description]
    exact bool
  · rw [width, described.description]
    exact source
  · rw [described.description]
    exact unconverted_of_bitfield described.passed.conversion bitfield

/-- What the rules for a field with its own bytes give. -/
theorem plainType_spec {field : FieldPlan} {index width : Nat}
    (typed : fieldTypeInvalid context index field width = false)
    (plain : field.isBitfield = false) :
    uint64Valid context index field width = true ∨ int64Valid context field width = true ∨
      bytesValid field = true ∨ enumShapeValid field width = true := by
  simp only [fieldTypeInvalid, plain, Bool.false_eq_true, if_false, Bool.and_eq_false_iff,
    Bool.not_eq_eq_eq_not, Bool.not_false] at typed
  tauto

theorem plain_valid {field : FieldPlan} {placement : FieldPlacement} {index : Nat}
    {execution : FieldExecutionPlan}
    (described : Described context counts index field placement execution)
    (plain : field.isBitfield = false) :
    IntegerValid execution ∨ BytesValid execution := by
  have place := placeField_spec described.passed.placed
  rw [if_neg (by simp [plain])] at place
  obtain ⟨rfl, positive, -⟩ := place
  have order := described.byteOrder_eq
  have type := described.valueType_eq
  have source := described.encodeSource_eq
  have width : execution.width = field.byteWidth := described.width_eq
  have constant : execution.constantValue = field.constantValue.getD 0 := by
    rw [described.description]; rfl
  have signedConstant : execution.signedConstantValue = field.signedConstantValue.getD 0 := by
    rw [described.description]; rfl
  rcases plainType_spec described.passed.typed plain with unsigned | signed | bytes | enum
  · simp only [uint64Valid, Bool.and_eq_true, beq_iff_eq, decide_eq_true_eq] at unsigned
    obtain ⟨⟨⟨⟨⟨⟨isUnsigned, -⟩, small⟩, ordered⟩, -⟩, -⟩, sourced⟩ := unsigned
    refine Or.inl ⟨by rwa [width], by rwa [width], by rwa [order, width],
      by simp [type, isUnsigned], fun isConstant => ?_, fun _ => by rw [type, isUnsigned]⟩
    rw [source] at isConstant
    rw [isConstant] at sourced
    obtain ⟨number, same, fits⟩ := (Option.any_eq_true _ _).mp sourced
    exact Or.inl ⟨by rw [type, isUnsigned], by rw [constant, same, width]; exact fits⟩
  · simp only [int64Valid, Bool.and_eq_true, beq_iff_eq, decide_eq_true_eq] at signed
    obtain ⟨⟨⟨⟨⟨⟨⟨-, isSigned⟩, -⟩, small⟩, ordered⟩, -⟩, -⟩, sourced⟩ := signed
    refine Or.inl ⟨by rwa [width], by rwa [width], by rwa [order, width], by simp [type, isSigned],
      fun isConstant => ?_, fun isComputed => ?_⟩
    · rw [source] at isConstant
      rw [isConstant] at sourced
      obtain ⟨number, same, fits⟩ := (Option.any_eq_true _ _).mp sourced
      exact Or.inr ⟨by rw [type, isSigned], by rw [signedConstant, same, width]; exact fits⟩
    · rw [source] at isComputed
      simp [isComputed] at sourced
  · simp only [bytesValid, Bool.and_eq_true, beq_iff_eq] at bytes
    obtain ⟨⟨⟨⟨⟨⟨isBytes, -⟩, -⟩, isInput⟩, -⟩, -⟩, -⟩ := bytes
    refine Or.inr ⟨by rw [type, isBytes], by rw [source, isInput], ?_⟩
    by_contra converted
    have accepted := described.passed.conversion
    have isConverted : field.hasConversion = true := by
      rw [← described.hasConversion_eq]
      simpa using converted
    simp only [conversionReferenceInvalid, isConverted, Bool.true_and, Bool.or_eq_false_iff,
      isBytes] at accepted
    split at accepted <;> simp at accepted
  · simp only [enumShapeValid, Bool.and_eq_true, beq_iff_eq, decide_eq_true_eq] at enum
    obtain ⟨⟨⟨⟨⟨⟨⟨isEnum, -⟩, small⟩, ordered⟩, isInput⟩, -⟩, -⟩, -⟩ := enum
    refine Or.inl ⟨by rwa [width], by rwa [width], by rwa [order, width],
      Or.inr (Or.inr ⟨by rw [type, isEnum], by rw [source, isInput]⟩), fun isConstant => ?_,
      fun isComputed => ?_⟩
    · rw [source, isInput] at isConstant
      cases isConstant
    · rw [source, isInput] at isComputed
      cases isComputed

/-- Every field has one of the three forms. -/
theorem field_valid (checks : BinaryPrepared limits context counts prepared state fixed)
    {execution : FieldExecutionPlan} (member : execution ∈ prepared.fields) :
    FieldValid prepared execution := by
  obtain ⟨index, field, placement, found, described⟩ := checks.described_of_mem member
  have kind := checks.isMember_eq described
  cases bitfield : field.isBitfield with
  | true =>
    obtain ⟨container, there, -, valid⟩ := member_valid described bitfield
    rw [bitfield] at kind
    refine .member (bitContainerExecution container) (of_decide_eq_true kind) ?_ valid
    rw [checks.containers_eq, List.getElem?_map, described.container_eq, there]
    rfl
  | false =>
    rw [bitfield] at kind
    have plain : execution.bitContainerIndex = invalidIndex := by simpa [isMember] using kind
    rcases plain_valid described bitfield with integer | bytes
    · exact .integer plain integer
    · exact .bytes plain bytes

/-! ### Counting -/

/-- What is carried over field by field is carried over as a list. -/
theorem fields_map {β : Type} (checks : BinaryPrepared limits context counts prepared state fixed)
    (project : FieldExecutionPlan → β) (source : FieldPlan → β)
    (carried : ∀ index field placement execution,
      Described context counts index field placement execution →
        project execution = source field) :
    prepared.fields.map project = context.message.fields.map source := by
  refine List.ext_getElem? fun index => ?_
  rw [List.getElem?_map, List.getElem?_map]
  cases found : context.message.fields[index]? with
  | none =>
    have outside := List.getElem?_eq_none_iff.mp found
    rw [List.getElem?_eq_none]
    · rfl
    · rwa [checks.fields_eq, fieldLoop_length checks.placed]
  | some field =>
    obtain ⟨placement, execution, there, described⟩ := checks.describe found
    rw [there, Option.map_some, Option.map_some, carried _ _ _ _ described]

theorem countP_take (checks : BinaryPrepared limits context counts prepared state fixed)
    (count : FieldExecutionPlan → Bool) (source : FieldPlan → Bool)
    (carried : ∀ index field placement execution,
      Described context counts index field placement execution → count execution = source field)
    (size : Nat) :
    (prepared.fields.take size).countP count =
      (context.message.fields.take size).countP source := by
  have same := checks.fields_map count source carried
  have counted : ∀ {α : Type} (test : α → Bool) (items : List α),
      items.countP test = (items.map test).countP id := by
    intro α test items
    rw [List.countP_map]
    rfl
  rw [counted, counted source, List.map_take, List.map_take, same]

theorem isInput_eq {index : Nat} {field : FieldPlan} {placement : FieldPlacement}
    {execution : FieldExecutionPlan}
    (described : Described context counts index field placement execution) :
    isInput execution = field.isInput := by
  rw [isInput, FieldPlan.isInput, described.encodeSource_eq]

/-- The ordinal of an input is the number of inputs before it. -/
theorem ordinal (checks : BinaryPrepared limits context counts prepared state fixed) {index : Nat}
    {execution : FieldExecutionPlan} (found : prepared.fields[index]? = some execution)
    (input : execution.encodeSource = .input) :
    execution.inputOrdinal = (prepared.fields.take index).countP isInput := by
  obtain ⟨field, placement, described⟩ := checks.described found
  rw [checks.countP_take isInput FieldPlan.isInput (fun _ _ _ _ => isInput_eq),
    ← fieldLoop_inputOrdinal (checks.placed.take index)]
  rw [described.encodeSource_eq] at input
  rw [described.description]
  exact if_pos input

theorem requiredInputs (checks : BinaryPrepared limits context counts prepared state fixed) :
    prepared.requiredInputCount = prepared.fields.countP isInput := by
  have whole := checks.countP_take isInput FieldPlan.isInput (fun _ _ _ _ => isInput_eq)
    (max prepared.fields.length context.message.fields.length)
  rw [List.take_of_length_le (Nat.le_max_left _ _), List.take_of_length_le (Nat.le_max_right _ _),
    ← fieldLoop_inputOrdinal checks.placed, ← checks.looped.1] at whole
  rw [whole, checks.description]
  rfl

/-- The slot of a conversion is the number of conversions before it. -/
theorem slot (checks : BinaryPrepared limits context counts prepared state fixed) {index : Nat}
    {execution : FieldExecutionPlan} (found : prepared.fields[index]? = some execution)
    (converted : hasConversion execution = true) :
    execution.conversionSlot = (prepared.fields.take index).countP hasConversion := by
  obtain ⟨field, placement, described⟩ := checks.described found
  rw [checks.countP_take hasConversion FieldPlan.hasConversion
      (fun _ _ _ _ described => described.hasConversion_eq),
    ← fieldLoop_conversionSlot (checks.placed.take index)]
  rw [described.hasConversion_eq] at converted
  rw [described.description]
  exact if_pos converted

/-- Every conversion is one the codec can execute. -/
theorem conversion_valid (checks : BinaryPrepared limits context counts prepared state fixed)
    {execution : FieldExecutionPlan} (member : execution ∈ prepared.fields) :
    ConversionValid context.schemaVersion context.conversions execution := by
  intro converted
  obtain ⟨index, field, placement, found, described⟩ := checks.described_of_mem member
  have accepted := described.passed.conversion
  have isConverted : field.hasConversion = true := described.hasConversion_eq ▸ converted
  have reference : execution.conversionIndex = field.conversionIndex := by
    rw [described.description]; rfl
  simp only [conversionReferenceInvalid, isConverted, Bool.true_and, Bool.or_eq_false_iff,
    decide_eq_false_iff_not, not_not] at accepted
  obtain ⟨version, accepted⟩ := accepted
  split at accepted
  · cases accepted
  · rename_i conversion there
    simp only [Bool.or_eq_false_iff, decide_eq_false_iff_not, not_not] at accepted
    obtain ⟨⟨⟨plain, input⟩, -⟩, type⟩ := accepted
    obtain ⟨valid, raw⟩ := checks.conversions conversion (List.mem_of_getElem? there)
    refine ⟨by simpa [isConversionSchema] using version, ?_,
      by rw [described.encodeSource_eq, input], conversion, by rw [reference, there], valid, raw,
      by rw [type, described.valueType_eq]⟩
    have kind := checks.isMember_eq described
    rw [plain] at kind
    simpa [isMember] using kind

/-! ### Enumerations -/

/-- The entries of a field follow those of the fields before it. -/
theorem drop_flatMap {α β : Type} (items : List α) (entries : α → List β) {index : Nat} {item : α}
    (found : items[index]? = some item) :
    ∃ rest, (items.flatMap entries).drop ((items.take index).flatMap entries).length =
      entries item ++ rest := by
  have within := (List.getElem?_eq_some_iff.mp found).1
  have split : items = items.take index ++ item :: items.drop (index + 1) := by
    rw [← (List.getElem?_eq_some_iff.mp found).2, List.getElem_cons_drop, List.take_append_drop]
  refine ⟨(items.drop (index + 1)).flatMap entries, ?_⟩
  conv_lhs => rw [split]
  rw [List.flatMap_append, List.flatMap_cons]
  have whole : (items.take index ++ item :: items.drop (index + 1)).take index =
      items.take index := by rw [← split]
  rw [whole, List.drop_left]

theorem enum_valid (checks : BinaryPrepared limits context counts prepared state fixed)
    {execution : FieldExecutionPlan} (member : execution ∈ prepared.fields)
    (enum : execution.valueType = .enum) : ∃ entries, EnumValid prepared execution entries := by
  obtain ⟨index, field, placement, found, described⟩ := checks.described_of_mem member
  have type : field.valueType = .enum := described.valueType_eq ▸ enum
  have own : field.enumeration = field.enumEntries := if_pos type
  have placed := checks.placed
  have accepted := described.passed.entries
  simp only [enumEntriesInvalid, type, beq_self_eq_true, Bool.true_and, Bool.or_eq_false_iff,
    List.any_eq_false, decide_eq_false_iff_not, not_not, Bool.not_eq_true] at accepted
  obtain ⟨⟨entriesFit, -⟩, distinct⟩ := accepted
  have rawValues : prepared.enumRawValues =
      context.message.fields.flatMap fun field => field.enumeration.map (·.rawValue) := by
    rw [← @fieldLoop_enumRawValues _ counts _ placed, ← checks.looped.1, checks.description]
    rfl
  have lookups : prepared.enumLookupEntries =
      context.message.fields.flatMap fun field => sortedLookup field.enumeration := by
    rw [← @fieldLoop_enumLookupEntries _ counts _ placed, ← checks.looped.1,
      checks.description]
    rfl
  refine ⟨field.enumEntries, distinct, ?_, ?_, fun entry listed => ?_, ?_, ?_⟩
  · rw [described.description, ← own]; rfl
  · rw [described.description, ← own]; rfl
  · have fits := entriesFit entry listed
    simp only [Bool.not_eq_false'] at fits
    have kind := checks.isMember_eq described
    rw [rawBitCount, kind]
    cases bitfield : field.isBitfield with
    | true =>
      simp only [bitfield, if_true] at fits
      obtain ⟨positive, small, less⟩ := fitsUnsignedBits_iff.mp fits.2
      have width : execution.bitWidth = field.bitWidth := by
        rw [described.description]
        exact Nat.mod_eq_of_lt (by omega)
      rwa [if_pos rfl, width]
    | false =>
      simp only [bitfield, Bool.false_eq_true, if_false] at fits
      rw [if_neg (by simp), described.width_eq]
      exact (fitsUnsignedWidth_iff.mp fits.2).2.2
  · have begin : execution.enumValuesBegin = ((context.message.fields.take index).flatMap
        fun field => field.enumeration.map (·.rawValue)).length := by
      rw [described.description, ← @fieldLoop_enumRawValues _ counts _ (placed.take index)]
      rfl
    rw [rawValues, begin, ← own]
    exact drop_flatMap _ (fun field : FieldPlan => field.enumeration.map (·.rawValue))
      described.found
  · have begin : execution.enumLookupBegin = ((context.message.fields.take index).flatMap
        fun field => sortedLookup field.enumeration).length := by
      rw [described.description,
        ← @fieldLoop_enumLookupEntries _ counts _ (placed.take index)]
      rfl
    rw [lookups, begin, ← own]
    exact drop_flatMap _ (fun field : FieldPlan => sortedLookup field.enumeration) described.found

/-! ### The computed length -/

/-- A computed field is the one the computed length of the message names. -/
theorem computed_field (checks : BinaryPrepared limits context counts prepared state fixed)
    {index : Nat} {execution : FieldExecutionPlan}
    (found : prepared.fields[index]? = some execution)
    (isComputed : execution.encodeSource = .computed) :
    ∃ computed, prepared.computedLength = some computed ∧ computed.fieldIndex = index := by
  obtain ⟨field, placement, described⟩ := checks.described found
  have source : field.encodeSource = .computed := described.encodeSource_eq ▸ isComputed
  have typed := described.passed.typed
  have plain : field.isBitfield = false := by
    by_contra bitfield
    simp only [Bool.not_eq_false] at bitfield
    obtain ⟨container, -, -, valid⟩ := member_valid described bitfield
    rcases valid.source with input | ⟨-, constant, -⟩
    · rw [isComputed] at input
      cases input
    · rw [isComputed] at constant
      cases constant
  rcases plainType_spec typed plain with unsigned | signed | bytes | enum
  · simp only [uint64Valid, source, Bool.and_eq_true] at unsigned
    obtain ⟨computed, same, named⟩ := (Option.any_eq_true _ _).mp unsigned.2.2
    simp only [Bool.and_eq_true, decide_eq_true_eq] at named
    refine ⟨computed, ?_, ?_⟩
    · rw [checks.description]
      exact same
    · rw [named.1.1.1, described.length_eq checks]
  · simp [int64Valid, source] at signed
  · simp [bytesValid, source] at bytes
  · simp [enumShapeValid, source] at enum

/-- What the descriptor takes over from the draft. -/
theorem carried (checks : BinaryPrepared limits context counts prepared state fixed) :
    prepared.computedLength = context.message.computedLength ∧
      prepared.boundedPayload = context.message.boundedPayload ∧
      prepared.integrity = context.message.integrity ∧
      prepared.frameSize = context.message.frameLengthBytes ∧ prepared.fixedBytes = fixed := by
  rw [checks.description]
  exact ⟨rfl, rfl, rfl, rfl, rfl⟩

theorem storageLimit_eq (checks : BinaryPrepared limits context counts prepared state fixed) :
    storageLimit prepared =
      layoutLimit context.message.boundedPayload context.message.frameLengthBytes := by
  obtain ⟨-, payload, -, size, -⟩ := checks.carried
  rw [storageLimit, payload, size]

/-- The rules for the storage and the scope of a computed length. -/
theorem computedStorage_valid (checks : BinaryPrepared limits context counts prepared state fixed)
    {computed : ComputedLengthPlan}
    (accepted : computedLengthInvalid context.schemaVersion context.message computed = false) :
    computedStorageValid prepared computed = true ∧
      computed.expectedValue = longestLength prepared computed ∧
      fitsUnsignedWidth (longestLength prepared computed) computed.storageWidth = true ∧
      computed.fieldIndex < context.message.fields.length := by
  obtain ⟨-, payload, -, size, -⟩ := checks.carried
  have longest : longestLength prepared computed =
      computedLengthExpected context.message computed := by
    rw [longestLength, payload, size]
    rfl
  simp only [computedLengthInvalid, Bool.or_eq_false_iff, decide_eq_false_iff_not, not_not,
    Bool.not_eq_false'] at accepted
  obtain ⟨⟨⟨⟨⟨⟨⟨-, inside⟩, width⟩, order⟩, storage⟩, scope⟩, expected⟩, fits⟩ := accepted
  rw [← longest] at expected fits
  refine ⟨?_, expected, fits, Nat.lt_of_not_le inside⟩
  rw [isRangeWithin_iff] at storage
  simp only [computedStorageValid, checks.storageLimit_eq, Bool.and_eq_true, decide_eq_true_eq]
  refine ⟨⟨⟨⟨?_, ?_⟩, by omega⟩, by omega⟩, ?_⟩
  · simp only [Bool.and_eq_false_iff, decide_eq_false_iff_not, not_not] at width
    simpa [or_assoc] using width
  · split at order
    · rename_i single
      simpa [single] using order
    · rename_i several
      simpa [several, or_iff_not_imp_left] using order
  · rw [computedScopeInvalid] at scope
    cases kind : computed.scope <;> simp only [kind] at scope ⊢
    · simpa using scope
    · simp only [Bool.or_eq_false_iff, decide_eq_false_iff_not, Bool.not_eq_false',
        isRangeWithin_iff] at scope
      obtain ⟨⟨-, nonempty⟩, -, within⟩ := scope
      simp only [Bool.and_eq_true, decide_eq_true_eq, size]
      omega
    · simpa [payload] using scope

/-- The field of a computed length is the one its descriptor states. -/
theorem computedField_matches
    (checks : BinaryPrepared limits context counts prepared state fixed)
    {computed : ComputedLengthPlan} {index : Nat} {field : FieldPlan} {placement : FieldPlacement}
    {execution : FieldExecutionPlan}
    (described : Described context counts index field placement execution)
    (accepted : computedFieldInvalid computed field = false) :
    computedFieldMatches computed execution = true := by
  simp only [computedFieldInvalid, Bool.or_eq_false_iff, decide_eq_false_iff_not, not_not]
    at accepted
  obtain ⟨⟨⟨⟨⟨⟨⟨⟨type, wire⟩, source⟩, constant⟩, signed⟩, -⟩, offset⟩, width⟩, order⟩ := accepted
  have plain : field.isBitfield = false := by simp [FieldPlan.isBitfield, wire]
  have place := placeField_spec described.passed.placed
  rw [if_neg (by simp [plain])] at place
  have kind := checks.isMember_eq described
  rw [plain] at kind
  have free : execution.hasConstant = false := by
    rw [described.description]
    simp [fieldExecution, constant, signed]
  simp only [computedFieldMatches, described.valueType_eq, described.encodeSource_eq,
    described.offset_eq, described.width_eq, described.byteOrder_eq, place.1, type, source, offset,
    width, order, free]
  simpa [isMember] using kind

/-- The rules for a computed length, in the words of the codec. -/
theorem length_valid (checks : BinaryPrepared limits context counts prepared state fixed) :
    computedLengthDescriptorValid prepared = true := by
  have accepted := checks.computed
  obtain ⟨same, -⟩ := checks.carried
  rw [checkComputedLength] at accepted
  rw [computedLengthDescriptorValid, same]
  cases computation : context.message.computedLength with
  | none =>
    refine List.all_eq_true.mpr fun execution member => decide_eq_true fun isComputed => ?_
    obtain ⟨index, found⟩ := List.mem_iff_getElem?.mp member
    obtain ⟨computed, named, -⟩ := checks.computed_field found isComputed
    rw [same, computation] at named
    cases named
  | some computed =>
    simp only [computation, rejectIf_bind_eq_ok, rejectIf_eq_ok, not_or, Bool.not_eq_true]
      at accepted
    obtain ⟨⟨-, -, -, -, valid⟩, fieldValid⟩ := accepted
    obtain ⟨storage, expected, fits, inside⟩ := checks.computedStorage_valid valid
    obtain ⟨placement, execution, there, described⟩ :=
      checks.describe (List.getElem?_eq_getElem inside)
    rw [described.found, Option.any_some] at fieldValid
    simp only [there, storage, ← expected, checks.computedField_matches described fieldValid,
      beq_self_eq_true, Bool.true_and, Bool.and_true]
    rwa [expected]

/-! ### The layout -/

theorem container_valid (checks : BinaryPrepared limits context counts prepared state fixed)
    {execution : BitContainerExecutionPlan} (member : execution ∈ prepared.bitContainers) :
    ContainerValid prepared execution := by
  rw [checks.containers_eq] at member
  obtain ⟨container, listed, rfl⟩ := List.mem_map.mp member
  have accepted := checks.containers
  simp only [checkBitContainers, rejectIf_eq_ok, not_or, List.any_eq_true, not_exists, not_and,
    Bool.not_eq_true] at accepted
  have valid := accepted.1 container listed
  simp only [bitContainerInvalid, Bool.or_eq_false_iff, Bool.not_eq_false', isRangeWithin_iff,
    Bool.and_eq_false_iff, decide_eq_false_iff_not, not_not] at valid
  obtain ⟨⟨⟨⟨⟨-, width⟩, -⟩, order⟩, base⟩, positive, inside⟩ := valid
  rw [fitsUnsignedWidth_iff] at base
  refine ⟨positive, base.2.1, ?_, ?_, base.2.2⟩
  · change isIntegerByteOrderValid container.byteOrder container.byteWidth = true
    rw [isBitContainerByteOrderValid] at order
    rw [isIntegerByteOrderValid]
    split
    · rfl
    · rename_i several
      rwa [if_neg several] at order
  · rw [checks.storageLimit_eq]
    exact inside

/-- A field that is no member lies in the static layout, unless it is the payload. -/
theorem plain_inside (checks : BinaryPrepared limits context counts prepared state fixed)
    {index : Nat} {execution : FieldExecutionPlan}
    (found : prepared.fields[index]? = some execution) (plain : isMember execution = false) :
    if isPayload prepared index then execution.valueType = .bytes
    else execution.offset + execution.width ≤ storageLimit prepared := by
  obtain ⟨field, placement, described⟩ := checks.described found
  obtain ⟨-, payload, -, size, -⟩ := checks.carried
  rw [checks.isMember_eq described] at plain
  have place := placeField_spec described.passed.placed
  rw [if_neg (by simp [plain])] at place
  obtain ⟨rfl, positive, inside⟩ := place
  have accepted := described.passed.bounded
  rw [boundedFieldInvalid, described.length_eq checks] at accepted
  rw [isPayload, payload, checks.storageLimit_eq, described.offset_eq, described.width_eq,
    described.valueType_eq]
  cases payload : context.message.boundedPayload with
  | none =>
    rw [if_neg (by simp)]
    exact inside
  | some bounded =>
    simp only [payload] at accepted
    rw [Option.any_some]
    split at accepted
    · rename_i here
      simp only [Bool.or_eq_false_iff, decide_eq_false_iff_not, not_not] at accepted
      rw [if_pos (by simp [here])]
      exact accepted.1.1.1
    · rename_i elsewhere
      simp only [plain, Bool.not_false, Bool.true_and, Bool.or_eq_false_iff, Bool.not_eq_false',
        isRangeWithin_iff] at accepted
      rw [if_neg (by simpa using fun same => elsewhere same.symm)]
      exact accepted.2.2

/-! ### The bounded payload -/

/-- A sum that passed its overflow checks is the sum. -/
theorem addSizesChecked_eq {sizes : List Nat} {total : Nat}
    (added : addSizesChecked sizes = some total) : total = sizes.sum := by
  have general : ∀ (sizes : List Nat) (start total : Nat),
      sizes.foldlM (fun total size => addSizeChecked size total) start = some total →
        total = start + sizes.sum := by
    intro sizes
    induction sizes with
    | nil =>
      intro start total added
      simpa using added.symm
    | cons size rest inductionHypothesis =>
      intro start total added
      rw [List.foldlM_cons] at added
      obtain ⟨next, step, added⟩ := Option.bind_eq_some_iff.mp added
      have grown : next = start + size := by
        rw [addSizeChecked, Option.ite_none_left_eq_some, Option.some.injEq] at step
        exact step.2.symm
      rw [inductionHypothesis next total added, grown, List.sum_cons, Nat.add_assoc]
  simpa using general sizes 0 total added

/-- The trailer of a bounded payload is the storage of the checksum. -/
theorem expectedTrailer_eq (integrity : Option IntegrityPlan) (trailer : Nat) :
    expectedTrailer integrity = some trailer → trailer = match integrity with
      | some integrity => integrityStorageWidth integrity
      | none => 0 := by
  intro expected
  cases integrity with
  | none => exact (Option.some.inj expected).symm
  | some integrity =>
    rw [expectedTrailer] at expected
    simp only [integrityStorageWidth]
    cases algorithm : integrity.algorithm <;> simp only [algorithm] at expected ⊢
    · exact (Option.some.inj expected).symm
    · split at expected
      · exact (Option.some.inj expected).symm
      · cases expected

theorem payload_valid (checks : BinaryPrepared limits context counts prepared state fixed)
    {bounded : BoundedPayloadPlan} (payload : prepared.boundedPayload = some bounded) :
    PayloadValid prepared bounded := by
  obtain ⟨-, same, integrity, size, bytes⟩ := checks.carried
  rw [same] at payload
  have accepted := checks.bounded
  rw [checkBoundedPayload] at accepted
  simp only [payload] at accepted
  cases expected : expectedTrailer context.message.integrity with
  | none => simp [expected] at accepted
  | some trailer =>
    simp only [expected] at accepted
    rw [rejectIf_eq_ok, Bool.not_eq_true] at accepted
    simp only [boundedPayloadInvalid, Bool.or_eq_false_iff, decide_eq_false_iff_not, not_not]
      at accepted
    obtain ⟨⟨⟨⟨⟨⟨⟨⟨⟨⟨⟨⟨⟨⟨⟨-, -⟩, inside⟩, -⟩, -⟩, -⟩, -⟩, ordered⟩, -⟩, trailerIs⟩, -⟩, -⟩,
      shortest⟩, longest⟩, frame⟩, -⟩ := accepted
    refine ⟨Nat.le_of_not_lt ordered, ?_, ?_, ?_, ?_, ?_, ?_⟩
    · have := addSizesChecked_eq shortest
      simpa [Nat.add_assoc] using this
    · have := addSizesChecked_eq longest
      simpa [Nat.add_assoc] using this
    · rw [size, frame]
    · rw [trailerIs, integrity]
      exact expectedTrailer_eq _ _ expected
    · obtain ⟨placement, execution, there, described⟩ :=
        checks.describe (List.getElem?_eq_getElem (Nat.lt_of_not_le inside))
      have lies := described.passed.bounded
      rw [boundedFieldInvalid, described.length_eq checks] at lies
      simp only [payload, if_true, Bool.or_eq_false_iff, decide_eq_false_iff_not, not_not] at lies
      obtain ⟨⟨⟨type, wire⟩, offset⟩, width⟩ := lies
      have kind := checks.isMember_eq described
      refine ⟨execution, there, ?_, by rw [described.valueType_eq, type],
        by rw [described.offset_eq, offset], by rw [described.width_eq, width]⟩
      have plain : isMember execution = false :=
        kind.trans (by rw [FieldPlan.isBitfield, wire]; rfl)
      simpa [isMember] using plain
    · have collected := checks.matchers
      simp only [collectMatchers, bind_eq_ok, rejectIf_eq_ok, pure_eq_ok, payload,
        Option.isSome_some, true_and] at collected
      obtain ⟨found, -, -, nonempty, -, -, rfl⟩ := collected
      rwa [bytes]

end BinaryPrepared

end

end ProtocolAdapter.Codec
