/-
This file shows that the matchers of a binary message agree with every bit no input can
change: the constants and the base values of its containers. It then collects everything
the builder establishes about the message.
-/

import ProtocolAdapter.Codec.Separated

namespace ProtocolAdapter.Codec

open Foundation

/-! ### Tallies -/

/-- The bits of all members of a container. -/
theorem foldl_memberMask (members : List FieldExecutionPlan) (tally : ContainerTally)
    (position : Nat) :
    (members.foldl ContainerTally.addMember tally).memberMask.testBit position =
      (tally.memberMask.testBit position ||
        members.any fun field => field.bitMask.testBit position) := by
  induction members generalizing tally with
  | nil => simp
  | cons field rest inductionHypothesis =>
    rw [List.foldl_cons, inductionHypothesis, ContainerTally.addMember, Nat.testBit_or,
      List.any_cons, Bool.or_assoc]

/-- The masks and the values of a tally fit 64 bits. -/
structure TallySmall (tally : ContainerTally) : Prop where
  mask : tally.determinedMask < 2 ^ 64
  value : tally.determinedValue < 2 ^ 64

theorem clearBits_lt {value mask : Nat} (small : value < 2 ^ 64) : clearBits value mask < 2 ^ 64 :=
  lt_of_le_of_lt Nat.and_le_left small

theorem addMember_small {tally : ContainerTally} {field : FieldExecutionPlan}
    (small : TallySmall tally) (mask : field.bitMask < 2 ^ 64) :
    TallySmall (tally.addMember field) := by
  unfold ContainerTally.addMember
  constructor
  · simp only
    split
    · exact clearBits_lt small.mask
    · exact small.mask
  · simp only
    split
    · exact small.value
    · exact Nat.or_lt_two_pow (clearBits_lt small.value) (lt_of_le_of_lt Nat.and_le_right mask)

theorem foldl_small {members : List FieldExecutionPlan} {tally : ContainerTally}
    (small : TallySmall tally) (masks : ∀ field ∈ members, field.bitMask < 2 ^ 64) :
    TallySmall (members.foldl ContainerTally.addMember tally) := by
  induction members generalizing tally with
  | nil => exact small
  | cons field rest inductionHypothesis =>
    exact inductionHypothesis (addMember_small small (masks field List.mem_cons_self))
      fun other member => masks other (List.mem_cons_of_mem _ member)

/-- Members that do not own a bit leave it as it is. -/
theorem foldl_untouched {members : List FieldExecutionPlan} {tally : ContainerTally}
    (small : TallySmall tally) (masks : ∀ field ∈ members, field.bitMask < 2 ^ 64)
    (position : Nat) (free : ∀ field ∈ members, field.bitMask.testBit position = false) :
    (members.foldl ContainerTally.addMember tally).determinedMask.testBit position =
        tally.determinedMask.testBit position ∧
      (members.foldl ContainerTally.addMember tally).determinedValue.testBit position =
        tally.determinedValue.testBit position := by
  induction members generalizing tally with
  | nil => exact ⟨rfl, rfl⟩
  | cons field rest inductionHypothesis =>
    have mask := masks field List.mem_cons_self
    have clear := free field List.mem_cons_self
    obtain ⟨sameMask, sameValue⟩ := inductionHypothesis (addMember_small small mask)
      (fun other member => masks other (List.mem_cons_of_mem _ member))
      fun other member => free other (List.mem_cons_of_mem _ member)
    rw [List.foldl_cons, sameMask, sameValue]
    unfold ContainerTally.addMember
    constructor
    · simp only
      split
      · rw [testBit_clearBits small.mask, clear, Bool.not_false, Bool.and_true]
      · rfl
    · simp only
      split
      · rfl
      · rw [Nat.testBit_or, Nat.testBit_and, testBit_clearBits small.value, clear]
        simp

/-- A constant member fixes its bits. -/
theorem addMember_constant {tally : ContainerTally} {field : FieldExecutionPlan} {position : Nat}
    (small : TallySmall tally) (constant : field.encodeSource = .constant)
    (owns : field.bitMask.testBit position = true) :
    (tally.addMember field).determinedMask.testBit position =
        tally.determinedMask.testBit position ∧
      (tally.addMember field).determinedValue.testBit position =
        (field.constantValue <<< field.bitShift).testBit position := by
  have notInput : ¬field.encodeSource = .input := by simp [constant]
  unfold ContainerTally.addMember
  simp only [if_neg notInput, true_and]
  rw [Nat.testBit_or, Nat.testBit_and, testBit_clearBits small.value, owns]
  simp

/-! ### Members -/

section

variable {limits : ResourceProfileLimits} {context : FieldContext} {counts : List Nat}
  {prepared : MessageExecutionPlan} {state : FieldLoopState}
  {fixed : List FixedByteExecutionPlan}

namespace BinaryPrepared

/-- The mask of a member fits 64 bits, and its bits lie in its container. -/
theorem member_mask (checks : BinaryPrepared limits context counts prepared state fixed)
    {execution : FieldExecutionPlan} (member : execution ∈ prepared.fields)
    (bitfield : isMember execution = true) : ∃ container,
      prepared.bitContainers[execution.bitContainerIndex]? = some container ∧
        MemberValid container execution ∧ execution.bitMask < 2 ^ (8 * container.width) ∧
          execution.bitMask < 2 ^ 64 := by
  cases checks.field_valid member with
  | member container real found valid =>
    have bounds := checks.container_valid (List.mem_of_getElem? found)
    have small : execution.bitMask < 2 ^ (8 * container.width) := by
      rw [valid.mask, Nat.shiftLeft_eq]
      have inside := valid.inside
      calc (2 ^ execution.bitWidth - 1) * 2 ^ execution.bitShift
          < 2 ^ execution.bitWidth * 2 ^ execution.bitShift :=
            Nat.mul_lt_mul_of_pos_right (Nat.sub_lt (Nat.two_pow_pos _) Nat.one_pos)
              (Nat.two_pow_pos _)
        _ = 2 ^ (execution.bitWidth + execution.bitShift) := (Nat.pow_add _ _ _).symm
        _ ≤ 2 ^ (8 * container.width) := Nat.pow_le_pow_right (by decide) (by omega)
    exact ⟨container, found, valid, small, lt_of_lt_of_le small
      (Nat.pow_le_pow_right (by decide) (by have := bounds.bounded; omega))⟩
  | integer plain valid => simp [isMember, plain] at bitfield
  | bytes plain valid => simp [isMember, plain] at bitfield

/-- The fields described after some rounds of the loop are the first ones. -/
theorem loop_fields (checks : BinaryPrepared limits context counts prepared state fixed)
    (size : Nat) : (fieldLoop context.message counts (context.message.fields.take size)).fields =
      prepared.fields.take size := by
  refine List.ext_getElem? fun index => ?_
  rw [List.getElem?_take]
  by_cases within : index < size
  · rw [if_pos within]
    cases there : context.message.fields[index]? with
    | none =>
      have outside := List.getElem?_eq_none_iff.mp there
      rw [List.getElem?_eq_none, List.getElem?_eq_none]
      · rwa [checks.fields_eq, fieldLoop_length checks.placed]
      · rw [fieldLoop_length (checks.placed.take size), List.length_take]
        omega
    | some field =>
      obtain ⟨placement, passed⟩ := checks.looped.2 index field there
      rw [checks.fields_eq, fieldLoop_getElem? checks.placed there passed.placed,
        fieldLoop_getElem? (checks.placed.take size)
          (by rw [List.getElem?_take, if_pos within, there]) passed.placed, List.take_take,
        Nat.min_eq_left within.le]
  · rw [if_neg within, List.getElem?_eq_none]
    rw [fieldLoop_length (checks.placed.take size), List.length_take]
    omega

/-- The tally of a container after some rounds counts its members among the first fields. -/
theorem loop_tally (checks : BinaryPrepared limits context counts prepared state fixed)
    (size : Nat) {containerIndex : Nat} {container : BitContainerPlan}
    (found : context.message.bitContainers[containerIndex]? = some container) :
    (fieldLoop context.message counts (context.message.fields.take size)).tallies[containerIndex]? =
      some ((membersOf containerIndex (prepared.fields.take size)).foldl
        ContainerTally.addMember (emptyTally container)) := by
  have real : containerIndex ≠ invalidIndex := by
    have within := (List.getElem?_eq_some_iff.mp found).1
    have count := checks.containerCount
    rintro rfl
    exact absurd (within.trans_le count) (by decide)
  rw [← checks.loop_fields]
  exact fieldLoop_tally (checks.placed.take size)
    (fun field member => checks.resolved field (List.mem_of_mem_take member)) real found

/-- No two members of a container share a bit. -/
theorem members_apart (checks : BinaryPrepared limits context counts prepared state fixed)
    {left right : Nat} {leftField rightField : FieldExecutionPlan} (order : left < right)
    (leftFound : prepared.fields[left]? = some leftField)
    (rightFound : prepared.fields[right]? = some rightField)
    (member : isMember leftField = true)
    (same : leftField.bitContainerIndex = rightField.bitContainerIndex) (position : Nat) :
    ¬(leftField.bitMask.testBit position = true ∧ rightField.bitMask.testBit position = true) := by
  rintro ⟨leftOwns, rightOwns⟩
  obtain ⟨field, placement, described⟩ := checks.described rightFound
  have kind := checks.isMember_eq described
  have bitfield : field.isBitfield = true := by
    rw [← kind]
    rw [isMember, same] at member
    exact member
  obtain ⟨container, there, rfl, -⟩ := member_valid described bitfield
  have apart := described.passed.apart
  simp only [memberOverlaps, checks.loop_tally right there, decide_eq_false_iff_not, not_not]
    at apart
  have bit := congrArg (Nat.testBit · position) apart
  have mask : rightField.bitMask = memberMask field container := by
    rw [described.description]
    rfl
  rw [mask] at rightOwns
  simp only [Nat.testBit_and, foldl_memberMask, rightOwns, Bool.and_true, Nat.zero_testBit,
    Bool.or_eq_false_iff, List.any_eq_false] at bit
  refine bit.2 leftField ?_ leftOwns
  refine List.mem_filter.mpr ⟨?_, decide_eq_true ?_⟩
  · refine List.mem_of_getElem? (i := left) ?_
    rw [List.getElem?_take, if_pos order, leftFound]
  · rw [same, described.container_eq]

theorem members_pairwise (checks : BinaryPrepared limits context counts prepared state fixed)
    {containerIndex : Nat} (real : containerIndex ≠ invalidIndex) :
    (membersOf containerIndex prepared.fields).Pairwise fun left right => ∀ position,
      ¬(left.bitMask.testBit position = true ∧ right.bitMask.testBit position = true) := by
  rw [membersOf, List.pairwise_filter, List.pairwise_iff_getElem]
  intro left right leftBound rightBound order leftMember rightMember
  have leftIs := of_decide_eq_true leftMember
  have rightIs := of_decide_eq_true rightMember
  refine checks.members_apart order (List.getElem?_eq_getElem leftBound)
    (List.getElem?_eq_getElem rightBound) ?_ (leftIs.trans rightIs.symm)
  rw [isMember, leftIs]
  exact decide_eq_true real

/-! ### Matchers against containers -/

/-- The tally knows the bits that no input can change. -/
theorem determined_bit (checks : BinaryPrepared limits context counts prepared state fixed)
    {containerIndex : Nat} {container : BitContainerPlan}
    (found : context.message.bitContainers[containerIndex]? = some container) {position : Nat}
    (inside : position < 8 * container.byteWidth) {bit : Bool}
    (determined : DeterminedBit prepared containerIndex (bitContainerExecution container)
      position bit) :
    let tally := (membersOf containerIndex prepared.fields).foldl ContainerTally.addMember
      (emptyTally container)
    tally.determinedMask.testBit position = true ∧
      tally.determinedValue.testBit position = bit := by
  have real : containerIndex ≠ invalidIndex := by
    have within := (List.getElem?_eq_some_iff.mp found).1
    have count := checks.containerCount
    rintro rfl
    exact absurd (within.trans_le count) (by decide)
  have member : bitContainerExecution container ∈ prepared.bitContainers :=
    checks.containers_eq ▸ List.mem_map_of_mem (List.mem_of_getElem? found)
  have valid := checks.container_valid member
  have widthBound : 2 ^ (8 * container.byteWidth) ≤ 2 ^ 64 :=
    Nat.pow_le_pow_right (by decide) (by have : container.byteWidth ≤ 8 := valid.bounded; omega)
  have start : TallySmall (emptyTally container) := by
    refine ⟨?_, lt_of_lt_of_le valid.base widthBound⟩
    exact lt_of_lt_of_le (Nat.sub_lt (Nat.two_pow_pos _) Nat.one_pos) widthBound
  have masks : ∀ field ∈ membersOf containerIndex prepared.fields, field.bitMask < 2 ^ 64 := by
    intro field member
    obtain ⟨listed, same⟩ := List.mem_filter.mp member
    have bitfield : isMember field = true := by
      rw [isMember, of_decide_eq_true same]
      exact decide_eq_true real
    obtain ⟨-, -, -, -, small⟩ := checks.member_mask listed bitfield
    exact small
  have emptyMask : (emptyTally container).determinedMask.testBit position = true := by
    rw [emptyTally, widthMask, Nat.testBit_two_pow_sub_one]
    exact decide_eq_true inside
  rcases determined with ⟨field, listed, same, constant, owns, value⟩ | ⟨free, value⟩
  · have member : field ∈ membersOf containerIndex prepared.fields :=
      List.mem_filter.mpr ⟨listed, decide_eq_true same⟩
    obtain ⟨before, after, split⟩ := List.append_of_mem member
    have apart := checks.members_pairwise real
    rw [split, List.pairwise_append, List.pairwise_cons] at apart
    obtain ⟨-, ⟨later, -⟩, earlier⟩ := apart
    rw [split] at masks
    have beforeMasks : ∀ other ∈ before, other.bitMask < 2 ^ 64 :=
      fun other there => masks other (List.mem_append_left _ there)
    have afterMasks : ∀ other ∈ after, other.bitMask < 2 ^ 64 := fun other there =>
      masks other (List.mem_append_right _ (List.mem_cons_of_mem _ there))
    have smallBefore := foldl_small start beforeMasks
    have fieldMask := masks field (List.mem_append_right _ List.mem_cons_self)
    obtain ⟨beforeMask, -⟩ := foldl_untouched start beforeMasks position
      fun other there => by
        have distinct := earlier other there field List.mem_cons_self position
        simpa [owns] using distinct
    obtain ⟨fieldKeeps, fieldFixes⟩ := addMember_constant smallBefore constant owns
    obtain ⟨afterMask, afterValue⟩ := foldl_untouched (addMember_small smallBefore fieldMask)
      afterMasks position fun other there => by
        have distinct := later other there position
        simpa [owns] using distinct
    simp only [split, List.foldl_append, List.foldl_cons]
    rw [afterMask, afterValue, fieldKeeps, fieldFixes, beforeMask]
    exact ⟨emptyMask, value⟩
  · obtain ⟨sameMask, sameValue⟩ := foldl_untouched start masks position
      fun field member => by
        obtain ⟨listed, same⟩ := List.mem_filter.mp member
        exact free field listed (of_decide_eq_true same)
    simp only [sameMask, sameValue]
    exact ⟨emptyMask, value⟩

/-- Bytes that agree under a mask agree in every bit of the mask. -/
theorem masked_agree {value : UInt8} {determined mask shift : Nat}
    (agree : ((value ^^^ UInt8.ofNat (determined >>> shift)) &&& UInt8.ofNat (mask >>> shift)) = 0)
    {bit : Nat} (small : bit < 8) (owned : mask.testBit (shift + bit) = true) :
    value.toNat.testBit bit = determined.testBit (shift + bit) := by
  have equal := congrArg (fun byte : UInt8 => byte.toNat.testBit bit) agree
  simp only [UInt8.toNat_and, UInt8.toNat_xor, UInt8.toNat_ofNat', Nat.testBit_and,
    Nat.testBit_xor, Nat.testBit_mod_two_pow, Nat.testBit_shiftRight, small, decide_true,
    Bool.true_and, owned, Bool.and_true] at equal
  simpa using equal

theorem containers_agree (checks : BinaryPrepared limits context counts prepared state fixed)
    {containerIndex : Nat} {container : BitContainerExecutionPlan}
    (found : prepared.bitContainers[containerIndex]? = some container)
    {byte : FixedByteExecutionPlan} (member : byte ∈ prepared.fixedBytes)
    (inside : InRange byte.offset container.offset container.width) {bit : Nat} (small : bit < 8)
    {determined : Bool} (is : DeterminedBit prepared containerIndex container
      (bytePosition container (byte.offset - container.offset) + bit) determined) :
    byte.value.toNat.testBit bit = determined := by
  obtain ⟨-, -, -, -, bytes⟩ := checks.carried
  rw [bytes] at member
  obtain ⟨sorted, -, -, -⟩ := collectMatchers_spec checks.matchers
  rw [checks.containers_eq, List.getElem?_map, Option.map_eq_some_iff] at found
  obtain ⟨source, there, rfl⟩ := found
  obtain ⟨above, below⟩ : source.byteOffset ≤ byte.offset ∧
    byte.offset < source.byteOffset + source.byteWidth := inside
  have tally := checks.loop_tally context.message.fields.length there
  rw [List.take_length, ← checks.looped.1] at tally
  have length : prepared.fields.length = context.message.fields.length := by
    rw [checks.fields_eq, fieldLoop_length checks.placed]
  rw [← length, List.take_length] at tally
  have index : byte.offset - source.byteOffset < source.byteWidth := by omega
  have position : bytePosition (bitContainerExecution source)
      (byte.offset - (bitContainerExecution source).offset) =
        logicalByte source (byte.offset - source.byteOffset) * 8 := by
    rw [bytePosition, logicalByte, Nat.mul_comm]
    rfl
  rw [position] at is
  have logical : logicalByte source (byte.offset - source.byteOffset) < source.byteWidth := by
    rw [logicalByte]
    split <;> omega
  obtain ⟨owned, value⟩ := checks.determined_bit there (by omega) is
  have accepted := checks.determined
  simp only [checkDetermined, rejectIf_bind_eq_ok, rejectIf_eq_ok, Bool.not_eq_true,
    List.any_eq_false] at accepted
  have pair := (List.getElem?_zip_eq_some (z := (source, _))).mpr ⟨there, tally⟩
  have agree := accepted.1 _ (List.mem_of_getElem? pair)
  simp only [containerConflicts, Bool.not_eq_true, List.any_eq_false] at agree
  have clear := agree _ (List.mem_range.mpr index)
  rw [show source.byteOffset + (byte.offset - source.byteOffset) = byte.offset by omega,
    findFixedByte_eq_some sorted member] at clear
  rw [← value]
  simp only [decide_eq_false_iff_not, not_not] at clear
  exact masked_agree clear small owned

/-! ### Matchers against constants -/

/-- The bytes of a signed constant are those of its 64-bit pattern. -/
theorem encodeUnsignedByte_signedBits (value : Int) {width index : Nat} (byteOrder : ByteOrder)
    (inside : index < width) :
    encodeUnsignedByte (signedBits value width) width byteOrder index =
      encodeUnsignedByte (value % 2 ^ 64).toNat width byteOrder index := by
  simp only [encodeUnsignedByte, signedBits]
  generalize position : (if byteOrder = .big then width - 1 - index else index) = place
  have low : place < width := by
    rw [← position]
    split <;> omega
  split
  · refine UInt8.toNat_inj.mp (Nat.eq_of_testBit_eq fun bit => ?_)
    simp only [UInt8.toNat_ofNat', Nat.testBit_mod_two_pow, Nat.testBit_shiftRight,
      Nat.testBit_and, Nat.testBit_two_pow_sub_one]
    by_cases small : bit < 8
    · simp [small, show place * 8 + bit < 8 * width by omega]
    · simp [small]
  · rfl

theorem constants_agree (checks : BinaryPrepared limits context counts prepared state fixed)
    {execution : FieldExecutionPlan} (member : execution ∈ prepared.fields)
    (plain : isMember execution = false) (constant : execution.encodeSource = .constant)
    {byte : FixedByteExecutionPlan} (listed : byte ∈ prepared.fixedBytes)
    (inside : InRange byte.offset execution.offset execution.width) :
    byte.value = encodeUnsignedByte (constantRaw execution) execution.width execution.byteOrder
      (byte.offset - execution.offset) := by
  obtain ⟨-, -, -, -, bytes⟩ := checks.carried
  rw [bytes] at listed
  obtain ⟨sorted, -, -, -⟩ := collectMatchers_spec checks.matchers
  obtain ⟨index, field, placement, found, described⟩ := checks.described_of_mem member
  have kind := (checks.isMember_eq described).symm.trans plain
  have place := placeField_spec described.passed.placed
  rw [if_neg (by simp [kind])] at place
  obtain ⟨rfl, -, -⟩ := place
  have offset : execution.offset = field.byteOffset := described.offset_eq
  have width : execution.width = field.byteWidth := described.width_eq
  have source : field.encodeSource = .constant := described.encodeSource_eq ▸ constant
  obtain ⟨above, below⟩ := inside
  have position : byte.offset - field.byteOffset < field.byteWidth := by omega
  have accepted := checks.determined
  simp only [checkDetermined, rejectIf_bind_eq_ok, rejectIf_eq_ok, Bool.not_eq_true,
    List.any_eq_false] at accepted
  have agree := accepted.2 field (List.mem_of_getElem? described.found)
  have matched : ∀ encoded, constantPattern field = some encoded →
      byte.value = encodeUnsignedByte encoded execution.width execution.byteOrder
        (byte.offset - execution.offset) := by
    intro encoded pattern
    simp only [constantConflicts, kind, pattern, Bool.not_false, Bool.true_and, Option.any_some,
      Bool.not_eq_true, List.any_eq_false] at agree
    have clear := agree _ (List.mem_range.mpr position)
    rw [show field.byteOffset + (byte.offset - field.byteOffset) = byte.offset by omega,
      findFixedByte_eq_some sorted listed] at clear
    rw [offset, width, described.byteOrder_eq]
    simpa using clear
  rcases plain_valid described kind with integer | string
  · rcases integer.constant constant with ⟨type, -⟩ | ⟨type, -⟩
    · have sourceType : field.valueType = .uint64 := described.valueType_eq ▸ type
      have typed := described.passed.typed
      rcases plainType_spec typed kind with unsigned | signed | string | enum
      · simp only [uint64Valid, source, Bool.and_eq_true] at unsigned
        obtain ⟨number, same, -⟩ := (Option.any_eq_true _ _).mp unsigned.2
        rw [matched number (by simp [constantPattern, source, sourceType, same]), constantRaw,
          if_neg (by simp [type])]
        rw [described.description]
        simp [fieldExecution, same]
      · simp [int64Valid, sourceType] at signed
      · simp [bytesValid, sourceType] at string
      · simp [enumShapeValid, sourceType] at enum
    · have sourceType : field.valueType = .int64 := described.valueType_eq ▸ type
      have typed := described.passed.typed
      rcases plainType_spec typed kind with unsigned | signed | string | enum
      · simp [uint64Valid, sourceType] at unsigned
      · simp only [int64Valid, source, Bool.and_eq_true] at signed
        obtain ⟨number, same, -⟩ := (Option.any_eq_true _ _).mp signed.2
        rw [matched _ (by simp only [constantPattern, source, sourceType, same]; rfl),
          constantRaw, if_pos type, encodeUnsignedByte_signedBits _ _ (by omega)]
        rw [described.description]
        simp [fieldExecution, same]
      · simp [bytesValid, sourceType] at string
      · simp [enumShapeValid, sourceType] at enum
  · rw [string.source] at constant
    cases constant

/-! ### The whole descriptor -/

/-- The descriptor of a prepared binary message is valid. -/
theorem valid (checks : BinaryPrepared limits context counts prepared state fixed) :
    BinaryValid context.schemaVersion context.conversions prepared where
  noDecode := by rw [checks.description]; rfl
  noEncode := by rw [checks.description]; rfl
  frameBound := checks.carried.2.2.2.1 ▸ checks.frameBound
  fields _ member := checks.field_valid member
  enums _ member := checks.enum_valid member
  converted _ member := checks.conversion_valid member
  ordinals _ _ := checks.ordinal
  requiredInputs := checks.requiredInputs
  slots _ _ := checks.slot
  computedField _ _ := checks.computed_field
  lengthValid := checks.length_valid
  lengthFree _ has _ member := checks.length_free has member
  containers _ member := checks.container_valid member
  plainInside _ _ := checks.plain_inside
  plainApart _ _ _ _ := checks.plain_apart
  containersApart _ _ _ _ := checks.containers_apart
  plainContainersApart _ member plain _ listed := checks.plain_container_apart member plain listed
  membersApart _ _ _ _ := checks.members_apart
  fixedSorted := by
    rw [checks.carried.2.2.2.2]
    exact (collectMatchers_spec checks.matchers).1
  fixedInside byte member := by
    rw [checks.storageLimit_eq]
    rw [checks.carried.2.2.2.2] at member
    exact (collectMatchers_spec checks.matchers).2.2.1 byte member
  payload _ := checks.payload_valid
  checksum _ := checks.checksum_valid
  covered _ := checks.covered
  constantsAgree _ member plain constant _ listed :=
    checks.constants_agree member plain constant listed
  containersAgree _ _ found _ member inside _ small _ :=
    checks.containers_agree found member inside small

end BinaryPrepared

end

end ProtocolAdapter.Codec
