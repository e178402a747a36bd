/-
This file works out the value of a bit container into which the members have been written.
Each member has its own bits, so every member is read back, the other bits keep the base
value, and a container is determined by its members and its base value.
-/

import ProtocolAdapter.Codec.Admissible

namespace ProtocolAdapter.Codec

open Foundation

/-! ### Filling a container -/

/-- The members of a container, with their indices. -/
def membersAt (message : MessageExecutionPlan) (containerIndex : Nat) :
    List (FieldExecutionPlan × Nat) :=
  message.fields.zipIdx.filter (·.1.bitContainerIndex = containerIndex)

/-- Writes members into the value of their container. -/
def insertMembers (raw : Nat → Nat) (members : List (FieldExecutionPlan × Nat)) (value : Nat) :
    Nat :=
  members.foldl (fun value member => insertBitfield value (raw member.2) member.1) value

/-- The value of a container with the raw values of its members. -/
def filledContainer (message : MessageExecutionPlan) (raw : Nat → Nat)
    (item : BitContainerExecutionPlan × Nat) : Nat :=
  insertMembers raw (membersAt message item.2) item.1.baseValue

theorem mem_membersAt {message : MessageExecutionPlan} {containerIndex index : Nat}
    {field : FieldExecutionPlan} : (field, index) ∈ membersAt message containerIndex ↔
      message.fields[index]? = some field ∧ field.bitContainerIndex = containerIndex := by
  rw [membersAt, List.mem_filter, List.mem_zipIdx_iff_getElem?, decide_eq_true_iff]

/-! ### The bits of a member -/

/-- Writing a member sets its own bits and leaves the others. -/
theorem testBit_insertBitfield {value : Nat} (raw : Nat) (field : FieldExecutionPlan)
    (small : value < 2 ^ 64) (position : Nat) :
    (insertBitfield value raw field).testBit position =
      if field.bitMask.testBit position then (raw <<< field.bitShift).testBit position
      else value.testBit position := by
  rw [insertBitfield, Nat.testBit_or, Nat.testBit_and, testBit_clearBits small]
  cases field.bitMask.testBit position <;> simp

theorem insertBitfield_lt {value bits : Nat} (raw : Nat) {field : FieldExecutionPlan}
    (small : value < 2 ^ bits) (mask : field.bitMask < 2 ^ bits) :
    insertBitfield value raw field < 2 ^ bits :=
  Nat.or_lt_two_pow (lt_of_le_of_lt Nat.and_le_left small) (lt_of_le_of_lt Nat.and_le_right mask)

section

variable {container : BitContainerExecutionPlan} {field : FieldExecutionPlan}

/-- The mask of a member has the bits from its shift on. -/
theorem MemberValid.testBit_mask (valid : MemberValid container field) (position : Nat) :
    field.bitMask.testBit position =
      decide (field.bitShift ≤ position ∧ position < field.bitShift + field.bitWidth) := by
  rw [valid.mask, Nat.testBit_shiftLeft, Nat.testBit_two_pow_sub_one, ← Bool.decide_and,
    decide_eq_decide]
  omega

theorem MemberValid.mask_lt (valid : MemberValid container field) :
    field.bitMask < 2 ^ (8 * container.width) := by
  refine Nat.lt_pow_two_of_testBit _ fun position above => ?_
  have inside := valid.inside
  rw [valid.testBit_mask, decide_eq_false_iff_not]
  omega

/-- The bits of a member in a value. -/
theorem MemberValid.testBit_extract (valid : MemberValid container field) (value bit : Nat) :
    (extractBitfield value field).testBit bit =
      (value.testBit (field.bitShift + bit) && decide (bit < field.bitWidth)) := by
  rw [extractBitfield, Nat.testBit_shiftRight, Nat.testBit_and, valid.testBit_mask]
  congr 1
  rw [decide_eq_decide]
  omega

theorem MemberValid.extract_lt (valid : MemberValid container field) (value : Nat) :
    extractBitfield value field < 2 ^ field.bitWidth := by
  refine Nat.lt_pow_two_of_testBit _ fun bit above => ?_
  rw [valid.testBit_extract, decide_eq_false (Nat.not_lt.mpr above), Bool.and_false]

end

/-! ### The bits of a container -/

section

variable {raw : Nat → Nat}

theorem insertMembers_lt {bits : Nat} : ∀ {members : List (FieldExecutionPlan × Nat)} {value : Nat},
    value < 2 ^ bits → (∀ member ∈ members, member.1.bitMask < 2 ^ bits) →
      insertMembers raw members value < 2 ^ bits
  | [], _, small, _ => small
  | member :: rest, value, small, masks => by
    rw [insertMembers, List.foldl_cons]
    exact insertMembers_lt (insertBitfield_lt _ small (masks member List.mem_cons_self))
      fun other later => masks other (List.mem_cons_of_mem _ later)

/-- Members that do not own a bit leave it as it is. -/
theorem insertMembers_free {position : Nat} :
    ∀ {members : List (FieldExecutionPlan × Nat)} {value : Nat}, value < 2 ^ 64 →
      (∀ member ∈ members, member.1.bitMask < 2 ^ 64) →
      (∀ member ∈ members, member.1.bitMask.testBit position = false) →
        (insertMembers raw members value).testBit position = value.testBit position
  | [], _, _, _, _ => rfl
  | member :: rest, value, small, masks, free => by
    rw [insertMembers, List.foldl_cons]
    have later := @insertMembers_free position rest (insertBitfield value (raw member.2) member.1)
      (insertBitfield_lt _ small (masks member List.mem_cons_self))
      (fun other there => masks other (List.mem_cons_of_mem _ there))
      fun other there => free other (List.mem_cons_of_mem _ there)
    rw [insertMembers] at later
    rw [later, testBit_insertBitfield _ _ small, free member List.mem_cons_self, if_neg (by simp)]

/-- The member that owns a bit determines it. -/
theorem insertMembers_owned {members : List (FieldExecutionPlan × Nat)} {value position : Nat}
    {member : FieldExecutionPlan × Nat} (small : value < 2 ^ 64)
    (masks : ∀ other ∈ members, other.1.bitMask < 2 ^ 64) (listed : member ∈ members)
    (owns : member.1.bitMask.testBit position = true)
    (apart : members.Pairwise fun left right =>
      ¬(left.1.bitMask.testBit position = true ∧ right.1.bitMask.testBit position = true)) :
    (insertMembers raw members value).testBit position =
      (raw member.2 <<< member.1.bitShift).testBit position := by
  obtain ⟨before, after, rfl⟩ := List.append_of_mem listed
  obtain ⟨-, rest, -⟩ := List.pairwise_append.mp apart
  obtain ⟨later, -⟩ := List.pairwise_cons.mp rest
  have reached : insertMembers raw before value < 2 ^ 64 :=
    insertMembers_lt small fun other there => masks other (List.mem_append_left _ there)
  have written : insertMembers raw (before ++ member :: after) value =
      insertMembers raw after
        (insertBitfield (insertMembers raw before value) (raw member.2) member.1) := by
    rw [insertMembers, List.foldl_append, List.foldl_cons]
    rfl
  rw [written, insertMembers_free
    (insertBitfield_lt _ reached (masks member (List.mem_append_right _ List.mem_cons_self)))
    (fun other there => masks other (List.mem_append_right _ (List.mem_cons_of_mem _ there)))
    fun other there => by simpa [owns] using later other there,
    testBit_insertBitfield _ _ reached, owns, if_pos rfl]

end

/-! ### Containers of a message -/

section

variable {schemaVersion : String} {conversions : List LinearConversionDescriptor}
  {message : MessageExecutionPlan} {containerIndex index : Nat}
  {container : BitContainerExecutionPlan} {field : FieldExecutionPlan} {raw : Nat → Nat}

/-- Containers have different places, so there are fewer than the number that stands for
no container. -/
theorem BinaryValid.containerIndex_ne (valid : BinaryValid schemaVersion conversions message)
    (there : message.bitContainers[containerIndex]? = some container) :
    containerIndex ≠ invalidIndex := by
  have distinct : (message.bitContainers.map (·.offset)).Nodup := by
    rw [List.Nodup, List.pairwise_map, List.pairwise_iff_getElem]
    intro left right leftBound rightBound before same
    have apart := valid.containersApart left right _ _ before
      (List.getElem?_eq_getElem leftBound) (List.getElem?_eq_getElem rightBound)
    have leftWide := (valid.containers _ (List.getElem_mem leftBound)).positive
    have rightWide := (valid.containers _ (List.getElem_mem rightBound)).positive
    unfold RangesApart at apart
    omega
  have inside : message.bitContainers.map (·.offset) ⊆ List.range 65536 := by
    intro offset member
    obtain ⟨other, listed, rfl⟩ := List.mem_map.mp member
    have facts := valid.containers other listed
    have limit := valid.storageLimit_le valid.lengthMatches_frameSize
    have positive := facts.positive
    have bound := facts.inside
    have frame := valid.frameBound
    exact List.mem_range.mpr (by omega)
  have few := (distinct.subperm inside).length_le
  rw [List.length_map, List.length_range] at few
  have within := (List.getElem?_eq_some_iff.mp there).1
  rintro rfl
  exact absurd (within.trans_le few) (by decide)

/-- A field that refers to a container is one of its members. -/
theorem BinaryValid.memberValid (valid : BinaryValid schemaVersion conversions message)
    (there : message.bitContainers[containerIndex]? = some container)
    (member : field ∈ message.fields) (same : field.bitContainerIndex = containerIndex) :
    MemberValid container field := by
  cases valid.fields field member with
  | member other real found memberValid =>
    rw [same, there] at found
    exact Option.some.inj found ▸ memberValid
  | integer plain _ => exact absurd (same.symm.trans plain) (valid.containerIndex_ne there)
  | bytes plain _ => exact absurd (same.symm.trans plain) (valid.containerIndex_ne there)

/-- What the lemmas about filled containers need to know about the members. -/
structure MembersFit (message : MessageExecutionPlan) (containerIndex : Nat)
    (container : BitContainerExecutionPlan) : Prop where
  base : container.baseValue < 2 ^ (8 * container.width)
  narrow : 8 * container.width ≤ 64
  masks : ∀ member ∈ membersAt message containerIndex,
    member.1.bitMask < 2 ^ (8 * container.width)
  apart : ∀ position, (membersAt message containerIndex).Pairwise fun left right =>
    ¬(left.1.bitMask.testBit position = true ∧ right.1.bitMask.testBit position = true)

theorem MembersFit.widen (fit : MembersFit message containerIndex container) {number : Nat}
    (small : number < 2 ^ (8 * container.width)) : number < 2 ^ 64 :=
  lt_of_lt_of_le small (Nat.pow_le_pow_right (by decide) fit.narrow)

theorem BinaryValid.membersFit (valid : BinaryValid schemaVersion conversions message)
    (there : message.bitContainers[containerIndex]? = some container) :
    MembersFit message containerIndex container := by
  have facts := valid.containers container (List.mem_of_getElem? there)
  refine ⟨facts.base, by have := facts.bounded; omega, fun member listed => ?_, fun position => ?_⟩
  · obtain ⟨found, same⟩ := mem_membersAt.mp listed
    exact (valid.memberValid there (List.mem_of_getElem? found) same).mask_lt
  · rw [membersAt, List.pairwise_filter, List.pairwise_iff_getElem]
    intro left right leftBound rightBound before leftIs rightIs
    rw [List.length_zipIdx] at leftBound rightBound
    simp only [List.getElem_zipIdx, decide_eq_true_eq] at leftIs rightIs ⊢
    refine valid.membersApart left right _ _ before (List.getElem?_eq_getElem leftBound)
      (List.getElem?_eq_getElem rightBound) ?_ (leftIs.trans rightIs.symm) position
    rw [isMember, leftIs]
    exact decide_eq_true (valid.containerIndex_ne there)

theorem BinaryValid.filledContainer_lt (valid : BinaryValid schemaVersion conversions message)
    (there : message.bitContainers[containerIndex]? = some container) :
    filledContainer message raw (container, containerIndex) < 2 ^ (8 * container.width) :=
  insertMembers_lt (valid.membersFit there).base (valid.membersFit there).masks

/-- A bit of a member has the value of the member. -/
theorem BinaryValid.filledContainer_owned (valid : BinaryValid schemaVersion conversions message)
    (there : message.bitContainers[containerIndex]? = some container)
    (found : message.fields[index]? = some field) (same : field.bitContainerIndex = containerIndex)
    {position : Nat} (owns : field.bitMask.testBit position = true) :
    (filledContainer message raw (container, containerIndex)).testBit position =
      (raw index <<< field.bitShift).testBit position := by
  have fit := valid.membersFit there
  exact insertMembers_owned (fit.widen fit.base)
    (fun other member => fit.widen (fit.masks other member)) (mem_membersAt.mpr ⟨found, same⟩) owns
    (fit.apart position)

/-- A bit no member owns has the base value. -/
theorem BinaryValid.filledContainer_free (valid : BinaryValid schemaVersion conversions message)
    (there : message.bitContainers[containerIndex]? = some container) {position : Nat}
    (free : ∀ field ∈ message.fields, field.bitContainerIndex = containerIndex →
      field.bitMask.testBit position = false) :
    (filledContainer message raw (container, containerIndex)).testBit position =
      container.baseValue.testBit position := by
  have fit := valid.membersFit there
  refine insertMembers_free (fit.widen fit.base)
    (fun other member => fit.widen (fit.masks other member)) fun other member => ?_
  obtain ⟨found, same⟩ := mem_membersAt.mp member
  exact free _ (List.mem_of_getElem? found) same

/-- Every member is read back. -/
theorem BinaryValid.extract_filledContainer
    (valid : BinaryValid schemaVersion conversions message)
    (there : message.bitContainers[containerIndex]? = some container)
    (found : message.fields[index]? = some field) (same : field.bitContainerIndex = containerIndex)
    (small : raw index < 2 ^ field.bitWidth) :
    extractBitfield (filledContainer message raw (container, containerIndex)) field =
      raw index := by
  have member := valid.memberValid there (List.mem_of_getElem? found) same
  refine Nat.eq_of_testBit_eq fun bit => ?_
  rw [member.testBit_extract]
  by_cases inside : bit < field.bitWidth
  · have owns : field.bitMask.testBit (field.bitShift + bit) = true := by
      rw [member.testBit_mask, decide_eq_true_iff]
      omega
    rw [valid.filledContainer_owned there found same owns, Nat.testBit_shiftLeft]
    simp [inside]
  · rw [Nat.testBit_lt_two_pow (lt_of_lt_of_le small
      (Nat.pow_le_pow_right (by decide) (Nat.le_of_not_lt inside)))]
    simp [inside]

/-- A container is determined by its members and its base value. -/
theorem BinaryValid.filledContainer_eq (valid : BinaryValid schemaVersion conversions message)
    (there : message.bitContainers[containerIndex]? = some container) {value : Nat}
    (small : value < 2 ^ (8 * container.width))
    (members : ∀ (index : Nat) field, message.fields[index]? = some field →
      field.bitContainerIndex = containerIndex → raw index = extractBitfield value field)
    (others : ∀ position < 8 * container.width, (∀ field ∈ message.fields,
      field.bitContainerIndex = containerIndex → field.bitMask.testBit position = false) →
        value.testBit position = container.baseValue.testBit position) :
    filledContainer message raw (container, containerIndex) = value := by
  refine Nat.eq_of_testBit_eq fun position => ?_
  by_cases inside : position < 8 * container.width
  · by_cases owned : ∃ field ∈ message.fields, field.bitContainerIndex = containerIndex ∧
        field.bitMask.testBit position = true
    · obtain ⟨field, member, same, owns⟩ := owned
      obtain ⟨index, found⟩ := List.mem_iff_getElem?.mp member
      have facts := valid.memberValid there member same
      have bounds : field.bitShift ≤ position ∧ position < field.bitShift + field.bitWidth := by
        rwa [facts.testBit_mask, decide_eq_true_iff] at owns
      rw [valid.filledContainer_owned there found same owns, members index field found same,
        Nat.testBit_shiftLeft, decide_eq_true bounds.1, Bool.true_and, facts.testBit_extract,
        Nat.add_sub_cancel' bounds.1, decide_eq_true (by omega), Bool.and_true]
    · have free : ∀ field ∈ message.fields, field.bitContainerIndex = containerIndex →
          field.bitMask.testBit position = false := fun field member same => by
        cases owns : field.bitMask.testBit position with
        | false => rfl
        | true => exact absurd ⟨field, member, same, owns⟩ owned
      rw [valid.filledContainer_free there free, others position inside free]
  · have above : 2 ^ (8 * container.width) ≤ 2 ^ position :=
      Nat.pow_le_pow_right (by decide) (Nat.le_of_not_lt inside)
    rw [Nat.testBit_lt_two_pow (lt_of_lt_of_le (valid.filledContainer_lt there) above),
      Nat.testBit_lt_two_pow (lt_of_lt_of_le small above)]

end

end ProtocolAdapter.Codec
