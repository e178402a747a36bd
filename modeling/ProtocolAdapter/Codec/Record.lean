/-
This file works out the record with given contents: fixed bytes, fields, containers and the
computed length are laid out piece by piece, and the checksum over them comes last. Every
byte of the record lies in a piece, so the record does not depend on what the buffer held
before; and the contents are read back from it.
-/

import ProtocolAdapter.Codec.DecodeMeaning
import ProtocolAdapter.Codec.Matching
import ProtocolAdapter.Codec.Members
import ProtocolAdapter.Foundation.Pieces

namespace ProtocolAdapter.Codec

open Foundation Foundation.Bytes

/-! ### Contents -/

/-- The contents of a record: the raw value or the bytes of each field, by its index. -/
structure RecordContents where
  raw : Nat → Nat
  bytes : Nat → List UInt8

/-- The contents fit the fields of a message in a record of a length. -/
structure ContentsFit (message : MessageExecutionPlan) (size : Nat) (contents : RecordContents) :
    Prop where
  integer : ∀ (index : Nat) field, message.fields[index]? = some field → isMember field = false →
    field.valueType ≠ .bytes → field.encodeSource ≠ .computed →
      contents.raw index < 256 ^ field.width
  member : ∀ (index : Nat) field, message.fields[index]? = some field → isMember field = true →
    contents.raw index < 2 ^ field.bitWidth
  bytes : ∀ (index : Nat) field, message.fields[index]? = some field → field.valueType = .bytes →
    (contents.bytes index).length = byteLength message index field size

/-! ### Pieces -/

/-- The bytes of a field that has its own. -/
def fieldBytes (contents : RecordContents) (item : FieldExecutionPlan × Nat) : List UInt8 :=
  if item.1.valueType = .bytes then contents.bytes item.2
  else storedBytes (contents.raw item.2) item.1.width item.1.byteOrder

/-- Whether the bytes of a field are written when the fields are: those of a member come with
its container, and those of a computed field later. -/
def isWritten (field : FieldExecutionPlan) : Bool :=
  field.encodeSource ≠ .computed && !isMember field

/-- The fixed bytes of a message. -/
def fixedPieces (message : MessageExecutionPlan) : List Piece :=
  message.fixedBytes.map fun fixed => ⟨fixed.offset, [fixed.value]⟩

/-- The piece of a field. -/
def fieldPiece (contents : RecordContents) (item : FieldExecutionPlan × Nat) : Piece :=
  ⟨item.1.offset, fieldBytes contents item⟩

/-- The fields with their own bytes. -/
def fieldPieces (message : MessageExecutionPlan) (contents : RecordContents) : List Piece :=
  (message.fields.zipIdx.filter (isWritten ·.1)).map (fieldPiece contents)

/-- The piece of a container. -/
def containerPiece (message : MessageExecutionPlan) (contents : RecordContents)
    (item : BitContainerExecutionPlan × Nat) : Piece :=
  ⟨item.1.offset,
    storedBytes (filledContainer message contents.raw item) item.1.width item.1.byteOrder⟩

def containerPieces (message : MessageExecutionPlan) (contents : RecordContents) : List Piece :=
  message.bitContainers.zipIdx.map (containerPiece message contents)

/-- The computed length of a record of a length. -/
def lengthPieces (message : MessageExecutionPlan) (size : Nat) : List Piece :=
  message.computedLength.toList.map fun computed =>
    ⟨computed.storageOffset, lengthBytes message computed size⟩

/-- The pieces that hold the contents of a record and its length. -/
def valuePieces (message : MessageExecutionPlan) (contents : RecordContents) (size : Nat) :
    List Piece :=
  fieldPieces message contents ++ (containerPieces message contents ++ lengthPieces message size)

/-- The checksum over the record in a buffer. -/
def checksumPieces (message : MessageExecutionPlan) (size : Nat) (buffer : List UInt8) :
    List Piece :=
  message.integrity.toList.map fun integrity =>
    ⟨(checksumPlace message integrity size).storageOffset,
      checksumBytes integrity (coveredBytes message integrity buffer size)⟩

/-- A buffer into which a record has been written, except for its checksum. -/
def fillRecord (message : MessageExecutionPlan) (contents : RecordContents) (size : Nat)
    (buffer : List UInt8) : List UInt8 :=
  writeAll (fixedPieces message ++ valuePieces message contents size) buffer

/-- A buffer into which a record has been written. -/
def layRecord (message : MessageExecutionPlan) (contents : RecordContents) (size : Nat)
    (buffer : List UInt8) : List UInt8 :=
  let filled := fillRecord message contents size buffer
  writeAll (checksumPieces message size filled) filled

/-- The record with given contents. -/
def recordOf (message : MessageExecutionPlan) (contents : RecordContents) (size : Nat) :
    List UInt8 :=
  layRecord message contents size (List.replicate size 0)

@[simp] theorem fillRecord_length (message : MessageExecutionPlan) (contents : RecordContents)
    (size : Nat) (buffer : List UInt8) :
    (fillRecord message contents size buffer).length = buffer.length := writeAll_length ..

@[simp] theorem layRecord_length (message : MessageExecutionPlan) (contents : RecordContents)
    (size : Nat) (buffer : List UInt8) :
    (layRecord message contents size buffer).length = buffer.length := by
  rw [layRecord, writeAll_length, fillRecord_length]

@[simp] theorem recordOf_length (message : MessageExecutionPlan) (contents : RecordContents)
    (size : Nat) : (recordOf message contents size).length = size := by
  rw [recordOf, layRecord_length, List.length_replicate]

/-! ### Places -/

section

variable {plan : PlanBundle} {message : MessageExecutionPlan} {contents : RecordContents}
  {size : Nat}

theorem mem_fieldPieces {piece : Piece} : piece ∈ fieldPieces message contents ↔
    ∃ (index : Nat) (field : FieldExecutionPlan), message.fields[index]? = some field ∧
      isWritten field = true ∧ fieldPiece contents (field, index) = piece := by
  simp only [fieldPieces, List.mem_map, List.mem_filter, Prod.exists,
    List.mem_zipIdx_iff_getElem?, and_assoc]
  exact exists_comm

theorem mem_containerPieces {piece : Piece} : piece ∈ containerPieces message contents ↔
    ∃ (index : Nat) (container : BitContainerExecutionPlan),
      message.bitContainers[index]? = some container ∧
        containerPiece message contents (container, index) = piece := by
  simp only [containerPieces, List.mem_map, Prod.exists, List.mem_zipIdx_iff_getElem?]
  exact exists_comm

theorem mem_lengthPieces {piece : Piece} : piece ∈ lengthPieces message size ↔
    ∃ computed, message.computedLength = some computed ∧
      ⟨computed.storageOffset, lengthBytes message computed size⟩ = piece := by
  simp [lengthPieces]

theorem mem_fixedPieces {piece : Piece} : piece ∈ fixedPieces message ↔
    ∃ fixed ∈ message.fixedBytes, ⟨fixed.offset, [fixed.value]⟩ = piece := by
  simp [fixedPieces]

theorem isWritten_iff {field : FieldExecutionPlan} :
    isWritten field = true ↔ field.encodeSource ≠ .computed ∧ isMember field = false := by
  simp [isWritten]

/-- A byte string is no longer than the width of its field. -/
theorem BinaryValid.byteLength_le (valid : BinaryValid plan.schemaVersion plan.conversions message)
    (fits : lengthMatches message size = true) {index : Nat} {field : FieldExecutionPlan}
    (found : message.fields[index]? = some field) :
    byteLength message index field size ≤ field.width := by
  unfold byteLength
  split
  · rename_i payload
    obtain ⟨bounded, has, same⟩ := (Option.any_eq_true _ _).mp payload
    obtain rfl : bounded.payloadFieldIndex = index := of_decide_eq_true same
    obtain ⟨other, listed, -, -, -, width⟩ := (valid.payload bounded has).field
    obtain rfl := Option.some.inj (found.symm.trans listed)
    have upper := (valid.size_bounded fits has).2.2.1
    omega
  · exact le_rfl

/-- The bytes of a field stay in its range. -/
theorem BinaryValid.fieldBytes_le (valid : BinaryValid plan.schemaVersion plan.conversions message)
    (fits : lengthMatches message size = true) (fit : ContentsFit message size contents)
    {index : Nat} {field : FieldExecutionPlan} (found : message.fields[index]? = some field) :
    (fieldBytes contents (field, index)).length ≤ field.width := by
  unfold fieldBytes
  split
  · rename_i type
    rw [fit.bytes index field found type]
    exact valid.byteLength_le fits found
  · rw [storedBytes_length]

/-- The bytes of a field lie in the record. -/
theorem BinaryValid.fieldBytes_inside
    (valid : BinaryValid plan.schemaVersion plan.conversions message)
    (fits : lengthMatches message size = true) (fit : ContentsFit message size contents)
    {index : Nat} {field : FieldExecutionPlan} (found : message.fields[index]? = some field)
    (plain : isMember field = false) :
    field.offset + (fieldBytes contents (field, index)).length ≤ size := by
  unfold fieldBytes
  split
  · rename_i type
    rw [fit.bytes index field found type]
    exact valid.bytes_inside fits found plain
  · rename_i type
    rw [storedBytes_length]
    exact valid.integer_inside fits found plain type

/-- The field that holds the computed length. -/
theorem BinaryValid.lengthField (valid : BinaryValid plan.schemaVersion plan.conversions message)
    {computed : ComputedLengthPlan} (has : message.computedLength = some computed) :
    ∃ field, message.fields[computed.fieldIndex]? = some field ∧ isMember field = false ∧
      field.encodeSource = .computed ∧ field.offset = computed.storageOffset ∧
        field.width = computed.storageWidth ∧ field.byteOrder = computed.byteOrder ∧
          field.valueType = .uint64 := by
  obtain ⟨field, found, same⟩ := (valid.length_valid has).field
  simp only [computedFieldMatches, Bool.and_eq_true, beq_iff_eq] at same
  obtain ⟨⟨⟨⟨⟨⟨type, source⟩, offset⟩, width⟩, order⟩, -⟩, plain⟩ := same
  exact ⟨field, found, by simp [isMember, plain], source, offset, width, order, type⟩

theorem lengthBytes_length (computed : ComputedLengthPlan) :
    (lengthBytes message computed size).length = computed.storageWidth := storedBytes_length ..

/-- Fields with their own bytes lie apart. -/
theorem BinaryValid.plain_apart (valid : BinaryValid plan.schemaVersion plan.conversions message)
    {left right : Nat} {leftField rightField : FieldExecutionPlan} (different : left ≠ right)
    (leftFound : message.fields[left]? = some leftField)
    (rightFound : message.fields[right]? = some rightField) (leftPlain : isMember leftField = false)
    (rightPlain : isMember rightField = false) :
    RangesApart leftField.offset leftField.width rightField.offset rightField.width := by
  rcases Nat.lt_or_gt_of_ne different with before | after
  · exact valid.plainApart left right _ _ before leftFound rightFound leftPlain rightPlain
  · exact (valid.plainApart right left _ _ after rightFound leftFound rightPlain leftPlain).symm

theorem apart_of_ranges {left right : Piece} {leftWidth rightWidth : Nat}
    (apart : RangesApart left.offset leftWidth right.offset rightWidth)
    (leftSmall : left.bytes.length ≤ leftWidth) (rightSmall : right.bytes.length ≤ rightWidth) :
    left.Apart right := by
  unfold RangesApart at apart
  unfold Piece.Apart Piece.stop
  omega

/-- No two pieces that hold the contents or the length share a byte. -/
theorem BinaryValid.valuePieces_apart
    (valid : BinaryValid plan.schemaVersion plan.conversions message)
    (fits : lengthMatches message size = true) (fit : ContentsFit message size contents) :
    (valuePieces message contents size).Pairwise Piece.Apart := by
  have fieldsApart : (fieldPieces message contents).Pairwise Piece.Apart := by
    rw [fieldPieces, List.pairwise_map, List.pairwise_filter, List.pairwise_iff_getElem]
    intro left right leftBound rightBound before leftWritten rightWritten
    rw [List.length_zipIdx] at leftBound rightBound
    simp only [List.getElem_zipIdx, Nat.zero_add] at leftWritten rightWritten ⊢
    have leftFound := List.getElem?_eq_getElem leftBound
    have rightFound := List.getElem?_eq_getElem rightBound
    exact apart_of_ranges
      (valid.plainApart left right _ _ before leftFound rightFound (isWritten_iff.mp leftWritten).2
        (isWritten_iff.mp rightWritten).2)
      (valid.fieldBytes_le fits fit leftFound) (valid.fieldBytes_le fits fit rightFound)
  have containersApart : (containerPieces message contents).Pairwise Piece.Apart := by
    rw [containerPieces, List.pairwise_map, List.pairwise_iff_getElem]
    intro left right leftBound rightBound before
    rw [List.length_zipIdx] at leftBound rightBound
    simp only [List.getElem_zipIdx, Nat.zero_add]
    exact apart_of_ranges
      (valid.containersApart left right _ _ before (List.getElem?_eq_getElem leftBound)
        (List.getElem?_eq_getElem rightBound)) (storedBytes_length ..).le (storedBytes_length ..).le
  have lengthApart : (lengthPieces message size).Pairwise Piece.Apart := by
    unfold lengthPieces
    cases message.computedLength <;> simp
  refine List.pairwise_append.mpr ⟨fieldsApart,
    List.pairwise_append.mpr ⟨containersApart, lengthApart, ?_⟩, ?_⟩
  · intro left leftMember right rightMember
    obtain ⟨containerIndex, container, found, rfl⟩ := mem_containerPieces.mp leftMember
    obtain ⟨computed, has, rfl⟩ := mem_lengthPieces.mp rightMember
    obtain ⟨field, listed, plain, -, offset, width, -⟩ := valid.lengthField has
    have apart := valid.plainContainersApart field (List.mem_of_getElem? listed) plain container
      (List.mem_of_getElem? found)
    rw [offset, width] at apart
    exact apart_of_ranges apart (storedBytes_length ..).le (lengthBytes_length computed).le
  · intro left leftMember right rightMember
    obtain ⟨index, field, found, written, rfl⟩ := mem_fieldPieces.mp leftMember
    obtain ⟨stored, plain⟩ := isWritten_iff.mp written
    have small := valid.fieldBytes_le fits fit found
    rcases List.mem_append.mp rightMember with rightMember | rightMember
    · obtain ⟨containerIndex, container, there, rfl⟩ := mem_containerPieces.mp rightMember
      exact apart_of_ranges (valid.plainContainersApart field (List.mem_of_getElem? found) plain
        container (List.mem_of_getElem? there)).symm small (storedBytes_length ..).le
    · obtain ⟨computed, has, rfl⟩ := mem_lengthPieces.mp rightMember
      obtain ⟨other, listed, otherPlain, source, offset, width, -⟩ := valid.lengthField has
      have different : index ≠ computed.fieldIndex := by
        rintro rfl
        exact stored (Option.some.inj (found.symm.trans listed) ▸ source)
      have apart := valid.plain_apart different found listed plain otherPlain
      rw [offset, width] at apart
      exact apart_of_ranges apart small (lengthBytes_length computed).le

/-- The pieces that hold the contents or the length lie in the record. -/
theorem BinaryValid.valuePieces_inside
    (valid : BinaryValid plan.schemaVersion plan.conversions message)
    (fits : lengthMatches message size = true) (fit : ContentsFit message size contents)
    {piece : Piece} (member : piece ∈ valuePieces message contents size) : piece.stop ≤ size := by
  have limit := valid.storageLimit_le fits
  rcases List.mem_append.mp member with member | member
  · obtain ⟨index, field, found, written, rfl⟩ := mem_fieldPieces.mp member
    exact valid.fieldBytes_inside fits fit found (isWritten_iff.mp written).2
  rcases List.mem_append.mp member with member | member
  · obtain ⟨index, container, found, rfl⟩ := mem_containerPieces.mp member
    have inside := (valid.containers container (List.mem_of_getElem? found)).inside
    rw [Piece.stop, containerPiece, storedBytes_length]
    exact inside.trans limit
  · obtain ⟨computed, has, rfl⟩ := mem_lengthPieces.mp member
    have inside := (valid.length_valid has).inside
    rw [Piece.stop, lengthBytes_length]
    exact inside.trans limit

theorem BinaryValid.fixedPieces_inside
    (valid : BinaryValid plan.schemaVersion plan.conversions message)
    (fits : lengthMatches message size = true) {piece : Piece}
    (member : piece ∈ fixedPieces message) : piece.stop ≤ size := by
  obtain ⟨fixed, listed, rfl⟩ := mem_fixedPieces.mp member
  have inside := valid.fixedInside fixed listed
  have limit := valid.storageLimit_le fits
  exact (Nat.succ_le_of_lt inside).trans limit

/-! ### The checksum -/

theorem checksumPlace_width (integrity : FrozenIntegrityPlan) :
    (checksumPlace message integrity size).storageWidth = integrityStorageWidth integrity := by
  unfold checksumPlace
  cases message.boundedPayload <;> rfl

theorem checksumBytes_length (integrity : FrozenIntegrityPlan) (covered : List UInt8) :
    (checksumBytes integrity covered).length = integrityStorageWidth integrity := by
  unfold checksumBytes
  cases algorithm : integrity.algorithm with
  | sum8 => simp [integrityStorageWidth, algorithm]
  | crc => exact storedBytes_length ..

/-- The pieces that hold the contents or the length lie apart from the checksum. -/
theorem BinaryValid.valuePieces_checksum
    (valid : BinaryValid plan.schemaVersion plan.conversions message)
    (fits : lengthMatches message size = true) (fit : ContentsFit message size contents)
    {integrity : FrozenIntegrityPlan} (has : message.integrity = some integrity) {piece : Piece}
    (member : piece ∈ valuePieces message contents size) :
    RangesApart (checksumPlace message integrity size).storageOffset
      (integrityStorageWidth integrity) piece.offset piece.bytes.length := by
  have checksum := valid.checksum integrity has
  have narrow : ∀ {offset width narrow : Nat}, narrow ≤ width →
      RangesApart (checksumPlace message integrity size).storageOffset
        (integrityStorageWidth integrity) offset width →
      RangesApart (checksumPlace message integrity size).storageOffset
        (integrityStorageWidth integrity) offset narrow := by
    intro offset width narrow small apart
    unfold RangesApart at apart ⊢
    omega
  cases payload : message.boundedPayload with
  | none =>
    have place : (checksumPlace message integrity size).storageOffset =
        integrity.storageOffset := by rw [checksumPlace, payload]
    rw [place] at narrow ⊢
    rcases List.mem_append.mp member with member | member
    · obtain ⟨index, field, found, written, rfl⟩ := mem_fieldPieces.mp member
      exact narrow (valid.fieldBytes_le fits fit found) (checksum.fields payload field
        (List.mem_of_getElem? found) (isWritten_iff.mp written).2)
    rcases List.mem_append.mp member with member | member
    · obtain ⟨index, container, found, rfl⟩ := mem_containerPieces.mp member
      exact narrow (storedBytes_length ..).le
        (checksum.containers payload container (List.mem_of_getElem? found))
    · obtain ⟨computed, length, rfl⟩ := mem_lengthPieces.mp member
      obtain ⟨field, listed, plain, -, offset, width, -⟩ := valid.lengthField length
      have apart := checksum.fields payload field (List.mem_of_getElem? listed) plain
      rw [offset, width] at apart
      exact narrow (lengthBytes_length computed).le apart
  | some bounded =>
    obtain ⟨whole, -⟩ := valid.size_bounded fits payload
    have place : (checksumPlace message integrity size).storageOffset =
        bounded.headerLength + payloadSize message size := by rw [checksumPlace, payload]
    have trailer := (valid.payload bounded payload).trailer
    rw [has] at trailer
    simp only at trailer
    rw [place]
    refine Or.inr ?_
    have header : storageLimit message = bounded.headerLength := by
      rw [storageLimit, payload, layoutLimit]
    rcases List.mem_append.mp member with member | member
    · obtain ⟨index, field, found, written, rfl⟩ := mem_fieldPieces.mp member
      have plain := (isWritten_iff.mp written).2
      have inside := valid.plainInside index field found plain
      show field.offset + (fieldBytes contents (field, index)).length ≤ _
      split at inside
      · rename_i isPayload
        obtain ⟨other, listed, -, -, offset, -⟩ := (valid.payload bounded payload).field
        simp only [Codec.isPayload, payload, Option.any_some, decide_eq_true_eq] at isPayload
        obtain rfl := Option.some.inj (found.symm.trans (isPayload ▸ listed))
        have length := fit.bytes index field found inside
        rw [byteLength, if_pos (by simp [Codec.isPayload, payload, isPayload])] at length
        rw [fieldBytes, if_pos inside, length, offset]
      · have small := valid.fieldBytes_le fits fit found
        omega
    rcases List.mem_append.mp member with member | member
    · obtain ⟨index, container, found, rfl⟩ := mem_containerPieces.mp member
      have inside := (valid.containers container (List.mem_of_getElem? found)).inside
      rw [containerPiece, storedBytes_length]
      exact inside.trans (header.le.trans (Nat.le_add_right _ _))
    · obtain ⟨computed, length, rfl⟩ := mem_lengthPieces.mp member
      have inside := (valid.length_valid length).inside
      rw [lengthBytes_length]
      exact inside.trans (header.le.trans (Nat.le_add_right _ _))

/-! ### Covering the record -/

/-- Where a byte of a record comes from. -/
inductive Source (message : MessageExecutionPlan) (contents : RecordContents) (size index : Nat) :
    Prop where
  | value (piece : Piece) (member : piece ∈ valuePieces message contents size)
      (above : piece.offset ≤ index) (below : index < piece.stop)
  | fixed (fixed : FixedByteExecutionPlan) (member : fixed ∈ message.fixedBytes)
      (same : fixed.offset = index)
  | checksum (integrity : FrozenIntegrityPlan) (has : message.integrity = some integrity)
      (inside : InRange index (checksumPlace message integrity size).storageOffset
        (integrityStorageWidth integrity))

/-- A byte of a field with its own bytes is written with the fields or with the length. -/
theorem BinaryValid.source_field
    (valid : BinaryValid plan.schemaVersion plan.conversions message) {index position : Nat}
    {field : FieldExecutionPlan} (found : message.fields[index]? = some field)
    (plain : isMember field = false) (above : field.offset ≤ position)
    (below : position < field.offset + (fieldBytes contents (field, index)).length)
    (width : position < field.offset + field.width) : Source message contents size position := by
  by_cases source : field.encodeSource = .computed
  · obtain ⟨computed, has, same⟩ := valid.computedField index field found source
    obtain ⟨other, listed, -, -, offset, otherWidth, -⟩ := valid.lengthField has
    rw [same] at listed
    obtain rfl := Option.some.inj (found.symm.trans listed)
    refine .value _ (List.mem_append_right _ (List.mem_append_right _
      (mem_lengthPieces.mpr ⟨computed, has, rfl⟩))) (offset ▸ above) ?_
    rw [Piece.stop, lengthBytes_length]
    exact lt_of_lt_of_eq width (by rw [offset, otherWidth])
  · exact .value _ (List.mem_append_left _ (mem_fieldPieces.mpr
      ⟨index, field, found, isWritten_iff.mpr ⟨source, plain⟩, rfl⟩)) above below

/-- Every byte of a record has a source. -/
theorem BinaryValid.source (valid : BinaryValid plan.schemaVersion plan.conversions message)
    (fits : lengthMatches message size = true) (fit : ContentsFit message size contents)
    {index : Nat} (inside : index < size) : Source message contents size index := by
  have bytesLength : ∀ (position : Nat) field, message.fields[position]? = some field →
      isPayload message position = false →
        (fieldBytes contents (field, position)).length = field.width := by
    intro position field found static
    unfold fieldBytes
    split
    · rename_i type
      rw [fit.bytes position field found type, byteLength, static]
      rfl
    · exact storedBytes_length ..
  by_cases still : index < storageLimit message
  · cases valid.covered index still with
    | field field member plain within =>
      obtain ⟨position, found⟩ := List.mem_iff_getElem?.mp member
      obtain ⟨above, below⟩ := within
      cases payload : isPayload message position with
      | false =>
        refine valid.source_field found plain above ?_ below
        rw [bytesLength position field found payload]
        exact below
      | true =>
        obtain ⟨bounded, has, same⟩ := (Option.any_eq_true _ _).mp payload
        obtain rfl : bounded.payloadFieldIndex = position := of_decide_eq_true same
        obtain ⟨other, listed, -, -, offset, -⟩ := (valid.payload bounded has).field
        obtain rfl := Option.some.inj (found.symm.trans listed)
        rw [storageLimit, has, layoutLimit] at still
        omega
    | container container member within =>
      obtain ⟨position, found⟩ := List.mem_iff_getElem?.mp member
      refine .value _ (List.mem_append_right _ (List.mem_append_left _
        (mem_containerPieces.mpr ⟨position, container, found, rfl⟩))) within.1 ?_
      rw [Piece.stop, containerPiece, storedBytes_length]
      exact within.2
    | fixed fixed member same => exact .fixed fixed member same
    | checksum integrity has still within =>
      refine .checksum integrity has ?_
      rw [checksumPlace, still]
      exact within
  · cases has : message.boundedPayload with
    | none =>
      rw [storageLimit, has, layoutLimit] at still
      exact absurd (inside.trans_eq (size_fixed fits has)) still
    | some bounded =>
      obtain ⟨whole, -⟩ := valid.size_bounded fits has
      obtain ⟨field, found, plain, type, offset, width⟩ := (valid.payload bounded has).field
      have upper := (valid.size_bounded fits has).2.2.1
      rw [storageLimit, has, layoutLimit] at still
      by_cases within : index < bounded.headerLength + payloadSize message size
      · refine valid.source_field found (decide_eq_false (not_not.mpr plain)) (by omega) ?_
          (by omega)
        rw [fieldBytes, if_pos type, fit.bytes _ field found type, byteLength,
          if_pos (by simp [isPayload, has])]
        omega
      · have trailer := (valid.payload bounded has).trailer
        cases checked : message.integrity with
        | none =>
          rw [checked] at trailer
          simp only at trailer
          omega
        | some integrity =>
          rw [checked] at trailer
          simp only at trailer
          refine .checksum integrity checked ?_
          rw [checksumPlace, has]
          exact ⟨by simp only; omega, by simp only; omega⟩

end

end ProtocolAdapter.Codec
