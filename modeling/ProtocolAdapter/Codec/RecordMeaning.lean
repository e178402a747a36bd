/-
This file reads a record with given contents back. The record does not depend on the buffer
it is written into, it states its length and carries its checksum, every field has its
contents, and a record that says the same about everything is the same record.
-/

import ProtocolAdapter.Codec.Record

namespace ProtocolAdapter.Codec

open Foundation Foundation.Bytes

section

variable {plan : PlanBundle} {message : MessageExecutionPlan} {contents : RecordContents}
  {size : Nat}

/-! ### Independence of the buffer -/

/-- A byte that is not part of the checksum does not depend on the buffer. -/
theorem BinaryValid.fillRecord_getElem?
    (valid : BinaryValid plan.schemaVersion plan.conversions message)
    (fits : lengthMatches message size = true) (fit : ContentsFit message size contents)
    {left right : List UInt8} (leftRoom : size ≤ left.length) (rightRoom : size ≤ right.length)
    {index : Nat} (inside : index < size) (apart : ∀ integrity, message.integrity = some integrity →
      ¬InRange index (checksumPlace message integrity size).storageOffset
        (integrityStorageWidth integrity)) :
    (fillRecord message contents size left)[index]? =
      (fillRecord message contents size right)[index]? := by
  refine writeAll_getElem?_covered (inside.trans_le leftRoom) (inside.trans_le rightRoom) (.inr ?_)
  cases valid.source fits fit inside with
  | value piece member above below => exact ⟨piece, List.mem_append_right _ member, above, below⟩
  | fixed fixed member same =>
    exact ⟨_, List.mem_append_left _ (mem_fixedPieces.mpr ⟨fixed, member, rfl⟩), same.le,
      Nat.lt_succ_of_le same.ge⟩
  | checksum integrity has within => exact absurd within (apart integrity has)

/-- What a checksum covers does not depend on the buffer. -/
theorem BinaryValid.coveredBytes_fillRecord
    (valid : BinaryValid plan.schemaVersion plan.conversions message)
    (fits : lengthMatches message size = true) (fit : ContentsFit message size contents)
    {left right : List UInt8} (leftRoom : size ≤ left.length) (rightRoom : size ≤ right.length)
    {integrity : FrozenIntegrityPlan} (has : message.integrity = some integrity) :
    coveredBytes message integrity (fillRecord message contents size left) size =
      coveredBytes message integrity (fillRecord message contents size right) size := by
  obtain ⟨range, -, apart⟩ := valid.place_valid fits has
  rw [checksumPlace_width] at apart
  refine slice_congr fun index bound => ?_
  refine valid.fillRecord_getElem? fits fit leftRoom rightRoom (by omega)
    fun other there within => ?_
  obtain rfl := Option.some.inj (has.symm.trans there)
  unfold RangesApart at apart
  unfold InRange at within
  omega

theorem BinaryValid.checksumPieces_fillRecord
    (valid : BinaryValid plan.schemaVersion plan.conversions message)
    (fits : lengthMatches message size = true) (fit : ContentsFit message size contents)
    {left right : List UInt8} (leftRoom : size ≤ left.length)
    (rightRoom : size ≤ right.length) :
    checksumPieces message size (fillRecord message contents size left) =
      checksumPieces message size (fillRecord message contents size right) := by
  unfold checksumPieces
  cases has : message.integrity with
  | none => rfl
  | some integrity =>
    rw [Option.toList_some, List.map_singleton, List.map_singleton,
      valid.coveredBytes_fillRecord fits fit leftRoom rightRoom has]

theorem BinaryValid.checksumPieces_inside
    (valid : BinaryValid plan.schemaVersion plan.conversions message)
    (fits : lengthMatches message size = true) {buffer : List UInt8} {piece : Piece}
    (member : piece ∈ checksumPieces message size buffer) : piece.stop ≤ size := by
  simp only [checksumPieces, List.mem_map, Option.mem_toList] at member
  obtain ⟨integrity, has, rfl⟩ := member
  have storage := (valid.place_valid fits has).storage
  rwa [Piece.stop, checksumBytes_length, ← @checksumPlace_width message size]

/-- A record is written over the first bytes of a buffer and does not depend on them. -/
theorem BinaryValid.layRecord_eq
    (valid : BinaryValid plan.schemaVersion plan.conversions message)
    (fits : lengthMatches message size = true) (fit : ContentsFit message size contents)
    {buffer : List UInt8} (room : size ≤ buffer.length) :
    layRecord message contents size buffer =
      recordOf message contents size ++ buffer.drop size := by
  have blank : size ≤ (List.replicate size (0 : UInt8)).length := List.length_replicate.ge
  refine List.ext_getElem? fun index => ?_
  rcases Nat.lt_or_ge index size with inside | outside
  · rw [List.getElem?_append_left (by rwa [recordOf_length]), recordOf, layRecord, layRecord,
      valid.checksumPieces_fillRecord fits fit room blank]
    refine writeAll_getElem?_covered (by rw [fillRecord_length]; omega)
      (by rw [fillRecord_length]; omega) ?_
    by_cases checked : ∃ integrity, message.integrity = some integrity ∧
        InRange index (checksumPlace message integrity size).storageOffset
          (integrityStorageWidth integrity)
    · obtain ⟨integrity, has, within⟩ := checked
      refine .inr ⟨_, List.mem_map.mpr ⟨integrity, Option.mem_toList.mpr has, rfl⟩, within.1, ?_⟩
      rw [Piece.stop, checksumBytes_length]
      exact within.2
    · exact .inl (valid.fillRecord_getElem? fits fit room blank inside fun integrity has within =>
        checked ⟨integrity, has, within⟩)
  · rw [List.getElem?_append_right (by rwa [recordOf_length]), recordOf_length, List.getElem?_drop,
      Nat.add_sub_cancel' outside, layRecord, writeAll_getElem?_free, fillRecord,
      writeAll_getElem?_free]
    · intro piece member covers
      rcases List.mem_append.mp member with member | member
      · exact absurd (covers.2.trans_le (valid.fixedPieces_inside fits member)) (by omega)
      · exact absurd (covers.2.trans_le (valid.valuePieces_inside fits fit member)) (by omega)
    · intro piece member covers
      exact absurd (covers.2.trans_le (valid.checksumPieces_inside fits member)) (by omega)

/-! ### Pieces of the record -/

/-- The record has the pieces of its contents. -/
theorem BinaryValid.recordOf_carries
    (valid : BinaryValid plan.schemaVersion plan.conversions message)
    (fits : lengthMatches message size = true) (fit : ContentsFit message size contents)
    {piece : Piece} (member : piece ∈ valuePieces message contents size) :
    Carries (recordOf message contents size) piece := by
  rw [recordOf, layRecord, fillRecord, writeAll_append]
  refine (carries_writeAll (valid.valuePieces_apart fits fit) (fun other listed => ?_) piece
    member).writeAll fun other listed => ?_
  · rw [writeAll_length, List.length_replicate]
    exact valid.valuePieces_inside fits fit listed
  · simp only [checksumPieces, List.mem_map, Option.mem_toList] at listed
    obtain ⟨integrity, has, rfl⟩ := listed
    exact apart_of_ranges (valid.valuePieces_checksum fits fit has member).symm le_rfl
      (checksumBytes_length ..).le

/-- The record states its length. -/
theorem BinaryValid.recordOf_statesLength
    (valid : BinaryValid plan.schemaVersion plan.conversions message)
    (fits : lengthMatches message size = true) (fit : ContentsFit message size contents) :
    statesLength message (recordOf message contents size) size = true := by
  unfold statesLength
  cases has : message.computedLength with
  | none => rfl
  | some computed =>
    have carried := valid.recordOf_carries fits fit (List.mem_append_right _
      (List.mem_append_right _ (mem_lengthPieces.mpr ⟨computed, has, rfl⟩)))
    rw [Carries, lengthBytes_length] at carried
    exact beq_iff_eq.mpr carried

/-- The record carries its checksum. -/
theorem BinaryValid.recordOf_carriesChecksum
    (valid : BinaryValid plan.schemaVersion plan.conversions message)
    (fits : lengthMatches message size = true) :
    carriesChecksum message (recordOf message contents size) size = true := by
  unfold carriesChecksum
  cases has : message.integrity with
  | none => rfl
  | some integrity =>
    obtain ⟨range, storage, apart⟩ := valid.place_valid fits has
    rw [checksumPlace_width] at storage apart
    simp only [beq_iff_eq, checksumPlace_width]
    have written : recordOf message contents size =
        store (fillRecord message contents size (List.replicate size 0))
          (checksumPlace message integrity size).storageOffset
          (checksumBytes integrity (coveredBytes message integrity
            (fillRecord message contents size (List.replicate size 0)) size)) := by
      simp only [recordOf, layRecord, checksumPieces, has, Option.toList_some, List.map_singleton,
        writeAll_cons, writeAll_nil]
    have length := checksumBytes_length integrity (coveredBytes message integrity
      (fillRecord message contents size (List.replicate size 0)) size)
    have covered : coveredBytes message integrity (recordOf message contents size) size =
        coveredBytes message integrity
          (fillRecord message contents size (List.replicate size 0)) size := by
      rw [written]
      refine slice_store_disjoint ?_
      rw [length]
      exact apart.symm
    rw [covered, written]
    have same := @slice_store_same (fillRecord message contents size (List.replicate size 0)) _
      (checksumPlace message integrity size).storageOffset (by
        rw [length, fillRecord_length, List.length_replicate]
        exact storage)
    rwa [length] at same

/-! ### Fields of the record -/

/-- The bytes of a field in the record. -/
theorem BinaryValid.recordOf_field
    (valid : BinaryValid plan.schemaVersion plan.conversions message)
    (fits : lengthMatches message size = true) (fit : ContentsFit message size contents)
    {index : Nat} {field : FieldExecutionPlan} (found : message.fields[index]? = some field)
    (written : isWritten field = true) :
    slice (recordOf message contents size) field.offset
        (fieldBytes contents (field, index)).length = fieldBytes contents (field, index) :=
  valid.recordOf_carries fits fit (List.mem_append_left _
    (mem_fieldPieces.mpr ⟨index, field, found, written, rfl⟩))

theorem BinaryValid.recordOf_bytes
    (valid : BinaryValid plan.schemaVersion plan.conversions message)
    (fits : lengthMatches message size = true) (fit : ContentsFit message size contents)
    {index : Nat} {field : FieldExecutionPlan} (found : message.fields[index]? = some field)
    (type : field.valueType = .bytes) :
    slice (recordOf message contents size) field.offset (byteLength message index field size) =
      contents.bytes index := by
  have written : isWritten field = true := by
    cases valid.fields field (List.mem_of_getElem? found) with
    | member container _ _ memberValid =>
      rcases memberValid.type with other | other | other <;> rw [type] at other <;> cases other
    | integer _ integerValid =>
      rcases integerValid.type with other | other | ⟨other, -⟩ <;>
        rw [type] at other <;> cases other
    | bytes plain bytesValid =>
      exact isWritten_iff.mpr ⟨by simp [bytesValid.source], decide_eq_false (not_not.mpr plain)⟩
  have bytes := valid.recordOf_field fits fit found written
  rwa [fieldBytes, if_pos type, fit.bytes index field found type] at bytes

/-- The value of a container in the record. -/
theorem BinaryValid.recordOf_container
    (valid : BinaryValid plan.schemaVersion plan.conversions message)
    (fits : lengthMatches message size = true) (fit : ContentsFit message size contents)
    {index : Nat} {container : BitContainerExecutionPlan}
    (found : message.bitContainers[index]? = some container) :
    containerValue container (recordOf message contents size) =
      filledContainer message contents.raw (container, index) := by
  have carried := valid.recordOf_carries fits fit (List.mem_append_right _
    (List.mem_append_left _ (mem_containerPieces.mpr ⟨index, container, found, rfl⟩)))
  rw [Carries, containerPiece, storedBytes_length] at carried
  simp only at carried
  rw [containerValue, carried]
  have small := @BinaryValid.filledContainer_lt _ _ message index container contents.raw valid found
  rw [two_pow_eight_mul] at small
  exact loadValue_storedBytes _ small

/-- Every field that is not computed has its raw value. -/
theorem BinaryValid.recordOf_raw
    (valid : BinaryValid plan.schemaVersion plan.conversions message)
    (fits : lengthMatches message size = true) (fit : ContentsFit message size contents)
    {index : Nat} {field : FieldExecutionPlan} (found : message.fields[index]? = some field)
    (type : field.valueType ≠ .bytes) (source : field.encodeSource ≠ .computed) :
    rawValue message field (recordOf message contents size) = contents.raw index := by
  unfold rawValue
  cases member : isMember field with
  | true =>
    cases valid.fields field (List.mem_of_getElem? found) with
    | member container real there memberValid =>
      rw [if_pos rfl, List.getD_eq_getElem?_getD, there, Option.getD_some,
        valid.recordOf_container fits fit there]
      exact valid.extract_filledContainer there found rfl (fit.member index field found member)
    | integer plain _ => exact absurd plain (of_decide_eq_true member)
    | bytes plain _ => exact absurd plain (of_decide_eq_true member)
  | false =>
    have bytes := valid.recordOf_field fits fit found (isWritten_iff.mpr ⟨source, member⟩)
    rw [fieldBytes, if_neg type, storedBytes_length] at bytes
    rw [if_neg (by simp), bytes]
    exact loadValue_storedBytes _ (fit.integer index field found member type source)

/-- The computed field states the length of the record. -/
theorem BinaryValid.recordOf_computed
    (valid : BinaryValid plan.schemaVersion plan.conversions message)
    (fits : lengthMatches message size = true) (fit : ContentsFit message size contents)
    {computed : ComputedLengthPlan} (has : message.computedLength = some computed)
    {field : FieldExecutionPlan} (found : message.fields[computed.fieldIndex]? = some field) :
    rawValue message field (recordOf message contents size) =
      actualLength message computed size (payloadSize message size) := by
  obtain ⟨other, listed, plain, -, offset, width, order, -⟩ := valid.lengthField has
  obtain rfl := Option.some.inj (found.symm.trans listed)
  have stated := valid.recordOf_statesLength fits fit
  rw [statesLength, has] at stated
  simp only [beq_iff_eq] at stated
  rw [rawValue, plain, if_neg (by simp), offset, width, order, stated]
  exact loadValue_storedBytes _ (valid.actualLength_lt fits has)

/-! ### Fixed bytes -/

/-- A fixed byte that nothing is written over keeps its value. -/
theorem BinaryValid.recordOf_fixed
    (valid : BinaryValid plan.schemaVersion plan.conversions message)
    (fits : lengthMatches message size = true) {fixed : FixedByteExecutionPlan}
    (member : fixed ∈ message.fixedBytes)
    (free : ∀ piece ∈ valuePieces message contents size,
      ¬(piece.offset ≤ fixed.offset ∧ fixed.offset < piece.stop))
    (apart : ∀ integrity, message.integrity = some integrity →
      ¬InRange fixed.offset (checksumPlace message integrity size).storageOffset
        (integrityStorageWidth integrity)) :
    (recordOf message contents size)[fixed.offset]? = some fixed.value := by
  have distinct : (fixedPieces message).Pairwise Piece.Apart := by
    rw [fixedPieces, List.pairwise_map]
    exact valid.fixedSorted.imp fun before => Or.inl before
  have inside : ∀ piece ∈ fixedPieces message,
      piece.stop ≤ (List.replicate size (0 : UInt8)).length := fun piece listed =>
    (valid.fixedPieces_inside fits listed).trans List.length_replicate.ge
  have carried := carries_writeAll distinct inside _ (mem_fixedPieces.mpr ⟨fixed, member, rfl⟩)
  rw [recordOf, layRecord, writeAll_getElem?_free, fillRecord, writeAll_append,
    writeAll_getElem?_free free, carried.getElem? le_rfl (Nat.lt_succ_self _), Nat.sub_self]
  · rfl
  · intro piece listed covers
    simp only [checksumPieces, List.mem_map, Option.mem_toList] at listed
    obtain ⟨integrity, has, rfl⟩ := listed
    rw [Piece.stop, checksumBytes_length] at covers
    exact apart integrity has covers

/-- A checksum is not stored over a fixed byte. -/
theorem BinaryValid.fixed_checksum
    (valid : BinaryValid plan.schemaVersion plan.conversions message)
    {fixed : FixedByteExecutionPlan} (member : fixed ∈ message.fixedBytes)
    {integrity : FrozenIntegrityPlan} (has : message.integrity = some integrity) :
    ¬InRange fixed.offset (checksumPlace message integrity size).storageOffset
      (integrityStorageWidth integrity) := by
  rintro ⟨above, below⟩
  cases payload : message.boundedPayload with
  | none =>
    have apart := (valid.checksum integrity has).matchers payload fixed member
    rw [checksumPlace, payload] at above below
    simp only at above below
    unfold RangesApart at apart
    omega
  | some bounded =>
    have inside := valid.fixedInside fixed member
    rw [storageLimit, payload, layoutLimit] at inside
    rw [checksumPlace, payload] at above
    simp only at above
    omega

/-- A fixed byte lies before the payload of its message. -/
theorem BinaryValid.fixed_static
    (valid : BinaryValid plan.schemaVersion plan.conversions message)
    {fixed : FixedByteExecutionPlan} (member : fixed ∈ message.fixedBytes) {index : Nat}
    {field : FieldExecutionPlan} (found : message.fields[index]? = some field)
    (above : field.offset ≤ fixed.offset) : isPayload message index = false := by
  cases payload : isPayload message index with
  | false => rfl
  | true =>
    obtain ⟨bounded, has, same⟩ := (Option.any_eq_true _ _).mp payload
    obtain rfl : bounded.payloadFieldIndex = index := of_decide_eq_true same
    obtain ⟨other, listed, -, -, offset, -⟩ := (valid.payload bounded has).field
    obtain rfl := Option.some.inj (found.symm.trans listed)
    have inside := valid.fixedInside fixed member
    rw [storageLimit, has, layoutLimit] at inside
    omega

theorem ContentsFit.fieldBytes_length
    (fit : ContentsFit message size contents) {index : Nat} {field : FieldExecutionPlan}
    (found : message.fields[index]? = some field) (static : isPayload message index = false) :
    (fieldBytes contents (field, index)).length = field.width := by
  unfold fieldBytes
  split
  · rename_i type
    rw [fit.bytes index field found type, byteLength, static]
    rfl
  · exact storedBytes_length ..

/-- The record has a fixed byte exactly when the field or the container written over it has. -/
theorem BinaryValid.recordOf_hasByte
    (valid : BinaryValid plan.schemaVersion plan.conversions message)
    (fits : lengthMatches message size = true) (fit : ContentsFit message size contents)
    {fixed : FixedByteExecutionPlan} (member : fixed ∈ message.fixedBytes) :
    hasByte (recordOf message contents size) fixed = true ↔
      (∀ (index : Nat) field, message.fields[index]? = some field → isWritten field = true →
        InRange fixed.offset field.offset field.width →
          (fieldBytes contents (field, index))[fixed.offset - field.offset]? = some fixed.value) ∧
      (∀ (index : Nat) container, message.bitContainers[index]? = some container →
        InRange fixed.offset container.offset container.width →
          encodeUnsignedByte (filledContainer message contents.raw (container, index))
            container.width container.byteOrder (fixed.offset - container.offset) =
              fixed.value) := by
  have fieldByte : ∀ (index : Nat) field, message.fields[index]? = some field →
      isWritten field = true → InRange fixed.offset field.offset field.width →
        (recordOf message contents size)[fixed.offset]? =
          (fieldBytes contents (field, index))[fixed.offset - field.offset]? := by
    intro index field found written within
    refine (valid.recordOf_carries fits fit (List.mem_append_left _
      (mem_fieldPieces.mpr ⟨index, field, found, written, rfl⟩))).getElem? within.1 ?_
    rw [Piece.stop, fieldPiece, fit.fieldBytes_length found
      (valid.fixed_static member found within.1)]
    exact within.2
  have containerByte : ∀ (index : Nat) container, message.bitContainers[index]? = some container →
      InRange fixed.offset container.offset container.width →
        (recordOf message contents size)[fixed.offset]? =
          some (encodeUnsignedByte (filledContainer message contents.raw (container, index))
            container.width container.byteOrder (fixed.offset - container.offset)) := by
    intro index container found within
    have position : fixed.offset - container.offset < container.width := by
      unfold InRange at within
      omega
    rw [(valid.recordOf_carries fits fit (List.mem_append_right _ (List.mem_append_left _
      (mem_containerPieces.mpr ⟨index, container, found, rfl⟩)))).getElem? within.1 (by
        rw [Piece.stop, containerPiece, storedBytes_length]
        exact within.2)]
    rw [containerPiece, storedBytes, List.getElem?_map, List.getElem?_range position]
    rfl
  rw [hasByte, beq_iff_eq]
  constructor
  · intro has
    refine ⟨fun index field found written within => ?_, fun index container found within => ?_⟩
    · rw [← fieldByte index field found written within, has]
    · exact Option.some.inj ((containerByte index container found within).symm.trans has)
  · rintro ⟨fields, containers⟩
    by_cases covered : ∃ piece ∈ valuePieces message contents size,
        piece.offset ≤ fixed.offset ∧ fixed.offset < piece.stop
    · obtain ⟨piece, listed, above, below⟩ := covered
      rcases List.mem_append.mp listed with listed | listed
      · obtain ⟨index, field, found, written, rfl⟩ := mem_fieldPieces.mp listed
        rw [Piece.stop, fieldPiece, fit.fieldBytes_length found
          (valid.fixed_static member found above)] at below
        rw [fieldByte index field found written ⟨above, below⟩]
        exact fields index field found written ⟨above, below⟩
      rcases List.mem_append.mp listed with listed | listed
      · obtain ⟨index, container, found, rfl⟩ := mem_containerPieces.mp listed
        rw [Piece.stop, containerPiece, storedBytes_length] at below
        rw [containerByte index container found ⟨above, below⟩]
        exact congrArg some (containers index container found ⟨above, below⟩)
      · obtain ⟨computed, has, rfl⟩ := mem_lengthPieces.mp listed
        have apart := valid.lengthFree computed has fixed member
        rw [Piece.stop, lengthBytes_length] at below
        simp only at above below
        unfold RangesApart at apart
        omega
    · exact valid.recordOf_fixed fits member
        (fun piece listed covers => covered ⟨piece, listed, covers⟩)
        fun integrity has => valid.fixed_checksum member has

/-! ### Inputs under fixed bytes -/

/-- A byte of a stored integer has eight bits of it. -/
theorem testBit_encodeUnsignedByte {container : BitContainerExecutionPlan} {bit : Nat}
    (value byteIndex : Nat) (small : bit < 8) :
    (encodeUnsignedByte value container.width container.byteOrder byteIndex).toNat.testBit bit =
      value.testBit (bytePosition container byteIndex + bit) := by
  rw [encodeUnsignedByte, bytePosition, UInt8.toNat_ofNat', Nat.testBit_mod_two_pow,
    Nat.testBit_shiftRight, decide_eq_true small, Bool.true_and, Nat.mul_comm 8]

/-- Bytes with the same bits are equal. -/
theorem byte_eq_of_testBit {left right : UInt8}
    (same : ∀ bit < 8, left.toNat.testBit bit = right.toNat.testBit bit) : left = right := by
  refine UInt8.toNat_inj.mp (Nat.eq_of_testBit_eq fun bit => ?_)
  by_cases small : bit < 8
  · exact same bit small
  · have wide : ∀ byte : UInt8, byte.toNat.testBit bit = false := fun byte =>
      Nat.testBit_lt_two_pow (lt_of_lt_of_le byte.toNat_lt
        (Nat.pow_le_pow_right (by decide) (Nat.le_of_not_lt small)))
    rw [wide, wide]

/-- The constants of a record are those of its message. -/
def ConstantsHeld (message : MessageExecutionPlan) (contents : RecordContents) : Prop :=
  ∀ (index : Nat) field, message.fields[index]? = some field → field.encodeSource = .constant →
    contents.raw index = constantRaw field

/-- At every fixed byte that an input field or an input member covers, the encoded bits are
those of the fixed byte. -/
def InputsAgree (message : MessageExecutionPlan) (contents : RecordContents) : Prop :=
  ∀ fixed ∈ message.fixedBytes, ∀ (index : Nat) field, message.fields[index]? = some field →
    field.encodeSource = .input →
      (isMember field = false → InRange fixed.offset field.offset field.width →
        (fieldBytes contents (field, index))[fixed.offset - field.offset]? = some fixed.value) ∧
      ∀ container, message.bitContainers[field.bitContainerIndex]? = some container →
        InRange fixed.offset container.offset container.width → ∀ bit < 8,
          let position := bytePosition container (fixed.offset - container.offset) + bit
          field.bitMask.testBit position = true →
            (contents.raw index <<< field.bitShift).testBit position =
              fixed.value.toNat.testBit bit

/-- A container has a fixed byte exactly when its input members have its bits: the constant
members and the base value always have. -/
theorem BinaryValid.containerByte_iff
    (valid : BinaryValid plan.schemaVersion plan.conversions message)
    (constants : ConstantsHeld message contents) {fixed : FixedByteExecutionPlan}
    (member : fixed ∈ message.fixedBytes) {containerIndex : Nat}
    {container : BitContainerExecutionPlan}
    (there : message.bitContainers[containerIndex]? = some container)
    (within : InRange fixed.offset container.offset container.width) :
    encodeUnsignedByte (filledContainer message contents.raw (container, containerIndex))
        container.width container.byteOrder (fixed.offset - container.offset) = fixed.value ↔
      ∀ (index : Nat) field, message.fields[index]? = some field → field.encodeSource = .input →
        field.bitContainerIndex = containerIndex → ∀ bit < 8,
          let position := bytePosition container (fixed.offset - container.offset) + bit
          field.bitMask.testBit position = true →
            (contents.raw index <<< field.bitShift).testBit position =
              fixed.value.toNat.testBit bit := by
  have bits : ∀ bit < 8, (encodeUnsignedByte
      (filledContainer message contents.raw (container, containerIndex)) container.width
        container.byteOrder (fixed.offset - container.offset)).toNat.testBit bit =
      (filledContainer message contents.raw (container, containerIndex)).testBit
        (bytePosition container (fixed.offset - container.offset) + bit) := fun bit small =>
    testBit_encodeUnsignedByte _ _ small
  constructor
  · intro same index field found source refers bit small position owns
    rw [← valid.filledContainer_owned there found refers owns, ← bits bit small, same]
  · intro inputs
    refine byte_eq_of_testBit fun bit small => ?_
    rw [bits bit small]
    by_cases owned : ∃ field ∈ message.fields, field.bitContainerIndex = containerIndex ∧
        field.bitMask.testBit
          (bytePosition container (fixed.offset - container.offset) + bit) = true
    · obtain ⟨field, listed, refers, owns⟩ := owned
      obtain ⟨index, found⟩ := List.mem_iff_getElem?.mp listed
      rw [valid.filledContainer_owned there found refers owns]
      rcases (valid.memberValid there listed refers).source with source | ⟨type, source, -⟩
      · exact inputs index field found source refers bit small owns
      · have raw := constants index field found source
        rw [constantRaw, if_neg (by simp [type])] at raw
        rw [raw]
        exact (valid.containersAgree containerIndex container there fixed member within bit small _
          (.inl ⟨field, listed, refers, source, owns, rfl⟩)).symm
    · have free : ∀ field ∈ message.fields, field.bitContainerIndex = containerIndex →
          field.bitMask.testBit
            (bytePosition container (fixed.offset - container.offset) + bit) = false := by
        intro field listed refers
        cases owns : field.bitMask.testBit
            (bytePosition container (fixed.offset - container.offset) + bit) with
        | false => rfl
        | true => exact absurd ⟨field, listed, refers, owns⟩ owned
      rw [valid.filledContainer_free there free]
      exact (valid.containersAgree containerIndex container there fixed member within bit small _
        (.inr ⟨free, rfl⟩)).symm

/-- The record has the shape of its message exactly when its inputs agree with the fixed
bytes. Neither constants nor base values, neither the length nor the checksum stand in the
way. -/
theorem BinaryValid.hasShape_recordOf
    (valid : BinaryValid plan.schemaVersion plan.conversions message)
    (fits : lengthMatches message size = true) (fit : ContentsFit message size contents)
    (constants : ConstantsHeld message contents) :
    hasShape message (recordOf message contents size) = true ↔ InputsAgree message contents := by
  rw [hasShape, recordOf_length, fits, Bool.true_and, List.all_eq_true]
  constructor
  · intro has fixed member index field found source
    obtain ⟨fields, containers⟩ := (valid.recordOf_hasByte fits fit member).mp (has fixed member)
    refine ⟨fun plain => fields index field found (isWritten_iff.mpr ⟨by simp [source], plain⟩),
      fun container there within => ?_⟩
    exact (valid.containerByte_iff constants member there within).mp
      (containers _ container there within) index field found source rfl
  · intro agree fixed member
    refine (valid.recordOf_hasByte fits fit member).mpr
      ⟨fun index field found written within => ?_, fun index container there within => ?_⟩
    · obtain ⟨stored, plain⟩ := isWritten_iff.mp written
      cases source : field.encodeSource with
      | input => exact (agree fixed member index field found source).1 plain within
      | computed => exact absurd source stored
      | constant =>
        have type : field.valueType ≠ .bytes := by
          cases valid.fields field (List.mem_of_getElem? found) with
          | member container real _ _ => exact absurd plain (by simp [isMember, real])
          | integer _ integerValid =>
            rcases integerValid.constant source with ⟨type, -⟩ | ⟨type, -⟩ <;> simp [type]
          | bytes _ bytesValid => simp [bytesValid.source] at source
        have position : fixed.offset - field.offset < field.width := by
          unfold InRange at within
          omega
        rw [fieldBytes, if_neg type, constants index field found source, storedBytes,
          List.getElem?_map, List.getElem?_range position]
        exact congrArg some (valid.constantsAgree field (List.mem_of_getElem? found) plain source
          fixed member within).symm
    · refine (valid.containerByte_iff constants member there within).mpr ?_
      intro other field found source refers
      subst refers
      exact (agree fixed member other field found source).2 container there within

/-! ### Uniqueness -/

/-- A record that says the same about everything is the same record. -/
theorem BinaryValid.eq_recordOf
    (valid : BinaryValid plan.schemaVersion plan.conversions message)
    (fits : lengthMatches message size = true) (fit : ContentsFit message size contents)
    {record : List UInt8} (length : record.length = size)
    (states : statesLength message record size = true)
    (carries : carriesChecksum message record size = true)
    (fixed : message.fixedBytes.all (hasByte record) = true)
    (fields : ∀ (index : Nat) field, message.fields[index]? = some field →
      isWritten field = true → slice record field.offset
        (fieldBytes contents (field, index)).length = fieldBytes contents (field, index))
    (containers : ∀ (index : Nat) container, message.bitContainers[index]? = some container →
      containerValue container record =
        filledContainer message contents.raw (container, index)) :
    record = recordOf message contents size := by
  have carried : ∀ piece ∈ valuePieces message contents size, Carries record piece := by
    intro piece member
    rcases List.mem_append.mp member with member | member
    · obtain ⟨index, field, found, written, rfl⟩ := mem_fieldPieces.mp member
      exact fields index field found written
    rcases List.mem_append.mp member with member | member
    · obtain ⟨index, container, found, rfl⟩ := mem_containerPieces.mp member
      have inside := (valid.containers container (List.mem_of_getElem? found)).inside.trans
        (valid.storageLimit_le fits)
      have stored := storedBytes_loadValue (slice record container.offset container.width)
        container.byteOrder
      rw [slice_length (length ▸ inside)] at stored
      rw [Carries, containerPiece, storedBytes_length, ← containers index container found]
      exact stored.symm
    · obtain ⟨computed, has, rfl⟩ := mem_lengthPieces.mp member
      rw [statesLength, has] at states
      simp only [beq_iff_eq] at states
      rw [Carries, lengthBytes_length]
      exact states
  have apart : ∀ index, index < size → (∀ integrity, message.integrity = some integrity →
      ¬InRange index (checksumPlace message integrity size).storageOffset
        (integrityStorageWidth integrity)) →
      record[index]? = (recordOf message contents size)[index]? := by
    intro index inside free
    by_cases covered : ∃ piece ∈ valuePieces message contents size,
        piece.offset ≤ index ∧ index < piece.stop
    · obtain ⟨piece, member, above, below⟩ := covered
      rw [(carried piece member).getElem? above below,
        (valid.recordOf_carries fits fit member).getElem? above below]
    · cases valid.source fits fit inside with
      | value piece member above below => exact absurd ⟨piece, member, above, below⟩ covered
      | fixed byte member same =>
        subst same
        have has := List.all_eq_true.mp fixed byte member
        rw [hasByte, beq_iff_eq] at has
        rw [has, valid.recordOf_fixed fits member
          (fun piece listed covers => covered ⟨piece, listed, covers⟩) free]
      | checksum integrity has within => exact absurd within (free integrity has)
  refine List.ext_getElem? fun index => ?_
  rcases Nat.lt_or_ge index size with inside | outside
  · by_cases checked : ∃ integrity, message.integrity = some integrity ∧
        InRange index (checksumPlace message integrity size).storageOffset
          (integrityStorageWidth integrity)
    · obtain ⟨integrity, has, above, below⟩ := checked
      obtain ⟨range, -, separate⟩ := valid.place_valid fits has
      rw [checksumPlace_width] at separate
      have covered : coveredBytes message integrity record size =
          coveredBytes message integrity (recordOf message contents size) size := by
        refine slice_congr fun position bound => apart _ (by omega) fun other there within => ?_
        obtain rfl := Option.some.inj (has.symm.trans there)
        unfold RangesApart at separate
        unfold InRange at within
        omega
      have written := @BinaryValid.recordOf_carriesChecksum _ _ contents _ valid fits
      rw [carriesChecksum, has] at carries written
      simp only [beq_iff_eq, checksumPlace_width] at carries written
      rw [covered] at carries
      have same := carries.trans written.symm
      have byte := congrArg (·[index - (checksumPlace message integrity size).storageOffset]?) same
      rwa [slice_getElem? (by omega), slice_getElem? (by omega), Nat.add_sub_cancel' above] at byte
    · exact apart index inside fun integrity has within => checked ⟨integrity, has, within⟩
  · rw [List.getElem?_eq_none (by omega), List.getElem?_eq_none (by rw [recordOf_length]; omega)]

end

end ProtocolAdapter.Codec
