/-
This file shows that the encoder writes the record the values ask for. When it has accepted
the values and the memory of the caller has room, it writes piece by piece what the record
consists of, its length and its checksum last.
-/

import ProtocolAdapter.Codec.EncodeMemory

namespace ProtocolAdapter.Codec

open Foundation Foundation.Operation Foundation.Bytes

section

variable {plan : PlanBundle} {messageIndex : Nat} {message : MessageExecutionPlan}
  {values : List EncodeFieldValue}

/-! ### Supplied values -/

/-- The value of an input field is found. -/
theorem Supplied.value_eq {workspace : ExecutionWorkspace}
    (supplied : Supplied plan message values workspace)
    (version : isTextSchema plan.schemaVersion = false) {index : Nat} {field : FieldExecutionPlan}
    (found : message.fields[index]? = some field) (source : field.encodeSource = .input) :
    suppliedValue values workspace.encodeValueIndices field = some (valueFor values index) := by
  refine supplied.value index field found ?_
  rw [takesInput_binary version]
  exact beq_iff_eq.mpr source

theorem input_of_not {field : FieldExecutionPlan} (stored : field.encodeSource ≠ .computed)
    (constant : field.encodeSource ≠ .constant) : field.encodeSource = .input := by
  cases kind : field.encodeSource with
  | input => rfl
  | constant => exact absurd kind constant
  | computed => exact absurd kind stored

/-- The raw value of a field is the one its value asks for. -/
theorem getEncodeRawValue_eq (valid : BinaryValid plan.schemaVersion plan.conversions message)
    (version : isTextSchema plan.schemaVersion = false)
    (accepted : inputsFailure plan messageIndex message values = none)
    {workspace : ExecutionWorkspace} (supplied : Supplied plan message values workspace)
    {index : Nat} {field : FieldExecutionPlan} (found : message.fields[index]? = some field)
    (type : field.valueType ≠ .bytes) (stored : field.encodeSource ≠ .computed) :
    getEncodeRawValue message values workspace field =
      some (suppliedRaw plan message values index) := by
  unfold getEncodeRawValue suppliedRaw
  simp only [suppliedRaw_eq found]
  cases has : hasConversion field with
  | true =>
    obtain ⟨raw, run, kept⟩ := supplied.raw index field found has
    simp only [if_true, run, kept]
  | false =>
    simp only [Bool.false_eq_true, if_false]
    by_cases constant : field.encodeSource = .constant
    · simp only [constant, if_true, constantRaw]
      split <;> rfl
    have source := input_of_not stored constant
    simp only [supplied.value_eq version found source, if_neg constant, Option.bind_eq_bind,
      Option.bind_some]
    cases kind : field.valueType with
    | int64 => rfl
    | uint64 => rfl
    | bool => rfl
    | bytes => exact absurd kind type
    | enum =>
      obtain ⟨entries, enumValid⟩ := valid.enums field (List.mem_of_getElem? found) kind
      obtain ⟨rest, listed⟩ := enumValid.values
      obtain ⟨-, passes⟩ := (valueAccepted valid version accepted found source).plain has
      rw [valueFailure, kind] at passes
      simp only [ite_eq_right_iff, reduceCtorEq, imp_false, not_or, not_not, not_le] at passes
      obtain ⟨-, -, -, within⟩ := passes
      rw [enumValid.valuesCount] at within
      simp only [reduceCtorEq, if_false]
      have inside : (valueFor values index).enumValue.entryIndex <
          (entries.map (·.rawValue)).length := by rwa [List.length_map]
      rw [← List.getElem?_drop, listed, List.getElem?_append_left inside, enumValid.entryValues_eq,
        List.getD_eq_getElem _ _ inside, List.getElem?_eq_getElem inside]

/-! ### Writing -/

/-- The pieces so far are in the output, and nothing else has changed that matters. -/
structure Writing (plan : PlanBundle) (message : MessageExecutionPlan)
    (values : List EncodeFieldValue) (start : EncodeState) (pieces : List Piece)
    (state : EncodeState) : Prop where
  output : state.output = writeAll pieces start.output
  result : state.result = start.result
  supplied : Supplied plan message values state.workspace

theorem Writing.length {start state : EncodeState} {pieces : List Piece}
    (writing : Writing plan message values start pieces state) :
    state.output.length = start.output.length := by
  rw [writing.output, writeAll_length]

theorem writeOutput_eq {write : List UInt8 → Access (List UInt8)} {state : EncodeState}
    {written : List UInt8} (run : write state.output = some written) :
    writeOutput write state = .done () { state with output := written } := by
  unfold writeOutput
  rw [current_bind, access_bind run]
  rfl

theorem storeOrFail_eq {value offset width : Nat} {byteOrder : ByteOrder}
    {blame : EncodeState → EncodeState} {state : EncodeState} (positive : 0 < width)
    (bounded : width ≤ 8) (order : isIntegerByteOrderValid byteOrder width = true)
    (small : value < 256 ^ width) (within : offset + width ≤ state.output.length) :
    storeOrFail value offset width byteOrder blame state =
      .done () { state with
        output := store state.output offset (storedBytes value width byteOrder) } := by
  have fits : fitsUnsignedWidth value width = true :=
    fitsUnsignedWidth_iff.mpr ⟨positive, bounded, by rwa [two_pow_eight_mul]⟩
  unfold storeOrFail
  rw [current_bind, access_bind (storeUnsigned_eq order fits within)]
  rfl

theorem foldlM_setElement : ∀ {fixed : List FixedByteExecutionPlan} {output : List UInt8},
    (∀ byte ∈ fixed, byte.offset < output.length) →
      fixed.foldlM (fun output byte => setElement output byte.offset byte.value) output =
        some (writeAll (fixed.map fun byte => ⟨byte.offset, [byte.value]⟩) output)
  | [], _, _ => rfl
  | byte :: rest, output, inside => by
    have later := @foldlM_setElement rest (output.set byte.offset byte.value) fun other member => by
      rw [List.length_set]
      exact inside other (List.mem_cons_of_mem _ member)
    rw [List.foldlM_cons, setElement_eq _ (inside byte List.mem_cons_self), List.map_cons,
      writeAll_cons, store_singleton]
    exact later

/-- The fixed bytes are written first. -/
theorem writeFixedBytes_ends {returned : EncodeState → Prop}
    (valid : BinaryValid plan.schemaVersion plan.conversions message) {start : EncodeState}
    (supplied : Supplied plan message values start.workspace)
    (room : storageLimit message ≤ start.output.length) :
    Ends (fun _ => Writing plan message values start (fixedPieces message)) returned
      (writeFixedBytes message start) := by
  unfold writeFixedBytes
  rw [writeOutput_eq (foldlM_setElement fun byte member =>
    (valid.fixedInside byte member).trans_le room)]
  exact .done ⟨rfl, rfl, supplied⟩

/-- What the loop over the fields has written after some of them. -/
structure Filling (plan : PlanBundle) (message : MessageExecutionPlan)
    (values : List EncodeFieldValue) (start : EncodeState) (passed : Nat) (state : EncodeState) :
    Prop where
  writing : Writing plan message values start
    (fixedPieces message ++ ((message.fields.zipIdx.take passed).filter (isWritten ·.1)).map
      (fieldPiece (suppliedContents plan message values))) state
  containers : ∀ (containerIndex : Nat) container,
    message.bitContainers[containerIndex]? = some container →
      state.workspace.bitContainerValues[containerIndex]? =
        some (insertMembers (suppliedRaw plan message values)
          ((message.fields.zipIdx.take passed).filter (·.1.bitContainerIndex = containerIndex))
          container.baseValue)

theorem Supplied.setContainers {workspace : ExecutionWorkspace} {containerValues : List Nat}
    (supplied : Supplied plan message values workspace)
    (length : containerValues.length = workspace.bitContainerValues.length) :
    Supplied plan message values { workspace with bitContainerValues := containerValues } where
  shaped := { supplied.shaped with
    bitContainerValues := length.trans supplied.shaped.bitContainerValues }
  value := supplied.value
  raw := supplied.raw

/-- Every container starts from its base value. -/
theorem startContainers_ends {returned : EncodeState → Prop}
    (covers : LayoutCovers plan.executionResourceLayout message) {start state : EncodeState}
    (writing : Writing plan message values start (fixedPieces message) state) :
    Ends (fun _ => Filling plan message values start 0) returned
      (startContainers message state) := by
  have room : message.bitContainers.length ≤ state.workspace.bitContainerValues.length :=
    covers.containers.trans_eq writing.supplied.shaped.bitContainerValues.symm
  unfold startContainers
  rw [current_bind]
  simp only
  rw [leaveIf_bind_neg (by omega), update_apply]
  refine .done ⟨⟨?_, writing.result, writing.supplied.setContainers ?_⟩, ?_⟩
  · simpa using writing.output
  · rw [List.length_append, List.length_map, List.length_drop]
    omega
  · intro containerIndex container found
    show (_ ++ _ : List Nat)[containerIndex]? = _
    have inside := (List.getElem?_eq_some_iff.mp found).1
    rw [List.getElem?_append_left (by rwa [List.length_map]), List.getElem?_map, found]
    rfl

theorem take_zipIdx_succ {index : Nat} {field : FieldExecutionPlan}
    (found : message.fields[index]? = some field) :
    message.fields.zipIdx.take (index + 1) =
      message.fields.zipIdx.take index ++ [(field, index)] := by
  have listed : message.fields.zipIdx[index]? = some (field, index) := by
    simp [List.getElem?_zipIdx, found]
  rw [List.take_add_one, listed, Option.toList_some]

/-- A field that is not written leaves the output as it is. -/
theorem Filling.skip {start state : EncodeState} {index : Nat} {field : FieldExecutionPlan}
    (filling : Filling plan message values start index state)
    (found : message.fields[index]? = some field) (unwritten : isWritten field = false)
    (plain : ∀ (containerIndex : Nat) container,
      message.bitContainers[containerIndex]? = some container →
        field.bitContainerIndex ≠ containerIndex) :
    Filling plan message values start (index + 1) state := by
  refine ⟨?_, fun containerIndex container there => ?_⟩
  · rw [take_zipIdx_succ found, List.filter_append, List.filter_cons_of_neg (by simp [unwritten]),
      List.filter_nil, List.append_nil]
    exact filling.writing
  · rw [take_zipIdx_succ found, List.filter_append,
      List.filter_cons_of_neg (by simpa using plain containerIndex container there),
      List.filter_nil, List.append_nil]
    exact filling.containers containerIndex container there

/-- A field with its own bytes is written into the output. -/
theorem Filling.write {start state : EncodeState} {index : Nat} {field : FieldExecutionPlan}
    (filling : Filling plan message values start index state)
    (found : message.fields[index]? = some field) (written : isWritten field = true)
    (plain : ∀ (containerIndex : Nat) container,
      message.bitContainers[containerIndex]? = some container →
        field.bitContainerIndex ≠ containerIndex) :
    Filling plan message values start (index + 1) { state with
      output := store state.output field.offset
        (fieldBytes (suppliedContents plan message values) (field, index)) } := by
  refine ⟨⟨?_, filling.writing.result, filling.writing.supplied⟩,
    fun containerIndex container there => ?_⟩
  · rw [take_zipIdx_succ found, List.filter_append, List.filter_cons_of_pos (by exact written),
      List.filter_nil, List.map_append, ← List.append_assoc, writeAll_append,
      ← filling.writing.output]
    rfl
  · rw [take_zipIdx_succ found, List.filter_append,
      List.filter_cons_of_neg (by simpa using plain containerIndex container there),
      List.filter_nil, List.append_nil]
    exact filling.containers containerIndex container there

/-- A member is written into the value of its container. -/
theorem Filling.insert {start state : EncodeState} {index : Nat} {field : FieldExecutionPlan}
    (filling : Filling plan message values start index state)
    (found : message.fields[index]? = some field) (member : isMember field = true) {value : Nat}
    (current : state.workspace.bitContainerValues[field.bitContainerIndex]? = some value) :
    Filling plan message values start (index + 1) { state with workspace := { state.workspace with
      bitContainerValues := state.workspace.bitContainerValues.set field.bitContainerIndex
        (insertBitfield value (suppliedRaw plan message values index) field) } } := by
  have unwritten : isWritten field = false := by simp [isWritten, member]
  refine ⟨⟨?_, filling.writing.result, filling.writing.supplied.setContainers
    (List.length_set ..)⟩, fun containerIndex container there => ?_⟩
  · rw [take_zipIdx_succ found, List.filter_append, List.filter_cons_of_neg (by simp [unwritten]),
      List.filter_nil, List.append_nil]
    exact filling.writing.output
  · have before := filling.containers containerIndex container there
    rw [take_zipIdx_succ found, List.filter_append]
    by_cases same : field.bitContainerIndex = containerIndex
    · subst same
      rw [List.filter_cons_of_pos (by simp), List.filter_nil, insertMembers, List.foldl_append]
      obtain rfl := Option.some.inj (current.symm.trans before)
      exact List.getElem?_set_self (List.getElem?_eq_some_iff.mp current).1
    · rw [List.filter_cons_of_neg (by simpa using same), List.filter_nil, List.append_nil, ← before]
      exact List.getElem?_set_ne same

/-- One round of the loop over the fields. -/
theorem writeField_ends {returned : EncodeState → Prop}
    (valid : BinaryValid plan.schemaVersion plan.conversions message)
    (version : isTextSchema plan.schemaVersion = false)
    (accepted : inputsFailure plan messageIndex message values = none) {start state : EncodeState}
    (room : recordSize message values ≤ start.output.length) {index : Nat}
    {field : FieldExecutionPlan} (found : message.fields[index]? = some field)
    (filling : Filling plan message values start index state) :
    Ends (fun _ => Filling plan message values start (index + 1)) returned
      (writeField message values field state) := by
  have fits := recordSize_fits valid version accepted
  have fit := suppliedContents_fit valid version accepted
  have plainContainer : isMember field = false → ∀ (containerIndex : Nat) container,
      message.bitContainers[containerIndex]? = some container →
        field.bitContainerIndex ≠ containerIndex := by
    intro plain containerIndex container there
    have none : field.bitContainerIndex = invalidIndex := by simpa [isMember] using plain
    exact none ▸ (valid.containerIndex_ne there).symm
  unfold writeField
  rw [current_bind]
  by_cases computed : field.encodeSource = .computed
  · rw [if_pos computed]
    have plain : isMember field = false := by
      cases valid.fields field (List.mem_of_getElem? found) with
      | member _ _ _ memberValid =>
        rcases memberValid.source with source | ⟨-, source, -⟩ <;> rw [computed] at source <;>
          cases source
      | integer plain _ => exact decide_eq_false (not_not.mpr plain)
      | bytes plain _ => exact decide_eq_false (not_not.mpr plain)
    exact .done (filling.skip found (by simp [isWritten, computed]) (plainContainer plain))
  rw [if_neg computed]
  by_cases type : field.valueType = .bytes
  · rw [if_pos type]
    obtain ⟨plain, source⟩ : isMember field = false ∧ field.encodeSource = .input := by
      cases valid.fields field (List.mem_of_getElem? found) with
      | member _ _ _ memberValid =>
        rcases memberValid.type with other | other | other <;> rw [type] at other <;> cases other
      | integer _ integerValid =>
        rcases integerValid.type with other | other | ⟨other, -⟩ <;> rw [type] at other <;>
          cases other
      | bytes plain bytesValid => exact ⟨decide_eq_false (not_not.mpr plain), bytesValid.source⟩
    have inside := (valid.fieldBytes_inside fits fit found plain).trans
      (room.trans_eq filling.writing.length.symm)
    rw [fieldBytes, if_pos type] at inside
    have next := filling.write found (isWritten_iff.mpr ⟨computed, plain⟩) (plainContainer plain)
    rw [fieldBytes, if_pos type] at next
    have run := @writeOutput_eq
      (fun output => writeBytes output field.offset (valueFor values index).bytesValue.bytes)
      state _ (writeBytes_eq inside)
    rw [access_bind (filling.writing.supplied.value_eq version found source), run]
    exact .done next
  rw [if_neg type, access_bind (getEncodeRawValue_eq valid version accepted
    filling.writing.supplied found type computed)]
  cases valid.fields field (List.mem_of_getElem? found) with
  | member container real there memberValid =>
    have current := filling.containers _ container there
    have slot := (List.getElem?_eq_some_iff.mp current).1
    rw [if_pos real, access_bind current, access_bind (setElement_eq _ slot)]
    exact .done (filling.insert found (decide_eq_true real) current)
  | integer none integerValid =>
    have plain : isMember field = false := decide_eq_false (not_not.mpr none)
    have inside := (valid.integer_inside fits found plain type).trans
      (room.trans_eq filling.writing.length.symm)
    have next := filling.write found (isWritten_iff.mpr ⟨computed, plain⟩) (plainContainer plain)
    rw [fieldBytes, if_neg type] at next
    have small : suppliedRaw plan message values index < 256 ^ field.width :=
      fit.integer index field found plain type computed
    rw [if_neg (not_not.mpr none), storeOrFail_eq integerValid.positive integerValid.bounded
      integerValid.order small inside]
    exact .done next
  | bytes _ bytesValid => exact absurd bytesValid.type type

/-- The containers are stored behind the fields. -/
theorem writeContainer_ends {returned : EncodeState → Prop}
    (valid : BinaryValid plan.schemaVersion plan.conversions message)
    (version : isTextSchema plan.schemaVersion = false)
    (accepted : inputsFailure plan messageIndex message values = none) {start state : EncodeState}
    (room : recordSize message values ≤ start.output.length) {pieces : List Piece} {index : Nat}
    {container : BitContainerExecutionPlan} (found : message.bitContainers[index]? = some container)
    (filled : ∀ (containerIndex : Nat) container,
      message.bitContainers[containerIndex]? = some container →
        state.workspace.bitContainerValues[containerIndex]? =
          some (filledContainer message (suppliedRaw plan message values)
            (container, containerIndex)))
    (writing : Writing plan message values start (pieces ++
      (message.bitContainers.zipIdx.take index).map
        (containerPiece message (suppliedContents plan message values))) state) :
    Ends (fun _ after => after.workspace = state.workspace ∧
        Writing plan message values start (pieces ++
          (message.bitContainers.zipIdx.take (index + 1)).map
            (containerPiece message (suppliedContents plan message values))) after) returned
      (writeContainer (container, index) state) := by
  have fits := recordSize_fits valid version accepted
  have facts := valid.containers container (List.mem_of_getElem? found)
  have small := @BinaryValid.filledContainer_lt _ _ message index container
    (suppliedRaw plan message values) valid found
  rw [two_pow_eight_mul] at small
  have inside : container.offset + container.width ≤ state.output.length :=
    (facts.inside.trans (valid.storageLimit_le fits)).trans (room.trans_eq writing.length.symm)
  have listed : message.bitContainers.zipIdx[index]? = some (container, index) := by
    simp [List.getElem?_zipIdx, found]
  unfold writeContainer
  simp only
  rw [current_bind, access_bind (filled index container found),
    storeOrFail_eq facts.positive facts.bounded facts.order small inside]
  refine .done ⟨rfl, ?_, writing.result, writing.supplied⟩
  rw [List.take_add_one, listed, Option.toList_some, List.map_append, ← List.append_assoc,
    writeAll_append, ← writing.output]
  rfl

/-- Fields and containers are written over the fixed bytes. -/
theorem writeFields_ends {returned : EncodeState → Prop}
    (valid : BinaryValid plan.schemaVersion plan.conversions message)
    (version : isTextSchema plan.schemaVersion = false)
    (covers : LayoutCovers plan.executionResourceLayout message)
    (accepted : inputsFailure plan messageIndex message values = none) {start state : EncodeState}
    (room : recordSize message values ≤ start.output.length)
    (writing : Writing plan message values start (fixedPieces message) state) :
    Ends (fun _ => Writing plan message values start (fixedPieces message ++
        (fieldPieces message (suppliedContents plan message values) ++
          containerPieces message (suppliedContents plan message values)))) returned
      (writeFields message values state) := by
  unfold writeFields
  refine .bind (startContainers_ends covers writing) fun _ begun filling => ?_
  have loop : Ends (fun _ => Filling plan message values start message.fields.length) returned
      (message.fields.forM (writeField message values) begun) :=
    .forM filling fun _ _ _ found filling =>
      writeField_ends valid version accepted room found filling
  refine .bind loop fun _ filled filling => ?_
  have full := filling.writing
  have containers := filling.containers
  rw [List.take_of_length_le (by rw [List.length_zipIdx])] at full
  simp only [List.take_of_length_le (show message.fields.zipIdx.length ≤ message.fields.length by
    rw [List.length_zipIdx])] at containers
  have stores : Ends (fun _ after => after.workspace = filled.workspace ∧
      Writing plan message values start ((fixedPieces message ++
        fieldPieces message (suppliedContents plan message values)) ++
          (message.bitContainers.zipIdx.take message.bitContainers.length).map
            (containerPiece message (suppliedContents plan message values))) after) returned
      (message.bitContainers.zipIdx.forM writeContainer filled) := by
    refine @Ends.forM_zipIdx _ _ _ _ _ (fun passed after => after.workspace = filled.workspace ∧
      Writing plan message values start ((fixedPieces message ++
        fieldPieces message (suppliedContents plan message values)) ++
          (message.bitContainers.zipIdx.take passed).map
            (containerPiece message (suppliedContents plan message values))) after) _
      ⟨rfl, by simpa [fieldPieces] using full⟩ ?_
    rintro index container after found ⟨same, writing⟩
    refine (writeContainer_ends valid version accepted room found (fun containerIndex other there =>
      same ▸ containers containerIndex other there) writing).mono ?_ fun _ holds => holds
    rintro _ _ ⟨kept, writing⟩
    exact ⟨kept.trans same, writing⟩
  refine stores.mono ?_ fun _ holds => holds
  rintro _ after ⟨-, writing⟩
  rw [List.take_of_length_le (by rw [List.length_zipIdx]), List.append_assoc] at writing
  exact writing

/-! ### Length and checksum -/

/-- The computed length is written over the fields. -/
theorem writeComputedLength_ends {returned : EncodeState → Prop}
    (valid : BinaryValid plan.schemaVersion plan.conversions message)
    (version : isTextSchema plan.schemaVersion = false)
    (accepted : inputsFailure plan messageIndex message values = none) {start state : EncodeState}
    (room : recordSize message values ≤ start.output.length)
    (writing : Writing plan message values start (fixedPieces message ++
      (fieldPieces message (suppliedContents plan message values) ++
        containerPieces message (suppliedContents plan message values))) state) :
    Ends (fun _ after => after.output = fillRecord message (suppliedContents plan message values)
          (recordSize message values) start.output ∧ after.result = start.result ∧
        Supplied plan message values after.workspace) returned
      (writeComputedLength message (recordSize message values) state) := by
  have fits := recordSize_fits valid version accepted
  unfold writeComputedLength
  cases has : message.computedLength with
  | none =>
    refine .done ⟨?_, writing.result, writing.supplied⟩
    rw [writing.output, fillRecord, valuePieces, lengthPieces, has, Option.toList_none,
      List.map_nil, List.append_nil]
  | some computed =>
    have facts := valid.length_valid has
    have small := valid.actualLength_lt fits has
    have inside : computed.storageOffset + computed.storageWidth ≤ state.output.length :=
      (facts.inside.trans (valid.storageLimit_le fits)).trans (room.trans_eq writing.length.symm)
    show Ends _ _ (storeOrFail (actualLength message computed (recordSize message values)
      (payloadSize message (recordSize message values))) _ _ _ _ state)
    rw [storeOrFail_eq facts.positive facts.bounded facts.order small inside]
    refine .done ⟨?_, writing.result, writing.supplied⟩
    rw [fillRecord, valuePieces, lengthPieces, has, Option.toList_some, List.map_singleton,
      ← List.append_assoc (fieldPieces ..), ← List.append_assoc (fixedPieces ..), writeAll_append,
      ← writing.output]
    rfl

/-- A check of a buffer is a check of the record at its start. -/
theorem BinaryValid.carriesChecksum_take
    (valid : BinaryValid plan.schemaVersion plan.conversions message) {size : Nat}
    (fits : lengthMatches message size = true) (data : List UInt8) :
    carriesChecksum message (data.take size) size = carriesChecksum message data size := by
  unfold carriesChecksum
  cases has : message.integrity with
  | none => rfl
  | some integrity =>
    obtain ⟨range, storage, -⟩ := valid.place_valid fits has
    simp only [coveredBytes]
    rw [slice_take range, slice_take storage]

theorem BinaryValid.statesLength_take
    (valid : BinaryValid plan.schemaVersion plan.conversions message) {size : Nat}
    (fits : lengthMatches message size = true) (data : List UInt8) :
    statesLength message (data.take size) size = statesLength message data size := by
  unfold statesLength
  cases has : message.computedLength with
  | none => rfl
  | some computed =>
    have inside := (valid.length_valid has).inside.trans (valid.storageLimit_le fits)
    simp only
    rw [slice_take inside]

/-- What the encoder has established when it has written the record. -/
structure Laid (plan : PlanBundle) (message : MessageExecutionPlan)
    (values : List EncodeFieldValue) (start state : EncodeState) : Prop where
  output : state.output = layRecord message (suppliedContents plan message values)
    (recordSize message values) start.output
  result : state.result = start.result
  supplied : Supplied plan message values state.workspace

theorem Laid.take (valid : BinaryValid plan.schemaVersion plan.conversions message)
    (version : isTextSchema plan.schemaVersion = false)
    (accepted : inputsFailure plan messageIndex message values = none) {start state : EncodeState}
    (laid : Laid plan message values start state)
    (room : recordSize message values ≤ start.output.length) :
    state.output.take (recordSize message values) =
      recordOf message (suppliedContents plan message values) (recordSize message values) := by
  rw [laid.output, valid.layRecord_eq (recordSize_fits valid version accepted)
    (suppliedContents_fit valid version accepted) room]
  exact List.take_left' (recordOf_length ..)

/-- The checksum is written last, and it is the one the record asks for. -/
theorem writeIntegrity_ends {returned : EncodeState → Prop}
    (valid : BinaryValid plan.schemaVersion plan.conversions message)
    (version : isTextSchema plan.schemaVersion = false)
    (accepted : inputsFailure plan messageIndex message values = none) {start state : EncodeState}
    (room : recordSize message values ≤ start.output.length)
    (output : state.output = fillRecord message (suppliedContents plan message values)
      (recordSize message values) start.output) (result : state.result = start.result)
    (supplied : Supplied plan message values state.workspace) :
    Ends (fun _ => Laid plan message values start) returned
      (writeIntegrity message (recordSize message values) state) := by
  have fits := recordSize_fits valid version accepted
  unfold writeIntegrity
  rw [leaveIf_bind_neg (by simp [valid.integrityDescriptorValid_eq])]
  cases has : message.integrity with
  | none =>
    refine .done ⟨?_, result, supplied⟩
    rw [output, layRecord, checksumPieces, has, Option.toList_none, List.map_nil, writeAll_nil]
  | some integrity =>
    simp only [valid.resolveIntegrity_eq fits has]
    rw [current_bind]
    have length : state.output.length = start.output.length := by rw [output, fillRecord_length]
    obtain ⟨range, storage, -⟩ := valid.place_valid fits has
    have rangeRoom := range.trans (room.trans_eq length.symm)
    have storageRoom := storage.trans (room.trans_eq length.symm)
    -- Both algorithms store the checksum of the range; then the encoder reads it back.
    have laid : ∀ checksum, checksum =
          checksumBytes integrity (coveredBytes message integrity state.output
            (recordSize message values)) →
        Laid plan message values start { state with
          output := store state.output
            (checksumPlace message integrity (recordSize message values)).storageOffset
            checksum } := by
      rintro _ rfl
      refine ⟨?_, result, supplied⟩
      rw [layRecord, checksumPieces, has, Option.toList_some, List.map_singleton, writeAll_cons,
        writeAll_nil, ← output]
    have reviewed : ∀ after, Laid plan message values start after →
        Ends (fun _ => Laid plan message values start) returned
          ((do
            let state ← current
            let matching ← access
              (integrityMatches message state.output (recordSize message values))
            leaveIf (matching = false) (.fail .finalReviewFailed) : Encoding Unit) after) := by
      intro after laid
      have reach : recordSize message values ≤ after.output.length := by
        rw [laid.output, layRecord_length]
        exact room
      have carried : carriesChecksum message after.output (recordSize message values) = true := by
        rw [← valid.carriesChecksum_take fits, laid.take valid version accepted room]
        exact valid.recordOf_carriesChecksum fits
      rw [current_bind, access_bind (valid.integrityMatches_eq fits reach), carried,
        leaveIf_neg (by simp)]
      exact .done laid
    have covered : readBytes state.output
        (checksumPlace message integrity (recordSize message values)).rangeOffset
        (checksumPlace message integrity (recordSize message values)).rangeLength =
          some (coveredBytes message integrity state.output (recordSize message values)) :=
      readBytes_eq rangeRoom
    cases algorithm : integrity.algorithm with
    | sum8 =>
      have one : integrityStorageWidth integrity = 1 := by
        rw [integrityStorageWidth, algorithm]
      rw [checksumPlace_width, one] at storageRoom
      have sum : sum8 state.output
          (checksumPlace message integrity (recordSize message values)).rangeOffset
          (checksumPlace message integrity (recordSize message values)).rangeLength =
            some ((coveredBytes message integrity state.output
              (recordSize message values)).foldl (· + ·) 0) := by
        rw [sum8, covered]
        rfl
      have stored := @writeOutput_eq (fun output => setElement output
        (checksumPlace message integrity (recordSize message values)).storageOffset
        ((coveredBytes message integrity state.output
          (recordSize message values)).foldl (· + ·) 0)) state _
        (setElement_eq _ (by omega))
      simp only
      rw [access_bind sum, bind_of_done stored]
      refine reviewed _ ?_
      rw [← store_singleton]
      exact laid _ (by rw [checksumBytes, algorithm])
    | crc =>
      have algorithmValid := (valid.checksum integrity has).algorithm
      obtain ⟨positive, bounded, order⟩ := crcStorage_valid algorithm algorithmValid
      have small := crcValue_lt (coveredBytes message integrity state.output
        (recordSize message values)) algorithm algorithmValid
      have value : crc integrity state.output
          (checksumPlace message integrity (recordSize message values)).rangeOffset
          (checksumPlace message integrity (recordSize message values)).rangeLength =
            some (crcValue integrity (coveredBytes message integrity state.output
              (recordSize message values))) := by
        rw [crc, covered]
        rfl
      rw [checksumPlace_width] at storageRoom
      have stored := @storeOrFail_eq _ _ _ _ id state positive bounded order small storageRoom
      simp only
      rw [access_bind value, checksumPlace_width, bind_of_done stored]
      exact reviewed _ (laid _ (by rw [checksumBytes, algorithm]))

end

end ProtocolAdapter.Codec
