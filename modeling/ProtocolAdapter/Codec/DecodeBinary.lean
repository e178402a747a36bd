/-
This file runs the decoder on a binary record: the checks of the record, the loads, the
values, and the slots. A valid message leaves two ways to end, a refusal that the record
explains, and the slots that the record means.
-/

import ProtocolAdapter.Codec.DecodeMeaning

namespace ProtocolAdapter.Codec

open Foundation Foundation.Operation Foundation.Bytes

/-- What the decoder leaves behind of an accepted record. -/
structure Decoded (plan : PlanBundle) (messageIndex : Nat) (message : MessageExecutionPlan)
    (input : ByteView) (start state : DecodeState) : Prop where
  accepted : recordRefusal plan message input.bytes = none
  result : state.result = { start.result with
    status := .ok, fieldCount := message.fields.length, failedFieldIndex := invalidIndex
    tainted := message.fields.any (isUnknown message input.bytes) }
  slots : state.slots = decodedSlots plan messageIndex message input ++
    start.slots.drop message.fields.length
  shaped : state.workspace.ShapedFor plan
  rawCount : state.workspace.rawIntegerCount = message.fields.countP hasConversion
  rawMessage : state.workspace.rawIntegerMessageIndex = messageIndex
  kept : ∀ (index : Nat) field, message.fields[index]? = some field → hasConversion field = true →
    Kept plan message input.bytes state.workspace index field

section

variable {plan : PlanBundle} {messageIndex : Nat} {message : MessageExecutionPlan}
  {input : ByteView}

/-! ### The checks of the record -/

theorem checkRecord_ends (valid : BinaryValid plan.schemaVersion plan.conversions message)
    (fits : lengthMatches message input.size = true) {state : DecodeState}
    (shaped : state.workspace.ShapedFor plan) :
    Ends (fun _ after => after = state ∧
        statesLength message input.bytes input.bytes.length = true ∧
          carriesChecksum message input.bytes input.bytes.length = true)
      (Refused plan message input.bytes state) (checkRecord message input state) := by
  unfold checkRecord
  rw [leaveIf_bind_neg (by simp [valid.lengthValid]),
    access_bind (valid.computedLengthMatches_eq fits le_rfl)]
  refine .leaveIf (fun wrong => ?_) fun right => ?_
  · refine ⟨⟨_, by rw [recordRefusal, if_pos wrong], ?_⟩, ?_, ?_, ?_, ?_⟩ <;>
      cases message.computedLength <;> first | rfl | exact shaped
  rw [leaveIf_bind_neg (by simp [valid.integrityDescriptorValid_eq]),
    access_bind (valid.integrityMatches_eq fits le_rfl)]
  by_cases carries : carriesChecksum message input.bytes input.size = false
  · rw [leaveIf_pos carries]
    refine .returned ⟨⟨_, by rw [recordRefusal, if_neg right, if_pos carries], rfl⟩,
      rfl, shaped, rfl, rfl⟩
  · rw [leaveIf_neg carries]
    exact .done ⟨rfl, by simpa using right, by simpa using carries⟩

/-! ### The loads -/

/-- A state that differs in the values of the containers only, some of which are loaded. -/
structure Loaded (plan : PlanBundle) (message : MessageExecutionPlan) (record : List UInt8)
    (start : DecodeState) (passed : Nat) (state : DecodeState) : Prop where
  values : ∃ values, state = { start with
    workspace := { start.workspace with bitContainerValues := values } }
  shaped : state.workspace.ShapedFor plan
  loaded : ∀ (index : Nat) container, index < passed →
    message.bitContainers[index]? = some container →
      state.workspace.bitContainerValues[index]? = some (containerValue container record)

theorem ExecutionWorkspace.ShapedFor.load {workspace : ExecutionWorkspace}
    (shaped : workspace.ShapedFor plan) (index value : Nat) :
    ({ workspace with bitContainerValues := workspace.bitContainerValues.set index value } :
      ExecutionWorkspace).ShapedFor plan :=
  { shaped with
    bitContainerValues := (List.length_set ..).trans shaped.bitContainerValues }

theorem loadContainers_ends {returned : DecodeState → Prop}
    (valid : BinaryValid plan.schemaVersion plan.conversions message)
    (covers : LayoutCovers plan.executionResourceLayout message)
    (fits : lengthMatches message input.size = true) {start : DecodeState}
    (shaped : start.workspace.ShapedFor plan) :
    Ends (fun _ => Loaded plan message input.bytes start message.bitContainers.length) returned
      (loadContainers message input start) := by
  have room := covers.containers
  have length := shaped.bitContainerValues
  unfold loadContainers
  rw [current_bind, leaveIf_bind_neg]
  swap
  · rw [length]
    exact not_lt.mpr room
  refine .forM_zipIdx ⟨⟨_, rfl⟩, shaped, nofun⟩ fun index container before found loaded => ?_
  have inside := (List.getElem?_eq_some_iff.mp found).1
  unfold loadContainer
  simp only
  rw [access_bind (loadContainer_eq valid fits (List.mem_of_getElem? found))]
  simp only
  have within : index < before.workspace.bitContainerValues.length := by
    rw [loaded.shaped.bitContainerValues]
    exact inside.trans_le room
  rw [current_bind, access_bind (setElement_eq _ within), update_apply]
  refine .done ⟨?_, loaded.shaped.load _ _, fun earlier other earlierThan listed => ?_⟩
  · obtain ⟨values, rfl⟩ := loaded.values
    exact ⟨_, rfl⟩
  · rcases Nat.lt_succ_iff_lt_or_eq.mp earlierThan with earlierThan | rfl
    · exact (List.getElem?_set_ne earlierThan.ne').trans
        (loaded.loaded earlier other earlierThan listed)
    · obtain rfl := Option.some.inj (found.symm.trans listed)
      exact List.getElem?_set_self within

/-- The loop over the values. -/
theorem precheck_ends (valid : BinaryValid plan.schemaVersion plan.conversions message)
    (covers : LayoutCovers plan.executionResourceLayout message)
    (count : message.fields.length ≤ 65536) (fits : lengthMatches message input.size = true)
    (states : statesLength message input.bytes input.bytes.length = true)
    (carries : carriesChecksum message input.bytes input.bytes.length = true) {start : DecodeState}
    (shaped : start.workspace.ShapedFor plan)
    (loaded : ContainersLoaded message input.bytes start.workspace.bitContainerValues) :
    Ends (Checked plan message input.bytes start message.fields.length)
      (Refused plan message input.bytes start)
      (message.fields.zipIdx.foldlM (precheckField plan message input) {} start) := by
  have initial : Checked plan message input.bytes start 0 {} start :=
    ⟨fun _ _ before => absurd before (Nat.not_lt_zero _), rfl, rfl, rfl, rfl, shaped, rfl, rfl,
      loaded, fun _ _ before => absurd before (Nat.not_lt_zero _)⟩
  exact .foldlM_zipIdx initial fun index field progress before found checked =>
    precheckField_ends valid covers count fits states carries found checked

/-! ### The slots -/

/-- The slot of a field holds what the field means. -/
theorem fieldSlot_eq (valid : BinaryValid plan.schemaVersion plan.conversions message)
    (fits : lengthMatches message input.size = true) {index : Nat} {field : FieldExecutionPlan}
    (found : message.fields[index]? = some field) {state : DecodeState}
    (loaded : ContainersLoaded message input.bytes state.workspace.bitContainerValues)
    (kept : hasConversion field = true →
      Kept plan message input.bytes state.workspace index field) :
    fieldSlot plan messageIndex message input index field state =
      .done (decodedSlot plan messageIndex message input index field) state := by
  unfold fieldSlot decodedSlot
  cases converted : hasConversion field with
  | true =>
    obtain ⟨⟨decimal, decoded, coefficient, scale⟩, -, -, -⟩ := kept converted
    have slot := (convertedField valid found converted).slot
    rw [← slot] at coefficient scale
    simp only [if_true, decoded]
    rw [current_bind, access_bind coefficient, access_bind scale]
    rfl
  | false =>
    have member := List.mem_of_getElem? found
    simp only [Bool.false_eq_true, if_false]
    by_cases bytes : field.valueType = .bytes
    · rw [if_pos bytes, byteCount_eq valid fits, bytes]
      rfl
    · rw [if_neg bytes, bind_of_done (loadField_eq valid fits found bytes loaded)]
      unfold rawSlot
      cases type : field.valueType with
      | bytes => exact absurd type bytes
      | uint64 => rfl
      | bool => rfl
      | int64 =>
        have plain : isMember field = false ∧ IntegerValid field := by
          cases valid.fields field member with
          | member container real listed memberValid =>
            have types := memberValid.type
            rw [type] at types
            simp at types
          | integer plain integerValid => exact ⟨decide_eq_false (not_not.mpr plain), integerValid⟩
          | bytes _ bytesValid => exact absurd bytesValid.type bytes
        have small := @rawValue_lt _ _ valid _ fits input.bytes rfl _ _ found plain.1 bytes
        simp only [interpretSigned_eq plain.2.positive plain.2.bounded small, Option.getD_some]
        rfl
      | enum =>
        obtain ⟨entries, enumValid⟩ := valid.enums field member type
        simp only
        rw [access_bind (findEnumEntry_eq enumValid _)]
        cases enumEntry message field (rawValue message field input.bytes) <;> rfl

/-- What the loop over the slots has established after some fields. -/
structure Materialized (plan : PlanBundle) (messageIndex : Nat) (message : MessageExecutionPlan)
    (input : ByteView) (start : DecodeState) (passed : Nat) (state : DecodeState) : Prop where
  workspace : state.workspace = start.workspace
  result : state.result = start.result
  slots : state.slots = (decodedSlots plan messageIndex message input).take passed ++
    start.slots.drop passed

/-- The loop over the slots, when every slot holds what its field means. -/
theorem materializeLoop_ends {returned : DecodeState → Prop} {start : DecodeState}
    (slots : ∀ (index : Nat) field, message.fields[index]? = some field →
      ∀ before : DecodeState, before.workspace = start.workspace →
        fieldSlot plan messageIndex message input index field before =
          .done (decodedSlot plan messageIndex message input index field) before)
    (room : message.fields.length ≤ start.slots.length) :
    Ends (fun _ => Materialized plan messageIndex message input start message.fields.length)
      returned (message.fields.zipIdx.forM
        (materializeField plan messageIndex message input) start) := by
  refine .forM_zipIdx ⟨rfl, rfl, by simp⟩ fun index field before found filled => ?_
  have inside := (List.getElem?_eq_some_iff.mp found).1
  have slot : (decodedSlots plan messageIndex message input)[index]? =
      some (decodedSlot plan messageIndex message input index field) := by
    rw [decodedSlots, List.getElem?_mapIdx, found]
    rfl
  have within : index < before.slots.length := by
    rw [filled.slots, List.length_append, List.length_take, List.length_drop, decodedSlots,
      List.length_mapIdx]
    omega
  unfold materializeField
  simp only
  rw [bind_of_done (slots index field found before filled.workspace), current_bind,
    access_bind (setElement_eq _ within), update_apply]
  refine .done ⟨filled.workspace, filled.result, ?_⟩
  show before.slots.set index _ = _
  rw [filled.slots, set_take_append_drop slot (inside.trans_le room)]

theorem materialize_ends {returned : DecodeState → Prop}
    (valid : BinaryValid plan.schemaVersion plan.conversions message)
    (fits : lengthMatches message input.size = true) {start : DecodeState}
    (loaded : ContainersLoaded message input.bytes start.workspace.bitContainerValues)
    (kept : ∀ (index : Nat) field, message.fields[index]? = some field →
      hasConversion field = true → Kept plan message input.bytes start.workspace index field)
    (room : message.fields.length ≤ start.slots.length) :
    Ends (fun _ => Materialized plan messageIndex message input start message.fields.length)
      returned (message.fields.zipIdx.forM
        (materializeField plan messageIndex message input) start) :=
  materializeLoop_ends (fun index field found _ same =>
    fieldSlot_eq valid fits found (same ▸ loaded) fun converted =>
      same ▸ kept index field found converted) room

/-! ### The record -/

/-- The decoder refuses a binary record, or leaves behind what it means. -/
theorem decodeBinary_ends (valid : BinaryValid plan.schemaVersion plan.conversions message)
    (covers : LayoutCovers plan.executionResourceLayout message)
    (count : message.fields.length ≤ 65536) (fits : lengthMatches message input.size = true)
    {start : DecodeState} (shaped : start.workspace.ShapedFor plan)
    (room : message.fields.length ≤ start.slots.length) :
    Ends (fun _ => Decoded plan messageIndex message input start)
      (Refused plan message input.bytes start)
      (decodeBinary plan messageIndex message input start) := by
  unfold decodeBinary
  refine .bind (checkRecord_ends valid fits shaped) ?_
  rintro - after ⟨rfl, states, carries⟩
  refine .bind (loadContainers_ends valid covers fits shaped) fun _ after loaded => ?_
  obtain ⟨⟨values, rfl⟩, loadedShape, loaded⟩ := loaded
  have containers : ContainersLoaded message input.bytes values := fun index container found =>
    loaded index container (List.getElem?_eq_some_iff.mp found).1 found
  have checks := precheck_ends valid covers count fits states carries loadedShape containers
  refine .bind (checks.mono (fun _ _ holds => holds) fun _ refused => ?_)
    fun progress checkedState checked => ?_
  · exact { refused with }
  have kept : ∀ (index : Nat) field, message.fields[index]? = some field →
      hasConversion field = true →
        Kept plan message input.bytes checkedState.workspace index field :=
    fun index field found => checked.kept index field (List.getElem?_eq_some_iff.mp found).1 found
  refine .bind (materialize_ends valid fits checked.loaded kept (checked.slots ▸ room))
    fun _ filledState filled => ?_
  unfold publish
  rw [update_bind, update_apply]
  have accepted : recordRefusal plan message input.bytes = none := by
    rw [recordRefusal, if_neg (by simp [states]), if_neg (by simp [carries])]
    exact findSome_zipIdx_eq_none fun index field found =>
      checked.accepted index field (List.getElem?_eq_some_iff.mp found).1 found
  have whole : (decodedSlots plan messageIndex message input).length = message.fields.length := by
    rw [decodedSlots, List.length_mapIdx]
  refine .done ⟨accepted, ?_, ?_, ?_, ?_, rfl, fun index field found converted => ?_⟩
  · simp only [filled.result, checked.result, checked.tainted, List.take_length]
  · show filledState.slots = _
    rw [filled.slots, checked.slots, List.take_of_length_le whole.le]
  · have shape := checked.shaped
    rw [← filled.workspace] at shape
    exact { shape with }
  · show progress.converted = _
    rw [checked.converted, conversionSlotOf, List.take_length]
  · have facts := kept index field found converted
    rw [← filled.workspace] at facts
    exact { facts with }

end

end ProtocolAdapter.Codec
