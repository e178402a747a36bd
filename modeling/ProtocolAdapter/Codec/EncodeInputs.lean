/-
This file runs the encoder on the values of its caller. Whatever the workspace holds
before the call, the loop over the values decides by the values alone; it ends with the
refusal of the first value that is wrong, or with every input field at its value.
-/

import ProtocolAdapter.Codec.DecodeMeaning
import ProtocolAdapter.Codec.Supply
import ProtocolAdapter.Foundation.Rules

namespace ProtocolAdapter.Codec

open Foundation Foundation.Operation

/-- A workspace of a plan during an encode: it keeps no raw integers. -/
structure ExecutionWorkspace.EncodesFor (workspace : ExecutionWorkspace) (plan : PlanBundle) :
    Prop extends ({ workspace with inUse := false } : ExecutionWorkspace).IdleFor plan where
  noRawIntegers : workspace.rawIntegerCount = 0

/-- A state of the encoder that reports a failure and has written nothing. -/
structure Declined (plan : PlanBundle) (failure : Option EncodeResult) (start state : EncodeState) :
    Prop where
  result : failure = some state.result
  output : state.output = start.output
  shaped : state.workspace.EncodesFor plan

/-- A workspace that leads every input field to its value. -/
structure Supplied (plan : PlanBundle) (message : MessageExecutionPlan)
    (values : List EncodeFieldValue) (workspace : ExecutionWorkspace) : Prop where
  shaped : workspace.EncodesFor plan
  value : ∀ (index : Nat) field, message.fields[index]? = some field →
    takesInput plan field = true →
      suppliedValue values workspace.encodeValueIndices field = some (valueFor values index)
  raw : ∀ (index : Nat) field, message.fields[index]? = some field → hasConversion field = true →
    ∃ raw, encodeDecimal (conversionOf plan.conversions field)
        (valueFor values index).decimal64Value field.width = .ok raw ∧
      workspace.encodeConversionRawValues[field.conversionSlot]? = some raw

section

variable {plan : PlanBundle} {messageIndex : Nat} {message : MessageExecutionPlan}
  {values : List EncodeFieldValue}

/-! ### Values -/

theorem valueFor_eq {index : Nat} (supplied : values.any (isFor index) = true) :
    values[valueIndexFor values index]? = some (valueFor values index) := by
  have available : ∃ value ∈ values, isFor index value = true := by simpa using supplied
  obtain ⟨value, found⟩ := Option.isSome_iff_exists.mp (List.find?_isSome.mpr available)
  rw [valueFor, valueIndexFor, ← List.find?_eq_getElem?_findIdx, found]
  rfl

/-- The first value for a field is found at its index. -/
theorem valueIndexFor_eq {index position : Nat} {value : EncodeFieldValue}
    (found : values[position]? = some value) (this : isFor index value = true)
    (first : (values.take position).any (isFor index) = false) :
    valueIndexFor values index = position := by
  obtain ⟨inside, rfl⟩ := List.getElem?_eq_some_iff.mp found
  refine (List.findIdx_eq inside).mpr ⟨this, fun earlier before => ?_⟩
  rw [List.any_eq_false] at first
  have member : values[earlier] ∈ values.take position :=
    List.mem_take_iff_getElem.mpr ⟨earlier, by omega, rfl⟩
  simpa using first _ member

theorem any_take_succ {test : EncodeFieldValue → Bool} {position : Nat} {value : EncodeFieldValue}
    (found : values[position]? = some value) :
    (values.take (position + 1)).any test = ((values.take position).any test || test value) := by
  rw [List.take_add_one, found, Option.toList_some, List.any_append, List.any_cons, List.any_nil,
    Bool.or_false]

/-! ### Placing the values -/

/-- The index that the result names once some values have been placed. -/
def namedValue : Nat → Nat
  | 0 => invalidIndex
  | passed + 1 => passed

/-- What the loop over the values has established after some of them. -/
structure Placed (plan : PlanBundle) (messageIndex : Nat) (message : MessageExecutionPlan)
    (values : List EncodeFieldValue) (start : EncodeState) (passed : Nat) (state : EncodeState) :
    Prop where
  accepted : ∀ (index : Nat) value, index < passed → values[index]? = some value →
    placementStatus plan messageIndex message (values.take index) value = none
  result : state.result = { requiredSize := message.frameSize
                            failedValueIndex := namedValue passed
                            failedFieldIndex := namedField values passed }
  output : state.output = start.output
  shaped : state.workspace.EncodesFor plan
  present : ∀ (index : Nat) field, message.fields[index]? = some field →
    takesInput plan field = true →
      presentBit state.workspace.encodePresentWords field.inputOrdinal =
        (values.take passed).any (isFor index)
  indices : ∀ (index : Nat) field, message.fields[index]? = some field →
    takesInput plan field = true → (values.take passed).any (isFor index) = true →
      state.workspace.encodeValueIndices[field.inputOrdinal]? = some (valueIndexFor values index)

/-- The set of supplied inputs starts empty. -/
theorem clearPresence_ends {returned : EncodeState → Prop} (inputs : InputsValid plan message)
    (covers : LayoutCovers plan.executionResourceLayout message) {start : EncodeState}
    (fresh : start.result = { requiredSize := message.frameSize })
    (shaped : start.workspace.EncodesFor plan) :
    Ends (fun _ => Placed plan messageIndex message values start 0) returned
      (clearPresence message start) := by
  have indexRoom := covers.inputs
  have wordRoom := covers.words
  have indexLength : start.workspace.encodeValueIndices.length = _ := shaped.encodeValueIndices
  have wordLength : start.workspace.encodePresentWords.length = _ := shaped.encodePresentWords
  unfold clearPresence
  simp only
  rw [current_bind, leaveIf_bind_neg (by omega), update_apply]
  refine .done ⟨fun _ _ before => absurd before (Nat.not_lt_zero _), fresh, rfl, ?_, ?_, ?_⟩
  · refine { shaped with encodePresentWords := ?_ }
    show (_ ++ _ : List Nat).length = _
    rw [List.length_append, List.length_replicate, List.length_drop]
    omega
  · intro index field found takes
    exact presentBit_cleared _ (inputs.ordinal_lt found takes)
  · intro index field found takes present
    simp at present

/-- One round of the loop over the values. -/
theorem placeValue_ends (inputs : InputsValid plan message)
    (covers : LayoutCovers plan.executionResourceLayout message) {start state : EncodeState}
    {position : Nat} {value : EncodeFieldValue} (found : values[position]? = some value)
    (placed : Placed plan messageIndex message values start position state) :
    Ends (fun _ => Placed plan messageIndex message values start (position + 1))
      (Declined plan (inputsFailure plan messageIndex message values) start)
      (placeValue plan messageIndex message (value, position) state) := by
  have declines : ∀ failure, placementFailure plan messageIndex message values (value, position) =
      some failure → inputsFailure plan messageIndex message values = some failure := by
    intro failure failed
    rw [inputsFailure, findSome_zipIdx found failed, Option.some_or]
    intro earlier other before listed
    rw [placementFailure, placed.accepted earlier other before listed]
    rfl
  have refuses : ∀ status (after : EncodeState),
      placementStatus plan messageIndex message (values.take position) value = some status →
      after.result = { requiredSize := message.frameSize
                       failedValueIndex := position
                       failedFieldIndex :=
                        if (referencedField plan messageIndex message value).isSome then
                          value.field.fieldIndex
                        else namedField values position } →
      after.output = start.output → after.workspace = state.workspace →
      Declined plan (inputsFailure plan messageIndex message values) start
        (after.refuse status) := by
    intro status after failed result output workspace
    refine ⟨?_, output, workspace ▸ placed.shaped⟩
    rw [declines _ (by rw [placementFailure, failed]; rfl)]
    simp only [EncodeState.refuse, result]
  unfold placeValue
  simp only
  rw [update_bind]
  refine .leaveIf (fun foreign => ?_) fun native => ?_
  · have unknown : referencedField plan messageIndex message value = none := if_pos foreign
    refine refuses _ _ (by rw [placementStatus, unknown]) ?_ placed.output rfl
    simp only [EncodeState.atValue, placed.result, unknown]
    rfl
  have reference : referencedField plan messageIndex message value =
      message.fields[value.field.fieldIndex]? := if_neg native
  cases listed : message.fields[value.field.fieldIndex]? with
  | none =>
    refine .returned (refuses _ _ (by rw [placementStatus, reference, listed]) ?_ placed.output rfl)
    simp only [EncodeState.atValue, placed.result, reference, listed]
    rfl
  | some field =>
    simp only
    rw [update_bind]
    have named : referencedField plan messageIndex message value = some field :=
      reference.trans listed
    have refusesField : ∀ status,
        placementStatus plan messageIndex message (values.take position) value = some status →
        Declined plan (inputsFailure plan messageIndex message values) start
          (((state.atValue position).atField value.field.fieldIndex).refuse status) := by
      intro status failed
      refine refuses status _ failed ?_ placed.output rfl
      rw [named]
      simp only [EncodeState.atValue, EncodeState.atField, placed.result]
      rfl
    refine .leaveIf (fun silent => refusesField _ ?_) fun spoken => ?_
    · simp only [placementStatus, named, if_pos silent]
    refine .leaveIf (fun computed => refusesField _ ?_) fun supplied => ?_
    · simp only [placementStatus, named, if_neg spoken, if_pos computed]
    refine .leaveIf (fun constant => refusesField _ ?_) fun input => ?_
    · simp only [placementStatus, named, if_neg spoken, if_neg supplied, if_pos constant]
    have takes : takesInput plan field = true := by
      unfold takesInput
      cases version : isTextSchema plan.schemaVersion with
      | true =>
        rw [version, not_and, Bool.not_eq_false] at spoken
        exact spoken rfl
      | false => exact beq_iff_eq.mpr (not_not.mp input)
    have ordinal := inputs.ordinal_lt listed takes
    have wordLength : state.workspace.encodePresentWords.length = _ :=
      placed.shaped.encodePresentWords
    have indexLength : state.workspace.encodeValueIndices.length = _ :=
      placed.shaped.encodeValueIndices
    have within : field.inputOrdinal / bitsPerAllowedMessageWord <
        state.workspace.encodePresentWords.length := by
      rw [wordLength]
      exact (word_within ordinal).trans_le covers.words
    have room : field.inputOrdinal < plan.executionResourceLayout.encodeValueIndexCount :=
      ordinal.trans_le covers.inputs
    rw [leaveIf_bind_neg (not_le.mpr ordinal), current_bind]
    simp only [EncodeState.atField_workspace, EncodeState.atValue_workspace]
    rw [access_bind (isPresent_eq within), placed.present _ field listed takes]
    refine .leaveIf (fun twice => refusesField _ ?_) fun once => ?_
    · simp only [placementStatus, named, if_neg spoken, if_neg supplied, if_neg input, if_pos twice]
    have stores : placementStatus plan messageIndex message (values.take position) value = none →
        Ends (fun _ => Placed plan messageIndex message values start (position + 1))
          (Declined plan (inputsFailure plan messageIndex message values) start)
          ((do
            let indices ← access
              (setElement state.workspace.encodeValueIndices field.inputOrdinal position)
            let words ← access (markPresent state.workspace.encodePresentWords field.inputOrdinal)
            update fun state => { state with workspace := { state.workspace with
              encodeValueIndices := indices, encodePresentWords := words } } : Encoding Unit)
            ((state.atValue position).atField value.field.fieldIndex)) := by
      intro passes
      obtain ⟨marked, mark, markedLength, bits⟩ := markPresent_eq within
      obtain ⟨stored, storedLength⟩ := setElement_set position indexLength room
      have same : ∀ (index : Nat) other, message.fields[index]? = some other →
          takesInput plan other = true →
            decide (other.inputOrdinal = field.inputOrdinal) = isFor index value := by
        intro index other otherFound otherTakes
        unfold isFor
        refine decide_eq_decide.mpr ⟨fun equal => ?_, fun equal => ?_⟩
        · exact (inputs.injective otherFound listed otherTakes takes equal).symm
        · obtain rfl := Option.some.inj (otherFound.symm.trans (equal ▸ listed))
          rfl
      rw [access_bind stored, access_bind mark, update_apply]
      refine .done ⟨?_, ?_, placed.output, ?_, ?_, ?_⟩
      · intro index other before otherFound
        rcases Nat.lt_succ_iff_lt_or_eq.mp before with before | rfl
        · exact placed.accepted index other before otherFound
        · exact Option.some.inj (found.symm.trans otherFound) ▸ passes
      · show ((state.atValue position).atField value.field.fieldIndex).result = _
        simp only [EncodeState.atValue, EncodeState.atField, placed.result, namedField, found]
        rfl
      · have shaped := placed.shaped
        exact { shaped with
          encodeValueIndices := storedLength
          encodePresentWords := markedLength.trans wordLength }
      · intro index other otherFound otherTakes
        show presentBit marked _ = _
        rw [bits, placed.present index other otherFound otherTakes,
          same index other otherFound otherTakes, any_take_succ found]
      · intro index other otherFound otherTakes supplied
        show (state.workspace.encodeValueIndices.set field.inputOrdinal position)[_]? = _
        rw [any_take_succ found, ← same index other otherFound otherTakes] at supplied
        by_cases equal : other.inputOrdinal = field.inputOrdinal
        · obtain rfl := inputs.injective otherFound listed otherTakes takes equal
          rw [equal, List.getElem?_set_self (indexLength ▸ room)]
          have this : isFor value.field.fieldIndex value = true := by simp [isFor]
          rw [valueIndexFor_eq found this (by simpa using once)]
        · rw [decide_eq_false equal, Bool.or_false] at supplied
          rw [List.getElem?_set_ne (Ne.symm equal)]
          exact placed.indices index other otherFound otherTakes supplied
    by_cases checked : isConversionSchema plan.schemaVersion = false
    · rw [if_pos checked]
      refine .leaveIf (fun wrong => refusesField _ ?_) fun kind => ?_
      · simp only [placementStatus, named, if_neg spoken, if_neg supplied, if_neg input,
          if_neg once, checked, Bool.false_eq_true, if_false, if_pos wrong]
      have status : placementStatus plan messageIndex message (values.take position) value =
          valueFailure plan messageIndex message value.field.fieldIndex field value := by
        simp only [placementStatus, named, if_neg spoken, if_neg supplied, if_neg input,
          if_neg once, checked, Bool.false_eq_true, if_false, if_neg kind]
      cases failure : valueFailure plan messageIndex message value.field.fieldIndex field value with
      | some wrong => exact .returned (refusesField _ (status.trans failure))
      | none => exact stores (status.trans failure)
    · rw [if_neg checked]
      refine stores ?_
      simp only [placementStatus, named, if_neg spoken, if_neg supplied, if_neg input, if_neg once,
        if_pos (Bool.eq_true_of_not_eq_false checked)]

/-- The loop over the values. -/
theorem placeValues_ends (inputs : InputsValid plan message)
    (covers : LayoutCovers plan.executionResourceLayout message) {start state : EncodeState}
    (placed : Placed plan messageIndex message values start 0 state) :
    Ends (fun _ => Placed plan messageIndex message values start values.length)
      (Declined plan (inputsFailure plan messageIndex message values) start)
      (values.zipIdx.forM (placeValue plan messageIndex message) state) :=
  .forM_zipIdx placed fun _ _ _ found placed => placeValue_ends inputs covers found placed

theorem Placed.all {start state : EncodeState}
    (placed : Placed plan messageIndex message values start values.length state) :
    values.zipIdx.findSome? (placementFailure plan messageIndex message values) = none := by
  refine findSome_zipIdx_eq_none fun index value found => ?_
  rw [placementFailure,
    placed.accepted index value (List.getElem?_eq_some_iff.mp found).1 found]
  rfl

/-! ### Demanding the input fields -/

/-- A result of a call that has not failed. -/
def Unfailed (message : MessageExecutionPlan) (result : EncodeResult) : Prop :=
  ∃ valueIndex fieldIndex, result =
    { requiredSize := message.frameSize
      failedValueIndex := valueIndex
      failedFieldIndex := fieldIndex }

/-- What the loop over the fields has established after some of them. -/
structure Demanded (plan : PlanBundle) (message : MessageExecutionPlan)
    (values : List EncodeFieldValue) (start : EncodeState) (passed : Nat) (state : EncodeState) :
    Prop where
  accepted : ∀ (index : Nat) field, index < passed → message.fields[index]? = some field →
    missingFailure plan values (field, index) = none
  result : ∃ fieldIndex, state.result =
    { requiredSize := message.frameSize, failedFieldIndex := fieldIndex }
  output : state.output = start.output
  workspace : state.workspace = start.workspace

/-- One round of the loop over the fields. -/
theorem requireField_ends (inputs : InputsValid plan message)
    (covers : LayoutCovers plan.executionResourceLayout message)
    {start placedState state : EncodeState} {index : Nat} {field : FieldExecutionPlan}
    (placed : Placed plan messageIndex message values start values.length placedState)
    (found : message.fields[index]? = some field)
    (demanded : Demanded plan message values placedState index state) :
    Ends (fun _ => Demanded plan message values placedState (index + 1))
      (Declined plan (inputsFailure plan messageIndex message values) start)
      (requireField plan (field, index) state) := by
  have extend : missingFailure plan values (field, index) = none →
      Demanded plan message values placedState (index + 1) (state.atField index) := by
    intro passes
    refine ⟨fun other otherField before otherFound => ?_, ?_, demanded.output, demanded.workspace⟩
    · rcases Nat.lt_succ_iff_lt_or_eq.mp before with before | rfl
      · exact demanded.accepted other otherField before otherFound
      · exact Option.some.inj (found.symm.trans otherFound) ▸ passes
    · obtain ⟨fieldIndex, result⟩ := demanded.result
      exact ⟨index, by simp only [EncodeState.atField, result]⟩
  have asked : field.encodeSource = .input ∧
      (isTextSchema plan.schemaVersion = false ∨ field.textEncodeInput = true) ↔
        takesInput plan field = true := by
    constructor
    · rintro ⟨source, version⟩
      unfold takesInput
      cases text : isTextSchema plan.schemaVersion with
      | true => simpa [text] using version
      | false => exact beq_iff_eq.mpr source
    · intro takes
      refine ⟨inputs.source field (List.mem_of_getElem? found) takes, ?_⟩
      unfold takesInput at takes
      cases text : isTextSchema plan.schemaVersion with
      | true => simpa [text] using takes
      | false => exact Or.inl rfl
  unfold requireField
  simp only
  rw [update_bind]
  by_cases takes : takesInput plan field = true
  · rw [if_pos (asked.mpr takes), current_bind]
    have ordinal := inputs.ordinal_lt found takes
    have within : field.inputOrdinal / bitsPerAllowedMessageWord <
        state.workspace.encodePresentWords.length := by
      have length : placedState.workspace.encodePresentWords.length = _ :=
        placed.shaped.encodePresentWords
      rw [demanded.workspace, length]
      exact (word_within ordinal).trans_le covers.words
    simp only [EncodeState.atField_workspace]
    rw [access_bind (isPresent_eq within), demanded.workspace,
      placed.present index field found takes, List.take_length]
    by_cases missing : values.any (isFor index) = false
    · rw [leaveIf_pos missing]
      have failed : missingFailure plan values (field, index) =
          some { status := .missingField, failedFieldIndex := index } :=
        if_pos ⟨takes, missing⟩
      refine .returned ⟨?_, demanded.output.trans placed.output,
        demanded.workspace.symm ▸ placed.shaped⟩
      obtain ⟨fieldIndex, result⟩ := demanded.result
      rw [inputsFailure, placed.all, Option.none_or, findSome_zipIdx found failed
        demanded.accepted, Option.some_or]
      simp only [EncodeState.refuse, EncodeState.atField, result]
    · rw [leaveIf_neg missing]
      exact .done (extend (if_neg fun both => missing both.2))
  · rw [if_neg fun both => takes (asked.mp both)]
    exact .done (extend (if_neg fun both => takes both.1))

/-! ### Checking the values in the order of the fields -/

/-- What the loop that checks the values has established after some fields. -/
structure ConvertedInputs (plan : PlanBundle) (messageIndex : Nat) (message : MessageExecutionPlan)
    (values : List EncodeFieldValue) (start : EncodeState) (passed : Nat) (state : EncodeState) :
    Prop where
  accepted : ∀ (index : Nat) field, index < passed → message.fields[index]? = some field →
    conversionFailure plan messageIndex message values (field, index) = none
  result : Unfailed message state.result
  output : state.output = start.output
  shaped : state.workspace.EncodesFor plan
  indices : state.workspace.encodeValueIndices = start.workspace.encodeValueIndices
  raw : ∀ (index : Nat) field, index < passed → message.fields[index]? = some field →
    hasConversion field = true → ∃ raw, encodeDecimal (conversionOf plan.conversions field)
        (valueFor values index).decimal64Value field.width = .ok raw ∧
      state.workspace.encodeConversionRawValues[field.conversionSlot]? = some raw

/-- The value of an input field is found. -/
def Leads (plan : PlanBundle) (message : MessageExecutionPlan) (values : List EncodeFieldValue)
    (valueIndices : List Nat) : Prop :=
  ∀ (index : Nat) field, message.fields[index]? = some field → takesInput plan field = true →
    valueIndices[field.inputOrdinal]? = some (valueIndexFor values index) ∧
      values[valueIndexFor values index]? = some (valueFor values index)

theorem Leads.suppliedValue_eq {valueIndices : List Nat}
    (leads : Leads plan message values valueIndices) {index : Nat} {field : FieldExecutionPlan}
    (found : message.fields[index]? = some field) (takes : takesInput plan field = true) :
    suppliedValue values valueIndices field = some (valueFor values index) := by
  obtain ⟨first, second⟩ := leads index field found takes
  simp only [suppliedValue, first, second, Option.bind_eq_bind, Option.bind_some]

/-- One round of the loop that checks the values. -/
theorem checkFieldValue_ends (valid : BinaryValid plan.schemaVersion plan.conversions message)
    (version : isTextSchema plan.schemaVersion = false)
    (covers : LayoutCovers plan.executionResourceLayout message)
    (count : message.fields.length ≤ 65536) {start origin state : EncodeState}
    (declines : ∀ (index : Nat) field failure, message.fields[index]? = some field →
      conversionFailure plan messageIndex message values (field, index) = some failure →
      (∀ (earlier : Nat) other, earlier < index → message.fields[earlier]? = some other →
        conversionFailure plan messageIndex message values (other, earlier) = none) →
      inputsFailure plan messageIndex message values = some failure)
    (leads : Leads plan message values start.workspace.encodeValueIndices)
    (same : start.output = origin.output) {index : Nat} {field : FieldExecutionPlan}
    (found : message.fields[index]? = some field)
    (converted : ConvertedInputs plan messageIndex message values start index state) :
    Ends (fun _ => ConvertedInputs plan messageIndex message values start (index + 1))
      (Declined plan (inputsFailure plan messageIndex message values) origin)
      (checkFieldValue plan messageIndex message values (field, index) state) := by
  have accepts : conversionFailure plan messageIndex message values (field, index) = none →
      ∀ (earlier : Nat) other, earlier < index + 1 → message.fields[earlier]? = some other →
        conversionFailure plan messageIndex message values (other, earlier) = none := by
    intro passes earlier other before listed
    rcases Nat.lt_succ_iff_lt_or_eq.mp before with before | rfl
    · exact converted.accepted earlier other before listed
    · exact Option.some.inj (found.symm.trans listed) ▸ passes
  have plainRaw : hasConversion field = false → ∀ (earlier : Nat) other, earlier < index + 1 →
      message.fields[earlier]? = some other → hasConversion other = true →
        ∃ raw, encodeDecimal (conversionOf plan.conversions other)
          (valueFor values earlier).decimal64Value other.width = .ok raw ∧
            state.workspace.encodeConversionRawValues[other.conversionSlot]? = some raw := by
    intro plain earlier other before listed has
    rcases Nat.lt_succ_iff_lt_or_eq.mp before with before | rfl
    · exact converted.raw earlier other before listed has
    · rw [Option.some.inj (found.symm.trans listed)] at plain
      rw [plain] at has
      cases has
  obtain ⟨oldValue, oldField, result⟩ := converted.result
  have unfailed : Unfailed message
      ((state.atField index).atValue (valueIndexFor values index)).result :=
    ⟨valueIndexFor values index, index, by
      simp only [EncodeState.atValue, EncodeState.atField, result]⟩
  unfold checkFieldValue
  simp only
  by_cases source : field.encodeSource = .input
  swap
  · rw [if_neg source]
    have plain : hasConversion field = false := by
      cases has : hasConversion field with
      | false => rfl
      | true => exact absurd (convertedField valid found has).source source
    exact .done ⟨accepts (by rw [conversionFailure, if_pos source]), converted.result,
      converted.output, converted.shaped, converted.indices, plainRaw plain⟩
  have takes : takesInput plan field = true := by
    rw [takesInput_binary version]
    exact beq_iff_eq.mpr source
  obtain ⟨led, value⟩ := leads index field found takes
  rw [if_pos source, update_bind, current_bind]
  simp only [EncodeState.atField_workspace, converted.indices]
  rw [access_bind led, update_bind, access_bind value,
    leaveIf_bind_neg (by simp [conversionPlanValid_eq valid found count])]
  have refuses : ∀ status,
      conversionFailure plan messageIndex message values (field, index) = some
        { status := status
          failedValueIndex := valueIndexFor values index
          failedFieldIndex := index } →
      Declined plan (inputsFailure plan messageIndex message values) origin
        (((state.atField index).atValue (valueIndexFor values index)).refuse status) := by
    intro status failed
    refine ⟨?_, converted.output.trans same, converted.shaped⟩
    rw [declines index field _ found failed converted.accepted]
    simp only [EncodeState.refuse, EncodeState.atValue, EncodeState.atField, result]
  cases has : hasConversion field with
  | false =>
    rw [if_neg (by simp)]
    refine .leaveIf (fun wrong => refuses _ ?_) fun kind => ?_
    · simp only [conversionFailure, source, ne_eq, not_true_eq_false, has, Bool.false_eq_true,
        if_false, if_pos wrong]
    have failure : conversionFailure plan messageIndex message values (field, index) =
        (valueFailure plan messageIndex message index field (valueFor values index)).map
          fun status => { status := status
                          failedValueIndex := valueIndexFor values index
                          failedFieldIndex := index } := by
      simp only [conversionFailure, source, ne_eq, not_true_eq_false, has, Bool.false_eq_true,
        if_false, if_neg kind]
    cases wrong : valueFailure plan messageIndex message index field (valueFor values index) with
    | some status => exact .returned (refuses status (by rw [failure, wrong]; rfl))
    | none =>
      exact .done ⟨accepts (by rw [failure, wrong]; rfl), unfailed, converted.output,
        converted.shaped, converted.indices, plainRaw has⟩
  | true =>
    have facts := convertedField valid found has
    have room : conversionSlotOf message index <
        plan.executionResourceLayout.conversionValueCount :=
      (conversionSlotOf_lt found has).trans_le covers.conversions
    have length : state.workspace.encodeConversionRawValues.length = _ :=
      converted.shaped.encodeConversionRawValues
    rw [if_pos rfl]
    unfold convertValue
    rw [current_bind, leaveIf_bind_neg]
    swap
    · rw [EncodeState.atValue_workspace, EncodeState.atField_workspace, facts.slot, length]
      omega
    simp only [EncodeState.atField_workspace, EncodeState.atValue_workspace]
    refine .leaveIf (fun wrong => refuses _ ?_) fun kind => ?_
    · simp only [conversionFailure, source, ne_eq, not_true_eq_false, has, if_false, if_true,
        if_pos wrong]
    rw [access_bind facts.found]
    cases run : encodeDecimal (conversionOf plan.conversions field)
        (valueFor values index).decimal64Value field.width with
    | error status =>
      have failure : conversionFailure plan messageIndex message values (field, index) =
          some { status := toCodecStatus status
                 failedValueIndex := valueIndexFor values index
                 failedFieldIndex := index
                 conversionError := toConversionError status } := by
        simp only [conversionFailure, source, ne_eq, not_true_eq_false, has, if_false, if_true,
          if_neg kind, run]
      refine .returned ⟨?_, converted.output.trans same, converted.shaped⟩
      rw [declines index field _ found failure converted.accepted]
      simp only [EncodeState.refuse, EncodeState.atValue, EncodeState.atField, result]
    | ok raw =>
      have failure : conversionFailure plan messageIndex message values (field, index) = none := by
        simp only [conversionFailure, source, ne_eq, not_true_eq_false, has, if_false, if_true,
          if_neg kind, run]
      simp only [facts.slot]
      obtain ⟨stored, storedLength⟩ := setElement_set raw length room
      rw [access_bind stored, update_apply]
      refine .done ⟨accepts failure, unfailed, converted.output, ?_, converted.indices, ?_⟩
      · have shaped := converted.shaped
        exact { shaped with encodeConversionRawValues := storedLength }
      · intro earlier other before listed otherHas
        have slot : other.conversionSlot = conversionSlotOf message earlier :=
          valid.slots earlier other listed otherHas
        show ∃ raw', _ ∧
          (state.workspace.encodeConversionRawValues.set _ raw)[other.conversionSlot]? = some raw'
        rw [slot]
        rcases Nat.lt_succ_iff_lt_or_eq.mp before with before | rfl
        · obtain ⟨earlierRaw, encoded, kept⟩ := converted.raw earlier other before listed otherHas
          rw [slot] at kept
          refine ⟨earlierRaw, encoded, ?_⟩
          rw [List.getElem?_set_ne (conversionSlotOf_mono before listed otherHas).ne', kept]
        · obtain rfl := Option.some.inj (found.symm.trans listed)
          exact ⟨raw, run, List.getElem?_set_self (length ▸ room)⟩

/-! ### The inputs -/

/-- What the encoder has established when it has accepted the values. -/
structure Accepted (plan : PlanBundle) (messageIndex : Nat) (message : MessageExecutionPlan)
    (values : List EncodeFieldValue) (start state : EncodeState) : Prop where
  accepted : inputsFailure plan messageIndex message values = none
  result : state.result = { requiredSize := message.frameSize }
  output : state.output = start.output
  supplied : Supplied plan message values state.workspace

/-- The values are refused, or every input field is led to its value. -/
theorem prepareEncodeInputs_ends (encodable : Encodable plan message)
    (covers : LayoutCovers plan.executionResourceLayout message)
    (count : message.fields.length ≤ 65536) {start : EncodeState}
    (fresh : start.result = { requiredSize := message.frameSize })
    (shaped : start.workspace.EncodesFor plan) :
    Ends (fun _ => Accepted plan messageIndex message values start)
      (Declined plan (inputsFailure plan messageIndex message values) start)
      (prepareEncodeInputs plan messageIndex message values start) := by
  have inputs := encodable.inputs
  unfold prepareEncodeInputs
  refine .bind (@clearPresence_ends plan messageIndex message values _ inputs covers start fresh
    shaped) fun _ cleared placed => ?_
  refine .bind (placeValues_ends inputs covers placed) fun _ placedState placed => ?_
  rw [update_bind]
  have undemanded : Demanded plan message values placedState 0
      (placedState.atValue invalidIndex) := by
    refine ⟨fun _ _ before => absurd before (Nat.not_lt_zero _),
      ⟨namedField values values.length, ?_⟩, rfl, rfl⟩
    simp only [EncodeState.atValue, placed.result]
  have demands : Ends (fun _ => Demanded plan message values placedState message.fields.length)
      (Declined plan (inputsFailure plan messageIndex message values) start)
      (message.fields.zipIdx.forM (requireField plan) (placedState.atValue invalidIndex)) :=
    .forM_zipIdx undemanded fun _ _ _ found demanded =>
      requireField_ends inputs covers placed found demanded
  refine .bind demands fun _ state demanded => ?_
  have all : message.fields.zipIdx.findSome? (missingFailure plan values) = none :=
    findSome_zipIdx_eq_none fun index field found =>
      demanded.accepted index field (List.getElem?_eq_some_iff.mp found).1 found
  have failure : inputsFailure plan messageIndex message values =
      if isConversionSchema plan.schemaVersion then
        message.fields.zipIdx.findSome? (conversionFailure plan messageIndex message values)
      else none := by
    rw [inputsFailure, placed.all, Option.none_or, all, Option.none_or]
  have leads : Leads plan message values placedState.workspace.encodeValueIndices := by
    intro index field found takes
    have supplied : values.any (isFor index) = true := by
      have demand := demanded.accepted index field (List.getElem?_eq_some_iff.mp found).1 found
      rw [missingFailure] at demand
      split at demand
      · cases demand
      · rename_i supplied
        simpa [takes] using supplied
    exact ⟨placed.indices index field found takes (by rwa [List.take_length]), valueFor_eq supplied⟩
  have shapedNow : state.workspace.EncodesFor plan := demanded.workspace.symm ▸ placed.shaped
  have sameOutput : state.output = start.output := demanded.output.trans placed.output
  rw [← demanded.workspace] at leads
  by_cases version : isConversionSchema plan.schemaVersion = true
  · rw [if_pos version] at failure ⊢
    have binary : isTextSchema plan.schemaVersion = false ∧
        BinaryValid plan.schemaVersion plan.conversions message := by
      cases encodable with
      | binary text valid => exact ⟨text, valid⟩
      | text action has valid =>
        have text := valid.schema
        simp only [isTextSchema, Bool.or_eq_true, beq_iff_eq] at text
        rcases text with text | text <;> rw [text] at version <;> exact absurd version (by decide)
    have unconverted : ConvertedInputs plan messageIndex message values state 0 state := by
      obtain ⟨fieldIndex, result⟩ := demanded.result
      exact ⟨fun _ _ before => absurd before (Nat.not_lt_zero _), ⟨_, fieldIndex, result⟩, rfl,
        shapedNow, rfl, fun _ _ before => absurd before (Nat.not_lt_zero _)⟩
    have checks : Ends (fun _ => ConvertedInputs plan messageIndex message values state
          message.fields.length)
        (Declined plan (inputsFailure plan messageIndex message values) start)
        (message.fields.zipIdx.forM (checkFieldValue plan messageIndex message values) state) :=
      .forM_zipIdx unconverted fun _ _ _ found converted =>
        checkFieldValue_ends binary.2 binary.1 covers count
          (fun index field result listed failed first =>
            failure.trans (findSome_zipIdx listed failed first))
          leads sameOutput found converted
    refine .bind checks fun _ last converted => ?_
    show Ends _ _ (update _ last)
    rw [update_apply]
    have accepted : inputsFailure plan messageIndex message values = none := by
      rw [failure]
      exact findSome_zipIdx_eq_none fun index field found =>
        converted.accepted index field (List.getElem?_eq_some_iff.mp found).1 found
    obtain ⟨valueIndex, fieldIndex, result⟩ := converted.result
    refine .done ⟨accepted, ?_, converted.output.trans sameOutput, converted.shaped,
      fun index field found takes => ?_, fun index field found => ?_⟩
    · simp only [EncodeState.atField, EncodeState.atValue, result]
    · show suppliedValue values last.workspace.encodeValueIndices field = _
      rw [converted.indices]
      exact leads.suppliedValue_eq found takes
    · exact converted.raw index field (List.getElem?_eq_some_iff.mp found).1 found
  · rw [if_neg version] at failure ⊢
    show Ends _ _ (update _ state)
    rw [update_apply]
    obtain ⟨fieldIndex, result⟩ := demanded.result
    refine .done ⟨failure, ?_, sameOutput, shapedNow, fun index field found takes => ?_,
      fun index field found converted => ?_⟩
    · simp only [EncodeState.atField, EncodeState.atValue, result]
    · exact leads.suppliedValue_eq found takes
    · cases encodable with
      | binary text valid =>
        exact absurd (convertedField valid found converted).schema version
      | text action has valid =>
        rw [(valid.fields field (List.mem_of_getElem? found)).unconverted] at converted
        cases converted

end

end ProtocolAdapter.Codec
