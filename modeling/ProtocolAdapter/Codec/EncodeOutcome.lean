/-
This file says what the reply of an encode depends on. The bytes the buffer held before do
not matter, neither to the result nor to the record; and when the values are accepted and the
buffer lies apart from them, only an input that contradicts a fixed byte of its message can
fail the final review.
-/

import ProtocolAdapter.Codec.DecodeSafety
import ProtocolAdapter.Codec.EncodeCall

namespace ProtocolAdapter.Codec

open Foundation Foundation.Operation

/-! ### Buffers apart from the values -/

/-- A buffer at an address, with the values and the byte strings they view elsewhere. -/
structure BufferApart (values : EncodeValues) (output : MutableByteBuffer) : Prop where
  present : output.data ≠ none
  addressed : getAddressRange output.data output.capacity ≠ none
  descriptors : ∃ range, getArrayAddressRange values.data values.values.length
    sizeofEncodeFieldValue = some range ∧ ∀ buffer,
      getAddressRange output.data output.capacity = some buffer →
        rangesOverlap range buffer = false
  views : ∀ value ∈ values.values, value.valueKind = .bytes → ∃ range,
    getAddressRange value.bytesValue.data value.bytesValue.size = some range ∧ ∀ buffer,
      getAddressRange output.data output.capacity = some buffer →
        rangesOverlap range buffer = false

theorem rangesOverlap_iff {left right : AddressRange} : rangesOverlap left right = true ↔
    left.start ≠ left.stop ∧ right.start ≠ right.stop ∧ left.start < right.stop ∧
      right.start < left.stop := by
  unfold rangesOverlap
  split
  · rename_i empty
    refine iff_of_false Bool.false_ne_true ?_
    rintro ⟨leftFull, rightFull, -⟩
    exact not_or.mpr ⟨leftFull, rightFull⟩ empty
  · rename_i nonempty
    rw [Bool.and_eq_true, decide_eq_true_iff, decide_eq_true_iff]
    exact ⟨fun both => ⟨(not_or.mp nonempty).1, (not_or.mp nonempty).2, both⟩,
      fun ⟨_, _, both⟩ => both⟩

/-- The first bytes of a block lie apart from what the block lies apart from. -/
theorem getAddressRange_take {data : Option Nat} {capacity size : Nat} {buffer : AddressRange}
    (addressed : getAddressRange data capacity = some buffer) (within : size ≤ capacity) :
    ∃ record, getAddressRange data size = some record ∧ ∀ range,
      rangesOverlap range buffer = false → rangesOverlap range record = false := by
  unfold getAddressRange at addressed ⊢
  by_cases empty : size = 0
  · exact ⟨{}, if_pos empty, fun range _ => if_pos (.inr rfl)⟩
  rw [if_neg (by omega)] at addressed
  rw [if_neg empty]
  cases data with
  | none => cases addressed
  | some start =>
    simp only at addressed ⊢
    split at addressed
    · cases addressed
    rename_i reach
    obtain rfl := Option.some.inj addressed
    refine ⟨_, if_neg (by omega), fun range apart => ?_⟩
    rw [Bool.eq_false_iff, ne_eq, rangesOverlap_iff] at apart ⊢
    rintro ⟨nonempty, -, above, below⟩
    simp only at above below
    exact apart ⟨nonempty, by simp only; omega, by simp only; omega, below⟩

section

variable {values : EncodeValues} {output : MutableByteBuffer} {size : Nat}
  {relevant : EncodeFieldValue → Bool}
  {name : EncodeFieldValue × Nat → EncodeResult → EncodeResult}

/-- Memory apart from the values is refused only when it is too small. -/
theorem BufferApart.memoryFailure_eq (apart : BufferApart values output)
    (views : ∀ value ∈ values.values, relevant value = true → value.valueKind = .bytes) :
    memoryFailure values output size relevant name =
      if output.capacity < size then some { status := .bufferTooSmall, requiredSize := size }
      else none := by
  unfold memoryFailure
  rw [if_neg apart.present]
  by_cases small : output.capacity < size
  · rw [if_pos small, if_pos small]
  rw [if_neg small, if_neg small]
  obtain ⟨buffer, addressed⟩ := Option.ne_none_iff_exists'.mp apart.addressed
  obtain ⟨record, placed, inside⟩ := getAddressRange_take addressed (Nat.le_of_not_lt small)
  obtain ⟨descriptors, there, away⟩ := apart.descriptors
  simp only [placed, there]
  rw [if_neg (by simp [inside _ (away buffer addressed)]), List.findSome?_eq_none_iff]
  rintro ⟨value, index⟩ member
  have listed := List.mem_of_getElem? (List.mem_zipIdx_iff_getElem?.mp member)
  unfold aliasFailure
  cases matters : relevant value with
  | false => rfl
  | true =>
    obtain ⟨view, viewed, away⟩ := apart.views value listed (views value listed matters)
    simp only [if_true, viewed]
    rw [if_neg (by simp [inside _ (away buffer addressed)])]

/-- Two buffers that differ in nothing a call may look at: they have the same capacity, and
both are at one address or both lie apart from the values. -/
structure SameRoom (values : EncodeValues) (left right : MutableByteBuffer) : Prop where
  capacity : left.capacity = right.capacity
  place : left.data = right.data ∨ BufferApart values left ∧ BufferApart values right

theorem SameRoom.memoryFailure_eq {left right : MutableByteBuffer}
    (same : SameRoom values left right)
    (views : ∀ value ∈ values.values, relevant value = true → value.valueKind = .bytes) :
    memoryFailure values left size relevant name =
      memoryFailure values right size relevant name := by
  rcases same.place with place | ⟨leftApart, rightApart⟩
  · unfold memoryFailure
    rw [place, same.capacity]
  · rw [leftApart.memoryFailure_eq views, rightApart.memoryFailure_eq views, same.capacity]

end

/-! ### Refusals -/

/-- A result that reports a failure publishes no record. -/
structure EncodeResult.Refuses (result : EncodeResult) : Prop where
  status : result.status ≠ .ok
  nothing : result.bytesWritten = 0

section

variable {plan : PlanBundle} {messageIndex : Nat} {message : MessageExecutionPlan}
  {values : EncodeValues} {output : MutableByteBuffer}

/-- What the encoder reports about values that it refuses. -/
def valueStatuses : List CodecStatus :=
  [.invalidArgument, .invalidPlan, .fieldReferenceMismatch, .duplicateField, .missingField,
    .typeMismatch, .valueNotRepresentable, .bytesLengthMismatch, .enumReferenceMismatch,
    .constantFieldOverride, .internalError, .asciiCharacterNotAllowed, .asciiTerminatorConflict,
    .computedFieldOverride]

theorem valueFailure_status {index : Nat} {field : FieldExecutionPlan} {value : EncodeFieldValue}
    {status : CodecStatus}
    (refused : valueFailure plan messageIndex message index field value = some status) :
    status ∈ valueStatuses := by
  unfold valueFailure bytesFailure at refused
  revert refused
  cases field.valueType <;> simp only <;> repeat' split
  all_goals simp +contextual [valueStatuses, eq_comm]

theorem placementStatus_status {earlier : List EncodeFieldValue} {value : EncodeFieldValue}
    {status : CodecStatus}
    (refused : placementStatus plan messageIndex message earlier value = some status) :
    status ∈ valueStatuses := by
  unfold placementStatus at refused
  split at refused
  · cases refused
    decide
  repeat' split at refused
  any_goals cases refused <;> decide
  exact valueFailure_status refused

/-- Values that are refused publish nothing, and the status says what is wrong with them. -/
theorem inputsFailure_status {values : List EncodeFieldValue} {failure : EncodeResult}
    (refused : inputsFailure plan messageIndex message values = some failure) :
    failure.status ∈ valueStatuses ∧ failure.bytesWritten = 0 := by
  unfold inputsFailure at refused
  rw [Option.or_eq_some_iff, Option.or_eq_some_iff] at refused
  rcases refused with placed | ⟨-, missing | ⟨-, wrong⟩⟩
  · obtain ⟨item, -, placed⟩ := List.exists_of_findSome?_eq_some placed
    obtain ⟨status, refused, rfl⟩ := Option.map_eq_some_iff.mp placed
    exact ⟨placementStatus_status refused, rfl⟩
  · obtain ⟨item, -, missing⟩ := List.exists_of_findSome?_eq_some missing
    unfold missingFailure at missing
    split at missing
    · cases missing
      exact ⟨by simp [valueStatuses], rfl⟩
    · cases missing
  · split at wrong
    swap
    · cases wrong
    obtain ⟨item, -, wrong⟩ := List.exists_of_findSome?_eq_some wrong
    unfold conversionFailure at wrong
    simp only at wrong
    split at wrong
    · cases wrong
    split at wrong
    · split at wrong
      · cases wrong
        exact ⟨by simp [valueStatuses], rfl⟩
      split at wrong
      · rename_i status _
        cases wrong
        exact ⟨by cases status <;> simp [toCodecStatus, valueStatuses], rfl⟩
      · cases wrong
    split at wrong
    · cases wrong
      exact ⟨by simp [valueStatuses], rfl⟩
    · obtain ⟨status, refused, rfl⟩ := Option.map_eq_some_iff.mp wrong
      exact ⟨valueFailure_status refused, rfl⟩

theorem refuses_of_status {failure : EncodeResult}
    (reported : failure.status ∈ valueStatuses ∧ failure.bytesWritten = 0) : failure.Refuses := by
  refine ⟨fun ok => ?_, reported.2⟩
  have listed := reported.1
  rw [ok] at listed
  simp [valueStatuses] at listed

theorem inputsFailure_refuses {values : List EncodeFieldValue} {failure : EncodeResult}
    (refused : inputsFailure plan messageIndex message values = some failure) :
    failure.Refuses :=
  refuses_of_status (inputsFailure_status refused)

/-- Text values that are refused publish nothing. -/
theorem textSize_status {values : List EncodeFieldValue} {failure : EncodeResult} :
    ∀ {segments : List TextSegmentExecutionPlan} {size : Nat},
      textSize message values segments size = .error failure →
        failure.status ∈ valueStatuses ∧ failure.bytesWritten = 0
  | [], _, refused => by cases refused
  | segment :: rest, size, refused => by
    unfold textSize at refused
    simp only at refused
    split at refused
    · cases refused
      exact ⟨by simp [valueStatuses], rfl⟩
    split at refused
    · cases refused
      exact ⟨by simp [valueStatuses], rfl⟩
    · exact textSize_status refused

theorem textSize_refuses {values : List EncodeFieldValue} {failure : EncodeResult}
    {segments : List TextSegmentExecutionPlan} {size : Nat}
    (refused : textSize message values segments size = .error failure) : failure.Refuses :=
  refuses_of_status (textSize_status refused)

/-- Memory that is refused publishes nothing. -/
theorem memoryFailure_refuses {size : Nat} {relevant : EncodeFieldValue → Bool}
    {name : EncodeFieldValue × Nat → EncodeResult → EncodeResult}
    (names : ∀ item result, (name item result).status = result.status ∧
      (name item result).bytesWritten = result.bytesWritten)
    {failure : EncodeResult}
    (refused : memoryFailure values output size relevant name = some failure) :
    failure.Refuses := by
  have named : ∀ item result, result.Refuses → (name item result).Refuses :=
    fun item result refuses => ⟨(names item result).1.symm ▸ refuses.status,
      (names item result).2.trans refuses.nothing⟩
  unfold memoryFailure at refused
  split at refused
  · cases refused
    exact ⟨by simp, rfl⟩
  split at refused
  · cases refused
    exact ⟨by simp, rfl⟩
  split at refused
  · split at refused
    · cases refused
      exact ⟨by simp, rfl⟩
    obtain ⟨item, -, aliased⟩ := List.exists_of_findSome?_eq_some refused
    unfold aliasFailure at aliased
    simp only at aliased
    split at aliased
    swap
    · cases aliased
    split at aliased
    · cases aliased
      exact named _ _ ⟨by simp, rfl⟩
    · split at aliased
      · cases aliased
        exact named _ _ ⟨by simp, rfl⟩
      · cases aliased
  · cases refused
    exact ⟨by simp, rfl⟩

theorem binaryMemoryFailure_refuses {size : Nat} {failure : EncodeResult}
    (refused : binaryMemoryFailure values output size = some failure) : failure.Refuses :=
  @memoryFailure_refuses _ _ _ _ nameValueField (fun _ _ => ⟨rfl, rfl⟩) _ refused

theorem textMemoryFailure_refuses {size : Nat} {failure : EncodeResult}
    (refused : textMemoryFailure values output size = some failure) : failure.Refuses :=
  @memoryFailure_refuses _ _ _ _ nameValue (fun _ _ => ⟨rfl, rfl⟩) _ refused

end

/-! ### Replies that publish the same record -/

/-- Two replies with one result, and one record when they publish one. -/
structure EncodeReply.Agrees (left right : EncodeReply) : Prop where
  result : left.result = right.result
  record : left.output.take left.result.bytesWritten =
    right.output.take left.result.bytesWritten

theorem EncodeReply.Agrees.of_failed (result : EncodeResult) (left right : List UInt8)
    (nothing : result.bytesWritten = 0) :
    EncodeReply.Agrees ⟨result, left⟩ ⟨result, right⟩ :=
  ⟨rfl, by simp only [nothing, List.take_zero]⟩

theorem EncodeReply.Agrees.of_record (result : EncodeResult) (record left right : List UInt8)
    (written : result.bytesWritten ≤ record.length) :
    EncodeReply.Agrees ⟨result, record ++ left⟩ ⟨result, record ++ right⟩ :=
  ⟨rfl, by simp only [List.take_append_of_le_length written]⟩

section

variable {plan : PlanBundle} {messageIndex : Nat} {message : MessageExecutionPlan}
  {values : EncodeValues} {left right output : MutableByteBuffer}

/-- The values of a text message are byte strings. -/
theorem text_kinds (valid : TextValid plan.schemaVersion message) {values : List EncodeFieldValue}
    (accepted : inputsFailure plan messageIndex message values = none) :
    ∀ value ∈ values, value.valueKind = .bytes := by
  intro value member
  obtain ⟨position, listed⟩ := List.mem_iff_getElem?.mp member
  have passes := (inputsFailure_eq_none.mp accepted).1 position value listed
  unfold placementStatus at passes
  split at passes
  · cases passes
  rename_i field there
  have here : field ∈ message.fields := by
    unfold referencedField at there
    split at there
    · cases there
    · exact List.mem_of_getElem? there
  have schema : isConversionSchema plan.schemaVersion = false := by
    have text := valid.schema
    unfold isTextSchema at text
    rw [Bool.or_eq_true, beq_iff_eq, beq_iff_eq] at text
    rcases text with text | text <;> rw [text] <;> decide
  have type := (valid.fields field here).type
  split at passes
  · cases passes
  split at passes
  · cases passes
  split at passes
  · cases passes
  split at passes
  · cases passes
  rw [if_neg (by simp [schema])] at passes
  split at passes
  · cases passes
  rename_i kind
  rw [Bool.not_eq_false, valueKindMatches, beq_iff_eq, type] at kind
  exact kind

theorem binaryReply_agrees (same : SameRoom values left right) :
    (binaryReply plan message values left).Agrees (binaryReply plan message values right) := by
  have memory : binaryMemoryFailure values left (recordSize message values.values) =
      binaryMemoryFailure values right (recordSize message values.values) :=
    same.memoryFailure_eq fun value _ bytes => beq_iff_eq.mp bytes
  unfold binaryReply
  rw [memory]
  cases refused : binaryMemoryFailure values right (recordSize message values.values) with
  | some failure =>
    exact EncodeReply.Agrees.of_failed _ _ _ (binaryMemoryFailure_refuses refused).nothing
  | none =>
    refine .of_record _ _ _ _ ?_
    rw [recordOf_length]
    split
    · exact le_rfl
    · exact Nat.zero_le _

theorem textReply_agrees {action : TextActionExecutionPlan} (same : SameRoom values left right)
    (kinds : ∀ value ∈ values.values, value.valueKind = .bytes) :
    (textReply message action values left).Agrees (textReply message action values right) := by
  have memory : ∀ size, textMemoryFailure values left size = textMemoryFailure values right size :=
    fun size => same.memoryFailure_eq fun value member _ => kinds value member
  unfold textReply
  cases sized : textSize message values.values action.segments 0 with
  | error failure => exact .of_failed _ _ _ (textSize_refuses sized).nothing
  | ok size =>
    simp only
    split
    · exact .of_failed _ _ _ rfl
    rw [memory]
    cases refused : textMemoryFailure values right size with
    | some failure =>
      exact .of_failed _ _ _ (textMemoryFailure_refuses refused).nothing
    | none =>
      refine .of_record _ _ _ _ ?_
      have length := (textSize_ok sized).symm
      split
      · simp only
        omega
      · exact Nat.zero_le _

/-- Nothing in a reply depends on what the buffer held. -/
theorem encodeReply_agrees (valid : PlanValid plan) (pipelineIndex : Nat)
    (same : SameRoom values left right) :
    (encodeReply plan pipelineIndex messageIndex values left).Agrees
      (encodeReply plan pipelineIndex messageIndex values right) := by
  unfold encodeReply
  split
  · exact .of_failed _ _ _ rfl
  split
  · exact .of_failed _ _ _ rfl
  split
  · exact .of_failed _ _ _ rfl
  split
  · exact .of_failed _ _ _ rfl
  rename_i message listed
  split
  swap
  · exact .of_failed _ _ _ rfl
  unfold encodeMessageReply
  split
  · exact .of_failed _ _ _ rfl
  cases refused : inputsFailure plan messageIndex message values.values with
  | some failure => exact .of_failed _ _ _ (inputsFailure_refuses refused).nothing
  | none =>
    simp only
    cases has : message.textEncode with
    | none => exact binaryReply_agrees same
    | some action =>
      refine textReply_agrees same ?_
      cases valid.messages message (List.mem_of_getElem? listed) with
      | binary binary => exact absurd (has.symm.trans binary.noEncode) (by simp)
      | text text => exact text_kinds text refused

/-! ### The final review -/

/-- What an accepted value refers to. -/
theorem value_referenced {values : List EncodeFieldValue}
    (accepted : inputsFailure plan messageIndex message values = none) {position : Nat}
    {value : EncodeFieldValue} (listed : values[position]? = some value) :
    (∃ field, message.fields[value.field.fieldIndex]? = some field ∧
      field.encodeSource = .input) ∧
      (values.take position).any (isFor value.field.fieldIndex) = false := by
  have passes := (inputsFailure_eq_none.mp accepted).1 position value listed
  unfold placementStatus at passes
  split at passes
  · cases passes
  rename_i field there
  unfold referencedField at there
  split at there
  · cases there
  split at passes
  · cases passes
  split at passes
  · cases passes
  split at passes
  · cases passes
  rename_i source
  split at passes
  · cases passes
  rename_i once
  exact ⟨⟨field, there, not_not.mp source⟩, Bool.eq_false_iff.mpr once⟩

/-- Accepted values are for different fields. -/
theorem values_distinct {values : List EncodeFieldValue}
    (accepted : inputsFailure plan messageIndex message values = none) :
    (values.map (·.field.fieldIndex)).Nodup := by
  refine List.nodup_iff_getElem?_ne_getElem?.mpr fun left right before within => ?_
  rw [List.length_map] at within
  intro same
  rw [List.getElem?_map, List.getElem?_map, List.getElem?_eq_getElem within,
    List.getElem?_eq_getElem (before.trans within)] at same
  have once := (value_referenced accepted (List.getElem?_eq_getElem within)).2
  rw [List.any_eq_false] at once
  exact once values[left] (List.mem_take_iff_getElem.mpr ⟨left, by omega, rfl⟩)
    (decide_eq_true (Option.some.inj same))

theorem values_le_fields {values : List EncodeFieldValue}
    (accepted : inputsFailure plan messageIndex message values = none) :
    values.length ≤ message.fields.length := by
  have bounded : values.map (·.field.fieldIndex) ⊆ List.range message.fields.length := by
    intro index member
    obtain ⟨value, listed, rfl⟩ := List.mem_map.mp member
    obtain ⟨position, there⟩ := List.mem_iff_getElem?.mp listed
    obtain ⟨⟨field, found, -⟩, -⟩ := value_referenced accepted there
    exact List.mem_range.mpr (List.getElem?_eq_some_iff.mp found).1
  have short := (List.subperm_of_subset (values_distinct accepted) bounded).length_le
  rwa [List.length_map, List.length_range] at short

/-- Values behind no address are no values. -/
theorem BufferApart.values_present (apart : BufferApart values output) :
    ¬(values.data = none ∧ values.values.length ≠ 0) := by
  rintro ⟨null, nonzero⟩
  obtain ⟨range, addressed, -⟩ := apart.descriptors
  unfold getArrayAddressRange at addressed
  split at addressed
  · cases addressed
  unfold getAddressRange at addressed
  rw [if_neg (Nat.mul_ne_zero nonzero (by decide)), null] at addressed
  cases addressed

/-- Accepted values of an allowed message, with the buffer apart, reach the rules of the
message. -/
theorem encodeReply_admitted (valid : PlanValid plan) {pipelineIndex : Nat}
    {pipeline : PipelineExecutionPlan}
    (compiled : plan.pipelineExecutionPlans[pipelineIndex]? = some pipeline)
    (listed : plan.messageExecutionPlans[messageIndex]? = some message)
    (allowed : messageIsAllowed pipeline messageIndex = some true)
    (accepted : inputsFailure plan messageIndex message values.values = none)
    (apart : BufferApart values output) :
    encodeReply plan pipelineIndex messageIndex values output =
      encodeMessageReply plan messageIndex message values output := by
  have few := (values_le_fields accepted).trans
    (valid.covers message (List.mem_of_getElem? listed)).fields
  obtain ⟨range, addressed, -⟩ := apart.descriptors
  unfold encodeReply
  rw [if_neg apart.values_present, addressed, if_neg (by simp; omega), compiled, listed]
  simp only
  rw [if_pos allowed]

/-- Accepted values of a binary message are written and reviewed, when the buffer is apart and
has room for the record. -/
theorem encodeReply_reviewed (valid : PlanValid plan)
    (version : isTextSchema plan.schemaVersion = false) {pipelineIndex : Nat}
    {pipeline : PipelineExecutionPlan}
    (compiled : plan.pipelineExecutionPlans[pipelineIndex]? = some pipeline)
    (listed : plan.messageExecutionPlans[messageIndex]? = some message)
    (allowed : messageIsAllowed pipeline messageIndex = some true)
    (accepted : inputsFailure plan messageIndex message values.values = none)
    (apart : BufferApart values output)
    (room : recordSize message values.values ≤ output.capacity) :
    encodeReply plan pipelineIndex messageIndex values output =
      recordReply plan message values.values output.contents := by
  have noAction : message.textEncode = none := by
    cases valid.messages message (List.mem_of_getElem? listed) with
    | binary binary => exact binary.noEncode
    | text text => exact absurd (text.schema.symm.trans version) (by simp)
  have memory : binaryMemoryFailure values output (recordSize message values.values) = none := by
    unfold binaryMemoryFailure
    rw [apart.memoryFailure_eq fun value _ bytes => beq_iff_eq.mp bytes,
      if_neg (Nat.not_lt.mpr room)]
  rw [encodeReply_admitted valid compiled listed allowed accepted apart]
  unfold encodeMessageReply
  rw [if_neg (by simp [version]), accepted]
  simp only [noAction]
  unfold binaryReply
  rw [memory]

/-- The state in which a call reads its values. -/
def encodeBegun (workspace : ExecutionWorkspace) (message : MessageExecutionPlan)
    (output : MutableByteBuffer) : EncodeState :=
  { workspace := { workspace with
      rawIntegerCount := 0, rawIntegerMessageIndex := invalidIndex, inUse := true }
    output := output.contents
    result := { requiredSize := message.frameSize } }

/-- The values are accepted when the loop over them comes to its end. -/
theorem accepted_of_prepared (valid : PlanValid plan)
    (supported : ¬(isTextSchema plan.schemaVersion = true ∧ message.textEncode = none))
    (listed : plan.messageExecutionPlans[messageIndex]? = some message)
    {workspace : ExecutionWorkspace} (idle : workspace.IdleFor plan)
    (prepared : ∃ after, prepareEncodeInputs plan messageIndex message values.values
      (encodeBegun workspace message output) = .done () after) :
    inputsFailure plan messageIndex message values.values = none := by
  obtain ⟨after, run⟩ := prepared
  have inPlan := List.mem_of_getElem? listed
  have encodable := encodable_of_valid (valid.messages message inPlan) supported
  have ends := @prepareEncodeInputs_ends plan messageIndex message values.values encodable
    (valid.covers message inPlan) (valid.fieldCount message inPlan)
    (encodeBegun workspace message output) rfl
    { idle with notInUse := rfl, noRawIntegers := rfl }
  rw [run] at ends
  cases ends with
  | done reached => exact reached.accepted

end

/-! ### The call -/

/-- Values for a record of the sample message with the payload `hi`. -/
def sampleValues : EncodeValues :=
  { data := some 2048
    values := [
      { field := ⟨some 4096, 0, 1⟩, valueKind := .uint64, uint64Value := 3 },
      { field := ⟨some 4096, 0, 3⟩, valueKind := .int64, int64Value := -2 },
      { field := ⟨some 4096, 0, 4⟩, valueKind := .bytes
        bytesValue := { data := some 70, bytes := [0x68, 0x69] } }] }

/-- A buffer for a record of the sample message. -/
def sampleBuffer (byte : UInt8) : MutableByteBuffer :=
  { data := some 8192, contents := List.replicate 16 byte }

/-- An encode does not depend on what the buffer held before the call: the result is the
same, and so is the record. -/
theorem encodeCompleteRecord_overwrites {target : TargetLayout} {budgeted : BudgetedPlanDraft}
    {storage : Option Nat} {plan : PlanBundle} {workspace : ExecutionWorkspace}
    (frozen : freeze target budgeted storage = .ok plan) (idle : workspace.IdleFor plan)
    (pipelineIndex messageIndex : Nat) {values : EncodeValues} {left right : MutableByteBuffer}
    (same : SameRoom values left right) :
    ∃ first second,
      encodeCompleteRecord plan workspace pipelineIndex messageIndex values left = some first ∧
      encodeCompleteRecord plan workspace pipelineIndex messageIndex values right = some second ∧
      first.result = second.result ∧
      (first.result.status = .ok → first.output.take first.result.bytesWritten =
        second.output.take first.result.bytesWritten) := by
  have valid := planValid_of_freeze frozen
  obtain ⟨first, firstRun, firstResult, firstOutput, -⟩ :=
    encodeCompleteRecord_replies valid idle pipelineIndex messageIndex values left
  obtain ⟨second, secondRun, secondResult, secondOutput, -⟩ :=
    encodeCompleteRecord_replies valid idle pipelineIndex messageIndex values right
  obtain ⟨result, record⟩ := @encodeReply_agrees plan messageIndex values left right valid
    pipelineIndex same
  refine ⟨first, second, firstRun, secondRun, ?_, fun _ => ?_⟩
  · rw [firstResult, secondResult, result]
  · rw [firstOutput, secondOutput, firstResult, record]

theorem encodeCompleteRecord_overwrites_sample : ∃ first second,
    encodeCompleteRecord samplePlan (.fresh samplePlan) 0 0 sampleValues (sampleBuffer 0) =
        some first ∧
      encodeCompleteRecord samplePlan (.fresh samplePlan) 0 0 sampleValues (sampleBuffer 0xFF) =
        some second ∧
      first.result = second.result ∧
      (first.result.status = .ok → first.output.take first.result.bytesWritten =
        second.output.take first.result.bytesWritten) :=
  encodeCompleteRecord_overwrites sampleBudgeted_freezes
    (ExecutionWorkspace.fresh_idleFor samplePlan) 0 0 ⟨rfl, .inl rfl⟩

/-- An encode of accepted values into a buffer that is apart and large enough fails only when
an input contradicts a fixed byte of the message, and then in the final review. -/
theorem encodeCompleteRecord_reviewed {target : TargetLayout} {budgeted : BudgetedPlanDraft}
    {storage : Option Nat} {plan : PlanBundle} {workspace : ExecutionWorkspace}
    (frozen : freeze target budgeted storage = .ok plan)
    (version : isTextSchema plan.schemaVersion = false) (idle : workspace.IdleFor plan)
    {pipelineIndex messageIndex : Nat} {pipeline : PipelineExecutionPlan}
    {message : MessageExecutionPlan}
    (compiled : plan.pipelineExecutionPlans[pipelineIndex]? = some pipeline)
    (listed : plan.messageExecutionPlans[messageIndex]? = some message)
    (allowed : messageIsAllowed pipeline messageIndex = some true) {values : EncodeValues}
    {output : MutableByteBuffer}
    (prepared : ∃ after, prepareEncodeInputs plan messageIndex message values.values
      (encodeBegun workspace message output) = .done () after)
    (apart : BufferApart values output)
    (room : recordSize message values.values ≤ output.capacity) :
    ∃ call, encodeCompleteRecord plan workspace pipelineIndex messageIndex values output =
        some call ∧
      (InputsAgree message (suppliedContents plan message values.values) →
        call.result.status = .ok) ∧
      (¬InputsAgree message (suppliedContents plan message values.values) →
        call.result.status = .finalReviewFailed) := by
  have valid := planValid_of_freeze frozen
  have accepted := accepted_of_prepared valid (by simp [version]) listed idle prepared
  obtain ⟨call, run, result, -⟩ :=
    encodeCompleteRecord_replies valid idle pipelineIndex messageIndex values output
  rw [encodeReply_reviewed valid version compiled listed allowed accepted apart room,
    recordReply] at result
  have binary : BinaryValid plan.schemaVersion plan.conversions message := by
    cases valid.messages message (List.mem_of_getElem? listed) with
    | binary binary => exact binary
    | text text => exact absurd (text.schema.symm.trans version) (by simp)
  have shape := binary.hasShape_recordOf (recordSize_fits binary version accepted)
    (suppliedContents_fit binary version accepted) (suppliedContents_constants binary)
  refine ⟨call, run, fun agree => ?_, fun contradicts => ?_⟩
  · rw [result, if_pos (shape.mpr agree)]
  · rw [result, if_neg fun has => contradicts (shape.mp has)]

theorem sampleBuffer_apart : BufferApart sampleValues (sampleBuffer 0) where
  present := by decide
  addressed := by decide
  descriptors := ⟨_, rfl, fun buffer addressed => by cases addressed; rfl⟩
  views := by
    intro value member bytes
    simp only [sampleValues, List.mem_cons, List.not_mem_nil, or_false] at member
    rcases member with rfl | rfl | rfl
    · cases bytes
    · cases bytes
    · exact ⟨_, rfl, fun buffer addressed => by cases addressed; rfl⟩

/-- Values for a record of the first message of the pair. -/
def pairValues (tag : UInt64) : EncodeValues :=
  { data := some 2048
    values := [
      { field := ⟨some 4096, 0, 0⟩, valueKind := .uint64, uint64Value := tag },
      { field := ⟨some 4096, 0, 1⟩, valueKind := .int64, int64Value := -15 }] }

theorem pairBuffer_apart (tag : UInt64) : BufferApart (pairValues tag) (sampleBuffer 0) where
  present := by decide
  addressed := by decide
  descriptors := ⟨_, rfl, fun buffer addressed => by cases addressed; rfl⟩
  views := by
    intro value member bytes
    simp only [pairValues, List.mem_cons, List.not_mem_nil, or_false] at member
    rcases member with rfl | rfl <;> cases bytes

/-- The tag of the first message agrees with its fixed byte. -/
theorem pairInputs_agree : InputsAgree (pairExecution 1 2 invalidIndex)
    (suppliedContents pairPlan (pairExecution 1 2 invalidIndex) (pairValues 1).values) := by
  intro fixed member index field found input
  obtain rfl := List.mem_singleton.mp member
  cases index with
  | zero =>
    obtain rfl := Option.some.inj found
    exact ⟨fun _ _ => by decide, fun container contained => by cases contained⟩
  | succ index =>
    cases index with
    | zero =>
      obtain rfl := Option.some.inj found
      exact ⟨fun _ inside => absurd inside (by unfold InRange; decide),
        fun container contained => by cases contained⟩
    | succ index => cases found

theorem pairInputs_disagree : ¬InputsAgree (pairExecution 1 2 invalidIndex)
    (suppliedContents pairPlan (pairExecution 1 2 invalidIndex) (pairValues 2).values) := by
  intro agree
  have byte := (agree ⟨0, 1⟩ List.mem_cons_self 0 _ rfl rfl).1 rfl (by unfold InRange; decide)
  revert byte
  decide

theorem encodeCompleteRecord_reviewed_sample : ∃ call other,
    encodeCompleteRecord pairPlan (.fresh pairPlan) 0 0 (pairValues 1) (sampleBuffer 0) =
        some call ∧ call.result.status = .ok ∧
      encodeCompleteRecord pairPlan (.fresh pairPlan) 0 0 (pairValues 2) (sampleBuffer 0) =
        some other ∧ other.result.status = .finalReviewFailed := by
  have reviewed := fun tag prepared room => @encodeCompleteRecord_reviewed _ _ _ _ _
    pairBudgeted_freezes rfl (ExecutionWorkspace.fresh_idleFor pairPlan) 0 0 pairCandidates
    (pairExecution 1 2 invalidIndex) rfl rfl rfl (pairValues tag) (sampleBuffer 0) prepared
    (pairBuffer_apart tag) room
  obtain ⟨call, run, agrees, -⟩ := reviewed 1 ⟨_, rfl⟩ (by decide)
  obtain ⟨other, runs, -, differs⟩ := reviewed 2 ⟨_, rfl⟩ (by decide)
  exact ⟨call, other, run, agrees pairInputs_agree, runs, differs pairInputs_disagree⟩

end ProtocolAdapter.Codec
