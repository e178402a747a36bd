/-
This file shows that a decode is safe on every input. No access leaves its array, no
reply blames the plan, and the byte strings of an accepted record are views into the
input.
-/

import ProtocolAdapter.Codec.DecodeCall

namespace ProtocolAdapter.Codec

open Foundation

/-- A view of bytes of an input. -/
def ViewInside (view input : ByteView) : Prop :=
  ∃ offset length, offset + length ≤ input.size ∧ view = subView input offset length

/-- The statuses of a call that has found the message of its input. -/
def messageStatuses : List CodecStatus :=
  [.ok, .invalidArgument, .unknownMessage, .outputSlotsTooSmall, .integrityFailed,
    .valueNotRepresentable, .unknownEnumValue, .inputOutputOverlap, .asciiCharacterNotAllowed,
    .lengthMismatch]

section

variable {plan : PlanBundle} {messageIndex : Nat} {message : MessageExecutionPlan}
  {input : ByteView} {fieldSlots : FieldSlots}

/-! ### Statuses -/

theorem recordRefusal_status {refusal : Refusal} {record : List UInt8}
    (valid : BinaryValid plan.schemaVersion plan.conversions message)
    (fits : lengthMatches message record.length = true)
    (refused : recordRefusal plan message record = some refusal) :
    refusal.status ∈ messageStatuses := by
  unfold recordRefusal at refused
  split at refused
  · cases refused
    simp [messageStatuses]
  split at refused
  · cases refused
    simp [messageStatuses]
  obtain ⟨⟨field, index⟩, member, refused⟩ := List.exists_of_findSome?_eq_some refused
  have found := List.mem_zipIdx_iff_getElem?.mp member
  unfold fieldRefusal at refused
  split at refused
  · rename_i converted
    split at refused
    · cases refused
    · rename_i status run
      cases refused
      have facts := convertedField valid found converted
      rw [toConversionError_ne facts.valid facts.rawType facts.integer.positive
        facts.integer.bounded (rawValue_lt valid fits rfl found facts.plain facts.notBytes) run]
      simp [messageStatuses, toCodecStatus]
  · split at refused
    · cases refused
      simp [messageStatuses]
    · cases refused

theorem messageRefusal_status {refusal : Refusal} {record : List UInt8}
    (matched : Matched plan message record)
    (refused : messageRefusal plan message record = some refusal) :
    refusal.status ∈ messageStatuses := by
  have rule := matched.rule
  unfold messageRefusal at refused
  cases has : message.textDecode with
  | some action =>
    simp only [has, textRefusal] at refused
    split at refused
    · cases refused
    · cases refused
      have actionValid : TextActionValid message action := by
        cases matched.valid with
        | binary valid => exact absurd (has.symm.trans valid.noDecode) (by simp)
        | text valid => exact (valid.decode action has).1
      have planned := (textVerdict_eq actionValid record).2
      revert planned
      cases textVerdict message action record <;> simp [textWalkFailure, messageStatuses]
  | none =>
    simp only [has] at refused
    rw [matchesRecord, has, if_neg (by simp), hasShape, Bool.and_eq_true] at rule
    cases matched.valid with
    | binary valid => exact recordRefusal_status valid rule.1 refused
    | text valid =>
      rw [valid.recordRefusal_eq] at refused
      cases refused

theorem outputRefusal_status {count : Nat} {status : CodecStatus}
    (refused : outputRefusal count input fieldSlots = some status) : status ∈ messageStatuses := by
  unfold outputRefusal at refused
  split at refused
  · cases refused
    simp [messageStatuses]
  split at refused
  · split at refused
    · cases refused
      simp [messageStatuses]
    · cases refused
  · cases refused
    simp [messageStatuses]

theorem fieldRefusal_ne_ok {refusal : Refusal} {record : List UInt8}
    {item : FieldExecutionPlan × Nat}
    (refused : fieldRefusal plan message record item = some refusal) : refusal.status ≠ .ok := by
  unfold fieldRefusal at refused
  split at refused
  · split at refused
    · cases refused
    · rename_i status _
      cases refused
      cases status <;> simp [toCodecStatus]
  · split at refused
    · cases refused
      simp
    · cases refused

theorem messageRefusal_ne_ok {refusal : Refusal} {record : List UInt8}
    (refused : messageRefusal plan message record = some refusal) : refusal.status ≠ .ok := by
  unfold messageRefusal at refused
  split at refused
  · unfold textRefusal at refused
    split at refused
    · cases refused
    · cases refused
      cases textVerdict message _ record <;> simp [textWalkFailure]
  · unfold recordRefusal at refused
    split at refused
    · cases refused
      simp
    split at refused
    · cases refused
      simp
    obtain ⟨item, -, refused⟩ := List.exists_of_findSome?_eq_some refused
    exact fieldRefusal_ne_ok refused

theorem outputRefusal_ne_ok {count : Nat} {status : CodecStatus}
    (refused : outputRefusal count input fieldSlots = some status) : status ≠ .ok := by
  unfold outputRefusal at refused
  split at refused
  · cases refused
    simp
  split at refused
  · split at refused
    · cases refused
      simp
    · cases refused
  · cases refused
    simp

theorem messageReply_status (matched : Matched plan message input.bytes) :
    (messageReply plan messageIndex message input fieldSlots).result.status ∈ messageStatuses := by
  unfold messageReply
  cases output : outputRefusal (decodedCount message) input fieldSlots with
  | some status =>
    simp only [output]
    exact outputRefusal_status output
  | none =>
    cases refused : messageRefusal plan message input.bytes with
    | some refusal =>
      simp only [output]
      exact messageRefusal_status matched refused
    | none =>
      simp only [output]
      simp [messageStatuses]

/-! ### Views -/

theorem subView_inside {offset length : Nat} (within : offset + length ≤ input.size) :
    ViewInside (subView input offset length) input := ⟨offset, length, within, rfl⟩

theorem decodedSlot_inside (matched : Matched plan message input.bytes)
    (none : message.textDecode = none) {index : Nat} {field : FieldExecutionPlan}
    (found : message.fields[index]? = some field)
    (bytes : (decodedSlot plan messageIndex message input index field).valueKind = .bytes) :
    ViewInside (decodedSlot plan messageIndex message input index field).bytesValue input := by
  have rule := matched.rule
  rw [matchesRecord, none, if_neg (by simp), hasShape, Bool.and_eq_true] at rule
  have type : field.valueType = .bytes ∧ hasConversion field = false := by
    unfold decodedSlot at bytes
    cases converted : hasConversion field with
    | true =>
      have integer := matched.converted_type field (List.mem_of_getElem? found) converted
      simp only [converted, if_true] at bytes
      split at bytes
      · cases bytes
      · rcases integer with integer | integer <;> rw [integer] at bytes <;> cases bytes
    | false =>
      simp only [converted, Bool.false_eq_true, if_false] at bytes
      refine ⟨?_, rfl⟩
      cases type : field.valueType <;> rw [type] at bytes <;> cases bytes
  unfold decodedSlot
  rw [type.2, type.1]
  refine subView_inside ?_
  cases matched.valid with
  | binary valid =>
    have plain : isMember field = false := by
      cases valid.fields field (List.mem_of_getElem? found) with
      | member container real listed memberValid =>
        have types := memberValid.type
        rw [type.1] at types
        simp at types
      | integer plain _ => exact decide_eq_false (not_not.mpr plain)
      | bytes plain _ => exact decide_eq_false (not_not.mpr plain)
    exact valid.bytes_inside rule.1 found plain
  | text valid =>
    have facts := valid.fields field (List.mem_of_getElem? found)
    rw [facts.offset, byteLength, isPayload, valid.noPayload, if_neg (by simp), facts.width]
    exact Nat.zero_le _

theorem messageSlots_inside (matched : Matched plan message input.bytes) :
    ∀ slot ∈ messageSlots plan messageIndex message input, slot.valueKind = .bytes →
      ViewInside slot.bytesValue input := by
  intro slot member bytes
  have rule := matched.rule
  unfold messageSlots at member
  cases has : message.textDecode with
  | some action =>
    simp only [has, textSlots, List.mem_map] at member
    simp only [matchesRecord, has, Option.isSome_some, if_true, hasText, beq_iff_eq] at rule
    obtain ⟨place, listed, rfl⟩ := member
    have actionValid : TextActionValid message action := by
      cases matched.valid with
      | binary valid => exact absurd (has.symm.trans valid.noDecode) (by simp)
      | text valid => exact (valid.decode action has).1
    exact subView_inside ((textPlaces_eq actionValid rule).2.2 place listed)
  | none =>
    simp only [has, decodedSlots, List.mem_mapIdx] at member
    obtain ⟨index, within, rfl⟩ := member
    exact decodedSlot_inside matched has (List.getElem?_eq_getElem within) bytes

theorem messageSlots_length (matched : Matched plan message input.bytes) :
    (messageSlots plan messageIndex message input).length = decodedCount message := by
  have rule := matched.rule
  unfold messageSlots decodedCount
  cases has : message.textDecode with
  | none => rw [decodedSlots, List.length_mapIdx]
  | some action =>
    simp only [matchesRecord, has, Option.isSome_some, if_true, hasText, beq_iff_eq] at rule
    cases matched.valid with
    | binary valid => exact absurd (has.symm.trans valid.noDecode) (by simp)
    | text valid =>
      obtain ⟨actionValid, counted⟩ := valid.decode action has
      have places := congrArg List.length (textPlaces_eq actionValid rule).2.1
      rw [List.length_map] at places
      simp only
      rw [textSlots, List.length_map, places, counted]

/-- The byte strings of a reply are views into the input. -/
def DecodeReply.Inside (reply : DecodeReply) (input : ByteView) : Prop :=
  ∀ slot ∈ reply.slots.take reply.result.fieldCount, slot.valueKind = .bytes →
    ViewInside slot.bytesValue input

theorem DecodeReply.inside_of_none {reply : DecodeReply} (none : reply.result.fieldCount = 0) :
    reply.Inside input := by
  intro slot member
  rw [none, List.take_zero] at member
  cases member

theorem messageReply_inside (matched : Matched plan message input.bytes) :
    (messageReply plan messageIndex message input fieldSlots).Inside input := by
  unfold messageReply
  cases output : outputRefusal (decodedCount message) input fieldSlots with
  | some status =>
    simp only [output]
    exact DecodeReply.inside_of_none rfl
  | none =>
    cases refused : messageRefusal plan message input.bytes with
    | some refusal =>
      simp only [output]
      exact DecodeReply.inside_of_none rfl
    | none =>
    simp only [output]
    intro slot member bytes
    have whole : (messageSlots plan messageIndex message input ++
        fieldSlots.slots.drop (decodedCount message)).take (decodedCount message) =
          messageSlots plan messageIndex message input :=
      List.take_left' (messageSlots_length matched)
    exact messageSlots_inside matched slot (whole ▸ member) bytes

/-! ### Other slots -/

/-- Slots at the same place, of the same number, with whatever they hold. -/
structure FieldSlots.SameRoom (left right : FieldSlots) : Prop where
  data : right.data = left.data
  length : right.slots.length = left.slots.length

/-- Replies that differ at most in slots nobody is told about. -/
structure DecodeReply.Alike (left right : DecodeReply) : Prop where
  result : right.result = left.result
  rawMessage : right.rawMessage = left.rawMessage
  fields : right.slots.take right.result.fieldCount = left.slots.take left.result.fieldCount
  length : right.slots.length = left.slots.length

variable {otherSlots : FieldSlots}

theorem FieldSlots.SameRoom.outputRefusal_eq (same : fieldSlots.SameRoom otherSlots)
    (count : Nat) :
    outputRefusal count input otherSlots = outputRefusal count input fieldSlots := by
  unfold outputRefusal
  rw [same.length, same.data]

theorem DecodeReply.Alike.of_slots (same : fieldSlots.SameRoom otherSlots) {result : DecodeResult}
    (none : result.fieldCount = 0) :
    DecodeReply.Alike { result := result, slots := fieldSlots.slots }
      { result := result, slots := otherSlots.slots } where
  result := rfl
  rawMessage := rfl
  fields := by rw [none, List.take_zero, List.take_zero]
  length := same.length

theorem messageReply_alike (matched : Matched plan message input.bytes)
    (same : fieldSlots.SameRoom otherSlots) :
    (messageReply plan messageIndex message input fieldSlots).Alike
      (messageReply plan messageIndex message input otherSlots) := by
  unfold messageReply
  simp only
  rw [same.outputRefusal_eq]
  cases outputRefusal (decodedCount message) input fieldSlots with
  | some status => exact .of_slots same rfl
  | none =>
    cases messageRefusal plan message input.bytes with
    | some refusal => exact .of_slots same rfl
    | none =>
      refine ⟨rfl, rfl, ?_, ?_⟩
      · exact (List.take_left' (messageSlots_length matched)).trans
          (List.take_left' (messageSlots_length matched)).symm
      · simp only [List.length_append, List.length_drop, same.length]

/-- A call replies alike whatever the slots of the caller held before it. -/
theorem decodeReply_alike (valid : PlanValid plan) (pipelineIndex : Nat)
    (same : fieldSlots.SameRoom otherSlots) :
    (decodeReply plan pipelineIndex input fieldSlots).Alike
      (decodeReply plan pipelineIndex input otherSlots) := by
  unfold decodeReply
  rw [same.data, same.length]
  split
  · exact .of_slots same rfl
  cases listed : plan.pipelineExecutionPlans[pipelineIndex]? with
  | none => exact .of_slots same rfl
  | some pipeline =>
    simp only
    split
    · exact .of_slots same rfl
    obtain ⟨found, run, unique⟩ := matched_of_found valid listed input.bytes
    unfold pipelineReply matchReply
    simp only [run]
    split
    · exact .of_slots same rfl
    split
    · exact .of_slots same rfl
    · rename_i single
      obtain ⟨message, placed, matched⟩ := unique (not_not.mp single)
      rw [placed]
      exact messageReply_alike matched same

/-- What holds of every reply without fields, and of every reply for a matched message, holds
of every reply. -/
theorem decodeReply_cases (valid : PlanValid plan) (pipelineIndex : Nat)
    {holds : DecodeReply → Prop}
    (without : ∀ result : DecodeResult, result.fieldCount = 0 →
      holds { result := result, slots := fieldSlots.slots })
    (messages : ∀ messageIndex message, Matched plan message input.bytes →
      holds (messageReply plan messageIndex message input fieldSlots)) :
    holds (decodeReply plan pipelineIndex input fieldSlots) := by
  unfold decodeReply
  split
  · exact without _ rfl
  cases listed : plan.pipelineExecutionPlans[pipelineIndex]? with
  | none => exact without _ rfl
  | some pipeline =>
    simp only
    split
    · exact without _ rfl
    obtain ⟨found, run, unique⟩ := matched_of_found valid listed input.bytes
    unfold pipelineReply matchReply
    simp only [run]
    split
    · exact without _ rfl
    split
    · exact without _ rfl
    · rename_i single
      obtain ⟨message, placed, matched⟩ := unique (not_not.mp single)
      rw [placed]
      exact messages _ _ matched

/-- A call leaves as many slots as it was lent. -/
theorem decodeReply_slots_length (valid : PlanValid plan) (pipelineIndex : Nat) :
    (decodeReply plan pipelineIndex input fieldSlots).slots.length = fieldSlots.slots.length := by
  refine @decodeReply_cases plan input fieldSlots valid pipelineIndex
    (fun reply => reply.slots.length = fieldSlots.slots.length) (fun result none => rfl)
    fun messageIndex message matched => ?_
  unfold messageReply
  cases output : outputRefusal (decodedCount message) input fieldSlots with
  | some status => simp only [output]
  | none =>
    cases refused : messageRefusal plan message input.bytes with
    | some refusal => simp only [output]
    | none =>
      have room := outputRefusal_none output
      simp only [output, List.length_append, List.length_drop, messageSlots_length matched]
      omega

/-- A reply has no more fields than there are slots. -/
theorem decodeReply_fieldCount_le (valid : PlanValid plan) (pipelineIndex : Nat) :
    (decodeReply plan pipelineIndex input fieldSlots).result.fieldCount ≤
      fieldSlots.slots.length := by
  refine @decodeReply_cases plan input fieldSlots valid pipelineIndex
    (fun reply => reply.result.fieldCount ≤ fieldSlots.slots.length)
    (fun result none => none ▸ Nat.zero_le _) fun messageIndex message matched => ?_
  unfold messageReply
  cases output : outputRefusal (decodedCount message) input fieldSlots with
  | some status => simp only [output, Nat.zero_le]
  | none =>
    cases refused : messageRefusal plan message input.bytes with
    | some refusal => simp only [output, Refusal.report, Nat.zero_le]
    | none =>
      simp only [output]
      exact outputRefusal_none output

/-! ### The call -/

/-- A reply names no message, several, or has a status of a message; the byte strings of a
reply are views into the input. -/
theorem decodeReply_safe (valid : PlanValid plan) (pipelineIndex : Nat) :
    (decodeReply plan pipelineIndex input fieldSlots).result.status ∈
        .operationNotSupported :: .ambiguousMessage :: messageStatuses ∧
      (decodeReply plan pipelineIndex input fieldSlots).Inside input := by
  unfold decodeReply
  split
  · exact ⟨by simp [messageStatuses], DecodeReply.inside_of_none rfl⟩
  cases listed : plan.pipelineExecutionPlans[pipelineIndex]? with
  | none => exact ⟨by simp [messageStatuses], DecodeReply.inside_of_none rfl⟩
  | some pipeline =>
    simp only
    split
    · exact ⟨by simp [messageStatuses], DecodeReply.inside_of_none rfl⟩
    obtain ⟨found, run, unique⟩ := matched_of_found valid listed input.bytes
    unfold pipelineReply matchReply
    simp only [run]
    split
    · exact ⟨by simp [messageStatuses], DecodeReply.inside_of_none rfl⟩
    split
    · exact ⟨by simp [messageStatuses], DecodeReply.inside_of_none rfl⟩
    · rename_i single
      obtain ⟨message, placed, matched⟩ := unique (not_not.mp single)
      rw [placed]
      exact ⟨List.mem_cons_of_mem _ (List.mem_cons_of_mem _ (messageReply_status matched)),
        messageReply_inside matched⟩

end

/-- A decode of a frozen plan makes every access inside its array, never blames the plan,
and returns byte strings that lie in the input. -/
theorem decodeCompleteRecord_safe {target : TargetLayout} {budgeted : BudgetedPlanDraft}
    {storage : Option Nat} {plan : PlanBundle} {workspace : ExecutionWorkspace}
    (frozen : freeze target budgeted storage = .ok plan) (idle : workspace.IdleFor plan)
    (pipelineIndex : Nat) (input : ByteView) (fieldSlots : FieldSlots) :
    ∃ call, decodeCompleteRecord plan workspace pipelineIndex input fieldSlots = some call ∧
      call.result.status ≠ .invalidPlan ∧ call.result.status ≠ .internalError ∧
      ∀ slot ∈ call.slots.take call.result.fieldCount, slot.valueKind = .bytes →
        ViewInside slot.bytesValue input := by
  have valid := planValid_of_freeze frozen
  obtain ⟨call, run, result, slots, -, -⟩ :=
    decodeCompleteRecord_replies valid idle pipelineIndex input fieldSlots
  obtain ⟨status, inside⟩ := @decodeReply_safe plan input fieldSlots valid pipelineIndex
  rw [← result] at status
  refine ⟨call, run, fun blamed => ?_, fun blamed => ?_, ?_⟩
  · rw [blamed] at status
    revert status
    decide
  · rw [blamed] at status
    revert status
    decide
  · rw [result, slots]
    exact inside

/-- A record of the sample message with the payload `hi`. -/
def sampleInput : ByteView :=
  { data := some 64, bytes := [0xAA, 0x55, 9, 0xD3, 0xFF, 0xFE, 0x68, 0x69, 0xAA] }

/-- Slots for a record of the sample message. -/
def sampleSlots : FieldSlots := { data := some 1024, slots := List.replicate 5 {} }

theorem decodeCompleteRecord_safe_sample : ∃ call,
    decodeCompleteRecord samplePlan (.fresh samplePlan) 0 sampleInput sampleSlots = some call ∧
      call.result.status = .ok ∧ call.result.fieldCount = 5 ∧
      call.slots[4]?.map (·.bytesValue) = some { data := some 70, bytes := [0x68, 0x69] } ∧
      call.result.status ≠ .invalidPlan ∧ call.result.status ≠ .internalError ∧
      ∀ slot ∈ call.slots.take call.result.fieldCount, slot.valueKind = .bytes →
        ViewInside slot.bytesValue sampleInput := by
  have seen : (decodeCompleteRecord samplePlan (.fresh samplePlan) 0 sampleInput sampleSlots).map
      (fun call => (call.result.status, call.result.fieldCount,
        call.slots[4]?.map (·.bytesValue))) =
      some (.ok, 5, some { data := some 70, bytes := [0x68, 0x69] }) := rfl
  obtain ⟨call, run, safe⟩ := decodeCompleteRecord_safe sampleBudgeted_freezes
    (ExecutionWorkspace.fresh_idleFor samplePlan) 0 sampleInput sampleSlots
  rw [run, Option.map_some, Option.some.injEq, Prod.mk.injEq, Prod.mk.injEq] at seen
  exact ⟨call, run, seen.1, seen.2.1, seen.2.2, safe⟩

end ProtocolAdapter.Codec
