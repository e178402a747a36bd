/-
This file states what a call of the decoder replies, as a function of the plan, the input
and the memory of the caller. The decoder gives this reply on every idle workspace of the
plan, leaves the workspace idle, and keeps the raw integers of the record in it.
-/

import ProtocolAdapter.Codec.DecodeText

namespace ProtocolAdapter.Codec

open Foundation Foundation.Operation

/-! ### The reply -/

/-- The number of fields a record of a message decodes to. -/
def decodedCount (message : MessageExecutionPlan) : Nat :=
  match message.textDecode with
  | some _ => message.textDecodeFieldCount
  | none => message.fields.length

/-- Why a record that matches a message is refused. -/
def messageRefusal (plan : PlanBundle) (message : MessageExecutionPlan) (record : List UInt8) :
    Option Refusal :=
  match message.textDecode with
  | some action => textRefusal message action record
  | none => recordRefusal plan message record

/-- The fields a record of a message decodes to. -/
def messageSlots (plan : PlanBundle) (messageIndex : Nat) (message : MessageExecutionPlan)
    (input : ByteView) : List DecodedFieldSlot :=
  match message.textDecode with
  | some action => textSlots plan messageIndex message action input
  | none => decodedSlots plan messageIndex message input

/-- Whether a record of a message has a value without an entry. -/
def messageTainted (message : MessageExecutionPlan) (record : List UInt8) : Bool :=
  match message.textDecode with
  | some _ => false
  | none => message.fields.any (isUnknown message record)

/-- What a call leaves with its caller, and the message whose raw integers it keeps. -/
structure DecodeReply where
  result : DecodeResult := {}
  slots : List DecodedFieldSlot
  rawMessage : Option Nat := none

/-- Why the slots of the caller are refused. -/
def outputRefusal (count : Nat) (input : ByteView) (fieldSlots : FieldSlots) :
    Option CodecStatus :=
  if count > fieldSlots.slots.length then some .outputSlotsTooSmall
  else
    match getAddressRange input.data input.size,
      getArrayAddressRange fieldSlots.data count sizeofDecodedFieldSlot with
    | some inputRange, some slotRange =>
      if rangesOverlap inputRange slotRange then some .inputOutputOverlap else none
    | _, _ => some .invalidArgument

/-- The reply for a record that matches one message. -/
def messageReply (plan : PlanBundle) (messageIndex : Nat) (message : MessageExecutionPlan)
    (input : ByteView) (fieldSlots : FieldSlots) : DecodeReply :=
  let count := decodedCount message
  let result : DecodeResult := { messageIndex := messageIndex, requiredFieldCount := count }
  match outputRefusal count input fieldSlots with
  | some status => { result := { result with status := status }, slots := fieldSlots.slots }
  | none =>
    match messageRefusal plan message input.bytes with
    | some refusal => { result := refusal.report result, slots := fieldSlots.slots }
    | none =>
      { result := { result with
          status := .ok, fieldCount := count, tainted := messageTainted message input.bytes }
        slots := messageSlots plan messageIndex message input ++ fieldSlots.slots.drop count
        rawMessage := messageIndex }

/-- The reply for the messages that a record matches. -/
def matchReply (plan : PlanBundle) (found : MatchOutcome) (input : ByteView)
    (fieldSlots : FieldSlots) : DecodeReply :=
  if found.matchCount = 0 then
    { result := { status := .unknownMessage }, slots := fieldSlots.slots }
  else if found.matchCount ≠ 1 then
    { result := { status := .ambiguousMessage }, slots := fieldSlots.slots }
  else
    match plan.messageExecutionPlans[found.messageIndex]? with
    | none => { slots := fieldSlots.slots }
    | some message => messageReply plan found.messageIndex message input fieldSlots

/-- The reply of a pipeline. -/
def pipelineReply (plan : PlanBundle) (pipeline : PipelineExecutionPlan) (input : ByteView)
    (fieldSlots : FieldSlots) : DecodeReply :=
  match findPipelineMatch pipeline plan.messageExecutionPlans input.bytes with
  | none => { slots := fieldSlots.slots }
  | some found => matchReply plan found input fieldSlots

/-- What a call replies. -/
def decodeReply (plan : PlanBundle) (pipelineIndex : Nat) (input : ByteView)
    (fieldSlots : FieldSlots) : DecodeReply :=
  if (input.data = none ∧ input.size ≠ 0) ∨
      (fieldSlots.data = none ∧ fieldSlots.slots.length ≠ 0) then { slots := fieldSlots.slots }
  else
    match plan.pipelineExecutionPlans[pipelineIndex]? with
    | none => { slots := fieldSlots.slots }
    | some pipeline =>
      if isTextSchema plan.schemaVersion = true ∧ pipeline.textMessageIndices = [] then
        { result := { status := .operationNotSupported }, slots := fieldSlots.slots }
      else pipelineReply plan pipeline input fieldSlots

/-! ### Raw integers -/

/-- The raw integer of a converted field of a record. -/
def keptInteger (plan : PlanBundle) (messageIndex : Nat) (message : MessageExecutionPlan)
    (record : List UInt8) (item : FieldExecutionPlan × Nat) : RawIntegerValue :=
  let raw := rawValue message item.1 record
  let output : RawIntegerValue := { field := ⟨plan.address, messageIndex, item.2⟩ }
  if item.1.valueType = .int64 then
    { output with
      kind := .int64
      int64Value := Int64.ofInt ((interpretSigned raw item.1.width).getD 0) }
  else { output with uint64Value := UInt64.ofNat raw }

/-- The raw integers of the converted fields of a record, in the order of the fields. -/
def keptIntegers (plan : PlanBundle) (messageIndex : Nat) (record : List UInt8) :
    List RawIntegerValue :=
  match plan.messageExecutionPlans[messageIndex]? with
  | none => []
  | some message => (message.fields.zipIdx.filter (hasConversion ·.1)).map
      (keptInteger plan messageIndex message record)

/-- The raw integers a call leaves in the workspace. -/
def DecodeReply.rawIntegers (reply : DecodeReply) (plan : PlanBundle) (record : List UInt8) :
    List RawIntegerValue :=
  match reply.rawMessage with
  | none => []
  | some messageIndex => keptIntegers plan messageIndex record

/-- A workspace that answers questions about raw integers from a list. -/
def ExecutionWorkspace.Reports (workspace : ExecutionWorkspace) (plan : PlanBundle)
    (values : List RawIntegerValue) : Prop :=
  workspace.lastRawIntegerCount = values.length ∧
    ∀ index, workspace.getLastRawInteger plan index = some values[index]?

theorem ExecutionWorkspace.reports_nil {workspace : ExecutionWorkspace} (plan : PlanBundle)
    (none : workspace.rawIntegerCount = 0) : workspace.Reports plan [] := by
  refine ⟨none, fun index => ?_⟩
  rw [getLastRawInteger, if_pos (by omega)]
  rfl

/-- What has been kept of the converted fields answers questions about raw integers. -/
theorem reports_of_kept {plan : PlanBundle} {messageIndex : Nat} {message : MessageExecutionPlan}
    {record : List UInt8} {workspace : ExecutionWorkspace} (shaped : workspace.ShapedFor plan)
    (found : plan.messageExecutionPlans[messageIndex]? = some message)
    (types : ∀ field ∈ message.fields, hasConversion field = true →
      field.valueType = .uint64 ∨ field.valueType = .int64)
    (count : workspace.rawIntegerCount = message.fields.countP hasConversion)
    (named : workspace.rawIntegerMessageIndex = messageIndex)
    (kept : ∀ (index : Nat) field, message.fields[index]? = some field →
      hasConversion field = true → Kept plan message record workspace index field) :
    workspace.Reports plan (keptIntegers plan messageIndex record) := by
  have length : (keptIntegers plan messageIndex record).length =
      message.fields.countP hasConversion := by
    unfold keptIntegers
    rw [found]
    simp only
    rw [List.length_map, ← List.countP_eq_length_filter]
    have counted := countP_zipIdx hasConversion message.fields message.fields.length
    rwa [List.take_length, List.take_of_length_le (by rw [List.length_zipIdx])] at counted
  refine ⟨count.trans length.symm, fun slot => ?_⟩
  unfold ExecutionWorkspace.getLastRawInteger
  by_cases within : slot < message.fields.countP hasConversion
  swap
  · rw [if_pos (by omega), List.getElem?_eq_none (by omega)]
  rw [if_neg (by omega)]
  obtain ⟨⟨field, index⟩, listed⟩ : ∃ item,
      (message.fields.zipIdx.filter (hasConversion ·.1))[slot]? = some item := by
    refine ⟨_, List.getElem?_eq_getElem ?_⟩
    have same := length
    unfold keptIntegers at same
    rw [found] at same
    simp only [List.length_map] at same
    omega
  have value : (keptIntegers plan messageIndex record)[slot]? =
      some (keptInteger plan messageIndex message record (field, index)) := by
    unfold keptIntegers
    rw [found]
    simp only
    rw [List.getElem?_map, listed]
    rfl
  obtain ⟨position, here, converted, counted⟩ := getElem?_filter.mp listed
  rw [List.getElem?_zipIdx, Nat.zero_add, Option.map_eq_some_iff] at here
  obtain ⟨other, there, same⟩ := here
  obtain ⟨rfl, rfl⟩ := Prod.mk.inj same
  simp only at converted
  have place : conversionSlotOf message position = slot := by
    rw [← counted, countP_zipIdx, conversionSlotOf]
  obtain ⟨-, bits, kind, fieldIndex⟩ := kept position other there converted
  rw [place] at bits kind fieldIndex
  have type := types other (List.mem_of_getElem? there) converted
  have scope : workspace.planScope = plan.address := shaped.planScope
  simp only [value, bits, kind, fieldIndex, Option.bind_eq_bind, Option.bind_some, named, found,
    there]
  unfold keptInteger
  rcases type with type | type
  · simp [type, scope]
  · simp [type, scope]

/-! ### Matching messages -/

/-- A message that records of a pipeline are matched against, and a record that matches it. -/
structure Matched (plan : PlanBundle) (message : MessageExecutionPlan) (record : List UInt8) :
    Prop where
  valid : MessageValid plan.schemaVersion plan.conversions message
  covers : LayoutCovers plan.executionResourceLayout message
  count : message.fields.length ≤ 65536
  decodable : isDecodable message = true
  rule : matchesRecord record message = true

/-- The one message that a record matches. -/
theorem matched_of_found {plan : PlanBundle} (valid : PlanValid plan) {pipelineIndex : Nat}
    {pipeline : PipelineExecutionPlan}
    (listed : plan.pipelineExecutionPlans[pipelineIndex]? = some pipeline) (record : List UInt8) :
    ∃ found, findPipelineMatch pipeline plan.messageExecutionPlans record = some found ∧
      (found.matchCount = 1 → ∃ message,
        plan.messageExecutionPlans[found.messageIndex]? = some message ∧
          Matched plan message record) := by
  obtain ⟨indices, indexed⟩ := valid.pipelines pipelineIndex pipeline listed
  obtain ⟨found, run, perm⟩ := findPipelineMatch_eq valid indexed record
  refine ⟨_, run, fun single => ?_⟩
  obtain ⟨index, rfl⟩ := List.length_eq_one_iff.mp single
  have member := perm.mem_iff.mp List.mem_cons_self
  obtain ⟨-, message, placed, holds⟩ := mem_having.mp member
  rw [Bool.and_eq_true] at holds
  have listed := List.mem_of_getElem? placed
  exact ⟨message, placed, valid.messages message listed, valid.covers message listed,
    valid.fieldCount message listed, holds.1, holds.2⟩

/-! ### The call -/

/-- A state of the decoder that gives a reply. -/
structure Replies (plan : PlanBundle) (input : ByteView) (reply : DecodeReply)
    (state : DecodeState) : Prop where
  result : state.result = reply.result
  slots : state.slots = reply.slots
  shaped : state.workspace.ShapedFor plan
  reports : state.workspace.Reports plan (reply.rawIntegers plan input.bytes)

section

variable {plan : PlanBundle} {messageIndex : Nat} {message : MessageExecutionPlan}
  {input : ByteView} {fieldSlots : FieldSlots}

/-- What the state holds when the message of the input has been found. -/
structure Selected (plan : PlanBundle) (messageIndex : Nat) (fieldSlots : FieldSlots)
    (state : DecodeState) : Prop where
  result : state.result = { messageIndex := messageIndex }
  slots : state.slots = fieldSlots.slots
  shaped : state.workspace.ShapedFor plan
  rawCount : state.workspace.rawIntegerCount = 0

/-- A reply that keeps no raw integers. -/
theorem Replies.plain {reply : DecodeReply} {state : DecodeState}
    (result : state.result = reply.result) (slots : state.slots = reply.slots)
    (shaped : state.workspace.ShapedFor plan) (none : state.workspace.rawIntegerCount = 0)
    (raw : reply.rawMessage = .none) : Replies plan input reply state := by
  refine ⟨result, slots, shaped, ?_⟩
  unfold DecodeReply.rawIntegers
  rw [raw]
  exact ExecutionWorkspace.reports_nil plan none

/-- The check of the slots ends with a refusal, or with the number of fields noted. -/
theorem checkDecodeOutput_eq (count : Nat) (state : DecodeState) :
    checkDecodeOutput count input fieldSlots state =
      let noted := { state with result := { state.result with requiredFieldCount := count } }
      match outputRefusal count input fieldSlots with
      | some status => .returned (noted.fail status)
      | none => .done () noted := by
  unfold checkDecodeOutput outputRefusal
  rw [update_bind]
  by_cases small : count > fieldSlots.slots.length
  · rw [leaveIf_bind_pos small, if_pos small]
  rw [leaveIf_bind_neg small, if_neg small]
  cases getAddressRange input.data input.size with
  | none => rfl
  | some inputRange =>
    cases getArrayAddressRange fieldSlots.data count sizeofDecodedFieldSlot with
    | none => rfl
    | some slotRange =>
      by_cases shared : rangesOverlap inputRange slotRange = true
      · simp only
        rw [leaveIf_pos shared, if_pos shared]
      · simp only
        rw [leaveIf_neg shared, if_neg shared]

/-- The state a call starts from, once the raw integers of the last call are forgotten. -/
structure Started (plan : PlanBundle) (fieldSlots : FieldSlots) (state : DecodeState) :
    Prop where
  result : state.result = {}
  slots : state.slots = fieldSlots.slots
  shaped : state.workspace.ShapedFor plan
  rawCount : state.workspace.rawIntegerCount = 0

/-- A reply that only names a status. -/
theorem Started.fails {state : DecodeState} (started : Started plan fieldSlots state)
    (status : CodecStatus) :
    Replies plan input { result := { status := status }, slots := fieldSlots.slots }
      (state.fail status) := by
  refine .plain ?_ started.slots started.shaped started.rawCount rfl
  show { state.result with status := status } = _
  rw [started.result]

theorem checkDecodeCall_ends (valid : PlanValid plan) {pipelineIndex : Nat} {start : DecodeState}
    (started : Started plan fieldSlots start) :
    Ends (fun pipeline after => after = start ∧
        plan.pipelineExecutionPlans[pipelineIndex]? = some pipeline ∧
          decodeReply plan pipelineIndex input fieldSlots =
            pipelineReply plan pipeline input fieldSlots)
      (Replies plan input (decodeReply plan pipelineIndex input fieldSlots))
      (checkDecodeCall plan pipelineIndex input fieldSlots start) := by
  have scope : start.workspace.planScope = plan.address := started.shaped.planScope
  have untouched : Replies plan input { slots := fieldSlots.slots } start :=
    .plain started.result started.slots started.shaped started.rawCount rfl
  unfold checkDecodeCall
  rw [current_bind, leaveIf_bind_neg (not_not.mpr scope),
    leaveIf_bind_neg (by simp [valid.supported])]
  unfold decodeReply
  refine .leaveIf (fun null => ?_) fun present => ?_
  · rw [if_pos null]
    exact untouched
  rw [if_neg present]
  cases listed : plan.pipelineExecutionPlans[pipelineIndex]? with
  | none => exact .returned untouched
  | some pipeline =>
    simp only
    by_cases silent : isTextSchema plan.schemaVersion = true ∧ pipeline.textMessageIndices = []
    · rw [leaveIf_bind_pos silent, if_pos silent]
      exact .returned (started.fails _)
    · rw [leaveIf_bind_neg silent, if_neg silent]
      exact .done ⟨rfl, rfl, rfl⟩

theorem selectMessage_ends (valid : PlanValid plan) {pipelineIndex : Nat}
    {pipeline : PipelineExecutionPlan}
    (listed : plan.pipelineExecutionPlans[pipelineIndex]? = some pipeline) {start : DecodeState}
    (started : Started plan fieldSlots start) :
    Ends (fun chosen after => Selected plan chosen.1 fieldSlots after ∧
        plan.messageExecutionPlans[chosen.1]? = some chosen.2 ∧
          Matched plan chosen.2 input.bytes ∧ pipelineReply plan pipeline input fieldSlots =
            messageReply plan chosen.1 chosen.2 input fieldSlots)
      (Replies plan input (pipelineReply plan pipeline input fieldSlots))
      (selectMessage plan pipeline input start) := by
  obtain ⟨found, run, unique⟩ := matched_of_found valid listed input.bytes
  unfold selectMessage pipelineReply
  rw [access_bind run, run]
  simp only
  unfold matchReply
  refine .leaveIf (fun missing => ?_) fun nonempty => ?_
  · rw [if_pos missing]
    exact started.fails _
  rw [if_neg nonempty]
  refine .leaveIf (fun several => ?_) fun single => ?_
  · rw [if_pos several]
    exact started.fails _
  rw [if_neg single, update_bind]
  obtain ⟨message, placed, matched⟩ := unique (not_not.mp single)
  rw [access_bind placed, placed]
  refine .done ⟨⟨?_, started.slots, started.shaped, started.rawCount⟩, placed, matched, rfl⟩
  simp only [started.result]

theorem outputRefusal_none {count : Nat}
    (accepted : outputRefusal count input fieldSlots = none) : count ≤ fieldSlots.slots.length := by
  unfold outputRefusal at accepted
  split at accepted
  · cases accepted
  · omega

/-- A valid message that records are matched against by their bytes ends with a refusal of the
record or with what the record means. -/
theorem Matched.decodeBinary_ends (matched : Matched plan message input.bytes)
    (none : message.textDecode = none) {start : DecodeState}
    (shaped : start.workspace.ShapedFor plan)
    (room : message.fields.length ≤ start.slots.length) :
    Ends (fun _ => Decoded plan messageIndex message input start)
      (Refused plan message input.bytes start)
      (decodeBinary plan messageIndex message input start) := by
  have rule := matched.rule
  rw [matchesRecord, none, if_neg (by simp), hasShape, Bool.and_eq_true] at rule
  cases matched.valid with
  | binary valid =>
    exact Codec.decodeBinary_ends valid matched.covers matched.count rule.1 shaped room
  | text valid => exact decodeBinary_plain valid shaped room

/-- Converted fields are integers. -/
theorem Matched.converted_type (matched : Matched plan message input.bytes) :
    ∀ field ∈ message.fields, hasConversion field = true →
      field.valueType = .uint64 ∨ field.valueType = .int64 := by
  intro field member converted
  cases matched.valid with
  | text valid =>
    rw [(valid.fields field member).unconverted] at converted
    cases converted
  | binary valid =>
    obtain ⟨-, -, -, conversion, -, -, rawType, same⟩ := valid.converted field member converted
    exact same ▸ rawType

/-- The decoder gives the reply of the message it has selected. -/
theorem messageReply_ends (listed : plan.messageExecutionPlans[messageIndex]? = some message)
    (matched : Matched plan message input.bytes) {start : DecodeState}
    (selected : Selected plan messageIndex fieldSlots start) :
    Ends (fun _ => Replies plan input (messageReply plan messageIndex message input fieldSlots))
      (Replies plan input (messageReply plan messageIndex message input fieldSlots))
      ((match message.textDecode with
        | some action => do
          checkDecodeOutput message.textDecodeFieldCount input fieldSlots
          decodeText plan messageIndex message action input
        | none => do
          checkDecodeOutput message.fields.length input fieldSlots
          decodeBinary plan messageIndex message input) start) := by
  have rule := matched.rule
  cases has : message.textDecode with
  | some action =>
    simp only [matchesRecord, has, Option.isSome_some, if_true, hasText, beq_iff_eq] at rule
    have actionValid : TextActionValid message action ∧
        message.textDecodeFieldCount = (referencedFields action.segments).length := by
      cases matched.valid with
      | binary valid => exact absurd (has.symm.trans valid.noDecode) (by simp)
      | text valid => exact valid.decode action has
    have run := @checkDecodeOutput_eq input fieldSlots message.textDecodeFieldCount start
    unfold messageReply decodedCount messageRefusal messageSlots messageTainted
    simp only [has] at run ⊢
    cases output : outputRefusal message.textDecodeFieldCount input fieldSlots with
    | some status =>
      rw [output] at run
      rw [bind_of_returned run]
      refine .returned (.plain ?_ selected.slots selected.shaped selected.rawCount rfl)
      simp only [DecodeState.fail, selected.result]
    | none =>
      rw [output] at run
      have room := outputRefusal_none output
      rw [bind_of_done run, decodeText_eq actionValid.1 actionValid.2 rule (selected.slots ▸ room)]
      cases refused : textRefusal message action input.bytes with
      | some refusal =>
        refine .returned (.plain ?_ selected.slots selected.shaped selected.rawCount rfl)
        simp only [selected.result]
      | none =>
        have converted : keptIntegers plan messageIndex input.bytes = [] := by
          unfold keptIntegers
          rw [listed]
          cases matched.valid with
          | binary valid => exact absurd (has.symm.trans valid.noDecode) (by simp)
          | text valid =>
            simp only [List.map_eq_nil_iff, List.filter_eq_nil_iff]
            rintro ⟨field, index⟩ member
            have here := List.mem_of_getElem? (List.mem_zipIdx_iff_getElem?.mp member)
            simp [(valid.fields field here).unconverted]
        refine .done ⟨?_, ?_, selected.shaped, ?_⟩
        · simp only [selected.result]
        · simp only [selected.slots]
        · show ExecutionWorkspace.Reports _ plan (keptIntegers plan messageIndex input.bytes)
          rw [converted]
          exact ExecutionWorkspace.reports_nil plan selected.rawCount
  | none =>
    have run := @checkDecodeOutput_eq input fieldSlots message.fields.length start
    unfold messageReply decodedCount messageRefusal messageSlots messageTainted
    simp only [has] at run ⊢
    cases output : outputRefusal message.fields.length input fieldSlots with
    | some status =>
      rw [output] at run
      rw [bind_of_returned run]
      refine .returned (.plain ?_ selected.slots selected.shaped selected.rawCount rfl)
      simp only [DecodeState.fail, selected.result]
    | none =>
      rw [output] at run
      have room := outputRefusal_none output
      rw [bind_of_done run]
      refine (@Matched.decodeBinary_ends plan messageIndex message input matched has
        { start with result := { start.result with requiredFieldCount := message.fields.length } }
        selected.shaped (selected.slots ▸ room)).mono (fun _ state decoded => ?_)
        fun state refused => ?_
      · rw [decoded.accepted]
        refine ⟨?_, ?_, decoded.shaped, ?_⟩
        · rw [decoded.result, selected.result]
        · rw [decoded.slots, selected.slots]
        · exact reports_of_kept decoded.shaped listed matched.converted_type decoded.rawCount
            decoded.rawMessage decoded.kept
      · obtain ⟨refusal, explained, result⟩ := refused.refusal
        rw [explained]
        refine .plain ?_ (refused.slots.trans selected.slots) refused.shaped
          (refused.rawCount.trans selected.rawCount) rfl
        rw [result, selected.result]

/-- The decoder gives its reply. -/
theorem decodeLeased_ends (valid : PlanValid plan) {pipelineIndex : Nat} {start : DecodeState}
    (fresh : start.result = {}) (slots : start.slots = fieldSlots.slots)
    (shaped : start.workspace.ShapedFor plan) :
    Ends (fun _ => Replies plan input (decodeReply plan pipelineIndex input fieldSlots))
      (Replies plan input (decodeReply plan pipelineIndex input fieldSlots))
      (decodeLeased plan pipelineIndex input fieldSlots start) := by
  unfold decodeLeased
  rw [update_bind]
  refine .bind (checkDecodeCall_ends valid ⟨fresh, slots, { shaped with }, rfl⟩) ?_
  rintro pipeline after ⟨rfl, listed, reply⟩
  rw [reply]
  refine .bind (selectMessage_ends valid listed ⟨fresh, slots, { shaped with }, rfl⟩) ?_
  rintro ⟨messageIndex, message⟩ after ⟨selected, placed, matched, reply⟩
  rw [reply]
  exact messageReply_ends placed matched selected

/-- Whatever an idle workspace of the plan holds, a call gives its reply, leaves the
workspace idle, and keeps the raw integers of the reply. -/
theorem decodeCompleteRecord_replies (valid : PlanValid plan) {workspace : ExecutionWorkspace}
    (idle : workspace.IdleFor plan) (pipelineIndex : Nat) (input : ByteView)
    (fieldSlots : FieldSlots) :
    ∃ call, decodeCompleteRecord plan workspace pipelineIndex input fieldSlots = some call ∧
      call.result = (decodeReply plan pipelineIndex input fieldSlots).result ∧
      call.slots = (decodeReply plan pipelineIndex input fieldSlots).slots ∧
      call.workspace.IdleFor plan ∧ call.workspace.Reports plan
        ((decodeReply plan pipelineIndex input fieldSlots).rawIntegers plan input.bytes) := by
  unfold decodeCompleteRecord
  rw [if_neg (by simp [idle.notInUse])]
  have run := @decodeLeased_ends plan input fieldSlots valid pipelineIndex
    ⟨{ workspace with inUse := true }, fieldSlots.slots, {}⟩ rfl rfl { idle with notInUse := rfl }
  simp only
  cases outcome : decodeLeased plan pipelineIndex input fieldSlots
      ⟨{ workspace with inUse := true }, fieldSlots.slots, {}⟩ with
  | outOfRange => rw [outcome] at run; cases run
  | returned state =>
    rw [outcome] at run
    cases run with
    | returned replies =>
      exact ⟨_, rfl, replies.result, replies.slots, { replies.shaped with }, replies.reports⟩
  | done value state =>
    rw [outcome] at run
    cases run with
    | done replies =>
      exact ⟨_, rfl, replies.result, replies.slots, { replies.shaped with }, replies.reports⟩

end

end ProtocolAdapter.Codec
