/-
This file puts text records together again: a record the decoder accepts, and a record the
encoder writes, is the segments of its template behind each other, with the bytes decoded or
supplied for the fields of the template and for no others.
-/

import ProtocolAdapter.Codec.EncodeForm
import ProtocolAdapter.Codec.EncodeOrder

namespace ProtocolAdapter.Codec

open Foundation Foundation.Operation Foundation.Bytes

/-! ### Parts -/

/-- The bytes of a field among the parts of a record, which are fields with their bytes. -/
def partBytes (parts : List (Nat × List UInt8)) (fieldIndex : Nat) : List UInt8 :=
  ((parts.find? fun part => part.1 = fieldIndex).map Prod.snd).getD []

/-- The bytes a segment stands for. -/
def segmentContent (parts : List (Nat × List UInt8)) (segment : TextSegmentExecutionPlan) :
    List UInt8 :=
  match segment.kind with
  | .literal => segment.literal
  | .field => partBytes parts segment.fieldIndex

/-- A record put together from parts by a template. -/
structure Composed (message : MessageExecutionPlan) (action : TextActionExecutionPlan)
    (parts : List (Nat × List UInt8)) (record : List UInt8) : Prop where
  content : record = action.segments.flatMap (segmentContent parts)
  least : action.minRecordLength ≤ record.length
  most : record.length ≤ action.maxRecordLength
  used : ∀ fieldIndex, fieldIndex ∈ parts.map Prod.fst ↔
    fieldIndex ∈ referencedFields action.segments
  distinct : (parts.map Prod.fst).Nodup
  lengths : ∀ part ∈ parts, ∃ field, message.fields[part.1]? = some field ∧
    field.textMinLength ≤ part.2.length ∧ part.2.length ≤ field.textMaxLength

/-- A part by its field. -/
theorem partBytes_of_mem {parts : List (Nat × List UInt8)} (distinct : (parts.map Prod.fst).Nodup)
    {part : Nat × List UInt8} (member : part ∈ parts) : partBytes parts part.1 = part.2 := by
  unfold partBytes
  cases found : parts.find? fun other => other.1 = part.1 with
  | none =>
    have none' := List.find?_eq_none.mp found part member
    exact absurd (decide_eq_true rfl) none'
  | some other =>
    have holds := @List.find?_some _ _ _ _ found
    have same : other.1 = part.1 := of_decide_eq_true holds
    rw [List.inj_on_of_nodup_map distinct (List.mem_of_find?_eq_some found) member same]
    rfl

section

variable {message : MessageExecutionPlan} {parts : List (Nat × List UInt8)}

/-- A text that parses is its segments behind each other, with the bytes at their places. -/
theorem Parses.content {offset : Nat} {segments : List TextSegmentExecutionPlan}
    {text : List UInt8} {places : List TextPlace}
    (parse : Parses message offset segments text places) :
    ∀ {whole : List UInt8}, whole.drop offset = text →
      (∀ place ∈ places, partBytes parts place.fieldIndex = slice whole place.offset place.length) →
        text = segments.flatMap (segmentContent parts) := by
  induction parse with
  | done => exact fun _ _ => rfl
  | @literal offset segment rest text places kind _ inductionHypothesis =>
    intro whole behind each
    have content : segmentContent parts segment = segment.literal := by
      unfold segmentContent
      rw [kind]
    have later := inductionHypothesis (by rw [← List.drop_drop, behind, List.drop_left]) each
    rw [List.flatMap_cons, content, ← later]
  | @field offset segment rest bytes text places field kind _ _ _ inductionHypothesis =>
    intro whole behind each
    have content : segmentContent parts segment = bytes := by
      unfold segmentContent
      rw [kind]
      have first := each _ List.mem_cons_self
      simp only [slice, behind, List.take_left] at first
      exact first
    have later := inductionHypothesis (by rw [← List.drop_drop, behind, List.drop_left])
      fun place member => each place (List.mem_cons_of_mem _ member)
    rw [List.flatMap_cons, content, ← later]

/-- The places of a parse are those of fields, with admitted lengths inside the text. -/
theorem Parses.places {offset : Nat} {segments : List TextSegmentExecutionPlan}
    {text : List UInt8} {places : List TextPlace}
    (parse : Parses message offset segments text places) :
    places.map (·.fieldIndex) = referencedFields segments ∧
      ∀ place ∈ places, place.offset + place.length ≤ offset + text.length ∧
        ∃ field, message.fields[place.fieldIndex]? = some field ∧
          field.textMinLength ≤ place.length ∧ place.length ≤ field.textMaxLength := by
  induction parse with
  | done => exact ⟨rfl, nofun⟩
  | @literal offset segment rest text places kind _ inductionHypothesis =>
    obtain ⟨indices, each⟩ := inductionHypothesis
    refine ⟨by simpa [referencedFields, kind] using indices, fun place member => ?_⟩
    obtain ⟨inside, field⟩ := each place member
    rw [List.length_append, ← Nat.add_assoc]
    exact ⟨inside, field⟩
  | @field offset segment rest bytes text places field kind found takes _ inductionHypothesis =>
    obtain ⟨indices, each⟩ := inductionHypothesis
    refine ⟨by simpa [referencedFields, kind] using indices, fun place member => ?_⟩
    rw [List.length_append, ← Nat.add_assoc]
    rcases List.mem_cons.mp member with rfl | later
    · exact ⟨Nat.le_add_right _ _, field, found, takes.minimum, takes.maximum⟩
    · exact each place later

end

/-! ### Decoded records -/

section

variable {plan : PlanBundle} {message : MessageExecutionPlan} {action : TextActionExecutionPlan}

/-- The parts of a record at places. -/
def placedParts (record : List UInt8) (places : List TextPlace) : List (Nat × List UInt8) :=
  places.map fun place => (place.fieldIndex, slice record place.offset place.length)

/-- A record that parses is put together from the bytes at its places. -/
theorem composed_of_parses (valid : TextActionValid message action)
    (lengths : TextLengths message action) {record : List UInt8} {places : List TextPlace}
    (parse : Parses message 0 action.segments record places) :
    Composed message action (placedParts record places) record := by
  obtain ⟨indices, each⟩ := parse.places
  have bounds := parse.length
  rw [← lengths.minimum, ← lengths.maximum] at bounds
  have firsts : (placedParts record places).map Prod.fst = referencedFields action.segments := by
    rw [← indices, placedParts, List.map_map]
    rfl
  have distinct : ((placedParts record places).map Prod.fst).Nodup := by
    rw [firsts]
    exact valid.walkable.distinct
  refine ⟨parse.content rfl fun place member => ?_, bounds.1, bounds.2, fun fieldIndex => ?_,
    distinct, fun part member => ?_⟩
  · exact partBytes_of_mem distinct (List.mem_map.mpr ⟨place, member, rfl⟩)
  · rw [firsts]
  · obtain ⟨place, there, rfl⟩ := List.mem_map.mp member
    obtain ⟨inside, field, found, least, most⟩ := each place there
    rw [Nat.zero_add] at inside
    refine ⟨field, found, ?_⟩
    simp only [slice_length inside]
    exact ⟨least, most⟩

/-- An accepted call decodes the message it names. -/
theorem decodeReply_message (valid : PlanValid plan) {pipelineIndex : Nat} {input : ByteView}
    {fieldSlots : FieldSlots}
    (ok : (decodeReply plan pipelineIndex input fieldSlots).result.status = .ok) :
    ∃ messageIndex message, plan.messageExecutionPlans[messageIndex]? = some message ∧
      Matched plan message input.bytes ∧
      decodeReply plan pipelineIndex input fieldSlots =
        messageReply plan messageIndex message input fieldSlots := by
  unfold decodeReply at ok ⊢
  split at ok
  · cases ok
  rename_i present
  rw [if_neg present]
  split at ok
  · cases ok
  rename_i pipeline compiled
  split at ok
  · cases ok
  rename_i supported
  simp only [if_neg supported]
  obtain ⟨found, run, unique⟩ := matched_of_found valid compiled input.bytes
  unfold pipelineReply matchReply at ok ⊢
  simp only [run] at ok ⊢
  split at ok
  · cases ok
  rename_i nonempty
  rw [if_neg nonempty]
  split at ok
  · cases ok
  rename_i single
  rw [if_neg single]
  obtain ⟨message, held, matched⟩ := unique (not_not.mp single)
  rw [held]
  exact ⟨_, message, held, matched, rfl⟩

/-- The fields with their bytes, in the order of the slots. -/
def slotParts (slots : List DecodedFieldSlot) : List (FieldRef × List UInt8) :=
  slots.map fun slot => (slot.field, slot.bytesValue.bytes)

/-- The parts of a record, with the references of the fields of a message. -/
def referParts (plan : PlanBundle) (messageIndex : Nat) (parts : List (Nat × List UInt8)) :
    List (FieldRef × List UInt8) :=
  parts.map fun part => (⟨some plan.address, messageIndex, part.1⟩, part.2)

/-- A decoded text record is put together from its decoded fields. -/
theorem decoded_composed (valid : PlanValid plan) (counted : PlanCounted plan)
    {pipelineIndex : Nat} {input : ByteView} {fieldSlots : FieldSlots}
    (declared : ∀ message ∈ plan.messageExecutionPlans,
      message.textDecode ≠ none ∨ message.textEncode ≠ none)
    (ok : (decodeReply plan pipelineIndex input fieldSlots).result.status = .ok) :
    let reply := decodeReply plan pipelineIndex input fieldSlots
    ∃ message action parts,
      plan.messageExecutionPlans[reply.result.messageIndex]? = some message ∧
      message.textDecode = some action ∧ Composed message action parts input.bytes ∧
      slotParts (reply.slots.take reply.result.fieldCount) =
        referParts plan reply.result.messageIndex parts := by
  obtain ⟨messageIndex, message, listed, matched, same⟩ := decodeReply_message valid ok
  have member := List.mem_of_getElem? listed
  obtain ⟨action, has⟩ : ∃ action, message.textDecode = some action := by
    have decodable := matched.decodable
    cases decode : message.textDecode with
    | some action => exact ⟨action, rfl⟩
    | none =>
      rw [isDecodable, decode, Option.isSome_none, Bool.false_or, Option.isNone_iff_eq_none]
        at decodable
      rcases declared message member with some' | some'
      · exact absurd decode some'
      · exact absurd decodable some'
  have text := (valid.messages message member).text_of_action (.inl has)
  obtain ⟨actionValid, fieldCount⟩ := text.decode action has
  have lengths := counted message member action (.inl has)
  rw [same] at ok
  simp only [same]
  unfold messageReply at ok ⊢
  cases room : outputRefusal (decodedCount message) input fieldSlots with
  | some status =>
    simp only [room] at ok
    exact absurd ok (outputRefusal_ne_ok room)
  | none =>
  cases accepted : messageRefusal plan message input.bytes with
  | some refusal =>
    simp only [room, accepted, Refusal.report] at ok
    simp only [messageRefusal, has, textRefusal] at accepted
    split at accepted
    · cases accepted
    rename_i differs
    obtain rfl := Option.some.inj accepted
    have planned := (textVerdict_eq actionValid input.bytes).2
    revert ok differs planned
    cases textVerdict message action input.bytes <;> simp [textWalkFailure]
  | none =>
  simp only [room]
  have verdict : textVerdict message action input.bytes = .match := by
    simp only [messageRefusal, has, textRefusal] at accepted
    by_contra differs
    rw [if_neg differs] at accepted
    cases accepted
  have parse := textPlaces_parses actionValid lengths verdict
  have indices := parse.places.1
  have count : decodedCount message = (textPlaces message action input.bytes).length := by
    rw [decodedCount, has]
    simp only
    rw [fieldCount, ← indices, List.length_map]
  have slots : messageSlots plan messageIndex message input =
      (textPlaces message action input.bytes).map (textSlot plan messageIndex input) := by
    rw [messageSlots, has]
    rfl
  refine ⟨message, action, placedParts input.bytes (textPlaces message action input.bytes), listed,
    has, composed_of_parses actionValid lengths parse, ?_⟩
  rw [slots, count, List.take_left' (List.length_map _), slotParts, referParts, placedParts,
    List.map_map, List.map_map]
  rfl

/-! ### Encoded records -/

/-- The parts of a record that values ask for. -/
def valueParts (values : List EncodeFieldValue) : List (Nat × List UInt8) :=
  values.map fun value => (value.field.fieldIndex, value.bytesValue.bytes)

theorem partBytes_valueParts (values : List EncodeFieldValue) (fieldIndex : Nat) :
    partBytes (valueParts values) fieldIndex = suppliedBytes values fieldIndex := by
  have found : ((valueParts values).find? fun part => part.1 = fieldIndex) =
      (values.find? (isFor fieldIndex)).map fun value =>
        (value.field.fieldIndex, value.bytesValue.bytes) := List.find?_map
  rw [partBytes, found, suppliedBytes, valueFor]
  cases values.find? (isFor fieldIndex) with
  | none => rfl
  | some value => rfl

/-- The values of accepted inputs of a text message are for the fields of its template. -/
theorem placed_text {values : List EncodeFieldValue} {messageIndex : Nat}
    (text : TextValid plan.schemaVersion message)
    (accepted : inputsFailure plan messageIndex message values = none) :
    (∀ value ∈ values, ∃ field, message.fields[value.field.fieldIndex]? = some field ∧
      field.textEncodeInput = true ∧
      value.field = ⟨some plan.address, messageIndex, value.field.fieldIndex⟩) ∧
      (values.map (·.field.fieldIndex)).Nodup ∧
      ∀ (index : Nat) field, message.fields[index]? = some field → field.textEncodeInput = true →
        ∃ value ∈ values, value.field.fieldIndex = index := by
  obtain ⟨placed, present, -⟩ := inputsFailure_eq_none.mp accepted
  obtain ⟨alone, distinct⟩ := placed_iff.mp placed
  refine ⟨fun value member => ?_, distinct, fun index field found input => ?_⟩
  · have status := alone value member
    unfold placementStatus referencedField at status
    split at status
    · cases status
    rename_i field there
    split at there
    · cases there
    rename_i own
    rw [not_or, not_not, not_not] at own
    split at status
    · cases status
    rename_i input
    refine ⟨field, there, ?_, ?_⟩
    · simpa [text.schema] using input
    · rw [← own.1, ← own.2]
  · have supplied := present index field found (by rw [takesInput_text text.schema]; exact input)
    obtain ⟨value, member, own⟩ := List.any_eq_true.mp supplied
    exact ⟨value, member, of_decide_eq_true own⟩

/-- An encoded text record is put together from the values supplied for it. -/
theorem encoded_composed (valid : PlanValid plan) (counted : PlanCounted plan)
    {pipelineIndex messageIndex : Nat} {values : EncodeValues} {output : MutableByteBuffer}
    (version : isTextSchema plan.schemaVersion = true)
    (input : ∀ message ∈ plan.messageExecutionPlans, ∀ action, message.textEncode = some action →
      ∀ (index : Nat) field, message.fields[index]? = some field →
        field.textEncodeInput = true → index ∈ referencedFields action.segments)
    (ok : (encodeReply plan pipelineIndex messageIndex values output).result.status = .ok) :
    let reply := encodeReply plan pipelineIndex messageIndex values output
    ∃ message action, plan.messageExecutionPlans[messageIndex]? = some message ∧
      message.textEncode = some action ∧
      Composed message action (valueParts values.values)
        (reply.output.take reply.result.bytesWritten) ∧
      (values.values.map fun value => (value.field, value.bytesValue.bytes)) =
        referParts plan messageIndex (valueParts values.values) := by
  rcases @encodeReply_reaches plan pipelineIndex messageIndex values with
    ⟨failure, refused⟩ | ⟨message, listed, accepted, supported, -⟩
  · have status := refused.status
    rw [refused.same] at ok
    simp only at ok
    rw [ok] at status
    simp [callStatuses, valueStatuses] at status
  obtain ⟨action, has⟩ := Option.ne_none_iff_exists'.mp fun none' => supported ⟨version, none'⟩
  have listedMember := List.mem_of_getElem? listed
  have text := (valid.messages message listedMember).text_of_action (.inr has)
  obtain ⟨actionValid, inputs⟩ := text.encode action has
  have lengths := counted message listedMember action (.inr has)
  rcases @encodeReply_text plan pipelineIndex messageIndex message values valid counted listed
    action has with ⟨failure, refused⟩ | ⟨taken, terminated, writes⟩
  · have status := refused.status
    rw [refused.same] at ok
    simp only at ok
    rw [ok] at status
    simp [callStatuses, valueStatuses] at status
  have written : (encodeReply plan pipelineIndex messageIndex values output).output.take
      (encodeReply plan pipelineIndex messageIndex values output).result.bytesWritten =
        textRecord values.values action.segments := by
    rw [writes] at ok ⊢
    split at ok
    · rename_i failure memory
      exact absurd ok (textMemoryFailure_refuses memory).status
    · rename_i memory
      exact List.take_left' rfl
  obtain ⟨references, distinct, all⟩ := placed_text text accepted
  have bounds := textReply_terminated actionValid taken terminated lengths text.frameBound rfl
    output
  have firsts : (valueParts values.values).map Prod.fst =
      values.values.map (·.field.fieldIndex) := by
    rw [valueParts, List.map_map]
    rfl
  simp only [written]
  refine ⟨message, action, listed, has, ⟨?_, bounds.1, bounds.2.1, fun fieldIndex => ?_,
    firsts ▸ distinct, fun part member => ?_⟩, ?_⟩
  · refine List.flatMap_congr fun segment _ => ?_
    unfold suppliedSegment segmentContent
    cases segment.kind with
    | literal => rfl
    | field => exact (partBytes_valueParts values.values segment.fieldIndex).symm
  · rw [firsts, List.mem_map]
    constructor
    · rintro ⟨value, there, rfl⟩
      obtain ⟨field, found, takes, -⟩ := references value there
      exact input message listedMember action has _ field found takes
    · intro used
      obtain ⟨field, found, takes⟩ := inputs fieldIndex used
      exact all fieldIndex field found takes
  · obtain ⟨value, there, rfl⟩ := List.mem_map.mp member
    obtain ⟨field, found, takes, -⟩ := references value there
    obtain ⟨other, same, least, most, -⟩ :=
      taken _ (input message listedMember action has _ field found takes)
    obtain rfl := Option.some.inj (found.symm.trans same)
    have own : partBytes (valueParts values.values) value.field.fieldIndex =
        value.bytesValue.bytes := partBytes_of_mem (firsts ▸ distinct) member
    rw [partBytes_valueParts] at own
    rw [own] at least most
    exact ⟨field, found, least, most⟩
  · rw [referParts, valueParts, List.map_map]
    refine List.map_congr_left fun value there => ?_
    obtain ⟨-, -, -, same⟩ := references value there
    exact Prod.ext same rfl

end

end ProtocolAdapter.Codec
