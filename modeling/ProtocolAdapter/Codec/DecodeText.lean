/-
This file runs the decoder on a text record. The walk over the template finds the places
of the fields; a valid record leaves their slots behind, and a record with a character
that its field does not allow is refused.
-/

import ProtocolAdapter.Codec.DecodeBinary
import ProtocolAdapter.Codec.Matching

namespace ProtocolAdapter.Codec

open Foundation Foundation.Operation

/-! ### The meaning of a text record -/

/-- Where a field of a text record stands. -/
structure TextPlace where
  fieldIndex : Nat
  offset : Nat
  length : Nat
  deriving DecidableEq

/-- A visitor that notes where the fields stand. -/
def collectPlace (places : List TextPlace) (fieldIndex offset length : Nat) :
    Access (List TextPlace × Bool) :=
  some (places ++ [⟨fieldIndex, offset, length⟩], true)

/-- The places of the fields of a text record. -/
def textPlaces (message : MessageExecutionPlan) (action : TextActionExecutionPlan)
    (record : List UInt8) : List TextPlace :=
  match walkTextAction action message record false collectPlace [] with
  | some (_, places) => places
  | none => []

/-- How the walk that checks the characters of a record ends. -/
def textVerdict (message : MessageExecutionPlan) (action : TextActionExecutionPlan)
    (record : List UInt8) : TextWalkStatus :=
  match walkTextAction action message record true acceptField () with
  | some (status, _) => status
  | none => .invalidPlan

/-- The slot of a text field. -/
def textSlot (plan : PlanBundle) (messageIndex : Nat) (input : ByteView) (place : TextPlace) :
    DecodedFieldSlot :=
  { field := ⟨plan.address, messageIndex, place.fieldIndex⟩
    valueKind := .bytes
    bytesValue := subView input place.offset place.length }

/-- The decoded fields of a text record. -/
def textSlots (plan : PlanBundle) (messageIndex : Nat) (message : MessageExecutionPlan)
    (action : TextActionExecutionPlan) (input : ByteView) : List DecodedFieldSlot :=
  (textPlaces message action input.bytes).map (textSlot plan messageIndex input)

/-- Why a text record is refused. -/
def textRefusal (message : MessageExecutionPlan) (action : TextActionExecutionPlan)
    (record : List UInt8) : Option Refusal :=
  if textVerdict message action record = .match then none
  else some { status := textWalkFailure (textVerdict message action record) }

/-! ### The walks -/

section

variable {plan : PlanBundle} {messageIndex : Nat} {message : MessageExecutionPlan}
  {action : TextActionExecutionPlan} {input : ByteView}

theorem textVerdict_eq (valid : TextActionValid message action) (record : List UInt8) :
    walkTextAction action message record true acceptField () =
      some (textVerdict message action record, ()) ∧
        textVerdict message action record ≠ .invalidPlan := by
  obtain ⟨status, walked, planned⟩ := @walkTextAction_accepts message record true action valid
  have same : textVerdict message action record = status := by
    unfold textVerdict
    rw [walked]
  exact ⟨same ▸ walked, same ▸ planned⟩

/-- The places of a record that matches: one for each field of the template, inside the
record. -/
theorem textPlaces_eq (valid : TextActionValid message action) {record : List UInt8}
    (matched : walkTextAction action message record false acceptField () = some (.match, ())) :
    walkTextAction action message record false collectPlace [] =
        some (.match, textPlaces message action record) ∧
      (textPlaces message action record).map (·.fieldIndex) = referencedFields action.segments ∧
        ∀ place ∈ textPlaces message action record,
          place.offset + place.length ≤ record.length := by
  obtain ⟨status, _, places, walked, collected, -, whole, -⟩ :=
    @walkTextAction_alike Unit (List TextPlace) message record acceptField collectPlace False false
      action (fun visited _ places => places.map (·.fieldIndex) =
        (referencedFields action.segments).take visited ∧
          ∀ place ∈ places, place.offset + place.length ≤ record.length) () [] valid
      ⟨rfl, nofun⟩ (by
        rintro visited fieldIndex offset length found inside left places ⟨indices, within⟩
        refine ⟨(), _, true, rfl, rfl, fun _ => ⟨?_, ?_⟩, Bool.noConfusion, Bool.noConfusion⟩
        · rw [List.map_append, indices, List.take_add_one, found]
          rfl
        · intro place member
          rcases List.mem_append.mp member with member | member
          · exact within place member
          · rw [List.mem_singleton.mp member]
            exact inside)
  have ended := Option.some.inj (matched.symm.trans walked)
  obtain rfl : TextWalkStatus.match = status := congrArg Prod.fst ended
  have same : textPlaces message action record = places := by
    unfold textPlaces
    rw [collected]
  obtain ⟨indices, within⟩ := whole rfl
  rw [List.take_length] at indices
  exact ⟨same ▸ collected, same ▸ indices, same ▸ within⟩

/-- The walk that fills the slots fills one for each place. -/
theorem materializeText_eq (valid : TextActionValid message action)
    (matched : walkTextAction action message input.bytes false acceptField () =
      some (.match, ())) {slots : List DecodedFieldSlot} {count : Nat}
    (counted : count = (referencedFields action.segments).length) (room : count ≤ slots.length) :
    walkTextAction action message input.bytes false (materializeText plan messageIndex count input)
        (slots, 0) =
      some (.match,
        textSlots plan messageIndex message action input ++ slots.drop count, count) := by
  obtain ⟨collected, indices, -⟩ := textPlaces_eq valid matched
  obtain ⟨status, places, ⟨filled, written⟩, left, right, -, whole, -⟩ :=
    @walkTextAction_alike (List TextPlace) (List DecodedFieldSlot × Nat) message input.bytes
      collectPlace (materializeText plan messageIndex count input) False false action
      (fun visited places progress => places.length = visited ∧ progress.2 = visited ∧
        progress.1 = places.map (textSlot plan messageIndex input) ++ slots.drop visited)
      [] (slots, 0) valid ⟨rfl, rfl, rfl⟩ (by
        rintro visited fieldIndex offset length found - places ⟨filled, written⟩
          ⟨many, same, held⟩
        simp only at same held
        subst same
        have inside : written < count := by
          rw [counted]
          exact (List.getElem?_eq_some_iff.mp found).1
        have within : written < filled.length := by
          rw [held, List.length_append, List.length_map, List.length_drop, many]
          omega
        refine ⟨_, (filled.set written (textSlot plan messageIndex input
            ⟨fieldIndex, offset, length⟩), written + 1), true, rfl, ?_, fun _ => ⟨?_, rfl, ?_⟩,
          Bool.noConfusion, Bool.noConfusion⟩
        · unfold materializeText
          simp only
          rw [if_neg (by omega), setElement_eq _ within]
          rfl
        · rw [List.length_append, many]
          rfl
        · have next : (places ++ [(⟨fieldIndex, offset, length⟩ : TextPlace)])[written]? =
              some ⟨fieldIndex, offset, length⟩ := by
            rw [List.getElem?_append_right many.le, many, Nat.sub_self]
            rfl
          have head : (places ++ [(⟨fieldIndex, offset, length⟩ : TextPlace)]).take written =
              places := List.take_left' many
          have set := @set_take_append_drop _ ((places ++
            [(⟨fieldIndex, offset, length⟩ : TextPlace)]).map (textSlot plan messageIndex input))
            slots written _
            (by rw [List.getElem?_map, next]; rfl) (inside.trans_le room)
          rw [← List.map_take, head, List.take_of_length_le (by simp [many])] at set
          rw [held]
          exact set)
  have ended := Option.some.inj (collected.symm.trans left)
  obtain rfl : TextWalkStatus.match = status := congrArg Prod.fst ended
  obtain rfl : textPlaces message action input.bytes = places := congrArg Prod.snd ended
  obtain ⟨-, last, held⟩ := whole rfl
  simp only at last held
  rw [right, held, last, ← counted]
  rfl

/-! ### The record -/

/-- The decoder refuses a text record, or leaves behind what it means. -/
theorem decodeText_eq (valid : TextActionValid message action)
    (counted : message.textDecodeFieldCount = (referencedFields action.segments).length)
    (matched : walkTextAction action message input.bytes false acceptField () =
      some (.match, ())) {start : DecodeState}
    (room : message.textDecodeFieldCount ≤ start.slots.length) :
    decodeText plan messageIndex message action input start =
      match textRefusal message action input.bytes with
      | some refusal => .returned { start with result := refusal.report start.result }
      | none => .done () { start with
          slots := textSlots plan messageIndex message action input ++
            start.slots.drop message.textDecodeFieldCount
          result := { start.result with
            status := .ok, fieldCount := message.textDecodeFieldCount
            failedFieldIndex := invalidIndex, tainted := false } } := by
  obtain ⟨walked, -⟩ := textVerdict_eq valid input.bytes
  unfold decodeText textRefusal
  simp only
  rw [access_bind walked]
  simp only
  by_cases verdict : textVerdict message action input.bytes = .match
  · rw [if_pos verdict, leaveIf_bind_neg (not_not.mpr verdict), current_bind,
      access_bind (materializeText_eq valid matched counted room)]
    simp only
    rw [update_bind, leaveIf_bind_neg (by simp)]
    rfl
  · rw [if_neg verdict, leaveIf_bind_pos verdict]
    rfl

/-! ### Messages without an action -/

theorem TextValid.recordRefusal_eq (valid : TextValid plan.schemaVersion message)
    (record : List UInt8) : recordRefusal plan message record = none := by
  unfold recordRefusal statesLength carriesChecksum
  rw [valid.noLength, valid.noIntegrity, if_neg (by simp), if_neg (by simp)]
  refine findSome_zipIdx_eq_none fun index field found => ?_
  have facts := valid.fields field (List.mem_of_getElem? found)
  simp [fieldRefusal, isUnknown, facts.unconverted, facts.type]

/-- The values of a text message need no check. -/
theorem TextValid.precheck_eq (valid : TextValid plan.schemaVersion message)
    (start : DecodeState) :
    message.fields.zipIdx.foldlM (precheckField plan message input) {} start =
      .done {} start := by
  have version : isConversionSchema plan.schemaVersion = false := by
    have text := valid.schema
    simp only [isTextSchema, Bool.or_eq_true, beq_iff_eq] at text
    rcases text with text | text <;> rw [text] <;> decide
  have step : ∀ item ∈ message.fields.zipIdx, ∀ state : DecodeState,
      precheckField plan message input {} item state = .done {} state := by
    rintro ⟨field, index⟩ member state
    have facts := valid.fields field (List.mem_of_getElem?
      (List.mem_zipIdx_iff_getElem?.mp member))
    unfold precheckField
    simp only
    rw [leaveIf_bind_neg (by simp [version]), if_neg (by simp [version]),
      if_pos (by simp [facts.type])]
    rfl
  generalize message.fields.zipIdx = items at step ⊢
  induction items generalizing start with
  | nil => rfl
  | cons item rest inductionHypothesis =>
    rw [List.foldlM_cons, bind_of_done (step item List.mem_cons_self start)]
    exact inductionHypothesis start fun other member =>
      step other (List.mem_cons_of_mem _ member)

/-- The slot of a text field that no walk has placed. -/
theorem TextValid.fieldSlot_eq (valid : TextValid plan.schemaVersion message) {index : Nat}
    {field : FieldExecutionPlan} (found : message.fields[index]? = some field)
    (state : DecodeState) : fieldSlot plan messageIndex message input index field state =
      .done (decodedSlot plan messageIndex message input index field) state := by
  have facts := valid.fields field (List.mem_of_getElem? found)
  unfold fieldSlot decodedSlot byteCount byteLength isPayload
  rw [facts.unconverted, facts.type, valid.noPayload]
  rfl

/-- A text message without an action has no bytes of its own to read. -/
theorem decodeBinary_plain (valid : TextValid plan.schemaVersion message) {start : DecodeState}
    (shaped : start.workspace.ShapedFor plan)
    (room : message.fields.length ≤ start.slots.length) :
    Ends (fun _ => Decoded plan messageIndex message input start)
      (Refused plan message input.bytes start)
      (decodeBinary plan messageIndex message input start) := by
  have plain : computedLengthDescriptorValid message = true := by
    unfold computedLengthDescriptorValid
    rw [valid.noLength]
    exact List.all_eq_true.mpr fun field member => by simp [(valid.fields field member).source]
  have checks : checkRecord message input start = .done () start := by
    unfold checkRecord
    rw [plain]
    unfold computedLengthMatches integrityMatches integrityDescriptorValid
    rw [valid.noLength, valid.noIntegrity]
    rfl
  have loads : loadContainers message input start = .done () start := by
    unfold loadContainers
    rw [valid.noContainers]
    rfl
  have none : message.fields.countP hasConversion = 0 :=
    List.countP_eq_zero.mpr fun field member => by simp [(valid.fields field member).unconverted]
  have known : message.fields.any (isUnknown message input.bytes) = false := by
    rw [List.any_eq_false]
    intro field member
    simp [isUnknown, (valid.fields field member).type]
  have slots : Ends (fun _ => Materialized plan messageIndex message input start
      message.fields.length) (Refused plan message input.bytes start) (message.fields.zipIdx.forM
        (materializeField plan messageIndex message input) start) :=
    materializeLoop_ends (fun index field found before _ => valid.fieldSlot_eq found before) room
  unfold decodeBinary
  rw [bind_of_done checks, bind_of_done loads, bind_of_done (valid.precheck_eq start)]
  refine .bind slots fun _ filledState filled => ?_
  unfold publish
  rw [update_bind, update_apply]
  have whole : (decodedSlots plan messageIndex message input).length = message.fields.length := by
    rw [decodedSlots, List.length_mapIdx]
  refine .done ⟨valid.recordRefusal_eq _, ?_, ?_, ?_, none.symm, rfl, fun index field found
    converted => ?_⟩
  · simp only [filled.result, known]
  · show filledState.slots = _
    rw [filled.slots, List.take_of_length_le whole.le]
  · have shape := filled.workspace ▸ shaped
    exact { shape with }
  · rw [(valid.fields field (List.mem_of_getElem? found)).unconverted] at converted
    cases converted

end

end ProtocolAdapter.Codec
