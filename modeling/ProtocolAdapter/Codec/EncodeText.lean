/-
This file shows that the encoder writes the segments of a text record behind each other, and
that how the call ends depends on the values and the memory of the caller alone.
-/

import ProtocolAdapter.Codec.EncodeReview
import ProtocolAdapter.Codec.TextSafety

namespace ProtocolAdapter.Codec

open Foundation Foundation.Operation Foundation.Bytes

/-! ### The record -/

/-- The bytes of a segment of the record that values ask for. -/
def suppliedSegment (values : List EncodeFieldValue) (segment : TextSegmentExecutionPlan) :
    List UInt8 :=
  match segment.kind with
  | .literal => segment.literal
  | .field => (valueFor values segment.fieldIndex).bytesValue.bytes

/-- The text record that values ask for. -/
def textRecord (values : List EncodeFieldValue) (segments : List TextSegmentExecutionPlan) :
    List UInt8 :=
  segments.flatMap (suppliedSegment values)

/-- The length of a text record behind a number of bytes, or how the values are refused: a
record cannot be taken apart again when a value does not end at the literal behind it. -/
def textSize (message : MessageExecutionPlan) (values : List EncodeFieldValue) :
    List TextSegmentExecutionPlan → Nat → Except EncodeResult Nat
  | [], size => .ok size
  | segment :: rest, size =>
    let bytes := suppliedSegment values segment
    if bytes.length > maxUint64 - size then .error { status := .invalidPlan }
    else if segment.kind = .field ∧ terminatorConflicts
        (message.fields.getD segment.fieldIndex {}) bytes rest = some true then
      .error { status := .asciiTerminatorConflict, failedFieldIndex := segment.fieldIndex }
    else textSize message values rest (size + bytes.length)

/-- Whether the place of a field in a record has the bytes supplied for it. -/
def reviewSupplied (values : List EncodeFieldValue) (record : List UInt8) (_ : Unit)
    (fieldIndex offset length : Nat) : Access (Unit × Bool) :=
  let bytes := (valueFor values fieldIndex).bytesValue.bytes
  some ((), bytes.length == length && slice record offset length == bytes)

/-- How the review of a text record ends. -/
def textReview (message : MessageExecutionPlan) (action : TextActionExecutionPlan)
    (values : List EncodeFieldValue) : TextWalkStatus :=
  let record := textRecord values action.segments
  match walkTextAction action message record true (reviewSupplied values record) () with
  | some (status, _) => status
  | none => .invalidPlan

/-- The reply for accepted values of a text message. -/
def textReply (message : MessageExecutionPlan) (action : TextActionExecutionPlan)
    (values : EncodeValues) (output : MutableByteBuffer) : EncodeReply :=
  match textSize message values.values action.segments 0 with
  | .error failure => ⟨failure, output.contents⟩
  | .ok size =>
    if size < action.minRecordLength ∨ size > action.maxRecordLength ∨ size > message.frameSize then
      ⟨{ status := .finalReviewFailed }, output.contents⟩
    else
      match textMemoryFailure values output size with
      | some failure => ⟨failure, output.contents⟩
      | none =>
        { result :=
            if textReview message action values.values = .match then
              { status := .ok, bytesWritten := size, requiredSize := size }
            else { status := .finalReviewFailed, requiredSize := size }
          output := textRecord values.values action.segments ++ output.contents.drop size }

section

variable {plan : PlanBundle} {messageIndex : Nat} {message : MessageExecutionPlan}
  {action : TextActionExecutionPlan} {values : List EncodeFieldValue}

/-! ### Supplied values -/

/-- The bytes of a referenced field are the ones supplied for it. -/
theorem suppliedText_eq (valid : TextValid plan.schemaVersion message)
    (covers : LayoutCovers plan.executionResourceLayout message)
    (has : message.textEncode = some action) {workspace : ExecutionWorkspace}
    (supplied : Supplied plan message values workspace) {fieldIndex : Nat}
    (referenced : fieldIndex ∈ referencedFields action.segments) :
    ∃ field, message.fields[fieldIndex]? = some field ∧
      suppliedValue values workspace.encodeValueIndices field = some (valueFor values fieldIndex) ∧
      suppliedText message values workspace.encodeValueIndices fieldIndex =
        some (some (field, (valueFor values fieldIndex).bytesValue.bytes)) := by
  obtain ⟨field, found, input⟩ := (valid.encode action has).2 fieldIndex referenced
  have takes : takesInput plan field = true := by
    rw [takesInput_text valid.schema]
    exact input
  have ordinal := (Encodable.text action has valid).inputs.ordinal_lt found takes
  have indices : workspace.encodeValueIndices.length = _ := supplied.shaped.encodeValueIndices
  have room := covers.inputs
  have value := supplied.value fieldIndex field found takes
  refine ⟨field, found, value, ?_⟩
  unfold suppliedText
  simp only [found, input, Bool.true_eq_false, false_or, value, Option.bind_eq_bind,
    Option.bind_some]
  rw [if_neg (by omega)]

theorem segment_referenced {segment : TextSegmentExecutionPlan}
    {segments : List TextSegmentExecutionPlan} (member : segment ∈ segments)
    (kind : segment.kind = .field) : segment.fieldIndex ∈ referencedFields segments :=
  List.mem_map.mpr ⟨segment, List.mem_filter.mpr ⟨member, by simp [kind]⟩, rfl⟩

/-! ### The length -/

/-- The check for a terminator reads inside its arrays. -/
theorem terminatorConflicts_inside {bounds : List (Nat × Nat)} (field : FieldExecutionPlan)
    (bytes : List UInt8) {rest : List TextSegmentExecutionPlan}
    (valid : SegmentsValid bounds rest) :
    ∃ conflicts, terminatorConflicts field bytes rest = some conflicts := by
  cases rest with
  | nil => exact ⟨false, rfl⟩
  | cons terminator rest =>
    unfold terminatorConflicts
    simp only
    by_cases fixed : field.textMinLength = field.textMaxLength
    · exact ⟨false, by rw [if_pos fixed]⟩
    rw [if_neg fixed]
    by_cases literal : terminator.kind = .literal
    swap
    · exact ⟨true, by rw [if_pos literal]⟩
    · rw [if_neg (not_not.mpr literal)]
      have terminates := valid.1
      rw [SegmentValid, literal] at terminates
      obtain ⟨found, run⟩ := findFirstAcrossBoundary_inside terminates.2 terminates.1 bytes
      simp only [run, Option.bind_eq_bind, Option.bind_some]
      exact ⟨_, rfl⟩

/-- The length of a text record is computed, or the values are refused. -/
theorem textRecordSize_ends (valid : TextValid plan.schemaVersion message)
    (covers : LayoutCovers plan.executionResourceLayout message)
    (has : message.textEncode = some action) {state : EncodeState}
    (supplied : Supplied plan message values state.workspace)
    (fresh : state.result = { requiredSize := message.frameSize }) :
    ∀ {segments : List TextSegmentExecutionPlan} {size : Nat}, segments ⊆ action.segments →
      SegmentsValid (message.fields.map (·.textBounds)) segments →
        Ends (fun total after => textSize message values segments size = .ok total ∧ after = state)
          (fun after => textSize message values segments size = .error after.result ∧
            after.output = state.output ∧ after.workspace = state.workspace)
          (textRecordSize message values segments size state) := by
  intro segments
  induction segments with
  | nil => exact fun _ _ => .done ⟨rfl, rfl⟩
  | cons segment rest inductionHypothesis =>
    intro size part segmentsValid
    obtain ⟨inAction, restPart⟩ := List.cons_subset.mp part
    unfold textRecordSize textSize suppliedSegment
    cases kind : segment.kind with
    | literal =>
      simp only [reduceCtorEq, false_and, if_false]
      by_cases overflow : segment.literal.length > maxUint64 - size
      · rw [leaveIf_bind_pos overflow, if_pos overflow]
        exact .returned ⟨by rw [EncodeState.refuse, fresh], rfl, rfl⟩
      · rw [leaveIf_bind_neg overflow, if_neg overflow]
        exact inductionHypothesis restPart segmentsValid.2
    | field =>
      obtain ⟨field, found, -, text⟩ :=
        suppliedText_eq valid covers has supplied (segment_referenced inAction kind)
      obtain ⟨conflicts, run⟩ := terminatorConflicts_inside field
        (valueFor values segment.fieldIndex).bytesValue.bytes segmentsValid.2
      simp only [suppliedRaw_eq found, run, true_and, Option.some.injEq]
      rw [current_bind, access_bind text]
      simp only
      by_cases overflow :
          (valueFor values segment.fieldIndex).bytesValue.bytes.length > maxUint64 - size
      · rw [leaveIf_bind_pos overflow, if_pos overflow]
        exact .returned ⟨by rw [EncodeState.refuse, fresh], rfl, rfl⟩
      rw [leaveIf_bind_neg overflow, if_neg overflow, access_bind run]
      by_cases conflict : conflicts = true
      · rw [leaveIf_bind_pos conflict, if_pos conflict]
        exact .returned ⟨by rw [EncodeState.refuse, EncodeState.atField, fresh], rfl, rfl⟩
      · rw [leaveIf_bind_neg conflict, if_neg conflict]
        exact inductionHypothesis restPart segmentsValid.2

theorem textSize_ok : ∀ {segments : List TextSegmentExecutionPlan} {size total : Nat},
    textSize message values segments size = .ok total →
      total = size + (textRecord values segments).length
  | [], size, total, run => (Except.ok.inj run).symm
  | segment :: rest, size, total, run => by
    unfold textSize at run
    simp only at run
    split at run
    · cases run
    split at run
    · cases run
    have split : textRecord values (segment :: rest) =
        suppliedSegment values segment ++ textRecord values rest := List.flatMap_cons
    rw [textSize_ok run, split, List.length_append, Nat.add_assoc]

/-! ### Writing -/

/-- The segments are written behind each other. -/
theorem writeSegments_eq (valid : TextValid plan.schemaVersion message)
    (covers : LayoutCovers plan.executionResourceLayout message)
    (has : message.textEncode = some action) {workspace : ExecutionWorkspace}
    (supplied : Supplied plan message values workspace) :
    ∀ {segments : List TextSegmentExecutionPlan} {cursor : Nat} {output : List UInt8},
      segments ⊆ action.segments → cursor + (textRecord values segments).length ≤ output.length →
        writeSegments message values workspace.encodeValueIndices segments cursor output =
          some (output.take cursor ++ textRecord values segments ++
            output.drop (cursor + (textRecord values segments).length)) := by
  intro segments
  induction segments with
  | nil => simp [writeSegments, textRecord]
  | cons segment rest inductionHypothesis =>
    intro cursor output part room
    obtain ⟨inAction, restPart⟩ := List.cons_subset.mp part
    have bytes : segmentBytes message values workspace.encodeValueIndices segment =
        some (suppliedSegment values segment) := by
      unfold segmentBytes suppliedSegment
      cases kind : segment.kind with
      | literal => rfl
      | field =>
        obtain ⟨field, found, value, -⟩ :=
          suppliedText_eq valid covers has supplied (segment_referenced inAction kind)
        simp only [found, value, Option.bind_eq_bind, Option.bind_some]
    have split : textRecord values (segment :: rest) =
        suppliedSegment values segment ++ textRecord values rest := List.flatMap_cons
    rw [split, List.length_append] at room
    have stored : store output cursor (suppliedSegment values segment) =
        output.take cursor ++ suppliedSegment values segment ++
          output.drop (cursor + (suppliedSegment values segment).length) := by
      refine List.ext_getElem? fun index => ?_
      rcases Nat.lt_or_ge index cursor with before | behind
      · rw [store_getElem?_outside (.inl before), List.append_assoc,
          List.getElem?_append_left (by rw [List.length_take]; omega),
          List.getElem?_take_of_lt before]
      rw [List.append_assoc, List.getElem?_append_right (by rw [List.length_take]; omega),
        List.length_take, Nat.min_eq_left (by omega)]
      obtain ⟨position, rfl⟩ := Nat.exists_eq_add_of_le behind
      rw [Nat.add_sub_cancel_left]
      rcases Nat.lt_or_ge position (suppliedSegment values segment).length with inside | after
      · rw [store_getElem?_inside (by omega) inside, List.getElem?_append_left inside]
      · rw [store_getElem?_outside (.inr (by omega)), List.getElem?_append_right after,
          List.getElem?_drop]
        congr 1
        omega
    unfold writeSegments
    simp only [bytes, writeBytes_eq (show cursor + (suppliedSegment values segment).length ≤
      output.length by omega), Option.bind_eq_bind, Option.bind_some]
    rw [inductionHypothesis restPart (by rw [store_length]; omega), stored, split]
    have taken : (output.take cursor ++ suppliedSegment values segment ++
        output.drop (cursor + (suppliedSegment values segment).length)).take
          (cursor + (suppliedSegment values segment).length) =
            output.take cursor ++ suppliedSegment values segment :=
      List.take_left' (by rw [List.length_append, List.length_take]; omega)
    have dropped : (output.take cursor ++ suppliedSegment values segment ++
        output.drop (cursor + (suppliedSegment values segment).length)).drop
          (cursor + (suppliedSegment values segment).length + (textRecord values rest).length) =
            output.drop (cursor + (suppliedSegment values segment ++
              textRecord values rest).length) := by
      rw [← List.drop_drop, List.drop_left' (by rw [List.length_append, List.length_take]; omega),
        List.drop_drop, List.length_append, Nat.add_assoc]
    rw [taken, dropped, List.append_assoc (output.take cursor)]

/-! ### The review -/

/-- The review of a text record depends on the values alone. -/
theorem textReview_eq (valid : TextValid plan.schemaVersion message)
    (covers : LayoutCovers plan.executionResourceLayout message)
    (has : message.textEncode = some action) {workspace : ExecutionWorkspace}
    (supplied : Supplied plan message values workspace) :
    walkTextAction action message (textRecord values action.segments) true
      (reviewText message values workspace.encodeValueIndices
        (textRecord values action.segments)) () =
      some (textReview message action values, ()) := by
  obtain ⟨status, _, _, walked, other, -⟩ := @walkTextAction_alike Unit Unit message
    (textRecord values action.segments)
    (reviewText message values workspace.encodeValueIndices (textRecord values action.segments))
    (reviewSupplied values (textRecord values action.segments)) True true action
    (fun _ _ _ => True) () () (valid.encode action has).1 trivial
    (fun visited fieldIndex offset length referenced within _ _ _ => by
      obtain ⟨field, found, -, text⟩ :=
        suppliedText_eq valid covers has supplied (List.mem_of_getElem? referenced)
      refine ⟨(), (), (valueFor values fieldIndex).bytesValue.bytes.length == length &&
        slice (textRecord values action.segments) offset length ==
          (valueFor values fieldIndex).bytesValue.bytes, ?_, rfl, fun _ => trivial,
        fun _ => trivial, fun _ => trivial⟩
      unfold reviewText
      simp only [text, readBytes_eq within, Option.bind_eq_bind, Option.bind_some]
      split
      · rename_i different
        rw [beq_false_of_ne different]
        rfl
      · rename_i same
        rw [not_not.mp same, beq_self_eq_true, Bool.true_and])
  rw [walked]
  unfold textReview
  simp only [other]

/-! ### Text messages -/

/-- The encoder gives this reply for a text message. -/
theorem encodeText_ends (valid : TextValid plan.schemaVersion message)
    (covers : LayoutCovers plan.executionResourceLayout message)
    (has : message.textEncode = some action) {values : EncodeValues} {output : MutableByteBuffer}
    {start state : EncodeState} (contents : start.output = output.contents)
    (reached : Accepted plan messageIndex message values.values start state) :
    Ends (fun _ => Answers plan (textReply message action values output))
      (Answers plan (textReply message action values output))
      (encodeText message action values output state) := by
  have same : state.output = output.contents := reached.output.trans contents
  have segments := (valid.encode action has).1.walkable.segments
  unfold encodeText
  refine .bind ((textRecordSize_ends valid covers has reached.supplied reached.result
    (List.Subset.refl _) segments).mono (fun _ _ holds => holds) ?_) ?_
  · rintro last ⟨run, written, workspace⟩
    refine ⟨?_, ?_, workspace.symm ▸ reached.supplied.shaped⟩
    · rw [textReply, run]
    · rw [textReply, run]
      exact written.trans same
  rintro size sized ⟨run, rfl⟩
  rw [update_bind]
  have fresh : ({ sized.result with requiredSize := size } : EncodeResult) =
      { requiredSize := size } := by rw [reached.result]
  have length := textSize_ok run
  rw [Nat.zero_add] at length
  refine .leaveIf (fun outside => ?_) fun inside => ?_
  · refine ⟨?_, ?_, reached.supplied.shaped⟩
    · rw [textReply, run]
      simp only
      rw [if_pos outside, EncodeState.refuse, reached.result]
    · rw [textReply, run]
      simp only
      rw [if_pos outside]
      exact same
  have refuses : ∀ last, Reported (textMemoryFailure values output size)
      { sized with result := { sized.result with requiredSize := size } } last →
        Answers plan (textReply message action values output) last := by
    rintro last ⟨result, written, kept⟩
    rw [textReply, run]
    simp only
    rw [if_neg inside, result]
    exact ⟨rfl, written.trans same, kept.symm ▸ reached.supplied.shaped⟩
  refine .bind ((checkBuffer_ends fresh).mono (fun _ _ holds => holds) refuses) ?_
  rintro _ _ ⟨⟨present, capacity⟩, rfl⟩
  refine .bind ((checkAliases_ends (fun _ _ => rfl) fresh present capacity).mono
    (fun _ _ holds => holds) refuses) ?_
  rintro _ _ ⟨memory, rfl⟩
  have room : 0 + (textRecord values.values action.segments).length ≤ sized.output.length := by
    rw [Nat.zero_add, ← length, same]
    exact memoryFailure_room memory
  have written := writeSegments_eq valid covers has reached.supplied (List.Subset.refl _) room
  rw [List.take_zero, List.nil_append, Nat.zero_add, ← length] at written
  have answers : ∀ result, result = (textReply message action values output).result →
      Answers plan (textReply message action values output)
        ⟨sized.workspace, textRecord values.values action.segments ++ sized.output.drop size,
          result⟩ := by
    rintro _ rfl
    refine ⟨rfl, ?_, reached.supplied.shaped⟩
    rw [textReply, run]
    simp only
    rw [if_neg inside, show textMemoryFailure values output size = none from memory, ← same]
  rw [current_bind]
  simp only
  rw [access_bind written, update_bind]
  have taken : (textRecord values.values action.segments ++ sized.output.drop size).take size =
      textRecord values.values action.segments := List.take_left' length.symm
  rw [taken, access_bind (textReview_eq valid covers has reached.supplied)]
  refine .leaveIf (fun differs => answers _ ?_) fun equal => ?_
  · rw [textReply, run]
    simp only
    rw [if_neg inside, show textMemoryFailure values output size = none from memory]
    simp only
    rw [if_neg differs, reached.result]
  · rw [publishRecord, update_apply]
    refine .done (answers _ ?_)
    rw [textReply, run]
    simp only
    rw [if_neg inside, show textMemoryFailure values output size = none from memory]
    simp only
    rw [if_pos (not_not.mp equal), reached.result]

end

end ProtocolAdapter.Codec
