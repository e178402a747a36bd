/-
This file shows that text records are written as they are read. Accepted values are
refused only when one of them does not end at the literal behind it; otherwise the record
parses with every field at the bytes supplied for it, so the final review finds what it
looks for.
-/

import ProtocolAdapter.Codec.EncodeOutcome
import ProtocolAdapter.Codec.TextTemplate

namespace ProtocolAdapter.Codec

open Foundation Foundation.Operation Foundation.Bytes

/-! ### Values that end at their literals -/

/-- The bytes supplied for a field. -/
def suppliedBytes (values : List EncodeFieldValue) (fieldIndex : Nat) : List UInt8 :=
  (valueFor values fieldIndex).bytesValue.bytes

/-- Every value of a variable field with a literal behind it ends where the literal first
occurs in the value and the literal. -/
def ValuesTerminated (message : MessageExecutionPlan) (values : List EncodeFieldValue) :
    List TextSegmentExecutionPlan → Prop
  | [] => True
  | segment :: rest =>
    (segment.kind = .field → ∀ field terminator, message.fields[segment.fieldIndex]? = some field →
      field.textMinLength ≠ field.textMaxLength → rest.head? = some terminator →
        terminator.kind = .literal →
          FirstAt terminator.literal (suppliedBytes values segment.fieldIndex ++ terminator.literal)
            (suppliedBytes values segment.fieldIndex).length) ∧
      ValuesTerminated message values rest

/-- Values that their fields take. -/
def ValuesTaken (message : MessageExecutionPlan) (values : List EncodeFieldValue)
    (segments : List TextSegmentExecutionPlan) : Prop :=
  ∀ fieldIndex ∈ referencedFields segments, ∃ field, message.fields[fieldIndex]? = some field ∧
    field.textMinLength ≤ (suppliedBytes values fieldIndex).length ∧
    (suppliedBytes values fieldIndex).length ≤ field.textMaxLength ∧
    ∀ byte ∈ suppliedBytes values fieldIndex, isAllowedAscii field byte = true

/-- Where the values stand in the record behind an offset. -/
def suppliedPlaces (values : List EncodeFieldValue) :
    Nat → List TextSegmentExecutionPlan → List TextPlace
  | _, [] => []
  | offset, segment :: rest =>
    match segment.kind with
    | .literal => suppliedPlaces values (offset + segment.literal.length) rest
    | .field =>
      let length := (suppliedBytes values segment.fieldIndex).length
      ⟨segment.fieldIndex, offset, length⟩ :: suppliedPlaces values (offset + length) rest

section

variable {literal : TextSegmentExecutionPlan}

/-- The search across the end of a value finds the first occurrence of the literal. -/
theorem findFirstAcrossBoundary_first
    (table : PrefixTable.IsPrefixTable literal.literal literal.prefixTable)
    (nonempty : literal.literal ≠ []) (value : List UInt8) :
    ∃ result, findFirstAcrossBoundary value literal = some result ∧
      ∀ found, result = some found ↔ FirstAt literal.literal (value ++ literal.literal) found := by
  obtain ⟨result, run, first⟩ := @scanLiteral_first literal
    (fun index => if index < value.length then value[index]?
      else literal.literal[index - value.length]?) table 0 (value ++ literal.literal) [] 0
    (fun position byte listed => by
      simp only [List.length_nil, Nat.zero_add]
      split
      · rename_i inside
        rwa [List.getElem?_append_left inside] at listed
      · rename_i behind
        rwa [List.getElem?_append_right (Nat.le_of_not_lt behind)] at listed)
    PrefixTable.longestMatch_nil (List.length_pos_iff.mpr nonempty)
    (fun position occurs => nonempty (by simpa [OccursAt] using occurs))
  rw [List.length_append] at run
  refine ⟨result, run, fun found => ?_⟩
  rw [first found, List.nil_append]
  simp only [Nat.zero_add, exists_eq_left']

/-- A value conflicts with the literal behind it when it does not end where the literal
first occurs. -/
theorem terminatorConflicts_iff {bounds : List (Nat × Nat)} {field : FieldExecutionPlan}
    {bytes : List UInt8} {rest : List TextSegmentExecutionPlan}
    (ends : field.textMinLength ≠ field.textMaxLength → ∀ next ∈ rest.head?, next.kind = .literal)
    (later : SegmentsValid bounds rest) :
    terminatorConflicts field bytes rest = some false ↔
      (field.textMinLength ≠ field.textMaxLength → ∀ terminator, rest.head? = some terminator →
        terminator.kind = .literal →
          FirstAt terminator.literal (bytes ++ terminator.literal) bytes.length) := by
  cases rest with
  | nil => simp [terminatorConflicts]
  | cons terminator rest =>
    unfold terminatorConflicts
    simp only
    by_cases fixed : field.textMinLength = field.textMaxLength
    · rw [if_pos fixed]
      exact ⟨fun _ varies => absurd fixed varies, fun _ => rfl⟩
    have kind := ends fixed terminator rfl
    have terminates := later.1
    rw [SegmentValid, kind] at terminates
    obtain ⟨result, run, first⟩ := findFirstAcrossBoundary_first terminates.2 terminates.1 bytes
    rw [if_neg fixed, if_neg (not_not.mpr kind)]
    simp only [run, Option.bind_eq_bind, Option.bind_some, Option.some.injEq,
      decide_eq_false_iff_not, not_not, first, List.head?_cons]
    constructor
    · rintro found _ other rfl _
      exact found
    · exact fun found => found fixed terminator rfl kind

end

/-! ### The record -/

section

variable {message : MessageExecutionPlan} {values : List EncodeFieldValue}

theorem ValuesTaken.tail {segment : TextSegmentExecutionPlan}
    {rest : List TextSegmentExecutionPlan}
    (taken : ValuesTaken message values (segment :: rest)) : ValuesTaken message values rest := by
  intro fieldIndex member
  obtain ⟨listed, there, same⟩ := List.mem_map.mp member
  exact taken fieldIndex (List.mem_map.mpr ⟨listed,
    ((List.sublist_cons_self segment rest).filter _).subset there, same⟩)

/-- The record that terminated values ask for parses with the values in their places. -/
theorem textRecord_parses :
    ∀ {segments : List TextSegmentExecutionPlan} {offset : Nat},
      SegmentsValid (message.fields.map (·.textBounds)) segments →
      ValuesTaken message values segments → ValuesTerminated message values segments →
      Parses message offset segments (textRecord values segments)
        (suppliedPlaces values offset segments) := by
  intro segments
  induction segments with
  | nil => exact fun _ _ _ => .done
  | cons segment rest inductionHypothesis =>
    intro offset valid taken terminated
    have split : textRecord values (segment :: rest) =
        suppliedSegment values segment ++ textRecord values rest := List.flatMap_cons
    rw [split]
    unfold suppliedPlaces suppliedSegment
    have first := valid.1
    cases kind : segment.kind with
    | literal => exact .literal kind (inductionHypothesis valid.2 taken.tail terminated.2)
    | field =>
      simp only [SegmentValid, kind] at first
      obtain ⟨bound, listed, -, ends⟩ := first
      obtain ⟨field, found, least, most, allowed⟩ :=
        taken segment.fieldIndex (segment_referenced List.mem_cons_self kind)
      rw [List.getElem?_map, found, Option.map_some, Option.some.injEq] at listed
      subst listed
      refine .field kind found ⟨least, most, allowed, ?_⟩
        (inductionHypothesis valid.2 taken.tail terminated.2)
      intro varies terminator next literal earlier less occurs
      have last := terminated.1 kind field terminator found varies next literal
      cases rest with
      | nil => cases next
      | cons head more =>
        obtain rfl : head = terminator := Option.some.inj next
        have behind : textRecord values (head :: more) =
            head.literal ++ textRecord values more := by
          rw [textRecord, List.flatMap_cons, suppliedSegment, literal]
          rfl
        rw [behind, ← List.append_assoc] at occurs
        refine last.first earlier less (occurs.of_append ?_)
        rw [List.length_append]
        exact Nat.add_le_add_right less.le _

/-- The values stand in the record at their places. -/
theorem suppliedPlaces_spec {record : List UInt8} :
    ∀ {segments : List TextSegmentExecutionPlan} {offset : Nat},
      record.drop offset = textRecord values segments →
      (suppliedPlaces values offset segments).map (·.fieldIndex) = referencedFields segments ∧
        ∀ place ∈ suppliedPlaces values offset segments,
          place.length = (suppliedBytes values place.fieldIndex).length ∧
            slice record place.offset place.length = suppliedBytes values place.fieldIndex := by
  intro segments
  induction segments with
  | nil => exact fun _ => ⟨rfl, nofun⟩
  | cons segment rest inductionHypothesis =>
    intro offset same
    have split : textRecord values (segment :: rest) =
        suppliedSegment values segment ++ textRecord values rest := List.flatMap_cons
    rw [split] at same
    have later : ∀ {length : Nat}, (suppliedSegment values segment).length = length →
        record.drop (offset + length) = textRecord values rest := by
      rintro _ rfl
      rw [← List.drop_drop, same, List.drop_left]
    unfold suppliedPlaces
    cases kind : segment.kind with
    | literal =>
      have bytes : suppliedSegment values segment = segment.literal := by
        rw [suppliedSegment, kind]
      obtain ⟨indices, places⟩ := inductionHypothesis (later (congrArg List.length bytes))
      refine ⟨?_, places⟩
      simpa [referencedFields, kind] using indices
    | field =>
      have bytes : suppliedSegment values segment = suppliedBytes values segment.fieldIndex := by
        rw [suppliedSegment, kind]
        rfl
      obtain ⟨indices, places⟩ := inductionHypothesis (later (congrArg List.length bytes))
      refine ⟨?_, ?_⟩
      · simpa [referencedFields, kind] using indices
      · intro place member
        rcases List.mem_cons.mp member with rfl | member
        · refine ⟨rfl, ?_⟩
          simp only
          rw [slice, same, bytes, List.take_left]
        · exact places place member

/-- A visitor that takes every field of the one parse lets the walk match. -/
theorem walkSegments_of_parses {σ : Type} {input : List UInt8}
    {visitor : σ → Nat → Nat → Nat → Access (σ × Bool)} :
    ∀ {segments : List TextSegmentExecutionPlan} {cursor : Nat} {state : σ}
      {places : List TextPlace},
      SegmentsValid (message.fields.map (·.textBounds)) segments → cursor ≤ input.length →
      Parses message cursor segments (input.drop cursor) places →
      (∀ place ∈ places, ∀ state, ∃ next,
        visitor state place.fieldIndex place.offset place.length = some (next, true)) →
      ∃ last, walkSegments message input true visitor segments cursor state =
        some (.match, last) := by
  intro segments
  induction segments with
  | nil =>
    intro cursor state places _ within parse _
    rw [parses_nil, List.drop_eq_nil_iff] at parse
    exact ⟨state, by rw [walkSegments, if_pos (Nat.le_antisymm within parse.1)]⟩
  | cons segment rest inductionHypothesis =>
    intro cursor state places valid within parse takes
    cases kind : segment.kind with
    | literal =>
      have first := valid.1
      rw [SegmentValid, kind] at first
      obtain ⟨more, split, later⟩ := (parses_literal kind).mp parse
      have found : segment.literal <+: input.drop cursor := ⟨more, split.symm⟩
      have short := found.length_le
      rw [List.length_drop] at short
      obtain ⟨last, walked⟩ := @inductionHypothesis (cursor + segment.literal.length) state places
        valid.2 (by omega) (by rwa [← List.drop_drop, split, List.drop_left]) takes
      exact ⟨last, (walkSegments_literal kind first.1).mpr ⟨found, walked⟩⟩
    | field =>
      have first := valid.1
      simp only [SegmentValid, kind] at first
      obtain ⟨bound, listed, -, ends⟩ := first
      obtain ⟨field, bytes, more, later, found, split, rfl, fieldTakes, parse⟩ :=
        (parses_field kind).mp parse
      rw [List.getElem?_map, found, Option.map_some, Option.some.injEq] at listed
      subst listed
      obtain ⟨holds, allowed⟩ := (fieldTakes_iff ends parse).mp fieldTakes
      have inside := congrArg List.length split
      rw [List.length_drop, List.length_append] at inside
      obtain ⟨next, visited⟩ := takes _ List.mem_cons_self state
      obtain ⟨last, walked⟩ := @inductionHypothesis (cursor + bytes.length) next later valid.2
        (by omega) (by rwa [← List.drop_drop, split, List.drop_left])
        fun place member => takes place (List.mem_cons_of_mem _ member)
      exact ⟨last, (walkSegments_field kind within valid).mpr ⟨field, bytes.length, next, found,
        split ▸ holds, by rwa [split, List.take_left], visited, walked⟩⟩

/-! ### The size -/

/-- Terminated values are not refused. -/
theorem textSize_terminated :
    ∀ {segments : List TextSegmentExecutionPlan} {size : Nat},
      SegmentsValid (message.fields.map (·.textBounds)) segments →
      ValuesTaken message values segments → ValuesTerminated message values segments →
      size + (textRecord values segments).length ≤ maxUint64 →
      textSize message values segments size = .ok (size + (textRecord values segments).length) := by
  intro segments
  induction segments with
  | nil => exact fun _ _ _ _ => rfl
  | cons segment rest inductionHypothesis =>
    intro size valid taken terminated bounded
    have split : textRecord values (segment :: rest) =
        suppliedSegment values segment ++ textRecord values rest := List.flatMap_cons
    rw [split, List.length_append] at bounded
    unfold textSize
    simp only
    rw [if_neg (by omega), if_neg, inductionHypothesis valid.2 taken.tail terminated.2 (by omega),
      split, List.length_append, Nat.add_assoc]
    rintro ⟨kind, conflict⟩
    have first := valid.1
    simp only [SegmentValid, kind] at first
    obtain ⟨bound, listed, -, ends⟩ := first
    rw [List.getElem?_map, Option.map_eq_some_iff] at listed
    obtain ⟨field, found, rfl⟩ := listed
    have bytes : suppliedSegment values segment = suppliedBytes values segment.fieldIndex := by
      rw [suppliedSegment, kind]
      rfl
    rw [List.getD_eq_getElem?_getD, found, Option.getD_some, bytes,
      (terminatorConflicts_iff ends valid.2).mpr fun varies terminator next literal =>
        terminated.1 kind field terminator found varies next literal] at conflict
    cases conflict

/-- Values that are not refused are terminated. -/
theorem terminated_of_textSize :
    ∀ {segments : List TextSegmentExecutionPlan} {size total : Nat},
      SegmentsValid (message.fields.map (·.textBounds)) segments →
      textSize message values segments size = .ok total →
      ValuesTerminated message values segments := by
  intro segments
  induction segments with
  | nil => exact fun _ _ => trivial
  | cons segment rest inductionHypothesis =>
    intro size total valid run
    unfold textSize at run
    simp only at run
    split at run
    · cases run
    split at run
    · cases run
    rename_i passes
    refine ⟨fun kind field terminator found varies next literal => ?_,
      inductionHypothesis valid.2 run⟩
    have first := valid.1
    simp only [SegmentValid, kind] at first
    obtain ⟨bound, listed, -, ends⟩ := first
    rw [List.getElem?_map, found, Option.map_some, Option.some.injEq] at listed
    subst listed
    have bytes : suppliedSegment values segment = suppliedBytes values segment.fieldIndex := by
      rw [suppliedSegment, kind]
      rfl
    rw [List.getD_eq_getElem?_getD, found, Option.getD_some, bytes] at passes
    obtain ⟨conflicts, conflict⟩ := @terminatorConflicts_inside _ field
      (suppliedBytes values segment.fieldIndex) rest valid.2
    cases conflicts with
    | true => exact absurd ⟨kind, conflict⟩ passes
    | false =>
      exact (terminatorConflicts_iff ends valid.2).mp conflict varies terminator next literal

end

/-! ### Accepted values -/

section

variable {plan : PlanBundle} {messageIndex : Nat} {message : MessageExecutionPlan}
  {action : TextActionExecutionPlan}

/-- Accepted values are values that their fields take. -/
theorem valuesTaken_of_accepted {values : List EncodeFieldValue}
    (valid : TextValid plan.schemaVersion message) (has : message.textEncode = some action)
    (accepted : inputsFailure plan messageIndex message values = none) :
    ValuesTaken message values action.segments := by
  intro fieldIndex member
  obtain ⟨field, found, input⟩ := (valid.encode action has).2 fieldIndex member
  refine ⟨field, found, ?_⟩
  obtain ⟨passes, present, -⟩ := inputsFailure_eq_none.mp accepted
  have supplied := present fieldIndex field found
    (by rw [takesInput_text valid.schema]; exact input)
  have listed := valueFor_eq supplied
  have own : isFor fieldIndex (valueFor values fieldIndex) = true := by
    have available : ∃ value ∈ values, isFor fieldIndex value = true := by simpa using supplied
    obtain ⟨value, there⟩ := Option.isSome_iff_exists.mp (List.find?_isSome.mpr available)
    rw [valueFor, there]
    exact List.find?_some there
  have same : (valueFor values fieldIndex).field.fieldIndex = fieldIndex := of_decide_eq_true own
  have status := passes _ _ listed
  have schema : isConversionSchema plan.schemaVersion = false := by
    have text := valid.schema
    unfold isTextSchema at text
    rw [Bool.or_eq_true, beq_iff_eq, beq_iff_eq] at text
    rcases text with text | text <;> rw [text] <;> decide
  have type := (valid.fields field (List.mem_of_getElem? found)).type
  unfold placementStatus referencedField at status
  split at status
  · cases status
  rename_i other there
  split at there
  · cases there
  rw [same, found] at there
  obtain rfl := Option.some.inj there
  split at status
  · cases status
  split at status
  · cases status
  split at status
  · cases status
  split at status
  · cases status
  rw [schema, if_neg (by simp)] at status
  split at status
  · cases status
  simp only [valueFailure, type, bytesFailure, valid.schema, if_true] at status
  split at status
  · cases status
  rename_i sized
  split at status
  · cases status
  split at status
  · cases status
  rename_i characters
  rw [not_or, Nat.not_lt, Nat.not_lt] at sized
  refine ⟨sized.1, sized.2, ?_⟩
  simpa [suppliedBytes] using characters

section

variable {values : List EncodeFieldValue} (valid : TextActionValid message action)
  (taken : ValuesTaken message values action.segments)
  (terminated : ValuesTerminated message values action.segments)

include valid taken terminated

/-- The review of a record of terminated values matches. -/
theorem textReview_terminated (lengths : TextLengths message action) :
    textReview message action values = .match := by
  have parse := @textRecord_parses message values action.segments 0 valid.walkable.segments taken
    terminated
  have bounds := parse.length
  rw [← lengths.minimum, ← lengths.maximum] at bounds
  obtain ⟨-, places⟩ := @suppliedPlaces_spec values (textRecord values action.segments)
    action.segments 0 rfl
  obtain ⟨last, walked⟩ := @walkSegments_of_parses message Unit (textRecord values action.segments)
    (reviewSupplied values (textRecord values action.segments)) action.segments 0 () _
    valid.walkable.segments (Nat.zero_le _) parse fun place member state => by
      obtain ⟨length, bytes⟩ := places place member
      refine ⟨(), ?_⟩
      unfold reviewSupplied
      simp only
      rw [bytes, length, suppliedBytes, beq_self_eq_true, beq_self_eq_true, Bool.and_self]
  have whole : walkTextAction action message (textRecord values action.segments) true
      (reviewSupplied values (textRecord values action.segments)) () = some (.match, last) := by
    unfold walkTextAction
    rw [if_neg, walked]
    rintro (short | long | empty)
    · omega
    · omega
    · exact valid.walkable.nonempty empty
  unfold textReview
  simp only [whole]

/-- The encoder writes a record of terminated values, when the memory of the caller allows. -/
theorem textReply_terminated (lengths : TextLengths message action)
    (frame : message.frameSize ≤ 65536) {supplied : EncodeValues} (same : supplied.values = values)
    (output : MutableByteBuffer) :
    let record := textRecord values action.segments
    action.minRecordLength ≤ record.length ∧ record.length ≤ action.maxRecordLength ∧
      textReply message action supplied output =
        match textMemoryFailure supplied output record.length with
        | some failure => ⟨failure, output.contents⟩
        | none =>
          { result :=
              { status := .ok, bytesWritten := record.length, requiredSize := record.length }
            output := record ++ output.contents.drop record.length } := by
  have parse := @textRecord_parses message values action.segments 0 valid.walkable.segments taken
    terminated
  have bounds := parse.length
  rw [← lengths.minimum, ← lengths.maximum] at bounds
  have longest := valid.longest
  have sized := @textSize_terminated message values action.segments 0 valid.walkable.segments taken
    terminated (by unfold maxUint64; omega)
  rw [Nat.zero_add] at sized
  refine ⟨bounds.1, bounds.2, ?_⟩
  unfold textReply
  rw [same, sized]
  simp only
  rw [if_neg (by omega), textReview_terminated valid taken terminated lengths]
  rfl

end

end

end ProtocolAdapter.Codec
