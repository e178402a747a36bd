/-
This file models the rules of the builder for text messages: each action is a
nonempty sequence of segments whose literals carry correct prefix tables and whose
variable fields end before a literal, and a pipeline that cuts records after CR LF
takes an action only when no earlier CR LF can occur in its records. The file then
states what an accepted action guarantees the codec.
-/

import ProtocolAdapter.Builder.Framing
import Mathlib.Data.List.Nodup

namespace ProtocolAdapter

open Foundation

/-! ### Segments -/

/-- What the walk over the segments of an action has collected: the fields it has
referenced, latest first, and the bounds on the length of its records. -/
structure TextTally where
  references : List Nat := []
  minimum : Nat := 0
  maximum : Nat := 0

/-- Whether a variable field is followed by something that cannot end it. -/
def lacksTerminator (field : FieldPlan) : List TextSegmentPlan → Bool
  | [] => false
  | next :: _ => field.textMinLength ≠ field.textMaxLength && next.kind ≠ .literal

/-- Checks the segments of an action in order. -/
def checkSegments (fields : List FieldPlan) : List TextSegmentPlan → TextTally → Option TextTally
  | [], tally => some tally
  | segment :: rest, tally =>
    match segment.kind with
    | .literal => do
      let size := segment.literal.length
      failIf (segment.literal = [] ∨ segment.prefixTable.length ≠ size)
      let minimum ← addSizeChecked size tally.minimum
      let maximum ← addSizeChecked size tally.maximum
      failIf (segment.literal.any (· > 0x7F) ∨
        PrefixTable.accepts segment.literal segment.prefixTable = false)
      checkSegments fields rest { tally with minimum := minimum, maximum := maximum }
    | .field =>
      match fields[segment.fieldIndex]? with
      | none => none
      | some field => do
        failIf (segment.fieldIndex ∈ tally.references)
        failIf (¬fitsSize field.textMinLength ∨ ¬fitsSize field.textMaxLength ∨
          field.textMinLength > field.textMaxLength)
        let minimum ← addSizeChecked field.textMinLength tally.minimum
        let maximum ← addSizeChecked field.textMaxLength tally.maximum
        failIf (lacksTerminator field rest)
        checkSegments fields rest
          { references := segment.fieldIndex :: tally.references
            minimum := minimum
            maximum := maximum }

/-- Checks an action and returns the fields it references; an absent action references
none. -/
def checkTextAction (fields : List FieldPlan) (frameSize : Nat) :
    Option TextActionPlan → Option (List Nat)
  | none => some []
  | some action => do
    failIf (action.segments = [])
    let tally ← checkSegments fields action.segments {}
    failIf (tally.minimum ≠ action.minRecordLength ∨ tally.maximum ≠ action.maxRecordLength ∨
      tally.maximum > frameSize)
    some tally.references

/-! ### Messages -/

/-- Whether a character is in the alphabet of a field. -/
def allowsAscii (low high character : Nat) : Bool :=
  (if character < 64 then low else high).testBit (character % 64)

/-- A text field allows every printable character. -/
def allowsPrintable (field : FieldPlan) : Bool :=
  (List.range' 0x20 (0x7E + 1 - 0x20)).all
    (allowsAscii field.allowedAsciiLow field.allowedAsciiHigh)

/-- The execution descriptor of a text field. Only the fields of the encode action take
an input ordinal. -/
def textFieldExecution (field : FieldPlan) (encodeInput : Bool) (inputOrdinal : Nat) :
    FieldExecutionPlan :=
  { inputOrdinal := if encodeInput then inputOrdinal else invalidIndex
    valueType := .bytes
    encodeSource := .input
    textMinLength := field.textMinLength
    textMaxLength := field.textMaxLength
    allowedAsciiLow := field.allowedAsciiLow
    allowedAsciiHigh := field.allowedAsciiHigh
    textEncodeInput := encodeInput }

/-- Checks the fields of a text message in order and describes them. The third argument
collects the identifiers that are taken, the fourth counts the input fields. -/
def prepareTextFields (messageIndex : Nat) (decodeFields encodeFields : List Nat) :
    List FieldPlan → Nat → List String → Nat → BuildResult (List FieldExecutionPlan × Nat)
  | [], _, _, inputOrdinal => .ok ([], inputOrdinal)
  | field :: rest, fieldIndex, fieldIds, inputOrdinal => do
    let diagnostic : PlanBuildDiagnostic :=
      { code := .invalidFieldPlan, messageIndex := messageIndex, fieldIndex := fieldIndex }
    rejectIf (¬isStableId field.id ∨ field.id ∈ fieldIds ∨ field.valueType ≠ .bytes ∨
      field.wireCodec ≠ .asciiText ∨
      (fieldIndex ∉ decodeFields ∧ fieldIndex ∉ encodeFields)) diagnostic
    rejectIf (allowsPrintable field = false) diagnostic
    let encodeInput : Bool := fieldIndex ∈ encodeFields
    let (executions, inputCount) ← prepareTextFields messageIndex decodeFields encodeFields rest
      (fieldIndex + 1) (field.id :: fieldIds)
      (if encodeInput then inputOrdinal + 1 else inputOrdinal)
    pure (textFieldExecution field encodeInput inputOrdinal :: executions, inputCount)

/-- Prepares a text message. -/
def prepareTextMessage (schemaVersion : String) (messageIndex : Nat) (message : MessagePlan)
    (text : AsciiTextPlan) : BuildResult PreparedMessageExecutionPlan := do
  let diagnostic : PlanBuildDiagnostic :=
    { code := .invalidMessagePlan, messageIndex := messageIndex }
  rejectIf (schemaVersion ∉ ["0.10", "0.11"] ∨ message.matchers ≠ [] ∨
    message.bitContainers ≠ [] ∨ message.integrity.isSome ∨ message.boundedPayload.isSome ∨
    message.computedLength.isSome) diagnostic
  match checkTextAction message.fields message.frameLengthBytes text.decode,
    checkTextAction message.fields message.frameLengthBytes text.encode with
  | some decodeFields, some encodeFields => do
    let (fields, inputCount) ←
      prepareTextFields messageIndex decodeFields encodeFields message.fields 0 [] 0
    pure
      { frameSize := message.frameLengthBytes
        requiredInputCount := inputCount
        fields := fields
        textDecode := text.decode
        textEncode := text.encode
        textDecodeFieldCount := decodeFields.length }
  | _, _ => .error diagnostic

/-! ### The CR LF boundary -/

/-- Which bytes the text read so far may end with: anything but CR, or CR. -/
structure CrLfStates where
  plain : Bool
  carriageReturn : Bool
  deriving DecidableEq

/-- Reads one byte of a field from all possible states; fails when a CR LF is possible. -/
def advanceCrLfStates (states : CrLfStates) (field : FieldPlan) : Option CrLfStates :=
  let allowed := (List.range 0x80).filter
    (allowsAscii field.allowedAsciiLow field.allowedAsciiHigh)
  if states.carriageReturn ∧ 0x0A ∈ allowed then none
  else if states.plain ∨ states.carriageReturn then
    let output : CrLfStates :=
      { plain := allowed.any (· ≠ 0x0D), carriageReturn := allowed.any (· = 0x0D) }
    if output.plain ∨ output.carriageReturn then some output else none
  else none

/-- Reads one byte of a literal; fails when it may complete a CR LF. -/
def advanceCrLfByte (states : CrLfStates) (byte : UInt8) : Option CrLfStates :=
  if states.carriageReturn ∧ byte = 0x0A then none
  else some { plain := byte ≠ 0x0D, carriageReturn := byte = 0x0D }

/-- The union of two sets of states. -/
def CrLfStates.union (left right : CrLfStates) : CrLfStates :=
  { plain := left.plain || right.plain
    carriageReturn := left.carriageReturn || right.carriageReturn }

/-- The states after a field: `exact` after `count` bytes, `accepted` after any admitted
number of bytes up to there. `remaining` counts down to the maximum length. -/
def advanceField (field : FieldPlan) : Nat → Nat → CrLfStates → CrLfStates → Option CrLfStates
  | remaining, count, exact, accepted =>
    let accepted := if count ≥ field.textMinLength then accepted.union exact else accepted
    match remaining with
    | 0 => some accepted
    | remaining + 1 =>
      match advanceCrLfStates exact field with
      | none => none
      | some next =>
        if next = exact then some (accepted.union next)
        else advanceField field remaining (count + 1) next accepted

/-- Walks the segments before the final CR LF; fails when an earlier one is possible. -/
def advanceSegments (fields : List FieldPlan) :
    List TextSegmentPlan → CrLfStates → Option CrLfStates
  | [], states => some states
  | segment :: rest, states =>
    match segment.kind with
    | .literal => do
      let bytes :=
        if rest = [] then segment.literal.take (segment.literal.length - 2) else segment.literal
      let states ← bytes.foldlM advanceCrLfByte states
      advanceSegments fields rest states
    | .field =>
      match fields[segment.fieldIndex]? with
      | none => none
      | some field => do
        let accepted ← advanceField field field.textMaxLength 0 states ⟨false, false⟩
        failIf (¬accepted.plain ∧ ¬accepted.carriageReturn)
        advanceSegments fields rest accepted

/-- Whether every record of an action ends with its first CR LF. -/
def proveAsciiCrLfBoundary (action : TextActionPlan) (fields : List FieldPlan) : Bool :=
  match action.segments.getLast? with
  | none => false
  | some final =>
    final.kind == .literal && final.literal.length ≥ 2 &&
      final.literal.drop (final.literal.length - 2) == [0x0D, 0x0A] &&
      (advanceSegments fields action.segments ⟨true, false⟩).isSome

/-! ### What an accepted action guarantees -/

/-- The length bounds of a field descriptor. -/
def FieldExecutionPlan.textBounds (field : FieldExecutionPlan) : Nat × Nat :=
  (field.textMinLength, field.textMaxLength)

/-- A segment the walk can take: a literal with its prefix table, or a field of the
message that ends where its length or the next literal says. -/
def SegmentValid (bounds : List (Nat × Nat)) (segment : TextSegmentPlan)
    (rest : List TextSegmentPlan) : Prop :=
  match segment.kind with
  | .literal =>
    segment.literal ≠ [] ∧ PrefixTable.IsPrefixTable segment.literal segment.prefixTable
  | .field => ∃ bound, bounds[segment.fieldIndex]? = some bound ∧ bound.1 ≤ bound.2 ∧
      (bound.1 ≠ bound.2 → ∀ next ∈ rest.head?, next.kind = .literal)

/-- Every segment of a sequence is valid before what follows it. -/
def SegmentsValid (bounds : List (Nat × Nat)) : List TextSegmentPlan → Prop
  | [] => True
  | segment :: rest => SegmentValid bounds segment rest ∧ SegmentsValid bounds rest

/-- The fields a sequence of segments references, in order. -/
def referencedFields (segments : List TextSegmentPlan) : List Nat :=
  (segments.filter (·.kind == .field)).map (·.fieldIndex)

/-- An accepted action over fields with the given length bounds. -/
structure TextActionPlan.Valid (action : TextActionPlan) (bounds : List (Nat × Nat)) : Prop where
  nonempty : action.segments ≠ []
  segments : SegmentsValid bounds action.segments
  distinct : (referencedFields action.segments).Nodup

/-- The length bounds of the fields of a draft message. -/
def fieldBounds (fields : List FieldPlan) : List (Nat × Nat) :=
  fields.map fun field => (field.textMinLength, field.textMaxLength)

theorem checkSegments_valid {fields : List FieldPlan} :
    ∀ {segments : List TextSegmentPlan} {tally result : TextTally}, tally.references.Nodup →
      checkSegments fields segments tally = some result →
      SegmentsValid (fieldBounds fields) segments ∧
        result.references = (referencedFields segments).reverse ++ tally.references ∧
        result.references.Nodup := by
  intro segments
  induction segments with
  | nil =>
    intro tally result distinct checked
    obtain rfl := Option.some.inj checked
    exact ⟨trivial, rfl, distinct⟩
  | cons segment rest inductionHypothesis =>
    intro tally result distinct checked
    unfold checkSegments at checked
    cases kind : segment.kind with
    | literal =>
      simp only [kind, Option.bind_eq_bind, Option.bind_eq_some_iff, failIf_eq_some, not_or,
        not_not] at checked
      obtain ⟨-, ⟨nonempty, sized⟩, minimum, -, maximum, -, -, ⟨-, accepted⟩, checked⟩ := checked
      obtain ⟨valid, listed, unique⟩ := inductionHypothesis (by exact distinct) checked
      refine ⟨⟨?_, valid⟩, by simpa [referencedFields, kind] using listed, unique⟩
      simp only [SegmentValid, kind]
      exact ⟨nonempty, PrefixTable.isPrefixTable_of_accepts sized (by simpa using accepted)⟩
    | field =>
      simp only [kind] at checked
      split at checked
      · cases checked
      rename_i field found
      simp only [Option.bind_eq_bind, Option.bind_eq_some_iff, failIf_eq_some, not_or] at checked
      obtain ⟨-, fresh, -, ⟨-, -, ordered⟩, minimum, -, maximum, -, -, terminated, checked⟩ :=
        checked
      obtain ⟨valid, listed, unique⟩ :=
        inductionHypothesis (List.nodup_cons.mpr ⟨fresh, distinct⟩) checked
      refine ⟨⟨?_, valid⟩, by simpa [referencedFields, kind] using listed, unique⟩
      simp only [SegmentValid, kind]
      refine ⟨(field.textMinLength, field.textMaxLength), by simp [fieldBounds, found],
        Nat.le_of_not_lt ordered, fun varies next member => ?_⟩
      cases rest with
      | nil => simp at member
      | cons head tail =>
        obtain rfl : head = next := by simpa using member
        simpa [lacksTerminator, show field.textMinLength ≠ field.textMaxLength from varies]
          using terminated

/-- An accepted action is valid, and the builder counted its field segments. -/
theorem valid_of_checkTextAction {fields : List FieldPlan} {frameSize : Nat}
    {action : TextActionPlan} {references : List Nat}
    (checked : checkTextAction fields frameSize (some action) = some references) :
    action.Valid (fieldBounds fields) ∧
      references = (referencedFields action.segments).reverse := by
  simp only [checkTextAction, Option.bind_eq_bind, Option.bind_eq_some_iff, failIf_eq_some,
    Option.some.injEq] at checked
  obtain ⟨-, nonempty, tally, run, -, -, rfl⟩ := checked
  obtain ⟨valid, listed, distinct⟩ := checkSegments_valid List.nodup_nil run
  rw [List.append_nil] at listed
  rw [listed] at distinct ⊢
  exact ⟨⟨nonempty, valid, List.nodup_reverse.1 distinct⟩, rfl⟩

/-! ### The length of a record -/

/-- The least and the greatest length of a segment. -/
def segmentBounds (bounds : List (Nat × Nat)) (segment : TextSegmentPlan) : Nat × Nat :=
  match segment.kind with
  | .literal => (segment.literal.length, segment.literal.length)
  | .field => bounds.getD segment.fieldIndex (0, 0)

/-- The least length of a record with these segments. -/
def recordMinimum (bounds : List (Nat × Nat)) (segments : List TextSegmentPlan) : Nat :=
  (segments.map fun segment => (segmentBounds bounds segment).1).sum

/-- The greatest length of a record with these segments. -/
def recordMaximum (bounds : List (Nat × Nat)) (segments : List TextSegmentPlan) : Nat :=
  (segments.map fun segment => (segmentBounds bounds segment).2).sum

theorem addSizeChecked_some {size total result : Nat}
    (added : addSizeChecked size total = some result) : result = total + size := by
  unfold addSizeChecked at added
  split at added
  · cases added
  · exact (Option.some.inj added).symm

/-- The walk over the segments adds up their lengths. -/
theorem checkSegments_lengths {fields : List FieldPlan} :
    ∀ {segments : List TextSegmentPlan} {tally result : TextTally},
      checkSegments fields segments tally = some result →
      result.minimum = tally.minimum + recordMinimum (fieldBounds fields) segments ∧
        result.maximum = tally.maximum + recordMaximum (fieldBounds fields) segments := by
  intro segments
  induction segments with
  | nil =>
    intro tally result checked
    obtain rfl := Option.some.inj checked
    exact ⟨rfl, rfl⟩
  | cons segment rest inductionHypothesis =>
    intro tally result checked
    unfold checkSegments at checked
    unfold recordMinimum recordMaximum segmentBounds
    rw [List.map_cons, List.map_cons, List.sum_cons, List.sum_cons]
    cases kind : segment.kind with
    | literal =>
      simp only [kind, Option.bind_eq_bind, Option.bind_eq_some_iff] at checked
      obtain ⟨_, -, minimum, least, maximum, most, _, -, checked⟩ := checked
      obtain ⟨same, other⟩ := inductionHypothesis checked
      simp only [addSizeChecked_some least, addSizeChecked_some most] at same other
      rw [same, other, Nat.add_assoc, Nat.add_assoc]
      exact ⟨rfl, rfl⟩
    | field =>
      simp only [kind] at checked
      split at checked
      · cases checked
      rename_i field found
      simp only [Option.bind_eq_bind, Option.bind_eq_some_iff] at checked
      obtain ⟨_, -, _, -, minimum, least, maximum, most, _, -, checked⟩ := checked
      obtain ⟨same, other⟩ := inductionHypothesis checked
      simp only [addSizeChecked_some least, addSizeChecked_some most] at same other
      have entry : (fieldBounds fields).getD segment.fieldIndex (0, 0) =
          (field.textMinLength, field.textMaxLength) := by
        simp [fieldBounds, List.getD_eq_getElem?_getD, found]
      simp only [entry]
      rw [same, other, Nat.add_assoc, Nat.add_assoc]
      exact ⟨rfl, rfl⟩

/-- The bounds of an accepted action are those of its segments. -/
theorem lengths_of_checkTextAction {fields : List FieldPlan} {frameSize : Nat}
    {action : TextActionPlan} {references : List Nat}
    (checked : checkTextAction fields frameSize (some action) = some references) :
    action.minRecordLength = recordMinimum (fieldBounds fields) action.segments ∧
      action.maxRecordLength = recordMaximum (fieldBounds fields) action.segments := by
  simp only [checkTextAction, Option.bind_eq_bind, Option.bind_eq_some_iff, failIf_eq_some,
    not_or, not_not] at checked
  obtain ⟨-, -, tally, run, -, ⟨minimum, maximum, -⟩, -⟩ := checked
  obtain ⟨least, most⟩ := checkSegments_lengths run
  rw [← minimum, ← maximum, least, most]
  exact ⟨Nat.zero_add _, Nat.zero_add _⟩

end ProtocolAdapter
