/-
This file states what domain validation changes in a schema: it resolves the references of
bit members, text segments and bounded payloads, and derives lengths and conversions. All
other members of a record stay as the structural stage has read them.
-/

import ProtocolAdapter.ConfigCompiler.Validate

namespace ProtocolAdapter.ConfigCompiler

open Foundation

/-! ### What changes -/

/-- A validated field: the parsed field with the container of a bit member, the width of a
bounded payload and the descriptor of a conversion. -/
structure FieldIr.Resolves (parsed resolved : FieldIr) : Prop where
  rest : resolved = { parsed with
    wire := { parsed.wire with
      bitContainerIndex := resolved.wire.bitContainerIndex
      byteWidth := resolved.wire.byteWidth }
    conversion := resolved.conversion }
  container : parsed.wire.codec ≠ .bitfield →
    resolved.wire.bitContainerIndex = parsed.wire.bitContainerIndex
  width : parsed.wire.codec ≠ .bytes → resolved.wire.byteWidth = parsed.wire.byteWidth
  conversion : resolved.conversion.isSome = parsed.conversion.isSome

/-- A validated text segment: the parsed segment with the index of its field. -/
structure TextSegmentIr.Resolves (parsed resolved : TextSegmentIr) : Prop where
  rest : resolved = { parsed with fieldIndex := resolved.fieldIndex }
  literal : parsed.kind = .literal → resolved.fieldIndex = parsed.fieldIndex

/-- A validated template: its segments resolve, and its lengths are derived. -/
def TextActionIr.Resolves (parsed resolved : TextActionIr) : Prop :=
  List.Forall₂ TextSegmentIr.Resolves parsed.segments resolved.segments

/-- A validated layout of a text message. -/
structure AsciiTextLayoutIr.Resolves (parsed resolved : AsciiTextLayoutIr) : Prop where
  origin : resolved.origin = parsed.origin
  decode : Option.Rel TextActionIr.Resolves parsed.decode resolved.decode
  encode : Option.Rel TextActionIr.Resolves parsed.encode resolved.encode

/-- A validated message: its fields resolve, its longest frame and its layouts are derived. -/
structure MessageIr.Resolves (parsed resolved : MessageIr) : Prop where
  rest : resolved = { parsed with
    frameLengthBytes := resolved.frameLengthBytes
    boundedPayload := resolved.boundedPayload
    fields := resolved.fields
    asciiText := resolved.asciiText }
  fields : List.Forall₂ FieldIr.Resolves parsed.fields resolved.fields
  boundedPayload : resolved.boundedPayload.isSome = parsed.boundedPayload.isSome
  asciiText : Option.Rel AsciiTextLayoutIr.Resolves parsed.asciiText resolved.asciiText

/-- A validated schema: its messages resolve. -/
structure SchemaIr.Resolves (parsed resolved : SchemaIr) : Prop where
  rest : resolved = { parsed with messages := resolved.messages }
  messages : List.Forall₂ MessageIr.Resolves parsed.messages resolved.messages

/-! ### Fields -/

theorem FieldIr.Resolves.refl (field : FieldIr) : field.Resolves field :=
  ⟨rfl, fun _ => rfl, fun _ => rfl, rfl⟩

theorem FieldIr.Resolves.trans {parsed middle resolved : FieldIr}
    (first : parsed.Resolves middle) (second : middle.Resolves resolved) :
    parsed.Resolves resolved := by
  have codec : middle.wire.codec = parsed.wire.codec := by rw [first.rest]
  refine ⟨?_, fun other => ?_, fun other => ?_, second.conversion.trans first.conversion⟩
  · rw [second.rest, first.rest]
  · exact (second.container (codec ▸ other)).trans (first.container other)
  · exact (second.width (codec ▸ other)).trans (first.width other)

theorem forall₂_refl {fields : List FieldIr} : List.Forall₂ FieldIr.Resolves fields fields :=
  List.forall₂_same.mpr fun field _ => .refl field

theorem forall₂_trans {parsed middle resolved : List FieldIr}
    (first : List.Forall₂ FieldIr.Resolves parsed middle) :
    List.Forall₂ FieldIr.Resolves middle resolved →
      List.Forall₂ FieldIr.Resolves parsed resolved := by
  induction first generalizing resolved with
  | nil => exact id
  | cons head tail inductionHypothesis =>
    intro second
    cases second with
    | cons nextHead nextTail => exact .cons (head.trans nextHead) (inductionHypothesis nextTail)

theorem resolvePayloadField_resolves {layout : BoundedPayloadIr} :
    ∀ {fields after : List FieldIr} {index : Nat} {found : List Nat},
      resolvePayloadField layout fields index = .ok (after, found) →
        List.Forall₂ FieldIr.Resolves fields after := by
  intro fields
  induction fields with
  | nil =>
    intro after index found run
    obtain ⟨rfl, rfl⟩ := Prod.mk.inj (Except.ok.inj run)
    exact .nil
  | cons field rest inductionHypothesis =>
    intro after index found run
    simp only [resolvePayloadField] at run
    split at run
    · obtain ⟨⟨later, indices⟩, recursion, run⟩ := bind_eq_ok.mp run
      obtain ⟨rfl, rfl⟩ := Prod.mk.inj (Except.ok.inj run)
      exact .cons (.refl field) (inductionHypothesis recursion)
    · simp only [bind_eq_ok, rejectIf_eq_ok, exists_const, not_or, not_not] at run
      obtain ⟨⟨-, codec, -⟩, ⟨later, indices⟩, recursion, run⟩ := run
      obtain ⟨rfl, rfl⟩ := Prod.mk.inj (Except.ok.inj run)
      exact .cons ⟨rfl, fun _ => rfl, fun other => absurd codec other, rfl⟩
        (inductionHypothesis recursion)

theorem placeField_resolves {message : MessageIr} {field placed : FieldIr}
    {tally after : FieldTally} (run : placeField message field tally = .ok (placed, after)) :
    field.Resolves placed := by
  unfold placeField at run
  split at run
  · rename_i codec
    unfold placeMember at run
    split at run
    · cases run
    · simp only [bind_eq_ok, rejectIf_eq_ok, exists_const] at run
      obtain ⟨-, -, -, run⟩ := run
      obtain ⟨rfl, -⟩ := Prod.mk.inj (Except.ok.inj run)
      exact ⟨rfl, fun other => absurd codec other, fun _ => rfl, rfl⟩
  · simp only [bind_eq_ok, rejectIf_eq_ok, exists_const] at run
    obtain ⟨-, run⟩ := run
    obtain ⟨rfl, -⟩ := Prod.mk.inj (Except.ok.inj run)
    exact .refl field

theorem validateConversion_resolves {field converted : FieldIr} {tally after : FieldTally}
    (run : validateConversion field tally = .ok (converted, after)) :
    field.Resolves converted := by
  unfold validateConversion at run
  cases conversion : field.conversion with
  | none =>
    simp only [conversion] at run
    obtain ⟨rfl, -⟩ := Prod.mk.inj (Except.ok.inj run)
    exact .refl field
  | some parsed =>
    simp only [conversion] at run
    split at run
    · cases run
    · obtain ⟨derived, -, run⟩ := bind_eq_ok.mp run
      obtain ⟨rfl, -⟩ := Prod.mk.inj (Except.ok.inj run)
      exact ⟨rfl, fun _ => rfl, fun _ => rfl, by rw [conversion]; rfl⟩

theorem convertField_parts {message : MessageIr} {placed validated : FieldIr}
    {placedTally after : FieldTally}
    (run : (do
      let tally ← validateComputed message placed placedTally
      validateConstants placed
      let (converted, tally) ← validateConversion placed tally
      let tally ← validateEnumeration converted tally
      pure (converted, tally)) = Except.ok (validated, after)) :
    ∃ computed, validateComputed message placed placedTally = .ok computed ∧
      ∃ convertedTally, validateConversion placed computed = .ok (validated, convertedTally) ∧
        validateEnumeration validated convertedTally = .ok after := by
  simp only [bind_eq_ok] at run
  obtain ⟨computed, measure, _, -, ⟨converted, convertedTally⟩, convert, last, enumerate, run⟩ :=
    run
  obtain ⟨rfl, rfl⟩ := Prod.mk.inj (Except.ok.inj run)
  exact ⟨computed, measure, convertedTally, convert, enumerate⟩

/-- The steps of a validated field that change the field or the tally. -/
theorem validateField_parts {message : MessageIr} {index : Nat} {field validated : FieldIr}
    {tally after : FieldTally}
    (run : validateField message index field tally = .ok (validated, after)) :
    ∃ placed placedTally,
      placeField message field { tally with taken := field.id :: tally.taken } =
        .ok (placed, placedTally) ∧
      ∃ computed, validateComputed message placed placedTally = .ok computed ∧
        ∃ convertedTally, validateConversion placed computed = .ok (validated, convertedTally) ∧
          validateEnumeration validated convertedTally = .ok after := by
  simp only [validateField, bind_eq_ok, rejectIf_eq_ok, exists_const] at run
  obtain ⟨-, ⟨placed, placedTally⟩, place, run⟩ := run
  refine ⟨placed, placedTally, place, ?_⟩
  cases layout : message.boundedPayload with
  | none =>
    rw [layout] at run
    exact convertField_parts run
  | some bounded =>
    rw [layout] at run
    dsimp only at run
    by_cases header : index ≠ bounded.payloadFieldIndex
    · rw [if_pos header] at run
      obtain ⟨_, -, run⟩ := bind_eq_ok.mp run
      exact convertField_parts run
    · rw [if_neg header] at run
      exact convertField_parts run

theorem validateField_resolves {message : MessageIr} {index : Nat} {field validated : FieldIr}
    {tally after : FieldTally}
    (run : validateField message index field tally = .ok (validated, after)) :
    field.Resolves validated := by
  obtain ⟨placed, _, place, _, -, _, convert, -⟩ := validateField_parts run
  exact (placeField_resolves place).trans (validateConversion_resolves convert)

theorem validateFields_resolves {message : MessageIr} :
    ∀ {fields validated : List FieldIr} {index : Nat} {tally after : FieldTally},
      validateFields message fields index tally = .ok (validated, after) →
        List.Forall₂ FieldIr.Resolves fields validated := by
  intro fields
  induction fields with
  | nil =>
    intro validated index tally after run
    obtain ⟨rfl, -⟩ := Prod.mk.inj (Except.ok.inj run)
    exact .nil
  | cons field rest inductionHypothesis =>
    intro validated index tally after run
    simp only [validateFields, bind_eq_ok] at run
    obtain ⟨⟨head, _⟩, step, ⟨later, _⟩, recursion, run⟩ := run
    obtain ⟨rfl, -⟩ := Prod.mk.inj (Except.ok.inj run)
    exact .cons (validateField_resolves step) (inductionHypothesis recursion)

/-! ### Messages -/

theorem validateTextSegments_resolves {fields : List FieldIr} :
    ∀ {segments resolved : List TextSegmentIr} {tally after : TextTally},
      validateTextSegments fields segments tally = .ok (resolved, after) →
        List.Forall₂ TextSegmentIr.Resolves segments resolved := by
  intro segments
  induction segments with
  | nil =>
    intro resolved tally after run
    obtain ⟨rfl, -⟩ := Prod.mk.inj (Except.ok.inj run)
    exact .nil
  | cons segment rest inductionHypothesis =>
    intro resolved tally after run
    simp only [validateTextSegments, bind_eq_ok] at run
    obtain ⟨⟨head, _⟩, step, ⟨later, _⟩, recursion, run⟩ := run
    obtain ⟨rfl, -⟩ := Prod.mk.inj (Except.ok.inj run)
    refine .cons ?_ (inductionHypothesis recursion)
    unfold validateTextSegment at step
    cases kind : segment.kind with
    | literal =>
      simp only [kind] at step
      split at step
      · obtain ⟨rfl, -⟩ := Prod.mk.inj (Except.ok.inj step)
        exact ⟨rfl, fun _ => rfl⟩
      · cases step
    | field =>
      simp only [kind] at step
      split at step
      · cases step
      · simp only [bind_eq_ok, rejectIf_eq_ok, exists_const] at step
        obtain ⟨-, step⟩ := step
        split at step
        · cases step
        · simp only [bind_eq_ok, rejectIf_eq_ok, exists_const] at step
          obtain ⟨-, step⟩ := step
          obtain ⟨rfl, -⟩ := Prod.mk.inj (Except.ok.inj step)
          exact ⟨by simp only [kind], fun literal => by rw [kind] at literal; cases literal⟩

theorem validateDirection_resolves {fields : List FieldIr} {action resolved : Option TextActionIr}
    {references : List Nat} {requirements after : ResourceRequirements}
    (run : validateDirection fields action requirements = .ok (resolved, references, after)) :
    Option.Rel TextActionIr.Resolves action resolved := by
  cases action with
  | none =>
    obtain ⟨rfl, -⟩ := Prod.mk.inj (Except.ok.inj run)
    exact .none
  | some action =>
    simp only [validateDirection, validateTextAction, bind_eq_ok] at run
    obtain ⟨⟨after, _, _⟩, ⟨⟨segments, _⟩, walk, counted⟩, run⟩ := run
    obtain ⟨rfl, -⟩ := Prod.mk.inj (Except.ok.inj run)
    split at counted
    · cases counted
    · obtain ⟨rfl, -⟩ := Prod.mk.inj (Except.ok.inj counted)
      exact .some (validateTextSegments_resolves walk)

theorem validateAsciiMessage_resolves {message validated : MessageIr} {layout : AsciiTextLayoutIr}
    (text : message.asciiText = some layout) {requirements after : ResourceRequirements}
    (run : validateAsciiMessage message layout requirements = .ok (validated, after)) :
    message.Resolves validated := by
  simp only [validateAsciiMessage, bind_eq_ok, rejectIf_eq_ok, exists_const] at run
  obtain ⟨-, _, -, ⟨decode, _, _⟩, decodes, ⟨encode, _, _⟩, encodes, _, -, -, run⟩ := run
  split at run
  · cases run
  · obtain ⟨rfl, -⟩ := Prod.mk.inj (Except.ok.inj run)
    refine ⟨rfl, forall₂_refl, rfl, ?_⟩
    rw [text]
    exact .some ⟨rfl, validateDirection_resolves decodes, validateDirection_resolves encodes⟩

theorem validateBoundedPayload_resolves {message bounded : MessageIr} {layout : BoundedPayloadIr}
    (present : message.boundedPayload = some layout) (binary : message.asciiText = none)
    (run : validateBoundedPayload message layout = .ok bounded) : message.Resolves bounded := by
  simp only [validateBoundedPayload, bind_eq_ok, rejectIf_eq_ok, exists_const] at run
  obtain ⟨-, -, ⟨fields, found⟩, resolve, run⟩ := run
  split at run
  · obtain rfl := Except.ok.inj run
    refine ⟨rfl, resolvePayloadField_resolves resolve, by rw [present]; rfl, ?_⟩
    rw [binary]
    exact .none
  · cases run

theorem MessageIr.Resolves.of_fields {parsed bounded : MessageIr} {fields : List FieldIr}
    (first : parsed.Resolves bounded)
    (second : List.Forall₂ FieldIr.Resolves bounded.fields fields) :
    parsed.Resolves { bounded with fields := fields } :=
  ⟨by rw [first.rest], forall₂_trans first.fields second, first.boundedPayload, first.asciiText⟩

theorem countedMessage_parts {bounded validated : MessageIr}
    {requirements after : ResourceRequirements}
    (run : (match countMessage bounded requirements with
      | none => Except.error (domain .internalContractViolation bounded.origin.jsonPointer
          "resource count overflow")
      | some requirements => do
        let spans ← validateContainers bounded bounded.bitContainers []
        let (fields, tally) ← validateFields bounded bounded.fields 0
          { spans := spans
            memberMasks := bounded.bitContainers.map fun _ => 0
            memberCounts := bounded.bitContainers.map fun _ => 0
            requirements := requirements }
        let message := { bounded with fields := fields }
        validateOccupation message tally
        pure (message, tally.requirements)) = Except.ok (validated, after)) :
    ∃ counted start fields last, countMessage bounded requirements = some counted ∧
      start.requirements = counted ∧
      validateFields bounded bounded.fields 0 start = .ok (fields, last) ∧
      after = last.requirements ∧ validated = { bounded with fields := fields } := by
  cases count : countMessage bounded requirements with
  | none =>
    rw [count] at run
    cases run
  | some counted =>
    rw [count] at run
    simp only [bind_eq_ok] at run
    obtain ⟨spans, -, ⟨fields, last⟩, walk, _, -, run⟩ := run
    obtain ⟨rfl, rfl⟩ := Prod.mk.inj (Except.ok.inj run)
    exact ⟨counted, _, fields, last, rfl, rfl, walk, rfl, rfl⟩

/-- The steps of a validated binary message that change the message or the requirements. -/
theorem validateBinaryMessage_parts {message validated : MessageIr}
    {requirements after : ResourceRequirements}
    (run : validateBinaryMessage message requirements = .ok (validated, after)) :
    ∃ bounded counted start fields last, countMessage bounded requirements = some counted ∧
      start.requirements = counted ∧
      validateFields bounded bounded.fields 0 start = .ok (fields, last) ∧
      after = last.requirements ∧ validated = { bounded with fields := fields } ∧
      (message.boundedPayload = none ∧ bounded = message ∨ ∃ layout,
        message.boundedPayload = some layout ∧
          validateBoundedPayload message layout = .ok bounded) := by
  unfold validateBinaryMessage at run
  cases layout : message.boundedPayload with
  | none =>
    rw [layout] at run
    obtain ⟨counted, start, fields, last, parts⟩ := countedMessage_parts run
    obtain ⟨count, starts, walk, same, result⟩ := parts
    exact ⟨message, counted, start, fields, last, count, starts, walk, same, result,
      .inl ⟨rfl, rfl⟩⟩
  | some parsed =>
    rw [layout] at run
    obtain ⟨bounded, derived, run⟩ := bind_eq_ok.mp run
    obtain ⟨counted, start, fields, last, parts⟩ := countedMessage_parts run
    obtain ⟨count, starts, walk, same, result⟩ := parts
    exact ⟨bounded, counted, start, fields, last, count, starts, walk, same, result,
      .inr ⟨parsed, rfl, derived⟩⟩

theorem validateBinaryMessage_resolves {message validated : MessageIr}
    (binary : message.asciiText = none) {requirements after : ResourceRequirements}
    (run : validateBinaryMessage message requirements = .ok (validated, after)) :
    message.Resolves validated := by
  obtain ⟨bounded, _, _, fields, _, -, -, walk, -, rfl, source⟩ := validateBinaryMessage_parts run
  have resolves : message.Resolves bounded := by
    rcases source with ⟨-, rfl⟩ | ⟨layout, present, derived⟩
    · refine ⟨rfl, forall₂_refl, rfl, ?_⟩
      rw [binary]
      exact .none
    · exact validateBoundedPayload_resolves present binary derived
  exact resolves.of_fields (validateFields_resolves walk)

theorem validateMessageDomain_resolves {message validated : MessageIr}
    {requirements after : ResourceRequirements}
    (run : validateMessageDomain message requirements = .ok (validated, after)) :
    message.Resolves validated := by
  unfold validateMessageDomain at run
  cases text : message.asciiText with
  | none =>
    rw [text] at run
    exact validateBinaryMessage_resolves text run
  | some layout =>
    rw [text] at run
    exact validateAsciiMessage_resolves text run

theorem validateMessages_resolves :
    ∀ {messages validated : List MessageIr} {requirements after : ResourceRequirements},
      validateMessages messages requirements = .ok (validated, after) →
        List.Forall₂ MessageIr.Resolves messages validated := by
  intro messages
  induction messages with
  | nil =>
    intro validated requirements after run
    obtain ⟨rfl, -⟩ := Prod.mk.inj (Except.ok.inj run)
    exact .nil
  | cons message rest inductionHypothesis =>
    intro validated requirements after run
    simp only [validateMessages, bind_eq_ok] at run
    obtain ⟨⟨head, _⟩, step, ⟨later, _⟩, recursion, run⟩ := run
    obtain ⟨rfl, -⟩ := Prod.mk.inj (Except.ok.inj run)
    exact .cons (validateMessageDomain_resolves step) (inductionHypothesis recursion)

/-! ### The package -/

theorem mapM_length {α β : Type} {step : α → Compiled β} :
    ∀ {items : List α} {results : List β}, items.mapM step = .ok results →
      results.length = items.length := by
  intro items
  induction items with
  | nil =>
    intro results run
    obtain rfl := Except.ok.inj run
    rfl
  | cons item rest inductionHypothesis =>
    intro results run
    simp only [List.mapM_cons, bind_eq_ok, pure_eq_ok] at run
    obtain ⟨head, -, later, recursion, rfl⟩ := run
    rw [List.length_cons, List.length_cons, inductionHypothesis recursion]

/-- A validated schema resolves the parsed one, and every pipeline of it is resolved. -/
theorem validateSchema_resolves {schema : SchemaIr} {parts : ValidatedParts}
    (run : validateSchema schema = .ok parts) :
    schema.Resolves parts.schema ∧
      parts.resolvedPipelines.length = parts.schema.pipelines.length := by
  simp only [validateSchema, bind_eq_ok] at run
  obtain ⟨_, -, _, -, _, -, _, -, ⟨messages, _⟩, walk, pipelines, resolve, run⟩ := run
  obtain rfl := Except.ok.inj run
  exact ⟨⟨rfl, validateMessages_resolves walk⟩, mapM_length resolve⟩

/-! ### The counts of the package -/

/-- The counts of profiles, pipelines and messages, which no message changes. -/
structure SameCounts (before after : ResourceRequirements) : Prop where
  framings : after.framingProfileCount = before.framingProfileCount
  pipelines : after.pipelineCount = before.pipelineCount
  messages : after.messageCount = before.messageCount

theorem SameCounts.refl (requirements : ResourceRequirements) :
    SameCounts requirements requirements := ⟨rfl, rfl, rfl⟩

theorem SameCounts.trans {before middle after : ResourceRequirements}
    (first : SameCounts before middle) (second : SameCounts middle after) :
    SameCounts before after :=
  ⟨second.framings.trans first.framings, second.pipelines.trans first.pipelines,
    second.messages.trans first.messages⟩

theorem validateDirection_counts {fields : List FieldIr} {action resolved : Option TextActionIr}
    {references : List Nat} {requirements after : ResourceRequirements}
    (run : validateDirection fields action requirements = .ok (resolved, references, after)) :
    SameCounts requirements after := by
  cases action with
  | none =>
    obtain ⟨-, same⟩ := Prod.mk.inj (Except.ok.inj run)
    obtain ⟨-, rfl⟩ := Prod.mk.inj same
    exact .refl _
  | some action =>
    simp only [validateDirection, validateTextAction, bind_eq_ok] at run
    obtain ⟨⟨_, _, _⟩, ⟨⟨segments, _⟩, -, counted⟩, run⟩ := run
    split at counted
    · cases counted
    · cases counted
      cases run
      exact ⟨rfl, rfl, rfl⟩

theorem validateAsciiMessage_counts {message validated : MessageIr} {layout : AsciiTextLayoutIr}
    {requirements after : ResourceRequirements}
    (run : validateAsciiMessage message layout requirements = .ok (validated, after)) :
    SameCounts requirements after := by
  simp only [validateAsciiMessage, bind_eq_ok, rejectIf_eq_ok, exists_const] at run
  obtain ⟨-, _, -, ⟨_, _, _⟩, decodes, ⟨_, _, _⟩, encodes, _, -, -, run⟩ := run
  split at run
  · cases run
  · cases run
    obtain ⟨framings, pipelines, messages⟩ :=
      (validateDirection_counts decodes).trans (validateDirection_counts encodes)
    exact ⟨framings, pipelines, messages⟩

theorem placeField_counts {message : MessageIr} {field placed : FieldIr}
    {tally after : FieldTally} (run : placeField message field tally = .ok (placed, after)) :
    after.requirements = tally.requirements := by
  unfold placeField at run
  split at run
  · unfold placeMember at run
    split at run
    · cases run
    · simp only [bind_eq_ok, rejectIf_eq_ok, exists_const] at run
      obtain ⟨-, -, -, run⟩ := run
      cases run
      rfl
  · simp only [bind_eq_ok, rejectIf_eq_ok, exists_const] at run
    obtain ⟨-, run⟩ := run
    cases run
    rfl

theorem validateComputed_counts {message : MessageIr} {field : FieldIr} {tally after : FieldTally}
    (run : validateComputed message field tally = .ok after) :
    after.requirements = tally.requirements := by
  unfold validateComputed at run
  split at run
  · obtain ⟨_, -, run⟩ := bind_eq_ok.mp run
    cases run
    rfl
  · simp only [bind_eq_ok, rejectIf_eq_ok, exists_const] at run
    obtain ⟨-, run⟩ := run
    cases run
    rfl

theorem validateConversion_counts {field converted : FieldIr} {tally after : FieldTally}
    (run : validateConversion field tally = .ok (converted, after)) :
    SameCounts tally.requirements after.requirements := by
  unfold validateConversion at run
  split at run
  · cases run
    exact .refl _
  · split at run
    · cases run
    · obtain ⟨_, -, run⟩ := bind_eq_ok.mp run
      cases run
      exact ⟨rfl, rfl, rfl⟩

theorem validateEnumeration_counts {field : FieldIr} {tally after : FieldTally}
    (run : validateEnumeration field tally = .ok after) :
    SameCounts tally.requirements after.requirements := by
  unfold validateEnumeration at run
  split at run
  · split at run
    · cases run
    · obtain ⟨_, -, run⟩ := bind_eq_ok.mp run
      cases run
      exact ⟨rfl, rfl, rfl⟩
  · cases run
    exact .refl _

theorem validateField_counts {message : MessageIr} {index : Nat} {field validated : FieldIr}
    {tally after : FieldTally}
    (run : validateField message index field tally = .ok (validated, after)) :
    SameCounts tally.requirements after.requirements := by
  obtain ⟨placed, placedTally, place, computed, measure, convertedTally, convert, enumerate⟩ :=
    validateField_parts run
  have first : SameCounts tally.requirements placedTally.requirements := by
    rw [placeField_counts place]
    exact .refl _
  have second : SameCounts placedTally.requirements computed.requirements := by
    rw [validateComputed_counts measure]
    exact .refl _
  exact ((first.trans second).trans (validateConversion_counts convert)).trans
    (validateEnumeration_counts enumerate)

theorem validateFields_counts {message : MessageIr} :
    ∀ {fields validated : List FieldIr} {index : Nat} {tally after : FieldTally},
      validateFields message fields index tally = .ok (validated, after) →
        SameCounts tally.requirements after.requirements := by
  intro fields
  induction fields with
  | nil =>
    intro validated index tally after run
    cases run
    exact .refl _
  | cons field rest inductionHypothesis =>
    intro validated index tally after run
    simp only [validateFields, bind_eq_ok] at run
    obtain ⟨⟨head, _⟩, step, ⟨later, _⟩, recursion, run⟩ := run
    cases run
    exact (validateField_counts step).trans (inductionHypothesis recursion)

theorem countMessage_counts {message : MessageIr} {requirements after : ResourceRequirements}
    (run : countMessage message requirements = some after) : SameCounts requirements after := by
  simp only [countMessage, Option.bind_eq_bind, Option.bind_eq_some_iff] at run
  obtain ⟨_, -, _, -, _, -, _, -, _, -, run⟩ := run
  cases run
  exact ⟨rfl, rfl, rfl⟩

theorem validateBinaryMessage_counts {message validated : MessageIr}
    {requirements after : ResourceRequirements}
    (run : validateBinaryMessage message requirements = .ok (validated, after)) :
    SameCounts requirements after := by
  obtain ⟨_, counted, _, _, last, count, rfl, walk, rfl, -⟩ := validateBinaryMessage_parts run
  exact (countMessage_counts count).trans (validateFields_counts walk)

theorem validateMessages_counts :
    ∀ {messages validated : List MessageIr} {requirements after : ResourceRequirements},
      validateMessages messages requirements = .ok (validated, after) →
        SameCounts requirements after := by
  intro messages
  induction messages with
  | nil =>
    intro validated requirements after run
    cases run
    exact .refl _
  | cons message rest inductionHypothesis =>
    intro validated requirements after run
    simp only [validateMessages, bind_eq_ok] at run
    obtain ⟨⟨head, _⟩, step, ⟨later, _⟩, recursion, run⟩ := run
    cases run
    refine SameCounts.trans ?_ (inductionHypothesis recursion)
    unfold validateMessageDomain at step
    split at step
    · exact validateAsciiMessage_counts step
    · exact validateBinaryMessage_counts step

theorem foldlM_validateFraming_counts {framings : List FramingProfileIr}
    {requirements after : ResourceRequirements}
    (run : framings.foldlM validateFraming requirements = .ok after) :
    SameCounts requirements after := by
  refine foldlM_ok_preserves (SameCounts requirements) ?_ framings requirements after
    (.refl _) run
  intro state framing next same step
  simp only [validateFraming, bind_eq_ok] at step
  obtain ⟨_, -, step⟩ := step
  split at step
  · simp only [bind_eq_ok, rejectIf_eq_ok, exists_const] at step
    obtain ⟨-, step⟩ := step
    cases step
    exact same.trans ⟨rfl, rfl, rfl⟩
  · cases step
    exact same

/-- The counts of a validated schema. -/
theorem validateSchema_counts {schema : SchemaIr} {parts : ValidatedParts}
    (run : validateSchema schema = .ok parts) :
    parts.requirements.pipelineCount = parts.schema.pipelines.length ∧
      parts.requirements.messageCount = parts.schema.messages.length := by
  have lengths := (validateSchema_resolves run).1.messages.length_eq
  simp only [validateSchema, bind_eq_ok] at run
  obtain ⟨_, -, _, -, _, -, _, framed, ⟨messages, _⟩, walk, pipelines, -, run⟩ := run
  obtain rfl := Except.ok.inj run
  have framing := foldlM_validateFraming_counts framed
  have message := validateMessages_counts walk
  exact ⟨message.pipelines.trans framing.pipelines,
    (message.messages.trans framing.messages).trans lengths⟩

end ProtocolAdapter.ConfigCompiler
