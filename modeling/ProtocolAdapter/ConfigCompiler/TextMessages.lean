/-
This file follows the templates of text messages from the document to the frozen plan: every
message of a text package declares a template, a segment of it holds a literal or names a
field and never both, and every field is used by one of the templates.
-/

import ProtocolAdapter.Codec.TextTemplate
import ProtocolAdapter.Description.Compiled

namespace ProtocolAdapter.ConfigCompiler

open Foundation Description

open Codec (isTextSchema HasTextAction)

/-! ### The structural stage -/

/-- A segment as the structural stage builds it: a literal names no field, a field holds no
literal. -/
structure TextSegmentIr.Exclusive (segment : TextSegmentIr) : Prop where
  literal : segment.kind = .literal → segment.fieldIndex = invalidIndex
  field : segment.kind = .field → segment.literal = []

/-- A template of such segments. -/
def TextActionIr.Exclusive (action : TextActionIr) : Prop :=
  ∀ segment ∈ action.segments, segment.Exclusive

/-- A message with a declared layout of such templates. -/
def MessageIr.Templated (message : MessageIr) : Prop :=
  ∃ layout, message.asciiText = some layout ∧ (layout.decode ≠ none ∨ layout.encode ≠ none) ∧
    ∀ action, layout.decode = some action ∨ layout.encode = some action → action.Exclusive

theorem parseTextSegment_exclusive {value : JsonValue} {pointer : String} {segment : TextSegmentIr}
    (run : parseTextSegment value pointer = .ok segment) : segment.Exclusive := by
  simp only [parseTextSegment, bind_eq_ok, rejectIf_eq_ok, exists_const] at run
  obtain ⟨-, kind, -, run⟩ := run
  split at run
  · simp only [bind_eq_ok, rejectIf_eq_ok, exists_const, pure_eq_ok] at run
    obtain ⟨_, -, _, -, -, rfl⟩ := run
    exact ⟨fun _ => rfl, fun wrong => by cases wrong⟩
  · simp only [bind_eq_ok, pure_eq_ok] at run
    obtain ⟨_, -, _, -, rfl⟩ := run
    exact ⟨(fun wrong => by cases wrong), fun _ => rfl⟩

theorem parseDirection_exclusive {value : JsonValue} {key pointer : String}
    {direction : Option TextActionIr} (run : parseDirection value key pointer = .ok direction)
    {action : TextActionIr} (declared : direction = some action) : action.Exclusive := by
  subst declared
  rcases ifProperty_eq_ok run with absent | ⟨found, present⟩
  · cases absent
  · simp only [parseTextAction, bind_eq_ok, rejectIf_eq_ok, exists_const, pure_eq_ok] at present
    obtain ⟨_, ⟨-, _, -, _, -, -, -, segments, walk, rfl⟩, same⟩ := present
    obtain rfl := Option.some.inj same
    exact readElements_all (fun _ _ _ parsed => parseTextSegment_exclusive parsed) walk

theorem parseTextMessage_templated {value : JsonValue} {pointer : String} {message : MessageIr}
    (run : parseTextMessage value pointer = .ok message) : message.Templated := by
  simp only [parseTextMessage, parseTextLayout, bind_eq_ok, rejectIf_eq_ok, exists_const,
    pure_eq_ok] at run
  obtain ⟨-, _, -, labels, -, _, -, _, -, layout,
    ⟨-, _, -, _, -, _, -, _, -, decode, decodes, encode, encodes, declared, rfl⟩,
    _, -, _, -, rfl⟩ := run
  refine ⟨_, rfl, not_and_or.mp declared, ?_⟩
  rintro action (has | has)
  · exact parseDirection_exclusive decodes has
  · exact parseDirection_exclusive encodes has

theorem text_versions {schemaVersion : String} (text : isTextSchema schemaVersion = true) :
    schemaVersion = "0.10" ∨ schemaVersion = "0.11" := by
  simpa [isTextSchema] using text

theorem buildSchemaIr_templated {root : JsonValue} {schema : SchemaIr}
    (run : buildSchemaIr root = .ok schema) (text : isTextSchema schema.schemaVersion = true) :
    ∀ message ∈ schema.messages, message.Templated := by
  simp only [buildSchemaIr, bind_eq_ok, rejectIf_eq_ok, exists_const, pure_eq_ok] at run
  obtain ⟨-, _, -, version, -, _, -, _, -, _, -, _, -, -, _, -, _, -, _, -, _, -, _, -, _, -, _, -,
    messages, walk, rfl⟩ := run
  refine readNonemptyArray_all (fun element pointer message parsed => ?_) walk
  unfold parsePackageMessage at parsed
  rw [if_pos (text_versions text)] at parsed
  exact parseTextMessage_templated parsed

/-! ### Validation -/

theorem TextSegmentIr.Exclusive.resolve {parsed resolved : TextSegmentIr}
    (exclusive : parsed.Exclusive) (resolves : parsed.Resolves resolved) :
    resolved.Exclusive := by
  have kind : resolved.kind = parsed.kind := by rw [resolves.rest]
  have literal : resolved.literal = parsed.literal := by rw [resolves.rest]
  refine ⟨fun isLiteral => ?_, fun isField => ?_⟩
  · rw [kind] at isLiteral
    exact (resolves.literal isLiteral).trans (exclusive.literal isLiteral)
  · rw [kind] at isField
    exact literal.trans (exclusive.field isField)

theorem TextActionIr.Exclusive.resolve {parsed resolved : TextActionIr}
    (exclusive : parsed.Exclusive) (resolves : parsed.Resolves resolved) :
    resolved.Exclusive := by
  intro segment member
  obtain ⟨position, inside, rfl⟩ := List.getElem_of_mem member
  have within : position < parsed.segments.length := resolves.length_eq ▸ inside
  exact (exclusive _ (List.getElem_mem within)).resolve (resolves.get within inside)

/-- A direction that is resolved is declared, and has the segments of the parsed one. -/
theorem direction_exclusive {parsed resolved : Option TextActionIr}
    (resolves : Option.Rel TextActionIr.Resolves parsed resolved)
    (exclusive : ∀ action, parsed = some action → action.Exclusive) :
    (parsed ≠ none → resolved ≠ none) ∧
      ∀ action, resolved = some action → action.Exclusive := by
  cases resolves with
  | none => exact ⟨id, nofun⟩
  | some step =>
    refine ⟨fun _ => nofun, ?_⟩
    rintro action ⟨⟩
    exact (exclusive _ rfl).resolve step

theorem MessageIr.Templated.resolve {parsed resolved : MessageIr} (templated : parsed.Templated)
    (resolves : parsed.Resolves resolved) : resolved.Templated := by
  obtain ⟨layout, has, declared, exclusive⟩ := templated
  have text := resolves.asciiText
  rw [has] at text
  cases layoutOf : resolved.asciiText with
  | none => rw [layoutOf] at text; cases text
  | some other =>
    rw [layoutOf] at text
    cases text with
    | some step =>
      obtain ⟨keepsDecode, decodes⟩ :=
        direction_exclusive step.decode fun action is => exclusive action (.inl is)
      obtain ⟨keepsEncode, encodes⟩ :=
        direction_exclusive step.encode fun action is => exclusive action (.inr is)
      refine ⟨other, layoutOf, declared.imp keepsDecode keepsEncode, ?_⟩
      rintro action (is | is)
      · exact decodes action is
      · exact encodes action is

/-! ### The plan -/

/-- A segment of a plan that holds a literal or names a field, never both. -/
structure SegmentExclusive (segment : TextSegmentPlan) : Prop where
  literal : segment.kind = .literal → segment.fieldIndex = invalidIndex
  field : segment.kind = .field → segment.literal = []

theorem SegmentExclusive.of_assembled {segment : TextSegmentIr} (exclusive : segment.Exclusive) :
    SegmentExclusive (assembleSegment segment) := ⟨exclusive.literal, exclusive.field⟩

/-- A field an optional action uses. -/
def UsedBy (action : Option TextActionExecutionPlan) (fieldIndex : Nat) : Prop :=
  ∃ found, action = some found ∧ fieldIndex ∈ referencedFields found.segments

/-- A text message as the compiler delivers it. -/
structure TextMessage (message : MessageExecutionPlan) : Prop where
  declared : message.textDecode ≠ none ∨ message.textEncode ≠ none
  exclusive : ∀ action, HasTextAction message action → ∀ segment ∈ action.segments,
    SegmentExclusive segment
  used : ∀ index, index < message.fields.length →
    UsedBy message.textDecode index ∨ UsedBy message.textEncode index
  input : ∀ (index : Nat) field, message.fields[index]? = some field →
    (field.textEncodeInput = true ↔ UsedBy message.textEncode index)
  count : message.fields.length ≤ 2048

/-- Every field of a prepared text message is used. -/
theorem prepareTextFields_used {messageIndex : Nat} {decodeFields encodeFields : List Nat} :
    ∀ {fields : List FieldPlan} {fieldIndex : Nat} {ids : List String} {ordinal : Nat}
      {result : List FieldExecutionPlan × Nat},
      prepareTextFields messageIndex decodeFields encodeFields fields fieldIndex ids ordinal =
        .ok result →
      ∀ index, index < fields.length →
        fieldIndex + index ∈ decodeFields ∨ fieldIndex + index ∈ encodeFields := by
  intro fields
  induction fields with
  | nil => exact fun _ index inside => absurd inside (Nat.not_lt_zero _)
  | cons field rest inductionHypothesis =>
    intro fieldIndex ids ordinal result run index inside
    simp only [prepareTextFields, bind_eq_ok, rejectIf_eq_ok, exists_const, not_or, not_and_or,
      not_not] at run
    obtain ⟨⟨-, -, -, -, used⟩, -, later, run, -⟩ := run
    cases index with
    | zero => exact used
    | succ index =>
      have next := inductionHypothesis run index (Nat.lt_of_succ_lt_succ inside)
      rwa [Nat.add_assoc, Nat.add_comm 1] at next

/-- The fields a checked action references are those it uses. -/
theorem usedBy_iff {fields : List FieldPlan} {frameSize : Nat} {action : Option TextActionPlan}
    {references : List Nat} (checked : checkTextAction fields frameSize action = some references)
    (index : Nat) : index ∈ references ↔ UsedBy action index := by
  cases action with
  | none =>
    obtain rfl := Option.some.inj checked
    exact ⟨nofun, fun ⟨_, wrong, _⟩ => nomatch wrong⟩
  | some action =>
    rw [(valid_of_checkTextAction checked).2, List.mem_reverse]
    exact ⟨fun member => ⟨action, rfl, member⟩, fun ⟨_, same, member⟩ => by
      rwa [Option.some.inj same]⟩

theorem assembleMessage_asciiText (message : MessageIr)
    (conversions : List LinearConversionDescriptor) :
    (assembleMessage message conversions).1.asciiText = message.asciiText.map assembleText := rfl

/-- The descriptor of a prepared text message. -/
theorem textMessage_of_prepareTextMessage {schemaVersion : String} {messageIndex : Nat}
    {source : MessageIr} {conversions : List LinearConversionDescriptor} {text : AsciiTextPlan}
    {execution : MessageExecutionPlan} (templated : source.Templated)
    (kind : (assembleMessage source conversions).1.asciiText = some text)
    (run : prepareTextMessage schemaVersion messageIndex (assembleMessage source conversions).1
      text = .ok execution)
    (count : (assembleMessage source conversions).1.fields.length ≤ 2048) :
    TextMessage execution := by
  obtain ⟨layout, has, declared, exclusive⟩ := templated
  have same : assembleText layout = text := by
    rw [assembleMessage_asciiText, has] at kind
    exact Option.some.inj kind
  subst same
  have fields := (Codec.prepareTextMessage_counts run).1
  simp only [prepareTextMessage, rejectIf_bind_eq_ok] at run
  obtain ⟨-, run⟩ := run
  split at run
  swap
  · cases run
  rename_i decodeFields encodeFields decodeRun encodeRun
  simp only [bind_eq_ok, pure_eq_ok] at run
  obtain ⟨⟨executions, inputCount⟩, prepared, rfl⟩ := run
  have each := (Codec.prepareTextFields_spec prepared).2.2.2
  refine ⟨?_, ?_, fun index inside => ?_, fun index field found => ?_, fields ▸ count⟩
  · exact declared.imp (fun some' none' => some' (Option.map_eq_none_iff.mp none'))
      fun some' none' => some' (Option.map_eq_none_iff.mp none')
  · rintro action (is | is) segment member
    all_goals
      obtain ⟨parsed, from', rfl⟩ := Option.map_eq_some_iff.mp is
      obtain ⟨original, inside, rfl⟩ := List.mem_map.mp member
    · exact .of_assembled (exclusive parsed (.inl from') original inside)
    · exact .of_assembled (exclusive parsed (.inr from') original inside)
  · have used := prepareTextFields_used prepared index (fields ▸ inside)
    rw [Nat.zero_add, usedBy_iff decodeRun, usedBy_iff encodeRun] at used
    exact used
  · rw [(each index field found).1, Nat.zero_add, decide_eq_true_eq, usedBy_iff encodeRun]

/-- Every message of a compiled text protocol is a text message. -/
theorem textMessage_of_compiled {environment : Environment} {document : JsonValue}
    {parsed : SchemaIr} {budgeted : BudgetedParts} {state : CompiledProtocolArtifacts}
    (compiled : CompiledFrom environment document parsed budgeted state)
    (text : isTextSchema state.plan.schemaVersion = true) {index : Nat}
    {execution : MessageExecutionPlan}
    (found : state.plan.messageExecutionPlans[index]? = some execution) :
    TextMessage execution := by
  have frozen := compiled.frozenFrom
  have resolves := compiled.accepted.resolves
  have version : state.plan.schemaVersion = parsed.schemaVersion := by
    rw [frozen.schemaVersion]
    show budgeted.validated.schema.schemaVersion = _
    rw [resolves.rest]
  rw [version] at text
  obtain ⟨plan, listed, kind⟩ := frozen.preparedAs found
  obtain ⟨inside, here⟩ := List.getElem?_eq_some_iff.mp listed
  have drafts := assemble_messages budgeted
  have within := drafts.length_eq ▸ inside
  have parsedWithin := resolves.messages.length_eq ▸ within
  obtain ⟨conversions, assembled⟩ := (drafts.get within inside).assembled
  have templated := (buildSchemaIr_templated compiled.accepted.parses text _
    (List.getElem_mem parsedWithin)).resolve (resolves.messages.get parsedWithin within)
  have count := (frozen.bounds listed).2.1.trans (profileLimits_le _).2.2.1
  simp only [List.get_eq_getElem] at assembled templated
  rw [here] at assembled
  subst assembled
  cases kind with
  | text layout kind run => exact textMessage_of_prepareTextMessage templated kind run count
  | binary counts loop kind run =>
    obtain ⟨layout, has, -⟩ := templated
    rw [assembleMessage_asciiText, has] at kind
    cases kind

end ProtocolAdapter.ConfigCompiler
