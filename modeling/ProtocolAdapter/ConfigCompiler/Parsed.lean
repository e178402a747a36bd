/-
This file states what the structural stage guarantees of the records it builds: all their
texts are short, and no field names a bit container by its index yet.
-/

import ProtocolAdapter.ConfigCompiler.ParseMessage

namespace ProtocolAdapter.ConfigCompiler

open Foundation

/-! ### Texts -/

/-- The bytes the longest text of a record can take. -/
def textLimit : Nat := 4096

/-- A text of at most as many bytes as the longest one. -/
def ShortText (text : String) : Prop := text.utf8ByteSize ≤ textLimit

theorem utf8ByteSize_ofList_le (characters : List Char) :
    (String.ofList characters).utf8ByteSize ≤ 4 * characters.length := by
  induction characters with
  | nil => rfl
  | cons character rest inductionHypothesis =>
    have first := character.utf8Size_le_four
    rw [← List.singleton_append, String.ofList_append, String.utf8ByteSize_append,
      List.singleton_append, List.length_cons, show String.ofList [character] =
        String.singleton character from rfl, String.utf8ByteSize_singleton]
    omega

theorem utf8ByteSize_le (text : String) : text.utf8ByteSize ≤ 4 * text.length := by
  have bound := utf8ByteSize_ofList_le text.toList
  rwa [String.ofList_toList, String.length_toList] at bound

theorem readString_short {value : JsonValue} {pointer text : String}
    {minLength maxLength : Nat} (small : maxLength ≤ 1024)
    (run : readString value pointer minLength maxLength = .ok text) : ShortText text := by
  simp only [readString, bind_eq_ok, rejectIf_eq_ok, exists_const, pure_eq_ok, not_or,
    not_lt] at run
  obtain ⟨-, ⟨-, length⟩, rfl⟩ := run
  have bound := utf8ByteSize_le value.getStr
  show value.getStr.utf8ByteSize ≤ 4096
  omega

theorem readRequiredString_short {value : JsonValue} {key pointer text : String}
    {minLength maxLength : Nat} (small : maxLength ≤ 1024)
    (run : readRequiredString value key pointer minLength maxLength = .ok text) :
    ShortText text := by
  obtain ⟨found, -, run⟩ := bind_eq_ok.mp run
  exact readString_short small run

theorem readLabels_short {value : JsonValue} {pointer : String} {labels : Labels}
    (run : readLabels value pointer = .ok labels) :
    ShortText labels.displayName ∧ ShortText labels.description ∧ ShortText labels.sourceRef := by
  simp only [readLabels, bind_eq_ok, pure_eq_ok] at run
  obtain ⟨_, -, displayName, display, description, describe, sourceRef, source, rfl⟩ := run
  exact ⟨readRequiredString_short (by decide) display,
    readRequiredString_short (by decide) describe, readRequiredString_short (by decide) source⟩

/-! ### Arrays -/

theorem readElements_all {α : Type} {parseItem : JsonValue → String → Compiled α}
    {motive : α → Prop}
    (each : ∀ element pointer item, parseItem element pointer = .ok item → motive item)
    {pointer : String} : ∀ {elements : List JsonValue} {index : Nat} {items : List α},
      readElements parseItem pointer elements index = .ok items → ∀ item ∈ items, motive item := by
  intro elements
  induction elements with
  | nil =>
    intro index items run item member
    obtain rfl := Except.ok.inj run
    cases member
  | cons element rest inductionHypothesis =>
    intro index items run item member
    simp only [readElements, bind_eq_ok, pure_eq_ok] at run
    obtain ⟨head, parsed, later, recursion, rfl⟩ := run
    rcases List.mem_cons.mp member with rfl | inside
    · exact each _ _ _ parsed
    · exact inductionHypothesis recursion item inside

theorem readNonemptyArray_all {α : Type} {parseItem : JsonValue → String → Compiled α}
    {motive : α → Prop}
    (each : ∀ element pointer item, parseItem element pointer = .ok item → motive item)
    {value : JsonValue} {pointer expected empty : String} {items : List α}
    (run : readNonemptyArray parseItem value pointer expected empty = .ok items) :
    ∀ item ∈ items, motive item := by
  simp only [readNonemptyArray, bind_eq_ok, rejectIf_eq_ok, exists_const] at run
  obtain ⟨-, -, run⟩ := run
  exact readElements_all each run

theorem ifProperty_eq_ok {α : Type} {value : JsonValue} {key : String} {absent : Compiled α}
    {present : JsonValue → Compiled α} {result : α}
    (run : ifProperty value key absent present = .ok result) :
    absent = .ok result ∨ ∃ found, present found = .ok result := by
  unfold ifProperty at run
  split at run
  · exact .inr ⟨_, run⟩
  · exact .inl run

/-! ### Fields -/

/-- A field as the structural stage builds it. -/
structure FieldIr.Parsed (field : FieldIr) : Prop where
  displayName : ShortText field.displayName
  description : ShortText field.description
  sourceRef : ShortText field.sourceRef
  entries : ∀ entry ∈ field.enumEntries, ShortText entry.displayName
  container : field.wire.bitContainerIndex = invalidIndex

theorem parseWire_container {features : Features} {variableLayout : Bool} {valueType : ValueType}
    {value : JsonValue} {pointer : String} {wire : WireIr}
    (run : parseWire features variableLayout valueType value pointer = .ok wire) :
    wire.bitContainerIndex = invalidIndex := by
  unfold parseWire at run
  split at run
  · simp only [parseBitfieldWire, bind_eq_ok, rejectIf_eq_ok, exists_const, pure_eq_ok] at run
    obtain ⟨-, -, _, -, _, -, _, -, _, -, _, -, -, rfl⟩ := run
    rfl
  split at run
  · cases run
  split at run
  · simp only [parseBytesWire, bind_eq_ok, rejectIf_eq_ok, exists_const, pure_eq_ok] at run
    obtain ⟨-, _, -, _, -, _, -, _, -, -, rfl⟩ := run
    rfl
  · simp only [parseUnsignedWire, bind_eq_ok, rejectIf_eq_ok, exists_const, pure_eq_ok] at run
    obtain ⟨-, _, -, _, -, _, -, _, -, -, _, -, rfl⟩ := run
    rfl

theorem parseEnumEntry_short {value : JsonValue} {pointer : String} {entry : EnumEntryIr}
    (run : parseEnumEntry value pointer = .ok entry) : ShortText entry.displayName := by
  simp only [parseEnumEntry, bind_eq_ok, rejectIf_eq_ok, exists_const, pure_eq_ok] at run
  obtain ⟨-, _, -, _, -, displayName, display, _, -, rfl⟩ := run
  exact readRequiredString_short (by decide) display

theorem parseField_parsed {features : Features} {variableLayout : Bool} {value : JsonValue}
    {pointer : String} {field : FieldIr}
    (run : parseField features variableLayout value pointer = .ok field) : field.Parsed := by
  simp only [parseField, bind_eq_ok, rejectIf_eq_ok, exists_const] at run
  obtain ⟨-, name, -, _, -, labels, read, _, -, wire, wired, _, -, encode, -, computed, -,
    conversion, -, run⟩ := run
  obtain ⟨display, describe, source⟩ := readLabels_short read
  have container := parseWire_container wired
  split at run
  · simp only [parseEnumeration, bind_eq_ok, pure_eq_ok] at run
    obtain ⟨_, -, _, -, entries, listed, rfl⟩ := run
    exact ⟨display, describe, source,
      readNonemptyArray_all (fun _ _ _ parsed => parseEnumEntry_short parsed) listed, container⟩
  · obtain rfl := Except.ok.inj run
    exact ⟨display, describe, source, fun entry member => absurd member List.not_mem_nil,
      container⟩

theorem addAllowedAscii_container (wire : WireIr) (value : Nat) :
    (addAllowedAscii wire value).bitContainerIndex = wire.bitContainerIndex := by
  unfold addAllowedAscii
  split <;> rfl

theorem foldl_addAllowedAscii_container (values : List Nat) (wire : WireIr) :
    (values.foldl addAllowedAscii wire).bitContainerIndex = wire.bitContainerIndex := by
  induction values generalizing wire with
  | nil => rfl
  | cons value rest inductionHypothesis =>
    rw [List.foldl_cons, inductionHypothesis, addAllowedAscii_container]

theorem addControlBytes_container {error : CompileDiagnostic} :
    ∀ {bytes : List UInt8} {previous : Int} {wire after : WireIr},
      addControlBytes error bytes previous wire = .ok after →
        after.bitContainerIndex = wire.bitContainerIndex := by
  intro bytes
  induction bytes with
  | nil =>
    intro previous wire after run
    obtain rfl := Except.ok.inj run
    rfl
  | cons byte rest inductionHypothesis =>
    intro previous wire after run
    simp only [addControlBytes, bind_eq_ok, rejectIf_eq_ok, exists_const] at run
    rw [inductionHypothesis run.2, addAllowedAscii_container]

theorem parseTextWire_container {value : JsonValue} {pointer : String} {wire : WireIr}
    (run : parseTextWire value pointer = .ok wire) : wire.bitContainerIndex = invalidIndex := by
  simp only [parseTextWire, bind_eq_ok, rejectIf_eq_ok, exists_const] at run
  obtain ⟨-, _, -, _, -, _, -, _, -, run⟩ := run
  rcases ifProperty_eq_ok run with absent | ⟨controls, present⟩
  · obtain rfl := Except.ok.inj absent
    rw [foldl_addAllowedAscii_container]
  · unfold parseControlBytes at present
    split at present
    · cases present
    · rw [addControlBytes_container present, foldl_addAllowedAscii_container]

theorem parseTextField_parsed {value : JsonValue} {pointer : String} {field : FieldIr}
    (run : parseTextField value pointer = .ok field) : field.Parsed := by
  simp only [parseTextField, bind_eq_ok, rejectIf_eq_ok, exists_const, pure_eq_ok] at run
  obtain ⟨-, _, -, labels, read, _, -, _, -, wire, wired, encode, -, rfl⟩ := run
  obtain ⟨display, describe, source⟩ := readLabels_short read
  exact ⟨display, describe, source, fun entry member => absurd member List.not_mem_nil,
    parseTextWire_container wired⟩

/-! ### Messages -/

/-- A message as the structural stage builds it. -/
structure MessageIr.Parsed (message : MessageIr) : Prop where
  displayName : ShortText message.displayName
  description : ShortText message.description
  sourceRef : ShortText message.sourceRef
  fields : ∀ field ∈ message.fields, field.Parsed

theorem parseMessageLength_labels {features : Features} {value : JsonValue} {pointer : String}
    {message after : MessageIr}
    (run : parseMessageLength features value pointer message = .ok after) :
    after.displayName = message.displayName ∧ after.description = message.description ∧
      after.sourceRef = message.sourceRef := by
  unfold parseMessageLength at run
  split at run
  · simp only [bind_eq_ok, pure_eq_ok] at run
    obtain ⟨_, -, _, -, _, -, rfl⟩ := run
    exact ⟨rfl, rfl, rfl⟩
  · simp only [bind_eq_ok, rejectIf_eq_ok, exists_const, pure_eq_ok] at run
    obtain ⟨_, -, -, rfl⟩ := run
    exact ⟨rfl, rfl, rfl⟩

theorem parsePackageMessage_parsed {schemaVersion : String} {value : JsonValue}
    {pointer : String} {message : MessageIr}
    (run : parsePackageMessage schemaVersion value pointer = .ok message) : message.Parsed := by
  unfold parsePackageMessage at run
  split at run
  · simp only [parseTextMessage, bind_eq_ok, rejectIf_eq_ok, exists_const, pure_eq_ok,
      parseTextFields] at run
    obtain ⟨-, _, -, labels, read, _, -, _, -, _, -, _, -, fields, ⟨-, walk⟩, rfl⟩ := run
    obtain ⟨display, describe, source⟩ := readLabels_short read
    exact ⟨display, describe, source,
      readElements_all (fun _ _ _ parsed => parseTextField_parsed parsed) walk⟩
  · simp only [parseMessage, bind_eq_ok, rejectIf_eq_ok, exists_const, pure_eq_ok] at run
    obtain ⟨-, _, -, labels, read, _, -, bounded, length, _, -, _, -, _, -, fields, walk, _, -, _,
      -, rfl⟩ := run
    obtain ⟨display, describe, source⟩ := readLabels_short read
    obtain ⟨sameDisplay, sameDescribe, sameSource⟩ := parseMessageLength_labels length
    exact ⟨sameDisplay ▸ display, sameDescribe ▸ describe, sameSource ▸ source,
      readNonemptyArray_all (fun _ _ _ parsed => parseField_parsed parsed) walk⟩

/-! ### The package -/

/-- A schema as the structural stage builds it. -/
structure SchemaIr.Parsed (schema : SchemaIr) : Prop where
  displayName : ShortText schema.displayName
  description : ShortText schema.description
  sourceRef : ShortText schema.sourceRef
  pipelines : ∀ pipeline ∈ schema.pipelines, ShortText pipeline.displayName ∧
    ShortText pipeline.description ∧ ShortText pipeline.sourceRef
  messages : ∀ message ∈ schema.messages, message.Parsed

theorem parsePipeline_short {value : JsonValue} {pointer : String} {pipeline : PipelineIr}
    (run : parsePipeline value pointer = .ok pipeline) : ShortText pipeline.displayName ∧
      ShortText pipeline.description ∧ ShortText pipeline.sourceRef := by
  simp only [parsePipeline, bind_eq_ok, rejectIf_eq_ok, exists_const, pure_eq_ok] at run
  obtain ⟨-, _, -, labels, read, _, -, _, -, _, -, _, -, rfl⟩ := run
  exact readLabels_short read

/-- The structural stage builds short texts and unresolved fields. -/
theorem buildSchemaIr_parsed {root : JsonValue} {schema : SchemaIr}
    (run : buildSchemaIr root = .ok schema) : schema.Parsed := by
  simp only [buildSchemaIr, bind_eq_ok, rejectIf_eq_ok, exists_const, pure_eq_ok] at run
  obtain ⟨-, _, -, _, -, _, -, _, -, displayName, display, sourceRef, source, -, description,
    describe, _, -, _, -, _, -, _, -, _, -, pipelines, piped, messages, walk, rfl⟩ := run
  refine ⟨readRequiredString_short (by decide) display, ?_,
    readRequiredString_short (by decide) source,
    readNonemptyArray_all (fun _ _ _ parsed => parsePipeline_short parsed) piped,
    readNonemptyArray_all (fun _ _ _ parsed => parsePackageMessage_parsed parsed) walk⟩
  rcases ifProperty_eq_ok describe with absent | ⟨found, present⟩
  · obtain rfl := Except.ok.inj absent
    exact Nat.zero_le _
  · exact readString_short (by decide) present

end ProtocolAdapter.ConfigCompiler
