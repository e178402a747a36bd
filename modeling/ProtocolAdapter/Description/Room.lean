/-
This file bounds the metadata block of a budgeted document: the profile limits its records,
the structural stage limits each of its texts, so the account of the block can always be
represented.
-/

import ProtocolAdapter.Description.Layout

namespace ProtocolAdapter.Description

open Foundation ConfigCompiler

/-! ### The limits of a budget -/

/-- The records of a schema stay within the limits of a profile. -/
structure WithinLimits (limits : ResourceProfileLimits) (schema : SchemaIr) : Prop where
  pipelines : schema.pipelines.length ≤ limits.maxPipelines
  messages : schema.messages.length ≤ limits.maxMessages
  fields : ∀ message ∈ schema.messages, message.fields.length ≤ limits.maxFieldsPerMessage
  entries : ∀ message ∈ schema.messages, ∀ field ∈ message.fields,
    field.enumEntries.length ≤ limits.maxEnumEntriesPerField

theorem forM_ok {α : Type} {check : α → Compiled Unit} :
    ∀ {items : List α}, items.forM check = .ok () → ∀ item ∈ items, check item = .ok () := by
  intro items
  induction items with
  | nil => intro run item member; cases member
  | cons head rest inductionHypothesis =>
    intro run item member
    obtain ⟨_, first, later⟩ := bind_eq_ok.mp run
    rcases List.mem_cons.mp member with rfl | inside
    · exact first
    · exact inductionHypothesis later item inside

theorem checkResourceCount_le {value limit : Nat} {pointer detail : String}
    (run : checkResourceCount value limit pointer detail = .ok ()) : value ≤ limit :=
  Nat.not_lt.mp (rejectIf_eq_ok.mp run)

theorem checkMessageCounts_le {limits : ResourceProfileLimits} {message : MessageIr}
    (run : checkMessageCounts limits message = .ok ()) :
    message.fields.length ≤ limits.maxFieldsPerMessage ∧
      ∀ field ∈ message.fields, field.enumEntries.length ≤ limits.maxEnumEntriesPerField := by
  simp only [checkMessageCounts, bind_eq_ok] at run
  obtain ⟨_, fields, _, -, _, -, _, entries, -⟩ := run
  exact ⟨checkResourceCount_le fields,
    fun field member => checkResourceCount_le (forM_ok entries field member)⟩

/-- The budget of a document bounds the records of its schema. -/
theorem withinLimits_of_accepted {document : JsonValue} {target : TargetLayout}
    {parsed : SchemaIr} {budgeted : BudgetedParts}
    (accepted : Accepted document target parsed budgeted) :
    WithinLimits (getResourceProfileLimits budgeted.validated.schema.resourceProfile)
      budgeted.validated.schema := by
  obtain ⟨pipelineCount, messageCount⟩ := validateSchema_counts accepted.validates
  have approves := accepted.approves
  simp only [approveBudget, bind_eq_ok] at approves
  obtain ⟨_, -, _, counts, _, messages, -⟩ := approves
  simp only [checkPackageCounts, bind_eq_ok] at counts
  obtain ⟨_, -, _, pipelines, _, messageLimit, -⟩ := counts
  have each := forM_ok messages
  exact
    { pipelines := pipelineCount ▸ checkResourceCount_le pipelines
      messages := messageCount ▸ checkResourceCount_le messageLimit
      fields := fun message member => (checkMessageCounts_le (each message member)).1
      entries := fun message member => (checkMessageCounts_le (each message member)).2 }

/-! ### The texts of a schema -/

theorem FieldIr.Resolves.texts {parsed resolved : FieldIr} (resolves : parsed.Resolves resolved) :
    fieldTexts resolved = fieldTexts parsed := by
  rw [resolves.rest]
  rfl

theorem fieldTexts_of_resolves {parsed resolved : List FieldIr}
    (resolves : List.Forall₂ FieldIr.Resolves parsed resolved) :
    resolved.flatMap fieldTexts = parsed.flatMap fieldTexts := by
  induction resolves with
  | nil => rfl
  | cons head tail inductionHypothesis =>
    rw [List.flatMap_cons, List.flatMap_cons, FieldIr.Resolves.texts head, inductionHypothesis]

theorem messageTexts_of_resolves {parsed resolved : List MessageIr}
    (resolves : List.Forall₂ MessageIr.Resolves parsed resolved) :
    resolved.flatMap messageTexts = parsed.flatMap messageTexts := by
  induction resolves with
  | nil => rfl
  | @cons message other rest others head tail inductionHypothesis =>
    have own : messageTexts other = messageTexts message := by
      rw [messageTexts, fieldTexts_of_resolves head.fields, head.rest]
      rfl
    rw [List.flatMap_cons, List.flatMap_cons, own, inductionHypothesis]

/-- Validation keeps the texts of a schema. -/
theorem schemaTexts_of_resolves {parsed resolved : SchemaIr}
    (resolves : parsed.Resolves resolved) : schemaTexts resolved = schemaTexts parsed := by
  rw [schemaTexts, messageTexts_of_resolves resolves.messages, resolves.rest]
  rfl

theorem shortTexts_of_parsed {schema : SchemaIr} (parsed : schema.Parsed) :
    ∀ text ∈ schemaTexts schema, ShortText text := by
  intro text member
  simp only [schemaTexts, pipelineTexts, messageTexts, fieldTexts, List.mem_append,
    List.mem_flatMap, List.mem_cons, List.not_mem_nil, or_false, List.mem_map] at member
  rcases member with (rfl | rfl | rfl) | ⟨pipeline, inside, rfl | rfl | rfl⟩ |
    ⟨message, inside, (rfl | rfl | rfl) | ⟨field, fieldInside, (rfl | rfl | rfl) |
      ⟨entry, entryInside, rfl⟩⟩⟩
  · exact parsed.displayName
  · exact parsed.description
  · exact parsed.sourceRef
  · exact (parsed.pipelines pipeline inside).1
  · exact (parsed.pipelines pipeline inside).2.1
  · exact (parsed.pipelines pipeline inside).2.2
  · exact (parsed.messages message inside).displayName
  · exact (parsed.messages message inside).description
  · exact (parsed.messages message inside).sourceRef
  · exact ((parsed.messages message inside).fields field fieldInside).displayName
  · exact ((parsed.messages message inside).fields field fieldInside).description
  · exact ((parsed.messages message inside).fields field fieldInside).sourceRef
  · exact ((parsed.messages message inside).fields field fieldInside).entries entry entryInside

/-! ### The account -/

theorem sum_le_of_each {α : Type} {measure : α → Nat} {bound : Nat} {items : List α}
    (each : ∀ item ∈ items, measure item ≤ bound) :
    (items.map measure).sum ≤ items.length * bound := by
  have total := List.sum_le_card_nsmul (items.map measure) bound (by
    intro value member
    obtain ⟨item, inside, rfl⟩ := List.mem_map.mp member
    exact each item inside)
  rwa [List.length_map, smul_eq_mul] at total

theorem length_textsBytes_le {texts : List String} (short : ∀ text ∈ texts, ShortText text) :
    (textsBytes texts).length ≤ texts.length * textLimit := by
  rw [textsBytes, List.length_flatMap]
  exact sum_le_of_each fun text member => short text member

/-- The records of a schema bound the number of its texts. -/
theorem length_schemaTexts (schema : SchemaIr) : (schemaTexts schema).length =
    3 + 3 * schema.pipelines.length + 3 * schema.messages.length + 3 * schemaFieldCount schema +
      schemaEntryCount schema := by
  have fields : ∀ fields : List FieldIr, (fields.flatMap fieldTexts).length =
      3 * fields.length + (fields.map fun field => field.enumEntries.length).sum := by
    intro fields
    induction fields with
    | nil => rfl
    | cons field rest inductionHypothesis =>
      simp only [List.flatMap_cons, List.length_append, inductionHypothesis, fieldTexts,
        List.length_cons, List.length_nil, List.length_map, List.map_cons, List.sum_cons]
      omega
  have messages : ∀ messages : List MessageIr, (messages.flatMap messageTexts).length =
      3 * messages.length + 3 * (messages.map fun message => message.fields.length).sum +
        (messages.map entryCount).sum := by
    intro messages
    induction messages with
    | nil => rfl
    | cons message rest inductionHypothesis =>
      simp only [List.flatMap_cons, List.length_append, inductionHypothesis, messageTexts, fields,
        List.length_cons, List.length_nil, List.map_cons, List.sum_cons, entryCount]
      omega
  have pipelines : ∀ pipelines : List PipelineIr, (pipelines.flatMap pipelineTexts).length =
      3 * pipelines.length := by
    intro pipelines
    induction pipelines with
    | nil => rfl
    | cons pipeline rest inductionHypothesis =>
      simp only [List.flatMap_cons, List.length_append, inductionHypothesis, pipelineTexts,
        List.length_cons, List.length_nil]
      omega
  simp only [schemaTexts, List.length_append, pipelines, messages, List.length_cons,
    List.length_nil, schemaFieldCount, schemaEntryCount]
  omega

theorem profileLimits_le (profile : ResourceProfile) :
    (getResourceProfileLimits profile).maxPipelines ≤ 32 ∧
      (getResourceProfileLimits profile).maxMessages ≤ 64 ∧
      (getResourceProfileLimits profile).maxFieldsPerMessage ≤ 2048 ∧
      (getResourceProfileLimits profile).maxEnumEntriesPerField ≤ 4096 := by
  cases profile <;> decide

/-- The block of a schema within the limits of a profile can be represented. -/
theorem represented_of_withinLimits {profile : ResourceProfile} {schema : SchemaIr}
    (within : WithinLimits (getResourceProfileLimits profile) schema)
    (short : ∀ text ∈ schemaTexts schema, ShortText text) :
    tableBytes (schemaInput schema) + (textsBytes (schemaTexts schema)).length ≤ maxUint64 := by
  obtain ⟨pipelineLimit, messageLimit, fieldLimit, entryLimit⟩ := profileLimits_le profile
  have pipelines := within.pipelines.trans pipelineLimit
  have messages := within.messages.trans messageLimit
  have fields : schemaFieldCount schema ≤ 64 * 2048 :=
    (sum_le_of_each fun message member => (within.fields message member).trans fieldLimit).trans
      (Nat.mul_le_mul_right _ messages)
  have entries : schemaEntryCount schema ≤ 64 * (2048 * 4096) := by
    refine (sum_le_of_each fun message member => ?_).trans (Nat.mul_le_mul_right _ messages)
    exact (sum_le_of_each fun field inside =>
        (within.entries message member field inside).trans entryLimit).trans
      (Nat.mul_le_mul_right _ ((within.fields message member).trans fieldLimit))
  have texts := length_textsBytes_le short
  rw [length_schemaTexts, textLimit] at texts
  simp only [tableBytes, schemaInput, maxUint64]
  omega

/-- The block of a budgeted document can be represented. -/
theorem represented_of_accepted {document : JsonValue} {target : TargetLayout}
    {parsed : SchemaIr} {budgeted : BudgetedParts}
    (accepted : Accepted document target parsed budgeted) :
    tableBytes (schemaInput budgeted.validated.schema) +
      (textsBytes (schemaTexts budgeted.validated.schema)).length ≤ maxUint64 := by
  have short := shortTexts_of_parsed (buildSchemaIr_parsed accepted.parses)
  rw [← schemaTexts_of_resolves accepted.resolves] at short
  exact represented_of_withinLimits (withinLimits_of_accepted accepted) short

end ProtocolAdapter.Description
