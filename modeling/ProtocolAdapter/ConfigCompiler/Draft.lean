/-
This file relates the draft of a budgeted schema to the schema: its messages, fields and
enumeration entries are those of the schema, in order, and only bit members name a
container, so that the builder can take the draft.
-/

import ProtocolAdapter.Builder.Frozen
import ProtocolAdapter.ConfigCompiler.Compile
import ProtocolAdapter.ConfigCompiler.Parsed
import ProtocolAdapter.ConfigCompiler.Resolution

namespace ProtocolAdapter.ConfigCompiler

open Foundation

/-! ### The records of a draft -/

/-- A field plan assembled from a field. -/
def FieldIr.Drafts (field : FieldIr) (plan : FieldPlan) : Prop :=
  ∃ conversions, plan = assembleField field conversions

/-- A message plan assembled from a message. -/
structure MessageIr.Drafts (message : MessageIr) (plan : MessagePlan) : Prop where
  assembled : ∃ conversions, plan = (assembleMessage message conversions).1
  fields : List.Forall₂ FieldIr.Drafts message.fields plan.fields

theorem assembleFields_drafts :
    ∀ (fields : List FieldIr) (conversions : List LinearConversionDescriptor),
      List.Forall₂ FieldIr.Drafts fields (assembleFields fields conversions).1 := by
  intro fields
  induction fields with
  | nil => intro conversions; exact .nil
  | cons field rest inductionHypothesis =>
    intro conversions
    exact .cons ⟨conversions, rfl⟩ (inductionHypothesis _)

theorem assembleMessages_drafts :
    ∀ (messages : List MessageIr) (conversions : List LinearConversionDescriptor),
      List.Forall₂ MessageIr.Drafts messages (assembleMessages messages conversions).1 := by
  intro messages
  induction messages with
  | nil => intro conversions; exact .nil
  | cons message rest inductionHypothesis =>
    intro conversions
    exact .cons ⟨⟨conversions, rfl⟩, assembleFields_drafts message.fields conversions⟩
      (inductionHypothesis _)

/-! ### A budgeted document -/

/-- The stages a budgeted document has passed. -/
structure Accepted (document : JsonValue) (target : TargetLayout) (parsed : SchemaIr)
    (budgeted : BudgetedParts) : Prop where
  parses : buildSchemaIr document = .ok parsed
  validates : validateSchema parsed = .ok budgeted.validated
  approves : approveBudget target budgeted.validated = .ok budgeted

theorem approveBudget_validated {target : TargetLayout} {parts : ValidatedParts}
    {budgeted : BudgetedParts} (run : approveBudget target parts = .ok budgeted) :
    budgeted.validated = parts := by
  simp only [approveBudget, bind_eq_ok] at run
  obtain ⟨_, -, _, -, _, -, run⟩ := run
  split at run
  · cases run
  · obtain ⟨_, -, run⟩ := bind_eq_ok.mp run
    obtain rfl := Except.ok.inj run
    rfl

theorem accepted_of_budgetDocument {target : TargetLayout} {document : JsonValue}
    {budgeted : BudgetedParts} (run : budgetDocument target document = .ok budgeted) :
    ∃ parsed, Accepted document target parsed budgeted := by
  simp only [budgetDocument, parseDocument, bind_eq_ok] at run
  obtain ⟨parsed, ⟨_, -, parses⟩, parts, validates, approves⟩ := run
  obtain rfl := approveBudget_validated approves
  exact ⟨parsed, parses, validates, approves⟩

section

variable {document : JsonValue} {target : TargetLayout} {parsed : SchemaIr}
  {budgeted : BudgetedParts}

theorem Accepted.resolves (accepted : Accepted document target parsed budgeted) :
    parsed.Resolves budgeted.validated.schema :=
  (validateSchema_resolves accepted.validates).1

/-- The messages of the draft are those of the schema. -/
theorem assemble_messages (budgeted : BudgetedParts) :
    List.Forall₂ MessageIr.Drafts budgeted.validated.schema.messages
      (assemble budgeted).messages :=
  assembleMessages_drafts _ _

/-- Only bit members name a container in the draft of a budgeted document. -/
theorem Accepted.draft_resolved (accepted : Accepted document target parsed budgeted) :
    (assemble budgeted).Resolved := by
  intro plan member fieldPlan fieldMember codec
  obtain ⟨position, inside, rfl⟩ := List.getElem_of_mem member
  obtain ⟨fieldPosition, fieldInside, rfl⟩ := List.getElem_of_mem fieldMember
  have drafts := assemble_messages budgeted
  have resolves := accepted.resolves.messages
  have within := drafts.length_eq ▸ inside
  have parsedWithin := resolves.length_eq ▸ within
  have message := drafts.get within inside
  have resolved := resolves.get parsedWithin within
  simp only [List.get_eq_getElem] at message resolved
  have fieldWithin := message.fields.length_eq ▸ fieldInside
  have parsedFieldWithin := resolved.fields.length_eq ▸ fieldWithin
  obtain ⟨conversions, same⟩ := message.fields.get fieldWithin fieldInside
  have field := resolved.fields.get parsedFieldWithin fieldWithin
  simp only [List.get_eq_getElem] at same field
  have unresolved := ((buildSchemaIr_parsed accepted.parses).messages _
    (List.getElem_mem parsedWithin)).fields _ (List.getElem_mem parsedFieldWithin)
  rw [same] at codec ⊢
  have binary : parsed.messages[position].fields[fieldPosition].wire.codec ≠ .bitfield := by
    rw [field.rest] at codec
    exact codec
  exact (field.container binary).trans unresolved.container

/-- The capability the builder takes for a budgeted document. -/
def Accepted.capability (accepted : Accepted document target parsed budgeted) :
    BudgetedPlanDraft where
  draft := assemble budgeted
  resolved := accepted.draft_resolved

/-- A plan the compiler has frozen was frozen from that capability. -/
theorem Accepted.freezes (accepted : Accepted document target parsed budgeted)
    {storage : Option Nat} {plan : PlanBundle}
    (frozen : freezeBudgetedPlanDraft target storage (assemble budgeted) = .ok plan) :
    freeze target accepted.capability storage = .ok plan := by
  unfold freezeBudgetedPlanDraft at frozen
  show freezeImpl target (assemble budgeted) storage = .ok plan
  cases impl : freezeImpl target (assemble budgeted) storage with
  | error failure => rw [impl] at frozen; cases frozen
  | ok result =>
    rw [impl] at frozen
    exact congrArg Except.ok (Except.ok.inj frozen)

end

end ProtocolAdapter.ConfigCompiler
