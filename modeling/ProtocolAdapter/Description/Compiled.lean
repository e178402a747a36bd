/-
This file states where the parts of a compiled protocol come from: its plan was frozen from
the draft of one budgeted schema, its description is the block of that schema, and so both
have the messages, the fields and the entries of the schema, in order.
-/

import ProtocolAdapter.Codec.FrozenPlan
import ProtocolAdapter.Description.Ranges
import ProtocolAdapter.Description.Room

namespace ProtocolAdapter.Description

open Foundation ConfigCompiler

/-! ### A compiled document -/

/-- A compiled protocol: the stages its document has passed, the freeze of its plan, and its
description. -/
structure CompiledFrom (environment : Environment) (document : JsonValue) (parsed : SchemaIr)
    (budgeted : BudgetedParts) (state : CompiledProtocolArtifacts) : Prop where
  accepted : Accepted document environment.target parsed budgeted
  frozen : freeze environment.target accepted.capability environment.storage = .ok state.plan
  description : state.description = describe budgeted.validated.schema

/-- What a compilation with metadata delivers. -/
theorem compiledFrom_of_run {environment : Environment} {limit : Nat} {jsonBytes : List UInt8}
    {state : CompiledProtocolArtifacts}
    (run : compileJsonToPlanWithMetadata environment limit jsonBytes = .ok state) :
    ∃ document parsed budgeted, CompiledFrom environment document parsed budgeted state := by
  simp only [compileJsonToPlanWithMetadata, compileJsonToBudgetedSchema, compileArtifacts,
    bind_eq_ok, pure_eq_ok] at run
  obtain ⟨budgeted, ⟨document, -, budget⟩, metadata, built, plan, frozen, _, -, rfl⟩ := run
  obtain ⟨parsed, accepted⟩ := accepted_of_budgetDocument budget
  refine ⟨document, parsed, budgeted, accepted, accepted.freezes frozen, ?_⟩
  rw [build_eq (represented_of_accepted accepted)] at built
  split at built
  · cases built
  split at built
  · cases built
  · exact (Except.ok.inj built).symm

section

variable {environment : Environment} {document : JsonValue} {parsed : SchemaIr}
  {budgeted : BudgetedParts} {state : CompiledProtocolArtifacts}

theorem CompiledFrom.frozenFrom
    (compiled : CompiledFrom environment document parsed budgeted state) :
    FrozenFrom environment.target (assemble budgeted) state.plan :=
  frozenFrom_of_freezeImpl compiled.frozen

/-! ### Messages -/

/-- A message of a plan and the message of the schema it was frozen from. -/
structure MessageFreezes (message : MessageIr) (frozen : FrozenMessagePlan) : Prop where
  sameId : frozen.id = message.id
  fields : List.Forall₂ FieldIr.Drafts message.fields frozen.fields

theorem CompiledFrom.messages
    (compiled : CompiledFrom environment document parsed budgeted state) :
    List.Forall₂ MessageFreezes budgeted.validated.schema.messages state.plan.messages := by
  rw [compiled.frozenFrom.messages, List.forall₂_map_right_iff]
  refine (assemble_messages budgeted).imp fun message plan drafts => ?_
  obtain ⟨conversions, assembled⟩ := drafts.assembled
  exact ⟨by rw [assembled]; rfl, drafts.fields⟩

/-- Every message of the plan has a descriptor with as many fields. -/
theorem CompiledFrom.executions
    (compiled : CompiledFrom environment document parsed budgeted state) :
    state.plan.messageExecutionPlans.length = state.plan.messages.length ∧
      ∀ (index : Nat) message execution, state.plan.messages[index]? = some message →
        state.plan.messageExecutionPlans[index]? = some execution →
          execution.fields.length = message.fields.length := by
  have frozen := compiled.frozenFrom
  obtain ⟨length, -⟩ := frozen.executions
  refine ⟨by rw [length, frozen.messages, List.length_map],
    fun index message execution placed found => ?_⟩
  obtain ⟨source, listed, kind⟩ := frozen.preparedAs found
  rw [frozen.messages, List.getElem?_map, listed, Option.map_some, Option.some.injEq] at placed
  subst placed
  cases kind with
  | text text kind run => exact (Codec.prepareTextMessage_counts run).1
  | binary counts loop kind run => exact (Codec.prepareBinaryMessage_counts run).1

/-- The messages of the schema, of the plan and of its descriptors, at one index. -/
structure MessageAt (schema : SchemaIr) (plan : PlanBundle) (index : Nat) (message : MessageIr)
    (frozen : FrozenMessagePlan) (execution : MessageExecutionPlan) : Prop where
  inSchema : schema.messages[index]? = some message
  inPlan : plan.messages[index]? = some frozen
  described : plan.messageExecutionPlans[index]? = some execution
  freezes : MessageFreezes message frozen
  sameFields : execution.fields.length = frozen.fields.length

/-- The lists of messages have the same indices. -/
theorem CompiledFrom.messageAt
    (compiled : CompiledFrom environment document parsed budgeted state) {index : Nat}
    (inside : index < state.plan.messages.length) :
    ∃ message frozen execution,
      MessageAt budgeted.validated.schema state.plan index message frozen execution := by
  have messages := compiled.messages
  obtain ⟨length, counts⟩ := compiled.executions
  have inSchema : index < budgeted.validated.schema.messages.length := messages.length_eq ▸ inside
  have inPlan : index < state.plan.messageExecutionPlans.length := length ▸ inside
  have freezes := messages.get inSchema inside
  refine ⟨_, _, _, List.getElem?_eq_getElem inSchema, List.getElem?_eq_getElem inside,
    List.getElem?_eq_getElem inPlan, freezes, ?_⟩
  exact counts index _ _ (List.getElem?_eq_getElem inside) (List.getElem?_eq_getElem inPlan)

/-- The fields of the schema, of the plan and of its descriptors, at one index of a message. -/
structure FieldAt (message : MessageIr) (frozen : FrozenMessagePlan)
    (execution : MessageExecutionPlan) (index : Nat) (field : FieldIr) (plan : FrozenFieldPlan)
    (descriptor : FieldExecutionPlan) : Prop where
  inSchema : message.fields[index]? = some field
  inPlan : frozen.fields[index]? = some plan
  described : execution.fields[index]? = some descriptor
  drafts : FieldIr.Drafts field plan

theorem MessageAt.fieldAt {schema : SchemaIr} {plan : PlanBundle} {index : Nat}
    {message : MessageIr} {frozen : FrozenMessagePlan} {execution : MessageExecutionPlan}
    (placed : MessageAt schema plan index message frozen execution) {fieldIndex : Nat}
    (inside : fieldIndex < message.fields.length) :
    ∃ field fieldPlan descriptor,
      FieldAt message frozen execution fieldIndex field fieldPlan descriptor := by
  have inFrozen : fieldIndex < frozen.fields.length := placed.freezes.fields.length_eq ▸ inside
  have inExecution : fieldIndex < execution.fields.length := placed.sameFields ▸ inFrozen
  exact ⟨_, _, _, List.getElem?_eq_getElem inside, List.getElem?_eq_getElem inFrozen,
    List.getElem?_eq_getElem inExecution, placed.freezes.fields.get inside inFrozen⟩

end

end ProtocolAdapter.Description
