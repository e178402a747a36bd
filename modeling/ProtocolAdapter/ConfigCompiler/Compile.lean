/-
This file defines the compiler as a whole: a document is read, audited, parsed, validated
and budgeted, its draft is assembled and frozen into a plan, and, on request, its metadata
block is built before and checked after the freeze.
-/

import ProtocolAdapter.Builder.Freeze
import ProtocolAdapter.ConfigCompiler.Assemble
import ProtocolAdapter.ConfigCompiler.Audit
import ProtocolAdapter.ConfigCompiler.ParseMessage
import ProtocolAdapter.Description.Build

namespace ProtocolAdapter.ConfigCompiler

open Foundation Description

/-- What a compilation finds around it: the layouts of its target, the reader of documents
with its input profile, the address of the plan's storage and whether the storage of the
metadata can be allocated. -/
structure Environment where
  target : TargetLayout
  read : List UInt8 → Compiled JsonValue
  storage : Option Nat
  metadataAllocated : Bool

/-- Audits a document and builds its representation. -/
def parseDocument (document : JsonValue) : Compiled SchemaIr := do
  let _ ← auditJsonValue {} document 1 "" {}
  buildSchemaIr document

/-- Compiles a parsed document up to its approved budget. -/
def budgetDocument (target : TargetLayout) (document : JsonValue) : Compiled BudgetedParts := do
  let schema ← parseDocument document
  let validated ← validateSchema schema
  approveBudget target validated

/-- Compiles the bytes of a document up to its approved budget. -/
def compileJsonToBudgetedSchema (environment : Environment) (jsonBytes : List UInt8) :
    Compiled BudgetedParts := do
  let document ← environment.read jsonBytes
  budgetDocument environment.target document

/-- What the compiler reports for a diagnostic of the builder. -/
def freezeDiagnostic (diagnostic : PlanBuildDiagnostic) : CompileDiagnostic :=
  match diagnostic.code with
  | .allocationFailed =>
    { code := .compilerAllocationFailed
      detail := "memory allocation failed while freezing the plan" }
  | .planMemoryLimitExceeded =>
    planMemoryDiagnostic diagnostic.requiredBytes diagnostic.limitBytes diagnostic.resourceProfile
  | .planMemoryEstimateMismatch =>
    { stage := .planBuild
      detail := "approved and constructed plan memory reports differ" }
  | _ =>
    { stage := .planBuild
      detail := "validated configuration violated the frozen plan construction contract" }

/-- Freezes an assembled draft. -/
def freezeBudgetedPlanDraft (target : TargetLayout) (storage : Option Nat)
    (draft : PlanDraftData) : Compiled PlanBundle :=
  (freezeImpl target draft storage).mapError freezeDiagnostic

/-- Compiles a document to a plan. -/
def compileJsonToPlan (environment : Environment) (jsonBytes : List UInt8) :
    Compiled PlanBundle := do
  let budgeted ← compileJsonToBudgetedSchema environment jsonBytes
  freezeBudgetedPlanDraft environment.target environment.storage (assemble budgeted)

/-- Compiles a budgeted schema to a plan with its metadata. -/
def compileArtifacts (environment : Environment) (descriptionMemoryLimitBytes : Nat)
    (budgeted : BudgetedParts) : Compiled CompiledProtocolArtifacts := do
  let metadata ← build budgeted.validated.schema descriptionMemoryLimitBytes
    environment.metadataAllocated
  let plan ← freezeBudgetedPlanDraft environment.target environment.storage (assemble budgeted)
  audit plan metadata
  pure { plan := plan, description := metadata }

/-- Compiles a document to a plan with its metadata. -/
def compileJsonToPlanWithMetadata (environment : Environment) (descriptionMemoryLimitBytes : Nat)
    (jsonBytes : List UInt8) : Compiled CompiledProtocolArtifacts := do
  let budgeted ← compileJsonToBudgetedSchema environment jsonBytes
  compileArtifacts environment descriptionMemoryLimitBytes budgeted

end ProtocolAdapter.ConfigCompiler
