/-
This file proves that the compiler does not see the order of object members. Two documents
that differ in it pass the audit together, and behind the audit every reader fetches members
by name, so both have one representation and one outcome.
-/

import ProtocolAdapter.Builder.Frozen
import ProtocolAdapter.ConfigCompiler.Compile

namespace ProtocolAdapter.ConfigCompiler

open Foundation Description

/-! ### The storage of the plan -/

/-- The plan at the address of another storage block. -/
def relocate (storage : Option Nat) (plan : PlanBundle) : PlanBundle :=
  { plan with address := storage.getD plan.address }

theorem freezeStorage_relocated (target : TargetLayout) (draft : PlanDraftData)
    (messages : List PreparedMessageExecutionPlan)
    (pipelines : List PreparedPipelineExecutionPlan) (estimate : PlanMemoryReport)
    {storage other : Option Nat} (alike : storage.isSome = other.isSome) :
    freezeStorage target draft messages pipelines estimate other =
      (freezeStorage target draft messages pipelines estimate storage).map
        fun frozen => (other.getD frozen.1, frozen.2) := by
  unfold freezeStorage
  cases storage with
  | none =>
    cases other with
    | none => rfl
    | some otherAddress => cases alike
  | some address =>
    cases other with
    | none => cases alike
    | some otherAddress =>
      cases freezeIntoArena target draft messages pipelines estimate.accountedTotalBytes with
      | none => rfl
      | some report =>
        dsimp only
        unfold rejectIf
        split <;> rfl

/-- Where the plan is stored shows in its address only. -/
theorem freezeImpl_relocated (target : TargetLayout) (draft : PlanDraftData)
    {storage other : Option Nat} (alike : storage.isSome = other.isSome) :
    freezeImpl target draft other = (freezeImpl target draft storage).map (relocate other) := by
  simp only [freezeImpl, bind_mapped]
  refine bind_congr fun _ => bind_congr fun _ => bind_congr fun _ => bind_congr fun _ =>
    bind_congr fun _ => bind_congr fun _ => ?_
  rw [freezeStorage_relocated target draft _ _ _ alike]
  cases freezeStorage target draft _ _ _ storage with
  | error failure => rfl
  | ok frozen =>
    cases other <;> rfl

theorem freezeBudgetedPlanDraft_relocated (target : TargetLayout) (draft : PlanDraftData)
    {storage other : Option Nat} (alike : storage.isSome = other.isSome) :
    freezeBudgetedPlanDraft target other draft =
      (freezeBudgetedPlanDraft target storage draft).map (relocate other) := by
  unfold freezeBudgetedPlanDraft
  rw [freezeImpl_relocated target draft alike]
  cases freezeImpl target draft storage <;> rfl

theorem audit_relocate (storage : Option Nat) (plan : PlanBundle)
    (metadata : ProtocolMetadataStorage) :
    audit (relocate storage plan) metadata = audit plan metadata := rfl

theorem compileArtifacts_relocated (environment : Environment) {storage : Option Nat}
    (alike : environment.storage.isSome = storage.isSome) (limit : Nat)
    (budgeted : BudgetedParts) :
    compileArtifacts { environment with storage := storage } limit budgeted =
      (compileArtifacts environment limit budgeted).map fun artifacts =>
        { artifacts with plan := relocate storage artifacts.plan } := by
  unfold compileArtifacts
  rw [freezeBudgetedPlanDraft_relocated environment.target (assemble budgeted) alike]
  simp only [bind_mapped]
  refine bind_congr fun metadata => ?_
  cases freezeBudgetedPlanDraft environment.target environment.storage (assemble budgeted) with
  | error failure => rfl
  | ok plan =>
    show (audit (relocate storage plan) metadata >>= _) = audit plan metadata >>= _
    rw [audit_relocate]
    rfl

/-! ### The document -/

/-- Documents that differ in member order have one representation, or both exceed a
resource limit. -/
theorem parseDocument_reordered {document other : JsonValue}
    (reordered : document.Reordered other) :
    parseDocument other = parseDocument document ∨
      ∃ failure, parseDocument document = .error failure ∧ failure.stage = .jsonResource := by
  unfold parseDocument
  cases audited : auditJsonValue {} document 1 "" {} with
  | error failure => exact .inr ⟨failure, rfl, auditJsonValue_stage document audited⟩
  | ok stats =>
    obtain ⟨unique, otherAudited⟩ :=
      auditJsonValue_reordered reordered ⟨by decide, by decide⟩ audited
    refine .inl ?_
    rw [otherAudited]
    show buildSchemaIr other = buildSchemaIr document
    rw [← buildSchemaIr_normal other, ← reordered.normal_eq unique, buildSchemaIr_normal]

/-! ### Two runs -/

/-- Whether a stage works on the tree the reader delivered, and not on the bytes or on the
resources of the tree. -/
def CompileStage.followsReading : CompileStage → Bool
  | .inputProfile | .jsonSyntax | .jsonResource => false
  | .structural | .domainValidation | .resourceBudget | .planBuild | .internal => true

/-- Two runs agree when both compile, to related results, or both fail; a failure that does
not come from the reading is the failure of both. -/
structure Agree {α : Type} (same : α → α → Prop) (run other : Compiled α) : Prop where
  compiles : (∃ result, run = .ok result) ↔ ∃ result, other = .ok result
  results : ∀ result otherResult, run = .ok result → other = .ok otherResult →
    same result otherResult
  diagnostics : ∀ failure : CompileDiagnostic, failure.stage.followsReading →
    (run = .error failure ↔ other = .error failure)

theorem Agree.map {α : Type} {same : α → α → Prop} {change : α → α}
    (kept : ∀ result, same result (change result)) (run : Compiled α) :
    Agree same run (run.map change) := by
  cases run with
  | error failure =>
    exact
      { compiles := by simp [Except.map]
        results := fun _ _ compiled => nomatch compiled
        diagnostics := fun other _ => by simp [Except.map] }
  | ok result =>
    exact
      { compiles := ⟨fun _ => ⟨_, rfl⟩, fun _ => ⟨_, rfl⟩⟩
        results := by
          intro first second isFirst isSecond
          cases isFirst
          cases isSecond
          exact kept result
        diagnostics := fun other _ => by simp [Except.map] }

/-- Two failures of the reading agree. -/
theorem Agree.of_errors {α : Type} {same : α → α → Prop} {failure other : CompileDiagnostic}
    (early : failure.stage = .jsonResource) (otherEarly : other.stage = .jsonResource) :
    Agree same (.error failure) (.error other) where
  compiles := by simp
  results := fun _ _ compiled => nomatch compiled
  diagnostics := by
    intro reported follows
    constructor
    · intro same
      cases same
      rw [early] at follows
      cases follows
    · intro same
      cases same
      rw [otherEarly] at follows
      cases follows

/-- Runs that continue alike from reordered documents agree. -/
theorem Agree.of_reordered {α : Type} {same : α → α → Prop} {change : α → α}
    (kept : ∀ result, same result (change result)) {next nextOther : SchemaIr → Compiled α}
    (moved : ∀ schema, nextOther schema = (next schema).map change) {document other : JsonValue}
    (reordered : document.Reordered other) :
    Agree same (parseDocument document >>= next) (parseDocument other >>= nextOther) := by
  rcases parseDocument_reordered reordered with equal | ⟨failure, fails, early⟩
  · rw [equal, show nextOther = fun schema => (next schema).map change from funext moved,
      ← bind_mapped]
    exact .map kept _
  · rcases parseDocument_reordered reordered.symm with
      equal | ⟨otherFailure, otherFails, otherEarly⟩
    · rw [← equal, fails]
      exact .of_errors early early
    · rw [fails, otherFails]
      exact .of_errors early otherEarly

/-- The second artifacts are the first ones with the plan in another storage block: the
facts of the plans and the metadata, with all its texts, are the same. -/
def SameArtifacts (storage : Option Nat) (artifacts other : CompiledProtocolArtifacts) : Prop :=
  other.plan = relocate storage artifacts.plan ∧ other.description = artifacts.description

/-! ### Reordered documents -/

/-- The labels of a part of the sample document, as text. -/
def labelText (id : String) : String :=
  "\x7b\"id\":\"" ++ id ++ "\",\"display_name\":\"" ++ id ++
    "\",\"description\":\"\",\"source_ref\":\"manual\","

/-- The members of the sample document behind its first two, as text. -/
def restText : String :=
  "\"protocol_version\":\"1\",\"display_name\":\"sample\",\"source_ref\":\"manual\"," ++
    "\"resource_profile\":\"desktop\",\"framing_profiles\":[" ++ labelText "record" ++
    "\"input_kind\":\"complete_record\"\x7d],\"pipelines\":[" ++ labelText "main" ++
    "\"direction_id\":\"up\",\"input_framing_profile_id\":\"record\"," ++
    "\"message_ids\":[\"level\"]\x7d],\"messages\":[" ++ labelText "level" ++
    "\"direction_id\":\"up\",\"frame_length_bytes\":1,\"matcher\":\x7b\"all\":[" ++
    "\x7b\"kind\":\"frame_length_equals\",\"length_bytes\":1\x7d]\x7d,\"fields\":[" ++
    labelText "value" ++ "\"value_type\":\"UINT64\",\"wire\":\x7b\"codec\":" ++
    "\"unsigned_integer\",\"byte_offset\":0,\"byte_width\":1\x7d,\"encode\":" ++
    "\x7b\"source\":\"input\"\x7d\x7d]\x7d]\x7d"

/-- A part of the sample document. -/
def labelledPart (id : String) (members : List (String × JsonValue)) : JsonValue :=
  .obj ([("id", .str id), ("display_name", .str id), ("description", .str ""),
    ("source_ref", .str "manual")] ++ members)

/-- The members of the sample document behind its first two. -/
def restMembers : List (String × JsonValue) :=
  [("protocol_version", .str "1"), ("display_name", .str "sample"), ("source_ref", .str "manual"),
    ("resource_profile", .str "desktop"),
    ("framing_profiles", .arr [labelledPart "record" [("input_kind", .str "complete_record")]]),
    ("pipelines", .arr [labelledPart "main" [("direction_id", .str "up"),
      ("input_framing_profile_id", .str "record"), ("message_ids", .arr [.str "level"])]]),
    ("messages", .arr [labelledPart "level" [("direction_id", .str "up"),
      ("frame_length_bytes", .raw "1"),
      ("matcher", .obj [("all", .arr [
        .obj [("kind", .str "frame_length_equals"), ("length_bytes", .raw "1")]])]),
      ("fields", .arr [labelledPart "value" [("value_type", .str "UINT64"),
        ("wire", .obj [("codec", .str "unsigned_integer"), ("byte_offset", .raw "0"),
          ("byte_width", .raw "1")]),
        ("encode", .obj [("source", .str "input")])]])]])]

/-- The text of the sample document, and that of the same document with two members the other way
round. -/
def sampleText : List UInt8 :=
  textBytes ("\x7b\"protocol_id\":\"sample\",\"schema_version\":\"0.1\"," ++ restText)

def sampleReorderedText : List UInt8 :=
  textBytes ("\x7b\"schema_version\":\"0.1\",\"protocol_id\":\"sample\"," ++ restText)

def sampleObject : JsonValue :=
  .obj ([("protocol_id", .str "sample"), ("schema_version", .str "0.1")] ++ restMembers)

def sampleReorderedObject : JsonValue :=
  .obj ([("schema_version", .str "0.1"), ("protocol_id", .str "sample")] ++ restMembers)

/-- A reader of the two texts. -/
def sampleReader (jsonBytes : List UInt8) : Compiled JsonValue :=
  if jsonBytes = sampleText then .ok sampleObject
  else if jsonBytes = sampleReorderedText then .ok sampleReorderedObject
  else .error { stage := .jsonSyntax, code := .jsonSyntaxError }

/-- An environment with that reader, and storage for the plan at an address. -/
def sampleEnvironment (address : Nat) : Environment where
  target := sampleTarget
  read := sampleReader
  storage := some address
  metadataAllocated := true

/-- A document and one with the members of its objects permuted compile alike, to a plan
and to a plan with metadata, wherever the two plans are stored. -/
theorem compile_reordered {environment : Environment} {storage : Option Nat}
    (alike : environment.storage.isSome = storage.isSome) {jsonBytes otherBytes : List UInt8}
    {document other : JsonValue} (reads : environment.read jsonBytes = .ok document)
    (readsOther : environment.read otherBytes = .ok other) (reordered : document.Reordered other)
    (limit : Nat) :
    Agree (fun plan otherPlan => otherPlan = relocate storage plan)
        (compileJsonToPlan environment jsonBytes)
        (compileJsonToPlan { environment with storage := storage } otherBytes) ∧
      Agree (SameArtifacts storage)
        (compileJsonToPlanWithMetadata environment limit jsonBytes)
        (compileJsonToPlanWithMetadata { environment with storage := storage } limit
          otherBytes) := by
  simp only [compileJsonToPlan, compileJsonToPlanWithMetadata, compileJsonToBudgetedSchema, reads,
    readsOther, ok_bind, budgetDocument, bind_assoc]
  constructor
  · refine @Agree.of_reordered _ (fun plan otherPlan => otherPlan = relocate storage plan)
      (relocate storage) (fun _ => rfl) _ _ (fun schema => ?_) _ _ reordered
    simp only [bind_mapped]
    exact bind_congr fun validated => bind_congr fun budgeted =>
      freezeBudgetedPlanDraft_relocated _ _ alike
  · refine @Agree.of_reordered _ (SameArtifacts storage)
      (fun artifacts => { artifacts with plan := relocate storage artifacts.plan })
      (fun _ => ⟨rfl, rfl⟩) _ _ (fun schema => ?_) _ _ reordered
    simp only [bind_mapped]
    exact bind_congr fun validated => bind_congr fun budgeted =>
      compileArtifacts_relocated environment alike limit budgeted

theorem compile_reordered_sample :
    (∃ plan, compileJsonToPlan (sampleEnvironment 4096) sampleText = .ok plan ∧
      compileJsonToPlan (sampleEnvironment 8192) sampleReorderedText =
        .ok (relocate (some 8192) plan)) ∧
    ∃ artifacts others,
      compileJsonToPlanWithMetadata (sampleEnvironment 4096) maxUint64 sampleText =
        .ok artifacts ∧
      compileJsonToPlanWithMetadata (sampleEnvironment 8192) maxUint64 sampleReorderedText =
        .ok others ∧ SameArtifacts (some 8192) artifacts others := by
  have differ : sampleReorderedText ≠ sampleText := by decide +kernel
  have reads : (sampleEnvironment 4096).read sampleText = .ok sampleObject := by
    simp only [sampleEnvironment, sampleReader, if_true]
  have readsOther : (sampleEnvironment 4096).read sampleReorderedText =
      .ok sampleReorderedObject := by
    simp only [sampleEnvironment, sampleReader, if_neg differ, if_true]
  obtain ⟨plans, described⟩ := @compile_reordered (sampleEnvironment 4096) (some 8192) rfl
    sampleText sampleReorderedText sampleObject sampleReorderedObject reads readsOther
    (.obj (.swap _ _ _)) maxUint64
  have compiles : (compileJsonToPlan (sampleEnvironment 4096) sampleText).isOk = true ∧
      (compileJsonToPlanWithMetadata (sampleEnvironment 4096) maxUint64 sampleText).isOk =
        true := by
    decide +kernel
  have result : ∀ {α : Type} {run : Compiled α}, run.isOk = true → ∃ value, run = .ok value := by
    intro α run succeeds
    cases run with
    | error failure => cases succeeds
    | ok value => exact ⟨value, rfl⟩
  obtain ⟨plan, compiled⟩ := result compiles.1
  obtain ⟨other, otherCompiled⟩ := plans.compiles.mp ⟨plan, compiled⟩
  obtain ⟨artifacts, made⟩ := result compiles.2
  obtain ⟨others, otherMade⟩ := described.compiles.mp ⟨artifacts, made⟩
  refine ⟨⟨plan, compiled, ?_⟩, artifacts, others, made, otherMade,
    described.results _ _ made otherMade⟩
  exact otherCompiled.trans (congrArg _ (plans.results _ _ compiled otherCompiled))

end ProtocolAdapter.ConfigCompiler
