/-
This file proves how long a view of a decoded record can be read: it tells what that decode
has delivered, up to the next operation that touches its codec, and nothing ever after.
-/

import ProtocolAdapter.Codec.EncodeCall
import ProtocolAdapter.PublicApi.Views

namespace ProtocolAdapter.PublicApi

open Foundation Description

open Codec (ExecutionWorkspace MutableByteBuffer decodeCompleteRecord encodeCompleteRecord
  RawIntegerValue DecodedFieldSlot PlanValid DecodeReply decodeReply decodeReply_slots_length
  decodeReply_fieldCount_le decodeCompleteRecord_replies encodeCompleteRecord_replies
  planValid_of_freeze)

/-! ### Valid codecs -/

/-- A codec as it is created for a compiled protocol. -/
def CompleteRecordCodec.Created (codec : CompleteRecordCodec) : Prop :=
  ∃ target budgeted storage state sizes allocation options,
    freeze target budgeted storage = .ok (CompiledProtocolArtifacts.plan state) ∧
      (createCompleteRecordCodec sizes allocation (some state) options).codec = some codec

/-- A state with a valid plan, and a workspace of that plan that is idle. -/
structure Impl.Valid (impl : Impl) : Prop where
  plan : PlanValid impl.state.plan
  idle : impl.workspace.IdleFor impl.state.plan

/-- Codecs whose states are valid. -/
def Codecs.Valid (codecs : Codecs) : Prop :=
  ∀ codec ∈ codecs, ∀ impl, codec.impl = some impl → impl.Valid

/-- A codec that is created has a fresh workspace, and its slots. -/
theorem createCompleteRecordCodec_codec {sizes : CodecSizes} {allocation : CodecAllocation}
    {state : CompiledProtocolArtifacts} {options : CompleteRecordCodecOptions}
    {codec : CompleteRecordCodec}
    (made : (createCompleteRecordCodec sizes allocation (some state) options).codec = some codec) :
    ∃ impl, codec = { impl := some impl } ∧ impl.state = state ∧
      impl.workspace = .fresh state.plan ∧ impl.generation = 0 ∧ impl.published = false ∧
      impl.decodedSlots.slots.length =
        (if options.decodedFieldCapacity = 0 then
          state.plan.executionResourceLayout.maxFieldsPerMessage
        else options.decodedFieldCapacity) := by
  unfold createCompleteRecordCodec at made
  simp only at made
  generalize (if options.decodedFieldCapacity = 0 then
    state.plan.executionResourceLayout.maxFieldsPerMessage
    else options.decodedFieldCapacity) = capacity at made ⊢
  split at made
  · cases made
  split at made
  · split at made
    · cases made
    · split at made
      · cases made
      · cases made
      · obtain rfl := Option.some.inj made
        exact ⟨_, rfl, rfl, rfl, rfl, rfl, List.length_replicate⟩
  · cases made

theorem CompleteRecordCodec.Created.valid {codec : CompleteRecordCodec} (created : codec.Created)
    {impl : Impl} (present : codec.impl = some impl) : impl.Valid := by
  obtain ⟨target, budgeted, storage, state, sizes, allocation, options, frozen, made⟩ := created
  obtain ⟨first, rfl, rfl, fresh, -⟩ := createCompleteRecordCodec_codec made
  obtain rfl := Option.some.inj present
  exact ⟨planValid_of_freeze frozen, fresh ▸ ExecutionWorkspace.fresh_idleFor _⟩

theorem Codecs.Valid.set {codecs : Codecs} (valid : codecs.Valid) (place : Nat)
    {codec : CompleteRecordCodec} (fits : ∀ impl, codec.impl = some impl → impl.Valid) :
    Codecs.Valid (codecs.set place codec) := by
  intro other member impl present
  rcases List.mem_or_eq_of_mem_set member with old | rfl
  · exact valid other old impl present
  · exact fits impl present

/-- An operation leaves valid codecs valid. -/
theorem step_valid {codecs after : Codecs} {operation : Operation} (valid : codecs.Valid)
    (step : codecs.step operation = some after) : after.Valid := by
  have held : ∀ {place : Nat} {codec : CompleteRecordCodec}, codecs[place]? = some codec →
      ∀ impl, codec.impl = some impl → impl.Valid :=
    fun found => valid _ (List.mem_of_getElem? found)
  cases operation with
  | decode place contended pipelineIndex frame =>
    obtain ⟨⟨result, reached⟩, run, rfl⟩ := Option.map_eq_some_iff.mp step
    obtain ⟨codec, found, run⟩ := Option.bind_eq_some_iff.mp run
    obtain ⟨⟨answer, next⟩, decoded, run⟩ := Option.bind_eq_some_iff.mp run
    obtain ⟨-, rfl⟩ := Prod.mk.inj (Option.some.inj run)
    refine valid.set place fun other present => ?_
    rcases decode_cases decoded with ⟨rfl, -⟩ | ⟨impl, later, call, -, before, replied, rfl, done⟩
    · exact held found other present
    · obtain rfl := Option.some.inj present
      obtain ⟨plan, idle⟩ := held found impl before
      obtain ⟨_, same, -, -, after, -⟩ :=
        decodeCompleteRecord_replies plan idle pipelineIndex frame impl.decodedSlots
      obtain rfl := Option.some.inj (same.symm.trans replied)
      exact ⟨done.state ▸ plan, done.state ▸ done.workspace ▸ after⟩
  | encode place contended pipelineIndex messageIndex values output =>
    obtain ⟨⟨result, reached⟩, run, rfl⟩ := Option.map_eq_some_iff.mp step
    obtain ⟨codec, found, run⟩ := Option.bind_eq_some_iff.mp run
    obtain ⟨done, encoded, run⟩ := Option.bind_eq_some_iff.mp run
    obtain ⟨-, rfl⟩ := Prod.mk.inj (Option.some.inj run)
    refine valid.set place fun other present => ?_
    rcases encode_cases encoded with
      ⟨equal, -⟩ | ⟨impl, later, -, before, equal, state, -, workspace⟩
    · exact held found other (equal ▸ present)
    · rw [equal] at present
      obtain rfl := Option.some.inj present
      obtain ⟨plan, idle⟩ := held found impl before
      refine ⟨state ▸ plan, state ▸ ?_⟩
      rcases workspace with same | ⟨mapped, call, replied, same⟩
      · exact same ▸ idle
      · obtain ⟨_, again, -, -, after, -⟩ :=
          encodeCompleteRecord_replies plan idle pipelineIndex messageIndex mapped output
        obtain rfl := Option.some.inj (again.symm.trans replied)
        exact same ▸ after
  | moveConstruct source =>
    obtain ⟨other, found, run⟩ := Option.bind_eq_some_iff.mp step
    obtain rfl := Option.some.inj run
    intro codec member impl present
    rcases List.mem_append.mp member with old | new
    · refine valid.set source (fun impl present => ?_) codec old impl present
      cases present
    · obtain rfl := List.mem_singleton.mp new
      exact held found impl present
  | moveAssign target source =>
    obtain ⟨own, foundOwn, run⟩ := Option.bind_eq_some_iff.mp step
    obtain ⟨other, found, run⟩ := Option.bind_eq_some_iff.mp run
    split at run
    · obtain rfl := Option.some.inj run
      exact valid.set target fun impl present => held foundOwn impl present
    · obtain rfl := Option.some.inj run
      have emptied : Codecs.Valid
          (codecs.set source { other.advanceViewEpoch with impl := none }) :=
        valid.set source fun impl present => by cases present
      exact emptied.set target fun impl present => held found impl present
  | advanceViewEpoch place =>
    obtain ⟨codec, found, run⟩ := Option.bind_eq_some_iff.mp step
    obtain rfl := Option.some.inj run
    exact valid.set place fun impl present => held found impl present

theorem Runs.valid {codecs after : Codecs} {operations : List Operation}
    (runs : Runs codecs operations after) (valid : codecs.Valid) : after.Valid := by
  induction runs with
  | nil => exact valid
  | cons unwrapped step later inductionHypothesis =>
    exact inductionHypothesis (step_valid valid step)

/-! ### Readings -/

/-- What the raw integers of a decode tell about a field. -/
def rawIntegerOf {α : Type} (rawIntegers : List RawIntegerValue) (slot : DecodedFieldSlot)
    (select : RawIntegerValue → Option α) : Option α :=
  rawIntegers.findSome? fun raw =>
    if raw.field.messageIndex = slot.field.messageIndex ∧
        raw.field.fieldIndex = slot.field.fieldIndex then select raw else none

/-- The reading of a field that a decode has delivered with its raw integers. -/
def fieldReading (state : CompiledProtocolArtifacts) (rawIntegers : List RawIntegerValue)
    (slot : DecodedFieldSlot) (knownEnumFlatIndex : Option Nat) : FieldReading :=
  let kind := mapValueKind slot.valueKind
  { flatFieldIndex :=
      (resolveFlatFieldIndex state slot.field.messageIndex slot.field.fieldIndex).getD invalidIndex
    field := ⟨slot.field.messageIndex, slot.field.fieldIndex⟩
    kind := kind
    uint64 := if kind = .uint64 then some slot.uint64Value else none
    int64 := if kind = .int64 then some slot.int64Value else none
    bool := if kind = .bool then some slot.boolValue else none
    bytes := if kind = .bytes then some slot.bytesValue else none
    enumRawValue := if kind = .enum then some slot.enumValue.rawValue else none
    knownEnumFlatIndex := if kind = .enum then knownEnumFlatIndex else none
    decimal := if kind = .decimal64 then some slot.decimal64Value else none
    conversionRawKind := rawIntegerOf rawIntegers slot fun raw =>
      some (match raw.kind with | .int64 => .int64 | .uint64 => .uint64)
    conversionRawUInt64 := rawIntegerOf rawIntegers slot fun raw =>
      if raw.kind = .uint64 then some raw.uint64Value else none
    conversionRawInt64 := rawIntegerOf rawIntegers slot fun raw =>
      if raw.kind = .int64 then some raw.int64Value else none }

theorem findSome?_range {α β : Type} (found : α → Option β) (items : List α) :
    (List.range items.length).findSome? (fun index => items[index]?.bind found) =
      items.findSome? found := by
  induction items with
  | nil => rfl
  | cons item rest inductionHypothesis =>
    rw [List.length_cons, List.range_succ_eq_map, List.findSome?_cons, List.findSome?_cons,
      List.findSome?_map]
    simp only [List.getElem?_cons_zero, Option.bind_some]
    cases found item with
    | some value => rfl
    | none => exact inductionHypothesis

/-- A workspace that keeps raw integers finds what they tell about a field. -/
theorem findRawInteger_reports {α : Type} {plan : PlanBundle} {workspace : ExecutionWorkspace}
    {rawIntegers : List RawIntegerValue} (reports : workspace.Reports plan rawIntegers)
    (slot : DecodedFieldSlot) (select : RawIntegerValue → Option α) :
    findRawInteger plan workspace slot select (List.range workspace.lastRawIntegerCount) =
      some (rawIntegerOf rawIntegers slot select) := by
  obtain ⟨count, read⟩ := reports
  have search : ∀ indices : List Nat, findRawInteger plan workspace slot select indices =
      some (indices.findSome? fun index => rawIntegers[index]?.bind fun raw =>
        if raw.field.messageIndex = slot.field.messageIndex ∧
          raw.field.fieldIndex = slot.field.fieldIndex then select raw else none) := by
    intro indices
    induction indices with
    | nil => rfl
    | cons index rest inductionHypothesis =>
      rw [findRawInteger, read, Option.bind_eq_bind, Option.bind_some, List.findSome?_cons]
      cases rawIntegers[index]? with
      | none => exact inductionHypothesis
      | some raw =>
        simp only [Option.bind_some]
        split
        · cases select raw with
          | some value => rfl
          | none => exact inductionHypothesis
        · exact inductionHypothesis
  rw [search, count, findSome?_range]
  rfl

theorem resolveFlatFieldIndex_lt {state : CompiledProtocolArtifacts}
    {messageIndex fieldIndex flat : Nat}
    (resolved : resolveFlatFieldIndex state messageIndex fieldIndex = some flat) :
    flat < state.description.fields.length := by
  unfold resolveFlatFieldIndex at resolved
  obtain ⟨message, -, resolved⟩ := Option.bind_eq_some_iff.mp resolved
  split at resolved
  · cases resolved
  simp only at resolved
  split at resolved
  · rename_i inside
    exact Option.some.inj resolved ▸ inside
  · cases resolved

theorem flatEnumIndex_ends (state : CompiledProtocolArtifacts) (slot : DecodedFieldSlot) :
    ∃ flat, flatEnumIndex state slot = some flat := by
  unfold flatEnumIndex
  split
  · exact ⟨_, rfl⟩
  cases resolved : resolveFlatFieldIndex state slot.field.messageIndex slot.field.fieldIndex with
  | none => exact ⟨_, rfl⟩
  | some fieldFlat =>
    simp only
    rw [List.getElem?_eq_getElem (resolveFlatFieldIndex_lt resolved), Option.bind_eq_bind,
      Option.bind_some]
    split
    · exact ⟨_, rfl⟩
    · exact ⟨_, rfl⟩

/-- A field view reads the slot and the raw integers its state has kept. -/
theorem reading_of_impl {view : DecodedFieldView} {codecs : Codecs} {impl : Impl}
    {slot : DecodedFieldSlot} {rawIntegers : List RawIntegerValue}
    (readable : view.impl codecs = some impl)
    (held : impl.decodedSlots.slots[view.ordinal]? = some slot)
    (reports : impl.workspace.Reports impl.state.plan rawIntegers) :
    ∃ flat, flatEnumIndex impl.state slot = some flat ∧
      view.reading codecs = some (fieldReading impl.state rawIntegers slot flat) := by
  obtain ⟨flat, ends⟩ := flatEnumIndex_ends impl.state slot
  have reads : ∀ {α : Type} (otherwise : α) (reading : Impl → DecodedFieldSlot → Access α),
      view.read codecs otherwise reading = reading impl slot := by
    intro α otherwise reading
    simp only [DecodedFieldView.read, readable, held, Option.bind_eq_bind, Option.bind_some]
  refine ⟨flat, ends, ?_⟩
  unfold DecodedFieldView.reading
  simp only [DecodedFieldView.flatFieldIndex, DecodedFieldView.field, DecodedFieldView.kind,
    DecodedFieldView.uint64, DecodedFieldView.int64, DecodedFieldView.bool,
    DecodedFieldView.bytes, DecodedFieldView.enumRawValue, DecodedFieldView.knownEnumFlatIndex,
    DecodedFieldView.decimal, DecodedFieldView.conversionRawKind,
    DecodedFieldView.conversionRawUInt64, DecodedFieldView.conversionRawInt64, reads,
    readMember, readRawInteger, findRawInteger_reports reports, ends, Option.bind_eq_bind,
    Option.bind_some]
  have known : (if mapValueKind slot.valueKind = .enum then some flat else some none) =
      some (if mapValueKind slot.valueKind = .enum then flat else none) := by
    split <;> rfl
  rw [known]
  rfl

/-! ### The life of a view -/

/-- A view through which a host reads what the codec core has replied for a record. -/
structure DecodedRecordView.Reports (view : DecodedRecordView) (codecs : Codecs)
    (state : CompiledProtocolArtifacts) (reply : DecodeReply) (record : List UInt8) : Prop where
  hasValue : view.hasValue codecs = true
  messageIndex : view.messageIndex codecs = reply.result.messageIndex
  fieldCount : view.fieldCount codecs = reply.result.fieldCount
  fields : ∀ ordinal < reply.result.fieldCount, ∃ slot flat, reply.slots[ordinal]? = some slot ∧
    flatEnumIndex state slot = some flat ∧
    view.field codecs ordinal = some (view.fieldAt ordinal) ∧
    (view.fieldAt ordinal).hasValue codecs = true ∧
    (view.fieldAt ordinal).reading codecs =
      some (fieldReading state (reply.rawIntegers state.plan record) slot flat)
  others : ∀ ordinal, reply.result.fieldCount ≤ ordinal → view.field codecs ordinal = none

/-- A view, and the views of its fields, through which nothing can be read. -/
def DecodedRecordView.Expired (view : DecodedRecordView) (codecs : Codecs) : Prop :=
  view.hasValue codecs = false ∧ ∀ ordinal, (view.fieldAt ordinal).hasValue codecs = false

theorem expired_of_readable {view : DecodedRecordView} {codecs : Codecs}
    (unreadable : readable codecs view.owner view.ownerEpoch view.generation = none) :
    view.Expired codecs := by
  refine ⟨?_, fun ordinal => ?_⟩
  · rw [DecodedRecordView.hasValue, DecodedRecordView.impl, unreadable]
    rfl
  · simp only [DecodedFieldView.hasValue, DecodedFieldView.impl, DecodedRecordView.fieldAt,
      unreadable, Option.isSome_none]

/-- While a codec is as a successful decode has left it, its view reports that decode. -/
theorem decoded_reports {codecs : Codecs} {place pipelineIndex : Nat} {frame : ByteView}
    {codec : CompleteRecordCodec} {impl later : Impl} {call : Codec.DecodeCall}
    {result : DecodeResult} (valid : impl.Valid)
    (replied : decodeCompleteRecord impl.state.plan impl.workspace pipelineIndex frame
      impl.decodedSlots = some call)
    (done : impl.Decoded later place codec.viewEpoch call result) (accepted : result.status = .ok)
    (kept : codecs[place]? = some { codec with impl := some later }) :
    result.record.Reports codecs impl.state
      (decodeReply impl.state.plan pipelineIndex frame impl.decodedSlots) frame.bytes := by
  obtain ⟨plan, idle⟩ := valid
  obtain ⟨again, run, answer, slots, -, reports⟩ :=
    decodeCompleteRecord_replies plan idle pipelineIndex frame impl.decodedSlots
  obtain rfl := Option.some.inj (run.symm.trans replied)
  obtain ⟨-, -, record, published, message, count⟩ | ⟨refused, -⟩ := done.answer
  swap
  · exact absurd accepted refused
  rw [record]
  have reads : readable codecs (some place) codec.viewEpoch later.generation = some later := by
    simp [readable, kept, Impl.isPublished, published]
  have bound := @decodeReply_fieldCount_le impl.state.plan frame impl.decodedSlots plan
    pipelineIndex
  have length := @decodeReply_slots_length impl.state.plan frame impl.decodedSlots plan
    pipelineIndex
  rw [answer] at message count
  refine ⟨?_, ?_, ?_, fun ordinal inside => ?_, fun ordinal beyond => ?_⟩
  · simp only [DecodedRecordView.hasValue, DecodedRecordView.impl, reads, Option.isSome_some]
  · simp only [DecodedRecordView.messageIndex, DecodedRecordView.impl, reads, message]
  · simp only [DecodedRecordView.fieldCount, DecodedRecordView.impl, reads, count]
  · obtain ⟨slot, held⟩ : ∃ slot, (decodeReply impl.state.plan pipelineIndex frame
        impl.decodedSlots).slots[ordinal]? = some slot :=
      ⟨_, List.getElem?_eq_getElem (lt_of_lt_of_le inside (bound.trans_eq length.symm))⟩
    have viewed : (DecodedRecordView.fieldAt ⟨some place, codec.viewEpoch, later.generation⟩
        ordinal).impl codecs = some later := by
      simp only [DecodedFieldView.impl, DecodedRecordView.fieldAt, reads, count, inside, if_true]
    have same : later.decodedSlots.slots = (decodeReply impl.state.plan pipelineIndex frame
        impl.decodedSlots).slots := by rw [done.slots, slots]
    obtain ⟨flat, ends, reading⟩ := reading_of_impl viewed (by rw [same]; exact held)
      (by rw [done.state, done.workspace]; exact reports)
    rw [done.state] at ends reading
    refine ⟨slot, flat, held, ends, ?_, ?_, reading⟩
    · simp only [DecodedRecordView.field, DecodedRecordView.impl, reads, count,
        if_neg (not_le.mpr inside)]
    · simp only [DecodedFieldView.hasValue, viewed, Option.isSome_some]
  · simp only [DecodedRecordView.field, DecodedRecordView.impl, reads, count, ge_iff_le, beyond,
      if_true]

/-- The view of a decode can be read, and tells what that decode has delivered, until its codec
is touched; from then on it cannot. A decode that does not succeed has no view. -/
theorem decode_view {initial codecs after final : Codecs} {before operations : List Operation}
    {place pipelineIndex : Nat} {contended : Bool} {frame : ByteView} {result : DecodeResult}
    (created : ∀ codec ∈ initial, codec.Created) (ran : Runs initial before codecs)
    (decoded : codecs.decode place contended pipelineIndex frame = some (result, after))
    (runs : Runs after operations final) :
    (result.status = .ok → ∃ codec impl, codecs[place]? = some codec ∧ codec.impl = some impl ∧
      ((∀ operation ∈ operations, ¬operation.Touches place) →
        result.record.Reports final impl.state
          (decodeReply impl.state.plan pipelineIndex frame impl.decodedSlots) frame.bytes) ∧
      ((∃ operation ∈ operations, operation.Touches place) → result.record.Expired final)) ∧
    (result.status ≠ .ok → ∀ anywhere, result.record.Expired anywhere) := by
  have valid := ran.valid fun codec member impl present => (created codec member).valid present
  obtain ⟨codec, found, run⟩ := Option.bind_eq_some_iff.mp decoded
  obtain ⟨⟨answer, next⟩, calls, run⟩ := Option.bind_eq_some_iff.mp run
  obtain ⟨rfl, rfl⟩ := Prod.mk.inj (Option.some.inj run)
  have inside := (List.getElem?_eq_some_iff.mp found).1
  have reached := List.getElem?_set_self (a := next) inside
  rcases decode_cases calls with
    ⟨-, refused, none, -⟩ | ⟨impl, later, call, -, present, replied, rfl, done⟩
  · refine ⟨fun accepted => absurd accepted refused, fun _ anywhere => ?_⟩
    rw [none]
    exact expired_of_readable rfl
  · refine ⟨fun accepted => ⟨codec, impl, found, present, fun untouched => ?_, fun touched => ?_⟩,
      fun refused anywhere => ?_⟩
    · exact decoded_reports (valid codec (List.mem_of_getElem? found) impl present) replied done
        accepted (runs.untouched reached untouched)
    · obtain ⟨-, -, record, -⟩ | ⟨failed, -⟩ := done.answer
      · have aged : CompleteRecordCodec.Aged { codec with impl := some later } codec.viewEpoch
            later.generation := by
          refine .inr ⟨rfl, fun other same => ?_⟩
          obtain rfl := Option.some.inj same
          exact le_rfl
        obtain ⟨last, ends, -, older⟩ := runs.aged reached aged
        rw [record]
        exact expired_of_readable (readable_of_aged ends (older touched))
      · exact absurd accepted failed
    · obtain ⟨succeeded, -⟩ | ⟨-, record, -⟩ := done.answer
      · exact absurd succeeded refused
      · rw [record]
        exact expired_of_readable rfl

/-- The compiled sample protocol; its texts are empty. -/
def sampleState : CompiledProtocolArtifacts where
  plan := samplePlan
  description := { messages := [{ fieldCount := 5 }], fields := List.replicate 5 {} }

/-- A codec for the sample protocol. -/
def sampleCodec : CompleteRecordCodec :=
  ((createCompleteRecordCodec ⟨16, 200, 64⟩ (.allocated 1024 2048) (some sampleState)
    {}).codec).getD {}

theorem sampleCodec_created : sampleCodec.Created := by
  refine ⟨sampleTarget, sampleBudgeted, some 4096, sampleState, ⟨16, 200, 64⟩,
    .allocated 1024 2048, {}, sampleBudgeted_freezes, ?_⟩
  rfl

theorem decode_view_sample : ∃ result after final codec impl,
    Codecs.decode [sampleCodec] 0 false 0 Codec.sampleInput = some (result, after) ∧
      result.status = .ok ∧ Codecs.step after (.moveConstruct 0) = some final ∧
      [sampleCodec][0]? = some codec ∧ codec.impl = some impl ∧
      result.record.Reports after impl.state
        (decodeReply impl.state.plan 0 Codec.sampleInput impl.decodedSlots)
        Codec.sampleInput.bytes ∧ result.record.Expired final := by
  have seen : (Codecs.decode [sampleCodec] 0 false 0 Codec.sampleInput).map
      (fun done => (done.1.status, decide (Codecs.Unwrapped done.2),
        (Codecs.step done.2 (.moveConstruct 0)).isSome)) = some (.ok, true, true) := by
    decide +kernel
  obtain ⟨⟨result, after⟩, decoded, seen⟩ := Option.map_eq_some_iff.mp seen
  simp only [Prod.mk.injEq, decide_eq_true_eq] at seen
  obtain ⟨accepted, unwrapped, steps⟩ := seen
  obtain ⟨final, step⟩ := Option.isSome_iff_exists.mp steps
  have created : ∀ codec ∈ [sampleCodec], codec.Created := fun codec member =>
    List.mem_singleton.mp member ▸ sampleCodec_created
  obtain ⟨codec, impl, found, present, reports, -⟩ :=
    (decode_view created .nil decoded .nil).1 accepted
  obtain ⟨_, _, -, -, -, expires⟩ :=
    (decode_view created .nil decoded (.cons unwrapped step .nil)).1 accepted
  exact ⟨result, after, final, codec, impl, decoded, accepted, step, found, present,
    reports (fun operation member => absurd member List.not_mem_nil),
    expires ⟨.moveConstruct 0, List.mem_singleton_self _, rfl⟩⟩

end ProtocolAdapter.PublicApi
