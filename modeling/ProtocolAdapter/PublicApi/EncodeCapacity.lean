/-
This file proves that what a compiled protocol tells about encoding is exact. The messages of a
pipeline are those that an encode call allows, and no record is longer than told. The buffer of an
encode channel is as large as the longest record its binding can encode, so no encode of a host
finds its buffer too small.
-/

import ProtocolAdapter.PublicApi.AsciiRecords
import ProtocolAdapter.PublicApi.EncodeSizes
import ProtocolAdapter.PublicApi.HostOpened

namespace ProtocolAdapter.PublicApi

open Foundation Description ConfigCompiler

open Codec hiding CodecStatus ConversionError EncodeResult DecodeResult EncodeValues

/-! ### The capacity of a pipeline -/

section

variable {state : CompiledProtocolArtifacts} {pipelineIndex : Nat}

/-- Messages that add up are all described, and the sum has room for each of them. -/
theorem addEncodeMessages_covers : ∀ {associations : List Nat} {result : EncodePipelineCapacity},
    (addEncodeMessages state pipelineIndex associations result).valid = true →
      result.maximumOutputSize ≤
          (addEncodeMessages state pipelineIndex associations result).maximumOutputSize ∧
        ∀ association ∈ associations, ∃ execution,
          associatedExecution state pipelineIndex association = some execution ∧
            (execution.encodeAvailable = true → execution.encodeOutputSize ≤
              (addEncodeMessages state pipelineIndex associations result).maximumOutputSize) := by
  intro associations
  induction associations with
  | nil => exact fun _ => ⟨le_rfl, by simp⟩
  | cons association rest inductionHypothesis =>
    intro result valid
    unfold addEncodeMessages at valid ⊢
    split at valid
    · cases valid
    rename_i execution described
    split at valid
    · rename_i unavailable
      rw [if_pos unavailable]
      obtain ⟨kept, others⟩ := inductionHypothesis valid
      refine ⟨kept, List.forall_mem_cons.mpr ⟨⟨execution, described, fun available => ?_⟩, others⟩⟩
      rw [available] at unavailable
      cases unavailable
    · rename_i available
      split at valid
      · cases valid
      rename_i sized
      split at valid
      · cases valid
      rename_i counted
      rw [if_neg available, if_neg sized, if_neg counted]
      obtain ⟨kept, others⟩ := inductionHypothesis valid
      have larger : result.maximumOutputSize ≤
          (if execution.encodeOutputSize > result.maximumOutputSize then
            execution.encodeOutputSize else result.maximumOutputSize) ∧
          execution.encodeOutputSize ≤
            (if execution.encodeOutputSize > result.maximumOutputSize then
              execution.encodeOutputSize else result.maximumOutputSize) := by
        split
        · rename_i longer
          exact ⟨longer.le, le_rfl⟩
        · rename_i shorter
          exact ⟨le_rfl, Nat.not_lt.mp shorter⟩
      exact ⟨larger.1.trans kept, List.forall_mem_cons.mpr
        ⟨⟨execution, described, fun _ => larger.2.trans kept⟩, others⟩⟩

/-- The capacity of a pipeline has room for every message that can be encoded. -/
theorem capacity_covers (valid : (queryEncodePipelineCapacity state pipelineIndex).valid = true)
    {messageIndex : Nat} (listed : messageIndex ∈ encodeMessageIndices state pipelineIndex
      ((pipelineMessageCount state pipelineIndex).getD 0)) :
    ∃ execution, pipelineMessageExecution state pipelineIndex messageIndex = some execution ∧
      execution.encodeAvailable = true ∧ execution.encodeOutputSize ≤
        (queryEncodePipelineCapacity state pipelineIndex).maximumOutputSize := by
  unfold queryEncodePipelineCapacity at valid ⊢
  split at valid
  · cases valid
  rename_i count known
  rw [known, Option.getD_some] at listed
  obtain ⟨association, within, chosen⟩ := List.mem_filterMap.mp listed
  obtain ⟨index, named, chosen⟩ := Option.bind_eq_some_iff.mp chosen
  obtain ⟨execution, described, chosen⟩ := Option.bind_eq_some_iff.mp chosen
  split at chosen
  · rename_i available
    obtain rfl := Option.some.inj chosen
    obtain ⟨other, same, room⟩ := (addEncodeMessages_covers valid).2 association within
    rw [associatedExecution, named, Option.bind_eq_bind, Option.bind_some, described] at same
    obtain rfl := Option.some.inj same
    exact ⟨execution, described, available, room available⟩
  · cases chosen

end

/-! ### Described messages -/

section

variable {target : TargetLayout} {draft : PlanDraftData} {state : CompiledProtocolArtifacts}
  {pipelineIndex messageIndex : Nat}

/-- A message that is described is one of the pipeline. -/
theorem associated_of_described (frozen : FrozenFrom target draft state.plan)
    {described : MessageExecutionDescription}
    (answer : pipelineMessageExecution state pipelineIndex messageIndex = some described) :
    ∃ execution message, Associated state pipelineIndex messageIndex execution message ∧
      described = describeExecution pipelineIndex messageIndex execution message := by
  have found : ∃ pipeline, state.plan.pipelines[pipelineIndex]? = some pipeline := by
    obtain ⟨pipeline, found, -⟩ := Option.bind_eq_some_iff.mp answer
    exact ⟨pipeline, found⟩
  obtain ⟨pipeline, found⟩ := found
  by_cases listed : messageIndex ∈ pipeline.messageIndices
  · obtain ⟨execution, message, associated⟩ := associated_of_mem frozen found listed
    exact ⟨execution, message, associated, Option.some.inj (answer.symm.trans associated.described)⟩
  · rw [(not_associated frozen found listed).1] at answer
    cases answer

/-- A call that succeeds is for a message of the pipeline. -/
theorem associated_of_encoded (frozen : FrozenFrom target draft state.plan)
    {values : Codec.EncodeValues} {output : Codec.MutableByteBuffer}
    (ok : (encodeReply state.plan pipelineIndex messageIndex values output).result.status = .ok) :
    ∃ execution message, Associated state pipelineIndex messageIndex execution message := by
  unfold encodeReply at ok
  split at ok
  · cases ok
  split at ok
  · cases ok
  split at ok
  · cases ok
  rename_i execution compiled
  split at ok
  · cases ok
  rename_i message found
  split at ok
  · rename_i allowed
    obtain ⟨pipeline, listed, indexed⟩ := indexed_of_frozen frozen compiled
    have inside := (List.getElem?_eq_some_iff.mp found).1
    rw [indexed.allowed messageIndex inside, Option.some.injEq, decide_eq_true_eq] at allowed
    exact associated_of_mem frozen listed allowed
  · cases ok

end

/-! ### Encodes of a host -/

section

variable {environment : Environment} {document : JsonValue} {parsed : SchemaIr}
  {budgeted : BudgetedParts} {state : CompiledProtocolArtifacts} {sizes : HostSizes}
  {specs : List HostBindingSpec} {limits : HostLimits}

/-- The buffer of an encode channel is never too small. -/
theorem not_bufferTooSmall (compiled : CompiledFrom environment document parsed budgeted state)
    {host last : HostEndpoint} (opened : host.Opened sizes state specs limits)
    (follows : host.Follows last) {messageIndex : Nat} {channel : HostChannel}
    {binding : HostBinding} {mapped : Codec.EncodeValues} :
    ¬BufferTooSmall last messageIndex channel binding mapped := by
  rintro ⟨held, bound, action, listed, reply⟩
  have valid := planValid_of_freeze compiled.frozen
  have counted := planCounted_of_frozen compiled.frozenFrom
  obtain ⟨place, reached⟩ := List.mem_iff_getElem?.mp held
  have inside := (List.getElem?_eq_some_iff.mp reached).1
  rw [follows.count] at inside
  have found := List.getElem?_eq_getElem inside
  obtain ⟨later, same, kept⟩ := follows.channels place _ found
  obtain rfl := Option.some.inj (reached.symm.trans same)
  obtain ⟨index, spec, first, chosen, listedBinding, made⟩ :=
    opened.laid.channel (List.mem_of_getElem? found)
  rw [follows.bindings, kept.binding, made.bound, Nat.zero_add, listedBinding] at bound
  obtain rfl := Option.some.inj bound
  have encodes : spec.action = .encode := action
  have among : messageIndex ∈ encodeMessageIndices state spec.pipelineIndex
      ((pipelineMessageCount state spec.pipelineIndex).getD 0) := by
    simpa only [bindSpec, encodes] using listed
  have admitted := opened.admitted spec (List.mem_of_getElem? chosen)
  obtain ⟨described, answer, -, room⟩ := capacity_covers (admitted.encodes encodes) among
  obtain ⟨execution, message, associated, rfl⟩ :=
    associated_of_described compiled.frozenFrom answer
  rw [follows.state, opened.same] at reply
  obtain ⟨size, admits, short⟩ := (encodeReply_admitted_size valid counted associated.found
    spec.pipelineIndex mapped channel.encodeBuffer).2 reply
  have capacity : channel.encodeBuffer.capacity =
      (queryEncodePipelineCapacity state spec.pipelineIndex).maximumOutputSize :=
    kept.bufferSize.trans (made.buffer encodes)
  rw [capacity] at short
  exact absurd (admits.most.trans room) (Nat.not_le.mpr short)

/-- However a host was called before, an encode does not find its buffer too small. -/
theorem encode_fits (compiled : CompiledFrom environment document parsed budgeted state)
    {σ : Type} {host : HostEndpoint} (opened : host.Opened sizes state specs limits)
    (calls : List (HostCall σ)) :
    ∃ outcomes last, host.run calls = some (outcomes, last) ∧
      ∀ context handle messageIndex values sink (memory : σ), ∃ done,
        last.encode context handle messageIndex values sink memory = some done ∧
          done.result.codecStatus ≠ .bufferTooSmall := by
  have valid := opened.valid (planValid_of_freeze compiled.frozen)
    (planCounted_of_frozen compiled.frozenFrom)
  obtain ⟨outcomes, last, run, follows⟩ := run_ends calls valid
  refine ⟨outcomes, last, run, fun context handle messageIndex values sink memory => ?_⟩
  obtain ⟨done, ends, -, small⟩ :=
    encode_leaves (follows.valid valid) context handle messageIndex values sink memory
  refine ⟨done, ends, fun reported => ?_⟩
  obtain ⟨channel, binding, mapped, short⟩ := small reported
  exact not_bufferTooSmall compiled opened follows short

end

/-- What a compiled protocol tells about encoding and decoding a message is exact, and a host
never finds the buffer of an encode too small. -/
theorem pipelineMessageExecution_exact {environment : Environment} {limit : Nat}
    {jsonBytes : List UInt8} {state : CompiledProtocolArtifacts}
    (run : compileJsonToPlanWithMetadata environment limit jsonBytes = .ok state) :
    (∀ pipelineIndex < state.plan.pipelines.length, ∀ messageIndex,
      ∀ workspace : ExecutionWorkspace, workspace.IdleFor state.plan →
        (∀ data output, ∃ call,
          encodeCompleteRecord state.plan workspace pipelineIndex messageIndex ⟨data, []⟩ output =
            some call ∧
          ((pipelineMessageExecution state pipelineIndex messageIndex).isSome = true ↔
            call.result.status ≠ .messageNotAllowed) ∧
          ∀ described, pipelineMessageExecution state pipelineIndex messageIndex =
              some described →
            (described.encodeAvailable = true ↔ call.result.status ≠ .operationNotSupported)) ∧
        (∀ input fieldSlots, ∃ call,
          decodeCompleteRecord state.plan workspace pipelineIndex input fieldSlots = some call ∧
          (call.result.messageIndex = messageIndex → messageIndex ≠ invalidIndex →
            ∃ described, pipelineMessageExecution state pipelineIndex messageIndex =
              some described ∧ described.decodeAvailable = true)) ∧
        ∀ values output, ∃ call,
          encodeCompleteRecord state.plan workspace pipelineIndex messageIndex values output =
            some call ∧
          (call.result.status = .ok → ∃ described,
            pipelineMessageExecution state pipelineIndex messageIndex = some described ∧
            call.result.bytesWritten ≤ described.encodeOutputSize ∧
            (described.encodeOutputSizeKind = .exact →
              call.result.bytesWritten = described.encodeOutputSize))) ∧
    ∀ sizes allocator scope specs limits result host,
      createHostEndpoint sizes allocator scope (some state) specs limits = some result →
        result.host = some host →
          ∀ (σ : Type) (calls : List (HostCall σ)), ∃ outcomes last,
            host.run calls = some (outcomes, last) ∧
            ∀ context handle messageIndex values sink (memory : σ), ∃ done,
              last.encode context handle messageIndex values sink memory = some done ∧
                done.result.codecStatus ≠ .bufferTooSmall := by
  obtain ⟨document, parsed, budgeted, compiled⟩ := compiledFrom_of_run run
  have frozen := compiled.frozenFrom
  have valid := planValid_of_freeze compiled.frozen
  have counted := planCounted_of_frozen frozen
  constructor
  swap
  · intro sizes allocator scope specs limits result host created made σ calls
    exact encode_fits compiled (createHostEndpoint_opened created made).1 calls
  intro pipelineIndex inside messageIndex workspace idle
  refine ⟨fun data output => ?_, fun input fieldSlots => ?_, fun values output => ?_⟩
  · obtain ⟨call, ran, result, -⟩ := encodeCompleteRecord_replies valid idle pipelineIndex
      messageIndex ⟨data, []⟩ output
    refine ⟨call, ran, ?_⟩
    rw [result]
    exact encodeReply_without_values compiled inside messageIndex data output
  · obtain ⟨call, ran, result, -⟩ :=
      decodeCompleteRecord_replies valid idle pipelineIndex input fieldSlots
    refine ⟨call, ran, fun named real => ?_⟩
    rw [result] at named
    obtain ⟨execution, compiledPipeline, candidate⟩ :=
      decodeReply_candidate valid (named.symm ▸ real)
    rw [named] at candidate
    obtain ⟨pipeline, found, indexed⟩ := indexed_of_frozen frozen compiledPipeline
    obtain ⟨listed, -⟩ := (isDecodeCandidate_iff indexed).mp candidate
    obtain ⟨other, message, associated⟩ := associated_of_mem frozen found listed
    obtain rfl := Option.some.inj (compiledPipeline.symm.trans associated.compiled)
    exact ⟨_, associated.described, candidate⟩
  · obtain ⟨call, ran, result, -⟩ := encodeCompleteRecord_replies valid idle pipelineIndex
      messageIndex values output
    refine ⟨call, ran, fun ok => ?_⟩
    rw [result] at ok ⊢
    obtain ⟨execution, message, associated⟩ := associated_of_encoded frozen ok
    have admits := (encodeReply_admitted_size valid counted associated.found pipelineIndex values
      output).1 ok
    exact ⟨_, associated.described, admits.most, admits.exact⟩

theorem pipelineMessageExecution_exact_ping : ∃ state,
    compileJsonToPlanWithMetadata pingEnvironment maxUint64 [] = .ok state ∧
      ∀ sizes allocator scope specs limits result host,
        createHostEndpoint sizes allocator scope (some state) specs limits = some result →
          result.host = some host →
            ∀ (σ : Type) (calls : List (HostCall σ)), ∃ outcomes last,
              host.run calls = some (outcomes, last) ∧
              ∀ context handle messageIndex values sink (memory : σ), ∃ done,
                last.encode context handle messageIndex values sink memory = some done ∧
                  done.result.codecStatus ≠ .bufferTooSmall := by
  obtain ⟨state, run, -⟩ := ping_compiles
  exact ⟨state, run, (pipelineMessageExecution_exact run).2⟩

end ProtocolAdapter.PublicApi
