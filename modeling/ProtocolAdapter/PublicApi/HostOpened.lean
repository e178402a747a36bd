/-
This file states what a created host is: every admitted binding has its channels behind those of
the earlier ones, and every channel has a new codec, a new framer when it decodes a stream, and a
buffer for the longest record when it encodes.
-/

import ProtocolAdapter.PublicApi.HostValid

namespace ProtocolAdapter.PublicApi

open Foundation Description

open Codec (ExecutionWorkspace PlanValid PlanCounted)

/-! ### Admitted bindings -/

/-- A binding that was admitted. -/
structure HostBindingSpec.Admitted (state : CompiledProtocolArtifacts)
    (spec : HostBindingSpec) : Prop where
  named : spec.endpointKey ≠ []
  inRange : spec.pipelineIndex < state.plan.pipelines.length
  streams : spec.action = .decode → spec.decodeStreamCount ≠ 0
  encodes : spec.action = .encode →
    (queryEncodePipelineCapacity state spec.pipelineIndex).valid = true

/-- Two bindings that differ in their endpoint or their action. -/
def HostBindingSpec.Apart (spec other : HostBindingSpec) : Prop :=
  ¬(spec.action = other.action ∧ spec.endpointKey = other.endpointKey)

section

variable {sizes : HostSizes} {state : CompiledProtocolArtifacts} {limits : HostLimits}

theorem admitIdentity_ok {earlier : List HostBindingSpec} {spec : HostBindingSpec}
    {admission after : HostAdmission}
    (run : admitIdentity state limits earlier spec admission = .ok after) :
    spec.endpointKey ≠ [] ∧ spec.pipelineIndex < state.plan.pipelines.length ∧
      ∀ prior ∈ earlier, prior.Apart spec := by
  simp only [admitIdentity, rejectIf_bind_eq_ok] at run
  obtain ⟨-, valid, distinct, -⟩ := run
  rw [not_or] at valid
  refine ⟨valid.1, Nat.not_le.mp valid.2, fun prior member same => distinct ?_⟩
  rw [List.any_eq_true]
  refine ⟨prior, member, ?_⟩
  rw [Bool.and_eq_true, beq_iff_eq, beq_iff_eq]
  exact same

theorem admitDecode_ok {spec : HostBindingSpec} {associations : Nat}
    {admission after : HostAdmission}
    (run : admitDecode state limits spec associations admission = .ok after) :
    spec.decodeStreamCount ≠ 0 := by
  simp only [admitDecode, rejectIf_bind_eq_ok] at run
  exact run.1

theorem admitEncode_ok {spec : HostBindingSpec} {admission after : HostAdmission}
    (run : admitEncode sizes state limits spec admission = .ok after) :
    (queryEncodePipelineCapacity state spec.pipelineIndex).valid = true := by
  simp only [admitEncode, rejectIf_bind_eq_ok] at run
  exact Bool.eq_true_of_not_eq_false run.2.1

theorem admitBinding_ok {earlier : List HostBindingSpec} {spec : HostBindingSpec}
    {admission after : HostAdmission}
    (run : admitBinding sizes state limits earlier spec admission = some (.ok after)) :
    spec.Admitted state ∧ ∀ prior ∈ earlier, prior.Apart spec := by
  unfold admitBinding at run
  split at run
  · cases run
  rename_i identified identity
  obtain ⟨named, inRange, apart⟩ := admitIdentity_ok identity
  obtain ⟨associations, -, run⟩ := Option.bind_eq_some_iff.mp run
  have run := Option.some.inj run
  cases action : spec.action with
  | decode =>
    simp only [action] at run
    obtain ⟨bound, admitted, -⟩ := bind_eq_ok.mp run
    exact ⟨⟨named, inRange, fun _ => admitDecode_ok admitted,
      fun other => absurd (action.symm.trans other) (by decide)⟩, apart⟩
  | encode =>
    simp only [action] at run
    obtain ⟨bound, admitted, -⟩ := bind_eq_ok.mp run
    exact ⟨⟨named, inRange, fun other => absurd (action.symm.trans other) (by decide),
      fun _ => admitEncode_ok admitted⟩, apart⟩

/-- Bindings that were admitted are apart from each other. -/
theorem admitBindings_ok : ∀ {specs earlier : List HostBindingSpec} {admission after},
    admitBindings sizes state limits earlier specs admission = some (.ok after) →
      (∀ spec ∈ specs, spec.Admitted state) ∧
        (earlier.Pairwise HostBindingSpec.Apart →
          (earlier ++ specs).Pairwise HostBindingSpec.Apart) := by
  intro specs
  induction specs with
  | nil =>
    intro earlier admission after _
    exact ⟨by simp, fun apart => by rwa [List.append_nil]⟩
  | cons spec rest inductionHypothesis =>
    intro earlier admission after run
    unfold admitBindings at run
    obtain ⟨outcome, first, run⟩ := Option.bind_eq_some_iff.mp run
    cases outcome with
    | error status => cases run
    | ok next =>
      obtain ⟨admitted, distinct⟩ := admitBinding_ok first
      obtain ⟨others, apart⟩ := inductionHypothesis run
      refine ⟨List.forall_mem_cons.mpr ⟨admitted, others⟩, fun before => ?_⟩
      have onward := apart (List.pairwise_append.mpr
        ⟨before, List.pairwise_singleton .., by simpa using distinct⟩)
      rwa [List.append_assoc, List.singleton_append] at onward

end

/-! ### Opened channels -/

/-- A channel as it is opened for a binding. -/
structure HostChannel.Opened (sizes : HostSizes) (state : CompiledProtocolArtifacts)
    (limits : HostLimits) (bindingIndex : Nat) (spec : HostBindingSpec) (channel : HostChannel) :
    Prop where
  bound : channel.bindingIndex = bindingIndex
  generation : channel.generation = 1
  working : channel.faulted = false
  codec : ∃ allocation, (createCompleteRecordCodec sizes.codec allocation (some state)
    limits.codecOptions).codec = some channel.codec
  framer : if spec.action = .decode ∧
      (queryStreamFramingCapability state spec.pipelineIndex).available = true then
    ∃ allocation framer, channel.framer = some framer ∧
      (createStreamFramer sizes.framer allocation (some state) spec.pipelineIndex
        spec.framingOptions).framer = some framer
    else channel.framer = none
  buffer : spec.action = .encode → channel.encodeBuffer.capacity =
    (queryEncodePipelineCapacity state spec.pipelineIndex).maximumOutputSize

/-- Bindings from an index on, with their channels from an index on. -/
inductive Laid (sizes : HostSizes) (state : CompiledProtocolArtifacts) (limits : HostLimits) :
    Nat → Nat → List HostBindingSpec → List HostBinding → List HostChannel → Prop
  | nil (bindingIndex first : Nat) : Laid sizes state limits bindingIndex first [] [] []
  | cons {bindingIndex first : Nat} {spec : HostBindingSpec} {rest : List HostBindingSpec}
      {bindings : List HostBinding} {own channels : List HostChannel}
      (opened : ∀ channel ∈ own, channel.Opened sizes state limits bindingIndex spec)
      (count : own.length = spec.channelCount)
      (later : Laid sizes state limits (bindingIndex + 1) (first + own.length) rest bindings
        channels) :
      Laid sizes state limits bindingIndex first (spec :: rest)
        (bindSpec state spec first :: bindings) (own ++ channels)

section

variable {sizes : HostSizes} {allocator : HostAllocator} {state : CompiledProtocolArtifacts}
  {limits : HostLimits} {bindingIndex : Nat} {spec : HostBindingSpec}

theorem openCodec_ok {allocation : CodecAllocation} {report after : HostMemoryReport}
    {codec : CompleteRecordCodec}
    (run : openCodec sizes allocation state limits report = .ok (codec, after)) :
    (createCompleteRecordCodec sizes.codec allocation (some state) limits.codecOptions).codec =
      some codec := by
  unfold openCodec at run
  dsimp only at run
  split at run
  · rename_i made
    obtain ⟨_, -, run⟩ := bind_eq_ok.mp run
    cases run
    exact made
  · cases run

theorem openFramer_ok {allocation : FramerAllocation} {report after : HostMemoryReport}
    {framer : Option StreamFramer}
    (run : openFramer sizes allocation state spec report = .ok (framer, after)) :
    if spec.action = .decode ∧
        (queryStreamFramingCapability state spec.pipelineIndex).available = true then
      ∃ allocation made, framer = some made ∧
        (createStreamFramer sizes.framer allocation (some state) spec.pipelineIndex
          spec.framingOptions).framer = some made
    else framer = none := by
  unfold openFramer at run
  split at run
  · rename_i streams
    rw [if_pos streams]
    dsimp only at run
    split at run
    · rename_i made
      obtain ⟨_, -, run⟩ := bind_eq_ok.mp run
      cases run
      exact ⟨allocation, _, rfl, made⟩
    · cases run
  · rename_i whole
    rw [if_neg whole]
    cases run
    rfl

theorem openBuffer_ok {allocation : HostAllocation} {capacity : Nat} {report : HostMemoryReport}
    {buffer : Codec.MutableByteBuffer}
    (run : openBuffer allocation spec capacity report = .ok buffer) :
    spec.action = .encode → buffer.capacity = capacity := by
  intro action
  unfold openBuffer at run
  split at run
  · obtain ⟨address, -, run⟩ := bind_eq_ok.mp run
    cases run
    exact List.length_replicate
  · rename_i empty
    cases run
    rw [not_and, not_not] at empty
    exact (empty action).symm

theorem openChannel_ok {index : Nat} {report after : HostMemoryReport} {channel : HostChannel}
    (run : openChannel sizes allocator state limits bindingIndex spec
      (queryEncodePipelineCapacity state spec.pipelineIndex).maximumOutputSize index report =
        .ok (channel, after)) :
    channel.Opened sizes state limits bindingIndex spec := by
  simp only [openChannel, bind_eq_ok, pure_eq_ok, Prod.mk.injEq, Prod.exists] at run
  obtain ⟨codec, _, codecMade, framer, _, framerMade, buffer, bufferMade, _, -, rfl, -⟩ := run
  exact ⟨rfl, rfl, rfl, ⟨_, openCodec_ok codecMade⟩, openFramer_ok framerMade,
    openBuffer_ok bufferMade⟩

theorem openChannels_ok : ∀ {count : Nat} {channels opened : List HostChannel}
    {report after : HostMemoryReport},
    openChannels sizes allocator state limits bindingIndex spec
        (queryEncodePipelineCapacity state spec.pipelineIndex).maximumOutputSize count channels
        report = .ok (opened, after) →
      ∃ own, opened = channels ++ own ∧ own.length = count ∧
        ∀ channel ∈ own, channel.Opened sizes state limits bindingIndex spec := by
  intro count
  induction count with
  | zero =>
    intro channels opened report after run
    cases run
    exact ⟨[], (List.append_nil _).symm, rfl, by simp⟩
  | succ count inductionHypothesis =>
    intro channels opened report after run
    unfold openChannels at run
    obtain ⟨⟨channel, next⟩, first, run⟩ := bind_eq_ok.mp run
    obtain ⟨own, rfl, length, others⟩ := inductionHypothesis run
    exact ⟨channel :: own, by rw [List.append_assoc, List.singleton_append],
      congrArg Nat.succ length, List.forall_mem_cons.mpr ⟨openChannel_ok first, others⟩⟩

theorem openBindings_ok : ∀ {specs : List HostBindingSpec} {bindings made : List HostBinding}
    {channels opened : List HostChannel} {report after : HostMemoryReport},
    openBindings sizes allocator state limits specs bindings channels report =
        .ok (made, opened, after) →
      ∃ more own, made = bindings ++ more ∧ opened = channels ++ own ∧
        Laid sizes state limits bindings.length channels.length specs more own := by
  intro specs
  induction specs with
  | nil =>
    intro bindings made channels opened report after run
    cases run
    exact ⟨[], [], (List.append_nil _).symm, (List.append_nil _).symm, .nil _ _⟩
  | cons spec rest inductionHypothesis =>
    intro bindings made channels opened report after run
    unfold openBindings at run
    obtain ⟨_, -, run⟩ := bind_eq_ok.mp run
    obtain ⟨⟨middle, next⟩, first, run⟩ := bind_eq_ok.mp run
    obtain ⟨own, rfl, count, each⟩ := openChannels_ok first
    obtain ⟨more, others, rfl, rfl, laid⟩ := inductionHypothesis run
    rw [List.length_append, List.length_append, List.length_singleton] at laid
    exact ⟨bindSpec state spec channels.length :: more, own ++ others,
      by rw [List.append_assoc, List.singleton_append], by rw [List.append_assoc],
      .cons each count laid⟩

end

/-! ### Created hosts -/

/-- A host as it is created. -/
structure HostEndpoint.Opened (sizes : HostSizes) (state : CompiledProtocolArtifacts)
    (specs : List HostBindingSpec) (limits : HostLimits) (host : HostEndpoint) : Prop where
  same : host.state = state
  admitted : ∀ spec ∈ specs, spec.Admitted state
  apart : specs.Pairwise HostBindingSpec.Apart
  laid : Laid sizes state limits 0 0 specs host.bindings host.channels

section

variable {sizes : HostSizes} {allocator : HostAllocator} {scope : Nat}
  {state : CompiledProtocolArtifacts} {specs : List HostBindingSpec} {limits : HostLimits}

theorem openHost_ok {report : HostMemoryReport} {host : HostEndpoint}
    (run : openHost sizes allocator scope state specs limits report = .ok host) :
    host.state = state ∧ host.scope = scope ∧
      Laid sizes state limits 0 0 specs host.bindings host.channels := by
  simp only [openHost, bind_eq_ok, pure_eq_ok, Prod.exists] at run
  obtain ⟨_, -, bindings, channels, _, opened, _, -, rfl⟩ := run
  obtain ⟨more, own, rfl, rfl, laid⟩ := openBindings_ok opened
  exact ⟨rfl, rfl, laid⟩

/-- A creation that succeeds creates such a host. -/
theorem createHostEndpoint_opened {result : HostEndpointCreateResult} {host : HostEndpoint}
    (run : createHostEndpoint sizes allocator scope (some state) specs limits = some result)
    (made : result.host = some host) :
    host.Opened sizes state specs limits ∧ host.scope = scope := by
  unfold createHostEndpoint at run
  dsimp only at run
  split at run
  · cases run
    cases made
  split at run
  · cases run
    cases made
  split at run
  · cases run
    cases made
  obtain ⟨outcome, admitted, run⟩ := Option.bind_eq_some_iff.mp run
  cases outcome with
  | error status =>
    cases run
    cases made
  | ok admission =>
    obtain rfl := Option.some.inj run
    obtain ⟨each, apart⟩ := admitBindings_ok admitted
    unfold createAdmitted at made
    split at made
    · cases made
    dsimp only at made
    split at made
    · cases made
    split at made
    · cases made
    rename_i opened
    obtain rfl := Option.some.inj made
    obtain ⟨same, named, laid⟩ := openHost_ok opened
    exact ⟨⟨same, each, by simpa using apart .nil, laid⟩, named⟩

/-! ### Ranges -/

variable {bindingIndex first : Nat} {bindings : List HostBinding} {channels : List HostChannel}

/-- Every channel is opened for the binding it names. -/
theorem Laid.channel (laid : Laid sizes state limits bindingIndex first specs bindings channels)
    {channel : HostChannel} (member : channel ∈ channels) :
    ∃ index spec place, specs[index]? = some spec ∧
      bindings[index]? = some (bindSpec state spec place) ∧
      channel.Opened sizes state limits (bindingIndex + index) spec := by
  induction laid with
  | nil => cases member
  | cons opened count later inductionHypothesis =>
    rcases List.mem_append.mp member with own | other
    · exact ⟨0, _, _, rfl, rfl, opened channel own⟩
    · obtain ⟨index, spec, place, listed, bound, among⟩ := inductionHypothesis other
      refine ⟨index + 1, spec, place, listed, bound, ?_⟩
      rwa [Nat.add_right_comm, Nat.add_assoc] at among

/-- The channels of a binding lie among those of the host. -/
theorem Laid.ranges (laid : Laid sizes state limits bindingIndex first specs bindings channels) :
    ∀ binding ∈ bindings,
      binding.firstChannel + binding.channelCount ≤ first + channels.length := by
  induction laid with
  | nil => simp
  | cons opened count later inductionHypothesis =>
    rename_i first spec rest bindings own channels
    refine List.forall_mem_cons.mpr ⟨?_, fun binding member => ?_⟩
    · rw [List.length_append, count]
      show first + spec.channelCount ≤ _
      omega
    · have bound := inductionHypothesis binding member
      rw [List.length_append]
      omega

/-- A created host is valid. -/
theorem HostEndpoint.Opened.valid {host : HostEndpoint}
    (opened : host.Opened sizes state specs limits) (plan : PlanValid state.plan)
    (counted : PlanCounted state.plan) : host.Valid := by
  obtain ⟨rfl, admitted, apart, laid⟩ := opened
  refine ⟨counted, fun channel member => ?_, fun channel member => ?_, fun binding member => ?_⟩
  · obtain ⟨index, spec, place, -, -, made⟩ := laid.channel member
    obtain ⟨allocation, codec⟩ := made.codec
    obtain ⟨impl, present, same, fresh, -⟩ := createCompleteRecordCodec_codec codec
    refine ⟨⟨impl, by rw [present], ⟨same ▸ plan, ?_⟩, same⟩, fun framer has => ?_⟩
    · rw [fresh, same]
      exact ExecutionWorkspace.fresh_idleFor _
    · have framed := made.framer
      split at framed
      · obtain ⟨_, other, held, created⟩ := framed
        obtain rfl := Option.some.inj (has.symm.trans held)
        exact (createStreamFramer_framer created).1
      · rw [has] at framed
        cases framed
  · obtain ⟨index, spec, place, -, bound, made⟩ := laid.channel member
    rw [made.bound, Nat.zero_add]
    exact ⟨_, bound⟩
  · have bound := laid.ranges binding member
    rwa [Nat.zero_add] at bound

end

end ProtocolAdapter.PublicApi
