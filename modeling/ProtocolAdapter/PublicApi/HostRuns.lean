/-
This file is about created hosts and what holds of them between calls. A host is live when its
channels belong to the compiled protocol and its framers are framers of the protocol; every call
leaves a live host, and says what it leaves of the channel it works on.
-/

import ProtocolAdapter.Description.Compiled
import ProtocolAdapter.Foundation.Machine
import ProtocolAdapter.Framing.Accounting
import ProtocolAdapter.HostEndpoint.Reset
import ProtocolAdapter.PublicApi.HostOpened
import ProtocolAdapter.PublicApi.HostSteps

namespace ProtocolAdapter.PublicApi

open Foundation Description

open Codec (planValid_of_freeze planCounted_of_frozen)

open ConfigCompiler (Environment compileJsonToPlanWithMetadata)

open Framing (EffectiveLimits PushState Reachable fresh_sound pushStreamChunkWith
  pushStreamChunkWith_plain resetStreamFramingWorkspace streamFraming
  streamValid_of_streamFraming createStreamFramingWorkspace_workspace)

/-! ### Created hosts -/

/-- A host that was created for a compiled protocol with some bindings. -/
inductive HostEndpoint.Created (host : HostEndpoint) (specs : List HostBindingSpec) : Prop
  | intro {environment : Environment} {limit : Nat} {jsonBytes : List UInt8}
      {state : CompiledProtocolArtifacts} {sizes : HostSizes} {allocator : HostAllocator}
      {scope : Nat} {limits : HostLimits} {result : HostEndpointCreateResult}
      (compiled : compileJsonToPlanWithMetadata environment limit jsonBytes = .ok state)
      (created : createHostEndpoint sizes allocator scope (some state) specs limits = some result)
      (made : result.host = some host) : Created host specs

/-- A framer of a compiled protocol, after any calls and resets. -/
structure StreamFramer.Reached (framer : StreamFramer) (state : CompiledProtocolArtifacts) :
    Prop where
  same : framer.state = state
  reached : ∃ framing limits,
    streamFraming state.plan framer.pipelineIndex = some framing ∧ framing.StreamValid ∧
      Reachable (.fresh state.plan framer.pipelineIndex framing limits) framer.workspace

/-- A channel whose framer, when there is one, is a framer of the compiled protocol. -/
def HostChannel.Framed (channel : HostChannel) (state : CompiledProtocolArtifacts) : Prop :=
  ∀ framer, channel.framer = some framer → framer.Reached state

/-- What holds of a host between two calls. -/
structure HostEndpoint.Live (host : HostEndpoint) : Prop where
  valid : host.Valid
  framed : ∀ channel ∈ host.channels, channel.Framed host.state

/-! ### Framers -/

section

variable {framer : StreamFramer} {state : CompiledProtocolArtifacts}

/-- A framer can always be reset. -/
theorem StreamFramer.Reached.reset (reached : framer.Reached state) :
    framer.reset {} = (.ok, { framer with workspace := framer.workspace.resetCandidate }) ∧
      ({ framer with workspace := framer.workspace.resetCandidate } : StreamFramer).Reached
        state := by
  obtain ⟨rfl, framing, limits, found, valid, reachable⟩ := reached
  have outcome := ProtocolAdapter.HostEndpoint.resetStreamFramingWorkspace_reachable reachable
  refine ⟨?_, rfl, framing, limits, found, valid, ?_⟩
  · unfold StreamFramer.reset
    simp [outcome]
  · have later := reachable.reset framer.state.plan framer.pipelineIndex
    rw [outcome] at later
    exact later

/-- A framer is still one after a chunk. -/
theorem StreamFramer.Reached.push {σ : Type} (reached : framer.Reached state) {input : ByteView}
    {sink : Framing.StatefulSink σ} {memory after : σ} {final : PushState}
    (run : pushStreamChunkWith framer.state.plan framer.workspace framer.pipelineIndex input sink
      memory = some (after, final)) :
    ({ framer with workspace := final.workspace } : StreamFramer).Reached state := by
  obtain ⟨rfl, framing, limits, found, valid, reachable⟩ := reached
  obtain ⟨⟨function, pushed⟩, -⟩ := pushStreamChunkWith_plain run
  exact ⟨rfl, framing, limits, found, valid, reachable.submit _ _ _ _ _ pushed⟩

end

/-! ### Operations -/

section

variable {σ : Type} {scopes : List Nat} {index : Nat} {channel : HostChannel}
  {binding : HostBinding} {call : HostCall σ} {attempt : HostAttempt σ}
  {encoded : Option (HostOutputView × CallbackEnd)}

/-- What an operation leaves of the channel it works on. -/
theorem Works.leaves (works : Works scopes index channel binding call attempt encoded) :
    attempt.channel.bindingIndex = channel.bindingIndex ∧
      attempt.channel.generation = channel.generation ∧
      attempt.channel.faulted = (channel.faulted || (attempt.outcome encoded).threw) := by
  cases works with
  | @decoded _ _ _ candidate next request action whole present handles =>
    obtain ⟨codec, -, -, same⟩ := handles.channel
    have handled : next.handled = [candidate] := handles.handled
    refine ⟨by rw [same]; rfl, by rw [same]; rfl, ?_⟩
    simp [same, HostAttempt.on, HostAttempt.outcome, HostOutcome.threw, handled]
  | pushed submits action framing present run =>
    obtain ⟨-, deliveries⟩ := pushStreamChunkWith_plain run
    obtain ⟨candidates, handles, -⟩ := deliveries_handled deliveries
    obtain ⟨codec, same⟩ := handles.channel
    have handled := handles.handled
    rw [HostAttempt.framed]
    refine ⟨by rw [same]; rfl, by rw [same]; rfl, ?_⟩
    simp [same, HostAttempt.on, HostAttempt.outcome, HostOutcome.threw, handled]
  | unencoded request action run failed =>
    exact ⟨rfl, rfl, by simp [HostAttempt.outcome, HostOutcome.threw]⟩
  | @encoded _ _ _ _ sink view ran _ request action run succeeded present shown delivers =>
    obtain ⟨same, -, handled, -⟩ := invokeBusiness_eq delivers
    refine ⟨by rw [same], by rw [same], ?_⟩
    simp [same, HostAttempt.outcome, HostOutcome.threw, handled]

/-- The framer of a channel stays a framer of the protocol. -/
theorem Works.framed {state : CompiledProtocolArtifacts} (framed : channel.Framed state)
    (works : Works scopes index channel binding call attempt encoded) :
    attempt.channel.Framed state := by
  cases works with
  | decoded request action whole present handles =>
    obtain ⟨codec, -, -, same⟩ := handles.channel
    intro framer has
    rw [same] at has
    exact framed framer has
  | @pushed _ framer _ _ _ submits action framing present run =>
    intro other has
    obtain rfl := Option.some.inj has
    exact (framed framer framing).push run
  | unencoded request action run failed => exact framed
  | encoded request action run succeeded present shown delivers =>
    obtain ⟨same, -⟩ := invokeBusiness_eq delivers
    intro framer has
    rw [same] at has
    exact framed framer has

end

/-! ### Steps -/

section

variable {σ : Type} {host next : HostEndpoint} {call : HostCall σ} {outcome : HostOutcome σ}

/-- A channel that takes the place of a framed one keeps the host framed. -/
theorem withChannel_framed {state : CompiledProtocolArtifacts} {channel : HostChannel}
    (framed : ∀ channel ∈ host.channels, channel.Framed state) (own : channel.Framed state)
    (index : Nat) : ∀ other ∈ (host.withChannel index channel).channels, other.Framed state := by
  intro other member
  rcases List.mem_or_eq_of_mem_set member with before | same
  · exact framed other before
  · rw [same]
    exact own

/-- A reset never finds a framer stuck. -/
theorem HostEndpoint.Live.reframed (live : host.Live) {channel : HostChannel}
    (member : channel ∈ host.channels) {framer : StreamFramer}
    (framing : channel.framer = some framer) : (framer.reset {}).1 = .ok := by
  rw [(live.framed channel member framer framing).reset.1]

/-- Every call leaves a live host. -/
theorem HostEndpoint.Live.step (live : host.Live) (ran : host.call call = some (outcome, next)) :
    next.Live := by
  obtain ⟨_, _, again, follows⟩ := call_ends live.valid call
  rw [ran] at again
  cases again
  refine ⟨follows.valid live.valid, ?_⟩
  rw [follows.state]
  cases call_stepped ran with
  | quiet unreset => exact live.framed
  | renewed request resolved fresh reframed =>
    obtain ⟨found, -⟩ := HostEndpoint.resolve_found resolved
    refine withChannel_framed live.framed (fun framer has => ?_) _
    obtain ⟨old, framing, rfl⟩ := Option.map_eq_some_iff.mp has
    have reset := (live.framed _ (List.mem_of_getElem? found) old framing).reset
    rw [reset.1]
    exact reset.2
  | stuck request resolved framing failed =>
    obtain ⟨found, -⟩ := HostEndpoint.resolve_found resolved
    exact absurd (live.reframed (List.mem_of_getElem? found) framing) failed
  | worked request free resolved bound working works =>
    obtain ⟨found, -⟩ := HostEndpoint.resolve_found resolved
    exact withChannel_framed live.framed
      (works.framed (live.framed _ (List.mem_of_getElem? found))) _

end

/-! ### Creation -/

section

variable {host : HostEndpoint} {specs : List HostBindingSpec}

/-- A host that compiling and creating one after the other yields is created. -/
theorem HostEndpoint.Created.of_option {environment : Environment} {limit : Nat}
    {jsonBytes : List UInt8} {sizes : HostSizes} {allocator : HostAllocator} {scope : Nat}
    {limits : HostLimits}
    (made : ((compileJsonToPlanWithMetadata environment limit jsonBytes).toOption.bind fun state =>
      (createHostEndpoint sizes allocator scope (some state) specs limits).bind (·.host)) =
        some host) : host.Created specs := by
  obtain ⟨state, compiled, creating⟩ := Option.bind_eq_some_iff.mp made
  obtain ⟨result, creates, has⟩ := Option.bind_eq_some_iff.mp creating
  cases run : compileJsonToPlanWithMetadata environment limit jsonBytes with
  | error diagnostic =>
    rw [run] at compiled
    cases compiled
  | ok other =>
    rw [run] at compiled
    obtain rfl : other = state := Option.some.inj compiled
    exact ⟨run, creates, has⟩

/-- The framers of a created host are new. -/
theorem HostEndpoint.Created.framer (created : host.Created specs) {channel : HostChannel}
    (member : channel ∈ host.channels) {framer : StreamFramer}
    (has : channel.framer = some framer) :
    framer.state = host.state ∧ ∃ framing limits,
      streamFraming framer.state.plan framer.pipelineIndex = some framing ∧ framing.StreamValid ∧
        framer.workspace = .fresh framer.state.plan framer.pipelineIndex framing limits := by
  obtain ⟨compiled, creates, made⟩ := created
  obtain ⟨document, parsed, budgeted, origin⟩ := compiledFrom_of_run compiled
  obtain ⟨opened, -⟩ := createHostEndpoint_opened creates made
  obtain ⟨rfl, admitted, apart, laid⟩ := opened
  obtain ⟨_, spec, _, -, -, openedChannel⟩ := laid.channel member
  have framed := openedChannel.framer
  split at framed
  · obtain ⟨allocation, other, held, creates⟩ := framed
    obtain rfl := Option.some.inj (has.symm.trans held)
    obtain ⟨same, place, workspace⟩ := createStreamFramer_framer creates
    obtain ⟨-, framing, limits, bound, -, -, -, fresh⟩ :=
      createStreamFramingWorkspace_workspace workspace
    rw [same, place]
    exact ⟨rfl, framing, limits, bound, streamValid_of_streamFraming origin.frozenFrom bound, fresh⟩
  · rw [has] at framed
    cases framed

/-- A created host is live. -/
theorem HostEndpoint.Created.live (created : host.Created specs) : host.Live := by
  refine ⟨?_, fun channel member framer has => ?_⟩
  · obtain ⟨compiled, creates, made⟩ := created
    obtain ⟨document, parsed, budgeted, origin⟩ := compiledFrom_of_run compiled
    obtain ⟨opened, -⟩ := createHostEndpoint_opened creates made
    exact opened.valid (planValid_of_freeze origin.frozen) (planCounted_of_frozen origin.frozenFrom)
  · obtain ⟨same, framing, limits, bound, valid, fresh⟩ := created.framer member has
    rw [same] at bound fresh
    refine ⟨same, framing, limits, bound, valid, ?_⟩
    rw [fresh]
    exact .start

/-- The channels of a created host start in the first generation, without a fault. -/
theorem HostEndpoint.Created.starts (created : host.Created specs) :
    ∀ channel ∈ host.channels, channel.generation = 1 ∧ channel.faulted = false := by
  obtain ⟨compiled, creates, made⟩ := created
  obtain ⟨opened, -⟩ := createHostEndpoint_opened creates made
  intro channel member
  obtain ⟨_, spec, _, -, -, openedChannel⟩ := opened.laid.channel member
  exact ⟨openedChannel.generation, openedChannel.working⟩

end

end ProtocolAdapter.PublicApi
