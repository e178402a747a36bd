/-
This file shows that the channels of a host are separate. A call on a channel reads and writes
that channel alone, so the calls that do not name another channel have in any run the outcomes
they have without the others.
-/

import ProtocolAdapter.PublicApi.HostSupervision

namespace ProtocolAdapter.PublicApi

open Foundation Description

/-! ### Hosts that agree on a channel -/

/-- Two hosts that a call on the channel at an index cannot tell apart. -/
structure HostEndpoint.Alike (index : Nat) (host other : HostEndpoint) : Prop where
  scope : host.scope = other.scope
  bindings : host.bindings = other.bindings
  channel : host.channels[index]? = other.channels[index]?

/-- A host with the channel at an index as another host has it. -/
def HostEndpoint.taking (host : HostEndpoint) (index : Nat) (source : HostEndpoint) :
    HostEndpoint :=
  match source.channels[index]? with
  | none => host
  | some channel => host.withChannel index channel

section

variable {index : Nat} {host other : HostEndpoint}

theorem withChannel_self {channel : HostChannel} (found : host.channels[index]? = some channel) :
    host.withChannel index channel = host := by
  unfold HostEndpoint.withChannel
  obtain ⟨inside, same⟩ := List.getElem?_eq_some_iff.mp found
  rw [← same, List.set_getElem_self]

theorem HostEndpoint.Alike.taking (alike : host.Alike index other) :
    other.taking index host = other := by
  unfold HostEndpoint.taking
  split
  · rfl
  · exact withChannel_self (alike.channel.symm.trans ‹_›)

theorem taking_withChannel (other : HostEndpoint) {channel renewed : HostChannel}
    (found : host.channels[index]? = some channel) :
    other.taking index (host.withChannel index renewed) = other.withChannel index renewed := by
  unfold HostEndpoint.taking
  have set : (host.withChannel index renewed).channels[index]? = some renewed :=
    List.getElem?_set_self (List.getElem?_eq_some_iff.mp found).1
  rw [set]

/-- Hosts that are alike resolve the handles of the channel alike. -/
theorem HostEndpoint.Alike.resolve (alike : host.Alike index other) (alive : Nat → Bool)
    {handle : HostChannelHandle} (names : handle.channelIndex = index) :
    other.resolve alive handle = host.resolve alive handle := by
  unfold HostEndpoint.resolve
  rw [names, alike.scope, alike.channel]

end

section

variable {σ : Type} {index : Nat} {host other : HostEndpoint}

/-- An operation as it ends for a host that is alike. -/
def OperationEnd.moved (index : Nat) (other : HostEndpoint) (done : OperationEnd σ) :
    OperationEnd σ :=
  { done with host := other.taking index done.host }

theorem refuse_moved (alike : host.Alike index other) (result : HostOperationResult)
    (status : HostStatus) (memory : σ) :
    (host.refuse result status memory).moved index other = other.refuse result status memory := by
  unfold OperationEnd.moved HostEndpoint.refuse
  rw [alike.taking]

theorem finish_moved {channel : HostChannel} (found : host.channels[index]? = some channel)
    (attempt : HostAttempt σ) :
    (host.finish index attempt).moved index other = other.finish index attempt := by
  unfold OperationEnd.moved HostEndpoint.finish
  dsimp only
  rw [taking_withChannel other found]

/-! ### Operations -/

variable (alike : host.Alike index other) (context : CallContext) {handle : HostChannelHandle}
  (names : handle.channelIndex = index)

include alike names

theorem decode_moved (frame : ByteView) (callbacks : HostCallbacks σ) (memory : σ) :
    other.decode context handle frame callbacks memory =
      (host.decode context handle frame callbacks memory).map (·.moved index other) := by
  have refused := fun result status => congrArg some (refuse_moved alike result status memory).symm
  unfold HostEndpoint.decode
  rw [alike.resolve context.alive names, ← alike.bindings, alike.scope]
  cases context.refusal other.scope with
  | some status => exact refused _ _
  | none =>
    dsimp only
    cases resolved : host.resolve context.alive handle with
    | error status => exact refused _ _
    | ok found =>
      obtain ⟨place, channel⟩ := found
      obtain ⟨held, same, -⟩ := HostEndpoint.resolve_found resolved
      obtain rfl := same.trans names
      dsimp only
      cases host.bindings[channel.bindingIndex]? with
      | none => rfl
      | some binding =>
        dsimp only [Option.bind_eq_bind, Option.bind_some]
        by_cases action : binding.action ≠ .decode
        · rw [if_pos action, if_pos action]
          exact refused _ _
        rw [if_neg action, if_neg action]
        by_cases stream : channel.framer.isSome = true
        · rw [if_pos stream, if_pos stream]
          exact refused _ _
        rw [if_neg stream, if_neg stream]
        cases callbacks.sink with
        | none => exact refused _ _
        | some sink =>
          dsimp only
          by_cases absent : frame.data = none ∧ frame.size ≠ 0
          · rw [if_pos absent, if_pos absent]
            exact refused _ _
          rw [if_neg absent, if_neg absent]
          by_cases faulted : channel.faulted = true
          · rw [if_pos faulted, if_pos faulted]
            exact refused _ _
          rw [if_neg faulted, if_neg faulted]
          cases decodeCandidate (callbackScope other.scope context.scopes) sink
              callbacks.observer place binding.pipelineIndex frame
              { channel := channel
                result := { generation := channel.generation, status := .ok }
                memory := memory } with
          | none => rfl
          | some ran => exact congrArg some (finish_moved held _).symm

theorem push_moved (input : ByteView) (callbacks : HostCallbacks σ) (memory : σ) :
    other.push context handle input callbacks memory =
      (host.push context handle input callbacks memory).map (·.moved index other) := by
  have refused := fun result status => congrArg some (refuse_moved alike result status memory).symm
  unfold HostEndpoint.push
  rw [alike.resolve context.alive names, ← alike.bindings, alike.scope]
  cases context.refusal other.scope with
  | some status => exact refused _ _
  | none =>
    dsimp only
    cases resolved : host.resolve context.alive handle with
    | error status => exact refused _ _
    | ok found =>
      obtain ⟨place, channel⟩ := found
      obtain ⟨held, same, -⟩ := HostEndpoint.resolve_found resolved
      obtain rfl := same.trans names
      dsimp only
      cases host.bindings[channel.bindingIndex]? with
      | none => rfl
      | some binding =>
        dsimp only [Option.bind_eq_bind, Option.bind_some]
        by_cases action : binding.action ≠ .decode
        · rw [if_pos action, if_pos action]
          exact refused _ _
        rw [if_neg action, if_neg action]
        cases channel.framer with
        | none => exact refused _ _
        | some framer =>
          dsimp only
          cases callbacks.sink with
          | none => exact refused _ _
          | some sink =>
            dsimp only
            by_cases absent : input.data = none ∧ input.size ≠ 0
            · rw [if_pos absent, if_pos absent]
              exact refused _ _
            rw [if_neg absent, if_neg absent]
            by_cases faulted : channel.faulted = true
            · rw [if_pos faulted, if_pos faulted]
              exact refused _ _
            rw [if_neg faulted, if_neg faulted]
            cases pushChannel (callbackScope other.scope context.scopes) sink
                callbacks.observer place binding.pipelineIndex framer input
                { channel := channel
                  result :=
                    { generation := channel.generation, status := .ok, framingAttempted := true }
                  memory := memory } with
            | none => rfl
            | some attempt => exact congrArg some (finish_moved held attempt).symm

theorem encode_moved (messageIndex : Nat) (values : EncodeValues)
    (sink : Option (HostCallback σ HostOutputView)) (memory : σ) :
    other.encode context handle messageIndex values sink memory =
      (host.encode context handle messageIndex values sink memory).map (·.moved index other) := by
  have refused := fun result status => congrArg some (refuse_moved alike result status memory).symm
  unfold HostEndpoint.encode
  rw [alike.resolve context.alive names, ← alike.bindings, alike.scope]
  cases context.refusal other.scope with
  | some status => exact refused _ _
  | none =>
    dsimp only
    cases resolved : host.resolve context.alive handle with
    | error status => exact refused _ _
    | ok found =>
      obtain ⟨place, channel⟩ := found
      obtain ⟨held, same, -⟩ := HostEndpoint.resolve_found resolved
      obtain rfl := same.trans names
      dsimp only
      cases host.bindings[channel.bindingIndex]? with
      | none => rfl
      | some binding =>
        dsimp only [Option.bind_eq_bind, Option.bind_some]
        by_cases action : binding.action ≠ .encode
        · rw [if_pos action, if_pos action]
          exact refused _ _
        rw [if_neg action, if_neg action]
        by_cases faulted : channel.faulted = true
        · rw [if_pos faulted, if_pos faulted]
          exact refused _ _
        rw [if_neg faulted, if_neg faulted]
        by_cases foreign : binding.encodeMessageIndices.contains messageIndex = false
        · rw [if_pos foreign, if_pos foreign]
          exact refused _ _
        rw [if_neg foreign, if_neg foreign]
        cases sink with
        | none => exact refused _ _
        | some sink =>
          dsimp only
          by_cases absent : values.data = none ∧ values.values.length ≠ 0
          · rw [if_pos absent, if_pos absent]
            exact refused _ _
          rw [if_neg absent, if_neg absent]
          unfold encodeChannel
          cases channel.codec.encode false binding.pipelineIndex messageIndex values
              channel.encodeBuffer with
          | none => rfl
          | some encoded =>
            dsimp only [Option.bind_eq_bind, Option.bind_some]
            by_cases failed : encoded.result.status ≠ .ok
            · rw [if_pos failed, if_pos failed]
              refine congrArg some ?_
              unfold OperationEnd.moved
              dsimp only
              rw [taking_withChannel other held]
            · rw [if_neg failed, if_neg failed]
              refine congrArg some ?_
              unfold OperationEnd.moved HostEndpoint.finish
              dsimp only
              rw [taking_withChannel other held]

theorem observe_moved : other.observe context handle = host.observe context handle := by
  unfold HostEndpoint.observe
  rw [alike.resolve context.alive names, ← alike.bindings, alike.scope]

theorem reset_moved :
    other.reset context handle =
      ((host.reset context handle).1, other.taking index (host.reset context handle).2) := by
  have refused : ∀ status : HostStatus,
      (status, other) = ((status, host).1, other.taking index (status, host).2) :=
    fun status => Prod.ext rfl alike.taking.symm
  unfold HostEndpoint.reset
  rw [alike.resolve context.alive names, alike.scope]
  cases context.refusal other.scope with
  | some status => exact refused status
  | none =>
    dsimp only
    cases resolved : host.resolve context.alive handle with
    | error status => exact refused status
    | ok found =>
      obtain ⟨place, channel⟩ := found
      obtain ⟨held, same, -⟩ := HostEndpoint.resolve_found resolved
      obtain rfl := same.trans names
      dsimp only
      by_cases exhausted : channel.generation = maxUint64
      · rw [if_pos exhausted, if_pos exhausted]
        exact refused _
      rw [if_neg exhausted, if_neg exhausted]
      cases channel.framer with
      | none => exact Prod.ext rfl (taking_withChannel other held).symm
      | some framer =>
        dsimp only
        cases framer.reset {} with
        | mk status after =>
          cases status <;> exact Prod.ext rfl (taking_withChannel other held).symm

omit names in
theorem find_moved (context : CallContext) (endpointKey : List UInt8) (action : HostAction)
    (decodeStreamIndex : Nat)
    (sought : ∀ binding, host.bindings.find? (fun binding =>
      binding.endpoint == endpointKey && binding.action == action) = some binding →
        binding.firstChannel + decodeStreamIndex = index) :
    other.find context endpointKey action decodeStreamIndex =
      host.find context endpointKey action decodeStreamIndex := by
  unfold HostEndpoint.find
  rw [← alike.bindings, alike.scope]
  cases found : host.bindings.find? (fun binding =>
      binding.endpoint == endpointKey && binding.action == action) with
  | none => rfl
  | some binding =>
    dsimp only
    rw [sought binding found, alike.channel]

end

/-! ### Calls -/

/-- The channel a request is about: the one its handle names, or the one it looks for. -/
def HostRequest.channel (bindings : List HostBinding) : HostRequest → Option Nat
  | .find endpointKey action decodeStreamIndex =>
    (bindings.find? fun binding =>
      binding.endpoint == endpointKey && binding.action == action).map
        fun binding => binding.firstChannel + decodeStreamIndex
  | .observe handle | .reset handle | .decode handle _ | .push handle _ | .continue handle
  | .encode handle _ _ => some handle.channelIndex

/-- Whether a request is about no other channel. -/
def HostRequest.concerns (bindings : List HostBinding) (index : Nat) (request : HostRequest) :
    Bool :=
  (request.channel bindings).all (· == index)

section

variable {σ : Type} {index : Nat} {host other next : HostEndpoint} {call : HostCall σ}
  {outcome : HostOutcome σ}

/-- A call that concerns a channel cannot tell hosts apart that are alike. -/
theorem call_moved (alike : host.Alike index other)
    (concerned : call.request.concerns host.bindings index = true) :
    other.call call =
      (host.call call).map fun ended => (ended.1, other.taking index ended.2) := by
  have operation : ∀ {one another : Access (OperationEnd σ)},
      one = another.map (·.moved index other) → one.map (·.outcome) =
        (another.map (·.outcome)).map fun ended => (ended.1, other.taking index ended.2) := by
    intro one another moved
    rw [moved, Option.map_map, Option.map_map]
    rfl
  obtain ⟨request, callbacks, memory, context⟩ := call
  unfold HostRequest.concerns at concerned
  unfold HostEndpoint.call
  cases request with
  | find endpointKey action decodeStreamIndex =>
    dsimp only
    rw [find_moved alike, Option.map_map]
    · cases host.find context endpointKey action decodeStreamIndex with
      | none => rfl
      | some result => exact congrArg some (Prod.ext rfl alike.taking.symm)
    · intro binding found
      simpa [HostRequest.channel, found] using concerned
  | observe handle =>
    dsimp only
    rw [observe_moved alike context (by simpa [HostRequest.channel] using concerned),
      Option.map_map]
    cases host.observe context handle with
    | none => rfl
    | some observed => exact congrArg some (Prod.ext rfl alike.taking.symm)
  | reset handle =>
    dsimp only
    rw [reset_moved alike context (by simpa [HostRequest.channel] using concerned)]
    rfl
  | decode handle frame =>
    exact operation (decode_moved alike context (by simpa [HostRequest.channel] using concerned) ..)
  | push handle input =>
    exact operation (push_moved alike context (by simpa [HostRequest.channel] using concerned) ..)
  | «continue» handle =>
    exact operation (push_moved alike context (by simpa [HostRequest.channel] using concerned) ..)
  | encode handle messageIndex values =>
    exact operation (encode_moved alike context (by simpa [HostRequest.channel] using concerned) ..)

/-- A call keeps what the channels of a host share. -/
theorem call_keeps (ran : host.call call = some (outcome, next)) :
    next.scope = host.scope ∧ next.bindings = host.bindings ∧
      next.channels.length = host.channels.length := by
  cases call_stepped ran with
  | quiet => exact ⟨rfl, rfl, rfl⟩
  | renewed => exact ⟨rfl, rfl, List.length_set⟩
  | stuck => exact ⟨rfl, rfl, List.length_set⟩
  | worked => exact ⟨rfl, rfl, List.length_set⟩

theorem HostRequest.handle_channel {request : HostRequest} {handle : HostChannelHandle}
    (names : request.handle = some handle) (bindings : List HostBinding) :
    request.channel bindings = some handle.channelIndex := by
  cases request with
  | find => cases names
  | _ => exact congrArg (some ·.channelIndex) (Option.some.inj names)

/-- A call about another channel leaves a channel as it is. -/
theorem call_leaves (apart : call.request.concerns host.bindings index = false)
    (ran : host.call call = some (outcome, next)) :
    next.channels[index]? = host.channels[index]? := by
  have elsewhere : ∀ {handle : HostChannelHandle} {place : Nat} {channel : HostChannel},
      call.request.handle = some handle →
      host.resolve call.context.alive handle = .ok (place, channel) → place ≠ index := by
    rintro handle place channel names resolved rfl
    obtain ⟨-, rfl, -⟩ := HostEndpoint.resolve_found resolved
    simp [HostRequest.concerns, HostRequest.handle_channel names] at apart
  cases call_stepped ran with
  | quiet => rfl
  | renewed request resolved =>
    exact List.getElem?_set_ne (elsewhere (by rw [request]; rfl) resolved)
  | stuck request resolved =>
    exact List.getElem?_set_ne (elsewhere (by rw [request]; rfl) resolved)
  | worked names free resolved => exact List.getElem?_set_ne (elsewhere names resolved)

/-- Hosts that are alike are alike after a call that concerns the channel. -/
theorem HostEndpoint.Alike.after (alike : host.Alike index other)
    (ran : host.call call = some (outcome, next)) : next.Alike index (other.taking index next) := by
  obtain ⟨scope, bindings, count⟩ := call_keeps ran
  unfold HostEndpoint.taking
  cases held : next.channels[index]? with
  | none =>
    refine ⟨scope.trans alike.scope, bindings.trans alike.bindings, ?_⟩
    rw [held, ← alike.channel, eq_comm, List.getElem?_eq_none_iff, ← count]
    exact List.getElem?_eq_none_iff.mp held
  | some channel =>
    refine ⟨scope.trans alike.scope, bindings.trans alike.bindings, ?_⟩
    have inside := (List.getElem?_eq_some_iff.mp held).1
    rw [count] at inside
    have among := (List.getElem?_eq_some_iff.mp
      (alike.channel.symm.trans (List.getElem?_eq_getElem inside))).1
    exact held.trans (List.getElem?_set_self among).symm

/-- Every channel is separate from the calls about other channels. -/
theorem channel_separates (scope : Nat) (bindings : List HostBinding) (index : Nat) :
    Separates (HostEndpoint.call (σ := σ))
      (fun host => host.scope = scope ∧ host.bindings = bindings)
      (fun call => call.request.concerns bindings index)
      (fun host => host.channels[index]?) where
  keeps := by
    rintro state next call outcome ⟨rfl, rfl⟩ ran
    obtain ⟨scope, bindings, -⟩ := call_keeps ran
    exact ⟨scope, bindings⟩
  leaves := by
    rintro state next call outcome ⟨rfl, rfl⟩ apart ran
    exact call_leaves apart ran
  reads := by
    rintro state other next call outcome ⟨rfl, rfl⟩ ⟨scope, bindings⟩ concerned same ran
    have alike : state.Alike index other := ⟨scope.symm, bindings.symm, same⟩
    refine ⟨_, ?_, (alike.after ran).channel⟩
    rw [call_moved alike concerned, ran]
    rfl

end

/-! ### Runs -/

section

variable {σ : Type} {host last : HostEndpoint}

/-- The events of a trace that are about no other channel are the trace of their calls. -/
theorem isolated_trace {events : List (HostCall σ × HostOutcome σ)}
    (trace : Trace HostEndpoint.call host events last) (index : Nat) :
    ∃ final,
      host.run ((events.filter fun event =>
        event.1.request.concerns host.bindings index).map Prod.fst) =
          some ((events.filter fun event =>
            event.1.request.concerns host.bindings index).map Prod.snd, final) ∧
      last.channels[index]? = final.channels[index]? := by
  obtain ⟨final, alone, same⟩ := (channel_separates host.scope host.bindings index).project
    trace ⟨rfl, rfl⟩ ⟨rfl, rfl⟩ rfl
  refine ⟨final, ?_, same⟩
  rw [HostEndpoint.run_eq]
  exact alone.run

/-- The calls that are about no other channel have in a run the replies and the callbacks they
have when the others are left out, and leave the same channel. -/
theorem channel_isolated {calls : List (HostCall σ)} {outcomes : List (HostOutcome σ)}
    (run : host.run calls = some (outcomes, last)) (index : Nat) :
    ∃ final,
      host.run (calls.filter fun call => call.request.concerns host.bindings index) =
        some (((calls.zip outcomes).filter fun event =>
          event.1.request.concerns host.bindings index).map Prod.snd, final) ∧
      last.channels[index]? = final.channels[index]? := by
  have length : outcomes.length = calls.length := by
    rw [HostEndpoint.run_eq] at run
    exact (Machine.run_trace run).1
  obtain ⟨final, alone, same⟩ := isolated_trace (run_trace run) index
  refine ⟨final, ?_, same⟩
  rw [← alone]
  congr 1
  conv_lhs => rw [← List.map_fst_zip (Nat.le_of_eq length.symm), List.filter_map]
  rfl

/-- A record on the second channel does not show in what the first one answers. -/
theorem channel_isolated_ping : ∃ (host last final : HostEndpoint)
    (fault other reset : HostOutcome Unit),
    host.Created pingSpecs ∧
    host.run [pingFault, pingOther, pingReset] = some ([fault, other, reset], last) ∧
    host.run [pingFault, pingReset] = some ([fault, reset], final) ∧
    last.channels[0]? = final.channels[0]? := by
  obtain ⟨host, created, -, -, -, -, -, facts⟩ := ping_created
  obtain ⟨⟨outcomes, last⟩, run, -⟩ := Option.map_eq_some_iff.mp facts
  obtain ⟨final, alone, same⟩ := channel_isolated run 0
  have length := (Machine.run_trace ((HostEndpoint.run_eq _ host).symm.trans run)).1
  obtain ⟨fault, other, reset, rfl⟩ := List.length_eq_three.mp length
  exact ⟨host, last, final, fault, other, reset, created, run, alone, same⟩

end

end ProtocolAdapter.PublicApi
